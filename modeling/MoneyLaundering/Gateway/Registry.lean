import MoneyLaundering.Collections.Dict
import MoneyLaundering.Collections.EventRuns
import MoneyLaundering.Messages.Ids

/-!
# The registry of the clients and the reaper

The gateway has one registry of its clients (`gateway/internal/client_registry.py`). A session of a
client marks the client as connected when it begins and as not connected when its handler notices
the end. The reaper (`gateway/internal/reaper.py`) reads, from time to time, which clients have not
been connected for long; it has each of them cleaned up in the whole pipeline, deletes its results
queue, and removes it from the registry.

The registry keeps one flag for all sessions of a client, and the reaper does not look again at the
clients it has read. So a session is not safe if an older session of its client ends after it began
(`late_disconnect`), nor if it begins while the reaper is at work on its client. Otherwise it is,
and these two conditions are exact: `sessions_spared_iff`.
-/

namespace MoneyLaundering

open EventRuns

/-- What the registry has of a client. Times are those of `time.time()`, which may go back. -/
structure ClientState where
  timestamp : ℤ
  connected : Bool
  deriving DecidableEq, Repr

/-- The clients, and what was last written to `gateway_clients.json`. -/
structure ClientRegistry where
  states : Dict ClientId ClientState
  /-- Nothing if there is no state directory. -/
  store : Option (List (ClientId × ℤ))

namespace ClientRegistry

variable (r : ClientRegistry) (client : ClientId) (now : ℤ)

/-- `_persist_locked`. -/
def persist : ClientRegistry :=
  { r with store := r.store.map fun _ ↦ r.states.items.map fun p ↦ (p.1, p.2.timestamp) }

def connect : ClientRegistry := { r with states := r.states.set client ⟨now, true⟩ }.persist

def touch : ClientRegistry :=
  match r.states.get client with
  | none => r
  | some state => { r with states := r.states.set client { state with timestamp := now } }

def disconnect : ClientRegistry :=
  match r.states.get client with
  | none => r
  | some _ => { r with states := r.states.set client ⟨now, false⟩ }.persist

def remove : ClientRegistry := { r with states := r.states.erase client }.persist

def deadClients (timeout : ℤ) : List ClientId :=
  (r.states.items.filter fun p ↦ !p.2.connected && timeout < now - p.2.timestamp).map Prod.fst

/-- `load`, into an empty registry. -/
def load : ClientRegistry where
  states := (r.store.getD []).foldl (fun states p ↦ states.set p.1 ⟨now, false⟩) Dict.empty
  store := r.store

variable {r client now} {client' : ClientId}

@[simp] theorem states_persist : r.persist.states = r.states := rfl

@[simp] theorem get_connect : (r.connect client now).states.get client'
    = if client = client' then some ⟨now, true⟩ else r.states.get client' :=
  Dict.get_set _ _ _ _

theorem get_touch : (r.touch client now).states.get client'
    = if client = client' then (r.states.get client).map fun state ↦ { state with timestamp := now }
      else r.states.get client' := by
  rw [touch]
  rcases hstate : r.states.get client with _ | state
  · by_cases heq : client = client'
    · rw [if_pos heq, ← heq]
      exact hstate
    · rw [if_neg heq]
  · exact Dict.get_set _ _ _ _

theorem get_disconnect : (r.disconnect client now).states.get client'
    = if client = client' then (r.states.get client).map fun _ ↦ ⟨now, false⟩
      else r.states.get client' := by
  rw [disconnect]
  rcases hstate : r.states.get client with _ | state
  · by_cases heq : client = client'
    · rw [if_pos heq, ← heq]
      exact hstate
    · rw [if_neg heq]
  · exact Dict.get_set _ _ _ _

@[simp] theorem get_remove : (r.remove client).states.get client'
    = if client = client' then none else r.states.get client' :=
  Dict.get_erase _ _ _

/-- Who is reported: the clients that are not connected, and have not been for some time. -/
theorem mem_deadClients {timeout : ℤ} : client ∈ r.deadClients now timeout ↔
    ∃ state, r.states.get client = some state ∧ state.connected = false ∧
      timeout < now - state.timestamp := by
  simp only [deadClients, List.mem_map, List.mem_filter, Bool.and_eq_true, Bool.not_eq_true',
    decide_eq_true_eq, Dict.get_eq_some]
  constructor
  · rintro ⟨⟨client, state⟩, ⟨hmem, hstate⟩, rfl⟩
    exact ⟨state, hmem, hstate⟩
  · rintro ⟨state, hmem, hstate⟩
    exact ⟨(client, state), ⟨hmem, hstate⟩, rfl⟩

end ClientRegistry

/-- Where the reaper is in `_run`. -/
inductive Reaper
  | waiting
  /-- It has persisted the registry. -/
  | persisted
  /-- It is before the next of the clients it has read. -/
  | listed (clients : List ClientId)
  /-- The cleanup of `client` is sent, its results queue is not deleted yet. -/
  | forwarded (client : ClientId) (clients : List ClientId)
  | deleted (client : ClientId) (clients : List ClientId)
  deriving DecidableEq, Repr

/-- The clients that the reaper will have removed at the end of its cycle. -/
def Reaper.clients : Reaper → List ClientId
  | waiting | persisted => []
  | listed clients => clients
  | forwarded client clients | deleted client clients => client :: clients

/-- A gateway: the registry, the sessions that have begun and whose handler has not noticed the end
yet, and the reaper. -/
structure Gateway where
  registry : ClientRegistry
  sessions : List (ℕ × ClientId)
  reaper : Reaper

namespace Gateway

/-- What happens at a gateway. Each step reads the clock. -/
inductive Event
  /-- A session begins. -/
  | connect (session : ℕ) (client : ClientId) (now : ℤ)
  | touch (session : ℕ) (now : ℤ)
  /-- The handler of a session notices its end. -/
  | disconnect (session : ℕ) (now : ℤ)
  | reaper (now : ℤ)
  /-- A step of the reaper raises, which ends its cycle. -/
  | reaperFails
  /-- The gateway is killed, with all its sessions, and starts again. -/
  | restart (now : ℤ)
  deriving DecidableEq, Repr

def init (stateDir : Bool) : Gateway where
  registry := ⟨Dict.empty, if stateDir then some [] else none⟩
  sessions := []
  reaper := .waiting

/-- The client of a session. -/
def clientOf (s : Gateway) (session : ℕ) : Option ClientId := s.sessions.lookup session

/-- One step of the reaper. -/
def reap (timeout now : ℤ) (s : Gateway) : Gateway :=
  match s.reaper with
  | .waiting => { s with registry := s.registry.persist, reaper := .persisted }
  | .persisted => { s with reaper := .listed (s.registry.deadClients now timeout) }
  | .listed [] => { s with reaper := .waiting }
  | .listed (client :: clients) => { s with reaper := .forwarded client clients }
  | .forwarded client clients => { s with reaper := .deleted client clients }
  | .deleted client clients =>
    { s with registry := s.registry.remove client, reaper := .listed clients }

def step (timeout : ℤ) (s : Gateway) : Event → Gateway
  | .connect session client now =>
    { s with
      registry := s.registry.connect client now
      sessions := (session, client) :: s.sessions }
  | .touch session now =>
    match s.clientOf session with
    | none => s
    | some client => { s with registry := s.registry.touch client now }
  | .disconnect session now =>
    match s.clientOf session with
    | none => s
    | some client =>
      { s with
        registry := s.registry.disconnect client now
        sessions := s.sessions.filter fun p ↦ p.1 ≠ session }
  | .reaper now => s.reap timeout now
  | .reaperFails => { s with reaper := .waiting }
  | .restart now => { registry := s.registry.load now, sessions := [], reaper := .waiting }

/-- A session that begins is a new one. -/
def Enabled (s : Gateway) : Event → Prop
  | .connect session _ _ => session ∉ s.sessions.map Prod.fst
  | _ => True

instance (s : Gateway) : DecidablePred s.Enabled
  | .connect session _ _ => inferInstanceAs (Decidable (session ∉ s.sessions.map Prod.fst))
  | .touch _ _ | .disconnect _ _ | .reaper _ | .reaperFails | .restart _ => isTrue trivial

/-- A session of the client is open. -/
def Live (s : Gateway) (client : ClientId) : Prop := client ∈ s.sessions.map Prod.snd

instance (s : Gateway) (client : ClientId) : Decidable (s.Live client) :=
  inferInstanceAs (Decidable (client ∈ s.sessions.map Prod.snd))

/-! ## What is claimed -/

/-- A client with an open session has an entry. -/
def Registered (s : Gateway) : Prop :=
  ∀ client, s.Live client → (s.registry.states.get client).isSome = true

/-- The step neither reports a client with an open session nor has it cleaned up. -/
def Spares (timeout : ℤ) (s : Gateway) : Event → Prop
  | .reaper now =>
    match s.reaper with
    | .persisted => ∀ client ∈ s.registry.deadClients now timeout, ¬s.Live client
    | .listed (client :: _) => ¬s.Live client
    | _ => True
  | _ => True

/-- **The reaper is safe in a run.** -/
structure Safe (timeout : ℤ) (s : Gateway) (events : List Event) : Prop where
  registered : Throughout (step timeout) Registered s events
  spares : Runs (step timeout) (Spares timeout) s events

/-- A session does not end while another one of its client is open, and none begins while the reaper
is at work on its client. -/
def Settled (s : Gateway) : Event → Prop
  | .connect _ client _ => client ∉ s.reaper.clients
  | .disconnect session _ => ∀ client, s.clientOf session = some client →
    client ∉ (s.sessions.filter fun p ↦ p.1 ≠ session).map Prod.snd
  | _ => True

/-! ## Settled runs are safe -/

/-- What holds at each point of a settled run. -/
structure Sheltered (s : Gateway) : Prop where
  connected : ∀ client, s.Live client →
    ∃ timestamp, s.registry.states.get client = some ⟨timestamp, true⟩
  spared : ∀ client ∈ s.reaper.clients, ¬s.Live client

variable {timeout : ℤ} {s : Gateway} {events : List Event}

theorem sheltered_init (stateDir : Bool) : Sheltered (init stateDir) where
  connected _ hlive := absurd hlive List.not_mem_nil
  spared _ hmem := absurd hmem List.not_mem_nil

namespace Sheltered

theorem registered (h : s.Sheltered) : s.Registered := fun client hlive ↦ by
  obtain ⟨timestamp, hstate⟩ := h.connected client hlive
  rw [hstate]
  rfl

theorem not_live_of_mem_deadClients (h : s.Sheltered) {now : ℤ} :
    ∀ client ∈ s.registry.deadClients now timeout, ¬s.Live client := by
  intro client hmem hlive
  obtain ⟨state, hstate, hconnected, -⟩ := ClientRegistry.mem_deadClients.mp hmem
  obtain ⟨timestamp, hstate'⟩ := h.connected client hlive
  obtain rfl := Option.some.inj (hstate.symm.trans hstate')
  exact absurd hconnected (by simp)

theorem spares (h : s.Sheltered) (event : Event) : s.Spares timeout event := by
  match event with
  | .reaper now =>
    rw [Spares]
    split
    · exact h.not_live_of_mem_deadClients
    · next client clients hreaper =>
      exact h.spared client (by rw [hreaper]; exact List.mem_cons_self)
    · trivial
  | .connect _ _ _ | .touch _ _ | .disconnect _ _ | .reaperFails | .restart _ => trivial

/-- The reaper removes only clients without a session. -/
theorem reap (h : s.Sheltered) (now : ℤ) : (s.reap timeout now).Sheltered := by
  obtain ⟨hconnected, hspared⟩ := h
  rw [Gateway.reap]
  split
  · exact ⟨hconnected, fun _ hmem ↦ absurd hmem List.not_mem_nil⟩
  · exact ⟨hconnected, not_live_of_mem_deadClients ⟨hconnected, hspared⟩⟩
  · exact ⟨hconnected, fun _ hmem ↦ absurd hmem List.not_mem_nil⟩
  · next client clients hreaper =>
    rw [hreaper] at hspared
    exact ⟨hconnected, hspared⟩
  · next client clients hreaper =>
    rw [hreaper] at hspared
    exact ⟨hconnected, hspared⟩
  · next client clients hreaper =>
    rw [hreaper] at hspared
    refine ⟨fun client' hlive ↦ ?_, fun client' hmem ↦ hspared client' (.tail _ hmem)⟩
    have hne : client ≠ client' := fun heq ↦ hspared client' (heq ▸ .head _) hlive
    rw [ClientRegistry.get_remove, if_neg hne]
    exact hconnected client' hlive

theorem step (h : s.Sheltered) {event : Event} (hsettled : s.Settled event) :
    (s.step timeout event).Sheltered := by
  match event with
  | .connect session client now =>
    refine ⟨fun client' hlive ↦ ?_, fun client' hmem hlive ↦ ?_⟩
    · change ∃ timestamp, (s.registry.connect client now).states.get client' = _
      rw [ClientRegistry.get_connect]
      by_cases heq : client = client'
      · exact ⟨now, if_pos heq⟩
      · rw [if_neg heq]
        exact h.connected client' ((List.mem_cons.mp hlive).resolve_left (Ne.symm heq))
    · rcases List.mem_cons.mp hlive with rfl | hlive
      · exact hsettled hmem
      · exact h.spared client' hmem hlive
  | .touch session now =>
    rw [Gateway.step]
    split
    · exact h
    · next client hclient =>
      refine ⟨fun client' hlive ↦ ?_, h.spared⟩
      change ∃ timestamp, (s.registry.touch client now).states.get client' = _
      rw [ClientRegistry.get_touch]
      by_cases heq : client = client'
      · obtain ⟨timestamp, hstate⟩ := h.connected client' hlive
        rw [if_pos heq, heq, hstate]
        exact ⟨now, rfl⟩
      · rw [if_neg heq]
        exact h.connected client' hlive
  | .disconnect session now =>
    rw [Gateway.step]
    split
    · exact h
    · next client hclient =>
      have hopen {client' : ClientId}
          (hlive : client' ∈ (s.sessions.filter fun p ↦ p.1 ≠ session).map Prod.snd) :
          s.Live client' := (List.filter_sublist.map _).subset hlive
      refine ⟨fun client' hlive ↦ ?_, fun client' hmem hlive ↦ h.spared client' hmem (hopen hlive)⟩
      -- the client of the session has no other one
      have hne : client ≠ client' := fun heq ↦ hsettled client hclient (heq ▸ hlive)
      change ∃ timestamp, (s.registry.disconnect client now).states.get client' = _
      rw [ClientRegistry.get_disconnect, if_neg hne]
      exact h.connected client' (hopen hlive)
  | .reaper now => exact h.reap now
  | .reaperFails => exact ⟨h.connected, fun _ hmem ↦ absurd hmem List.not_mem_nil⟩
  | .restart now =>
    exact ⟨fun _ hlive ↦ absurd hlive List.not_mem_nil, fun _ hmem ↦ absurd hmem List.not_mem_nil⟩

end Sheltered

/-- **A settled run is safe.** -/
theorem Sheltered.safe (h : s.Sheltered) (hsettled : Runs (Gateway.step timeout) Settled s events) :
    Safe timeout s events where
  registered := throughout_of_invariant (fun _ h ↦ h.registered)
    (fun _ _ h hsettled ↦ h.step hsettled) h hsettled
  spares := by
    induction events generalizing s with
    | nil => trivial
    | cons event events ih => exact ⟨h.spares event, ih (h.step hsettled.1) hsettled.2⟩

/-! ## Other runs are not -/

theorem Safe.tail {event : Event} (h : Safe timeout s (event :: events)) :
    Safe timeout (s.step timeout event) events :=
  ⟨h.registered.2, h.spares.2⟩

/-- Steps that the reaper makes by itself. -/
def Event.IsReaper : Event → Prop
  | .reaper _ | .reaperFails => True
  | _ => False

/-- The reaper can go on in such a way that the run is not safe. -/
def Endangered (timeout : ℤ) (s : Gateway) : Prop :=
  ∃ events, (∀ event ∈ events, event.IsReaper) ∧ ¬Safe timeout s events

theorem Endangered.of_step (event : Event) (hreaper : event.IsReaper)
    (h : (s.step timeout event).Endangered timeout) : s.Endangered timeout := by
  obtain ⟨events, hevents, hsafe⟩ := h
  exact ⟨event :: events, List.forall_mem_cons.mpr ⟨hreaper, hevents⟩, fun hs ↦ hsafe hs.tail⟩

theorem endangered_of_not_spares (event : Event) (hreaper : event.IsReaper)
    (h : ¬s.Spares timeout event) : s.Endangered timeout :=
  ⟨[event], List.forall_mem_singleton.mpr hreaper, fun hs ↦ h hs.spares.1⟩

theorem endangered_of_not_registered (h : ¬s.Registered) : s.Endangered timeout :=
  ⟨[], List.forall_mem_nil _, fun hs ↦ h hs.registered⟩

/-- The reaper comes to each of its clients. -/
theorem endangered_of_mem_clients {client : ClientId} (hlive : s.Live client)
    (hmem : client ∈ s.reaper.clients) : s.Endangered timeout := by
  obtain ⟨registry, sessions, reaper⟩ := s
  -- the steps that remove one client, from the one before which the reaper is
  have hremoved {registry : ClientRegistry} {next : ClientId} {clients : List ClientId}
      (hmem : client ∈ next :: clients)
      (hrest : client ∈ clients →
        Endangered timeout ⟨registry.remove next, sessions, .listed clients⟩) :
      Endangered timeout ⟨registry, sessions, .deleted next clients⟩ := by
    refine .of_step (.reaper 0) trivial ?_
    rcases List.mem_cons.mp hmem with rfl | hmem
    · refine endangered_of_not_registered fun hregistered ↦ ?_
      have hsome := hregistered client hlive
      change ((registry.remove client).states.get client).isSome = true at hsome
      rw [ClientRegistry.get_remove, if_pos rfl] at hsome
      exact absurd hsome (by simp)
    · exact hrest hmem
  have hlisted {clients : List ClientId} (hmem : client ∈ clients) {registry : ClientRegistry} :
      Endangered timeout ⟨registry, sessions, .listed clients⟩ := by
    induction clients generalizing registry with
    | nil => exact absurd hmem List.not_mem_nil
    | cons next clients ih =>
      refine .of_step (.reaper 0) trivial (.of_step (.reaper 0) trivial ?_)
      exact hremoved hmem fun hmem ↦ ih hmem
  match reaper with
  | .waiting | .persisted => exact absurd hmem List.not_mem_nil
  | .listed clients => exact hlisted hmem
  | .forwarded next clients =>
    exact .of_step (.reaper 0) trivial (hremoved hmem fun hmem ↦ hlisted hmem)
  | .deleted next clients => exact hremoved hmem fun hmem ↦ hlisted hmem

/-- The next cycle of the reaper reports a client that is marked as not connected. -/
theorem endangered_of_marked {client : ClientId} (hlive : s.Live client) {timestamp : ℤ}
    (hstate : s.registry.states.get client = some ⟨timestamp, false⟩) :
    s.Endangered timeout := by
  refine .of_step .reaperFails trivial (.of_step (.reaper 0) trivial ?_)
  refine endangered_of_not_spares (.reaper (timestamp + timeout + 1)) trivial fun hspares ↦ ?_
  exact hspares client (ClientRegistry.mem_deadClients.mpr ⟨_, hstate, rfl, by simp; omega⟩) hlive

variable (timeout) in
/-- After a step that is not settled, the reaper endangers a client. -/
theorem endangered_of_not_settled {event : Event} (h : ¬s.Settled event) :
    (s.step timeout event).Endangered timeout := by
  match event with
  | .connect session client now =>
    exact endangered_of_mem_clients List.mem_cons_self (not_not.mp h)
  | .disconnect session now =>
    simp only [Settled, not_forall, not_not] at h
    obtain ⟨client, hclient, hlive⟩ := h
    rw [step, hclient]
    rcases hstate : s.registry.states.get client with _ | state
    · refine endangered_of_not_registered fun hregistered ↦ ?_
      have hsome := hregistered client hlive
      change ((s.registry.disconnect client now).states.get client).isSome = true at hsome
      rw [ClientRegistry.get_disconnect, if_pos rfl, hstate] at hsome
      exact absurd hsome (by simp)
    · have hmarked : (s.registry.disconnect client now).states.get client = some ⟨now, false⟩ := by
        rw [ClientRegistry.get_disconnect, if_pos rfl, hstate]
        rfl
      exact endangered_of_marked hlive hmarked
  | .touch _ _ | .reaper _ | .reaperFails | .restart _ => exact absurd trivial h

/-! ## Both -/

/-- The run is safe at each of its points, however the reaper goes on from there. -/
def SafeThroughout (timeout : ℤ) (s : Gateway) (events : List Event) : Prop :=
  ∀ first more, first <+: events → (∀ event ∈ more, event.IsReaper) →
    Safe timeout s (first ++ more)

theorem settled_of_safeThroughout (h : SafeThroughout timeout s events) :
    Runs (step timeout) Settled s events := by
  induction events generalizing s with
  | nil => trivial
  | cons event events ih =>
    refine ⟨?_, ih fun first more hfirst hmore ↦ ?_⟩
    · by_contra hnot
      obtain ⟨more, hmore, hsafe⟩ := endangered_of_not_settled timeout hnot
      exact hsafe (h [event] more ⟨events, rfl⟩ hmore).tail
    · exact (h (event :: first) more ((List.cons_prefix_cons).mpr ⟨rfl, hfirst⟩) hmore).tail

/-- **The sessions that the reaper spares.** In every interleaving of sessions and reaper cycles, no
client with an open session is reported or cleaned up, and each has its entry, however the reaper
goes on, if and only if no session ends while another one of its client is open, and none begins
while the reaper is at work on its client. -/
theorem sessions_spared_iff (stateDir : Bool) (timeout : ℤ) (events : List Event) :
    SafeThroughout timeout (init stateDir) events
      ↔ Runs (step timeout) Settled (init stateDir) events := by
  refine ⟨settled_of_safeThroughout, fun hsettled first more hfirst hmore ↦ ?_⟩
  obtain ⟨rest, rfl⟩ := hfirst
  refine (sheltered_init stateDir).safe (runs_append.mpr ⟨(runs_append.mp hsettled).1, ?_⟩)
  refine runs_of_forall fun event hevent s ↦ ?_
  match event, hmore event hevent with
  | .reaper _, _ | .reaperFails, _ => trivial

/-- A client connects again before the handler of its first session notices the end. The late
disconnect marks the client as not connected, and a minute later the reaper reports it. -/
theorem late_disconnect : ∃ events,
    Runs (step 60) Enabled (init true) events ∧ ¬Safe 60 (init true) events := by
  refine ⟨[.connect 1 "c" 0, .connect 2 "c" 5, .disconnect 1 10, .reaper 70, .reaper 71],
    by decide, fun h ↦ ?_⟩
  exact h.spares.2.2.2.2.1 "c" (by decide) (by decide)

end Gateway

end MoneyLaundering
