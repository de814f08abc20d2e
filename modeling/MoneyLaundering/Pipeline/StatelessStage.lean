import MoneyLaundering.Collections.Dataflow
import MoneyLaundering.Pipeline.Headers

/-!
# A stateless stage in the pipeline

The replicas of a stateless worker share a queue. What they send to a group of consumers has the ids
of what they have taken, each once: a worker that `Forwards` keeps queues clean, and no two queues
of the group are sent the same data message (`RouteTally.clean`, `RouteTally.apart`).
-/

namespace MoneyLaundering

variable {A : Type}

/-- The header of a message as a worker takes it. -/
def Inbound.header {Item : Type} (m : Inbound Item) : Header where
  messageId := m.messageId
  eof :=
    match m.payload with
    | .data _ => none
    | .eof eof => some eof

/-- A message as it is published. -/
def Outgoing.posted (m : Outgoing A) : Posted where
  address := m.address
  header := ⟨m.messageId, m.payload.announcement.map EOF.mk⟩

/-- The replicas of a stateless worker, with the queue that they share. -/
structure Replicas (w : StatelessWorker A) where
  queue : List (Inbound w.Item)
  currentMessageId : NodeId → MessageId

namespace Replicas

variable {w : StatelessWorker A}

/-- One of `n` replicas handles a message of the queue. -/
inductive Works (n : ℕ) : Replicas w → List Posted → Replicas w → Prop
  | handles {s : Replicas w} {i : NodeId} {before after : List (Inbound w.Item)}
      {m : Inbound w.Item} {handled : MessageId × List (Outgoing A)} (hi : i < n)
      (hqueue : s.queue = before ++ m :: after)
      (hhandles : w.handleMessage (s.currentMessageId i) m = some handled) :
      Works n s (handled.2.map Outgoing.posted)
        ⟨before ++ after, Function.update s.currentMessageId i handled.1⟩

end Replicas

variable {G : Type}

/-- The replicas as a component, which is fed by one queue. Whatever a message of the client has in
it, they are given it. -/
def StatelessWorker.component (w : StatelessWorker A) (n : ℕ) (client : ClientId) (intake : G) :
    Dataflow.Component G Posted where
  State := Replicas w
  initial := ⟨[], fun _ ↦ ""⟩
  Receives s g q m s' := g = intake ∧ q = 0 ∧ ∃ inbound : Inbound w.Item,
    inbound.clientId = client ∧ inbound.header = m.header ∧
      s' = { s with queue := s.queue ++ [inbound] }
  Works := Replicas.Works n

theorem StatelessWorker.receives {w : StatelessWorker A} {n : ℕ} {client : ClientId} {intake : G}
    {s : Replicas w} {m : Posted} (inbound : Inbound w.Item) (hclient : inbound.clientId = client)
    (hheader : inbound.header = m.header) :
    (w.component n client intake).Receives s intake 0 m { s with queue := s.queue ++ [inbound] } :=
  ⟨rfl, rfl, inbound, hclient, hheader, rfl⟩

theorem StatelessWorker.works {w : StatelessWorker A} {n : ℕ} {client : ClientId} {intake : G}
    {s : Replicas w} (i : NodeId) {m : Inbound w.Item} {after : List (Inbound w.Item)} (hi : i < n)
    (hqueue : s.queue = m :: after) (h : (w.handleMessage (s.currentMessageId i) m).isSome = true) :
    let handled := (w.handleMessage (s.currentMessageId i) m).get h
    (w.component n client intake).Works s (handled.2.map Outgoing.posted)
      ⟨after, Function.update s.currentMessageId i handled.1⟩ :=
  @Replicas.Works.handles _ _ _ s i [] after m _ hi hqueue (Option.some_get h).symm

/-! ## One message -/

section Message

variable {w : StatelessWorker A} {WellFormed : w.Item → Prop} {routes : ClientId → List Route}
  {outputs : ClientId → MessageId → List Address} {client : ClientId} {disc : Option String}
  {r : Route}

theorem Route.length_keysOf (addresses : List Address) :
    (r.keysOf addresses).length = (addresses.map r.copies).sum := by
  rw [keysOf, List.length_flatMap]
  simp only [List.length_replicate]

theorem Route.length_arrivals (sent : List (Outgoing A)) :
    (r.arrivals sent).length = (sent.map fun m ↦ r.copies m.address).sum := by
  rw [arrivals, List.length_flatMap]
  simp only [List.length_replicate]

/-- Messages of one measure, of which the group gets one. -/
theorem sum_copies_posted {M : Type} [AddCommMonoid M] {sent : List (Outgoing A)} {g : Header → M}
    {b : M} (hg : ∀ m ∈ sent, g m.posted.header = b)
    (hcopies : (sent.map fun m ↦ r.copies m.address).sum = 1) :
    ((sent.map Outgoing.posted).map fun m ↦ r.copies m.address • g m.header).sum = b := by
  have hmap : (sent.map fun m ↦ r.copies m.posted.address • g m.posted.header)
      = (sent.map fun m ↦ r.copies m.address).map fun c ↦ c • b := by
    rw [List.map_map]
    exact List.map_congr_left fun m hm ↦ by rw [hg m hm]; rfl
  rw [List.map_map]
  refine (congrArg List.sum hmap).trans ?_
  rw [← List.sum_smul, hcopies, one_smul]

/-- **A message that is handled is sent to each group once**: a data message under its id, and an
end of stream under the id of the end. -/
theorem Forwards.posted (h : Forwards w WellFormed routes outputs)
    (heof : ∀ client eof, ∀ m ∈ w.sendFinalEof client eof, m.messageId = finalEofId client eof disc)
    (hr : r ∈ routes client) {m : Inbound w.Item} (hclient : m.clientId = client)
    {currentMessageId : MessageId} {handled : MessageId × List (Outgoing A)}
    (hhandles : w.handleMessage currentMessageId m = some handled) :
    (handled.2.map fun m ↦ r.copies m.address).sum = 1 ∧
      ∀ m' ∈ handled.2, m'.posted.header.eof = m.header.eof ∧
        (m.header.eof = none → m'.messageId = m.messageId) ∧
        ∀ eof, m.header.eof = some eof → m'.messageId = finalEofId client eof disc := by
  obtain ⟨_, messageId, payload⟩ := m
  obtain rfl := hclient
  cases payload with
  | data items =>
    obtain ⟨sent, hsent, rfl⟩ := Option.map_eq_some_iff.mp hhandles
    refine ⟨?_, fun m' hm' ↦ ?_⟩
    · have hkeys := congrArg List.length (h.keysOf_eq _ r hr messageId)
      rw [Route.length_keysOf, ← h.address_eq hsent, List.map_map] at hkeys
      exact hkeys
    · obtain ⟨-, hid, hnone⟩ := h.data hsent m' hm'
      exact ⟨congrArg (Option.map EOF.mk) hnone, fun _ ↦ hid,
        fun eof hsome ↦ absurd hsome (Option.some_ne_none _).symm⟩
  | eof eof =>
    obtain rfl := Option.some.inj hhandles
    refine ⟨(Route.length_arrivals _).symm.trans (h.length_eof _ r hr eof), fun m' hm' ↦ ?_⟩
    obtain ⟨-, hcount⟩ := h.eof _ eof m' hm'
    refine ⟨congrArg (Option.map EOF.mk) hcount,
      fun hnone ↦ absurd hnone (Option.some_ne_none _), ?_⟩
    intro eof' hsome
    obtain rfl := Option.some.inj hsome
    exact heof _ eof m' hm'

end Message

/-! ## All messages -/

section History

variable {w : StatelessWorker A} {WellFormed : w.Item → Prop} {routes : ClientId → List Route}
  {outputs : ClientId → MessageId → List Address} {client : ClientId} {disc : Option String}
  {r : Route} {n : ℕ} {intake : G}
  {arrived : G → ℕ → List Posted} {published : List Posted} {s : Replicas w}

/-- What a group of consumers was sent, and what is still in the queue, is what was put in it. -/
structure RouteTally (client : ClientId) (disc : Option String) (r : Route) (input : List Header)
    (published : List Posted)
    (s : Replicas w) : Prop where
  clients : ∀ m ∈ s.queue, m.clientId = client
  queued : ∀ m ∈ s.queue, m.header ∈ input
  ids : (published.map fun m ↦ r.copies m.address • Header.ids [m.header]).sum
    + Header.ids (s.queue.map Inbound.header) = Header.ids input
  ends : (published.map fun m ↦ r.copies m.address • Header.ends [m.header]).sum
    + Header.ends (s.queue.map Inbound.header) = Header.ends input
  data : ∀ m ∈ published, m.header.eof = none → m.header.messageId ∈ Header.ids input
  eofs : ∀ m ∈ published, ∀ eof, m.header.eof = some eof →
    m.header.messageId = finalEofId client eof disc ∧ ∃ m' ∈ input, m'.eof = some eof

theorem RouteTally.receives {input : List Header} (h : RouteTally client disc r input published s)
    {inbound : Inbound w.Item} (hclient : inbound.clientId = client) :
    RouteTally client disc r (input ++ [inbound.header]) published
      { s with queue := s.queue ++ [inbound] } where
  clients m hm := by
    rcases List.mem_append.mp hm with hm | hm
    · exact h.clients m hm
    · rw [List.mem_singleton.mp hm, hclient]
  queued m hm := by
    rcases List.mem_append.mp hm with hm | hm
    · exact List.mem_append_left _ (h.queued m hm)
    · rw [List.mem_singleton.mp hm]
      exact List.mem_append_right _ (List.mem_singleton_self _)
  ids := by
    rw [List.map_append, Header.ids_append, ← add_assoc, h.ids, Header.ids_append]
    rfl
  ends := by
    rw [List.map_append, Header.ends_append, ← add_assoc, h.ends, Header.ends_append]
    rfl
  data m hm hnone := by
    rw [Header.ids_append]
    exact Multiset.mem_add.mpr (Or.inl (h.data m hm hnone))
  eofs m hm eof hsome := by
    obtain ⟨hid, m', hm', heof⟩ := h.eofs m hm eof hsome
    exact ⟨hid, m', List.mem_append_left _ hm', heof⟩

theorem RouteTally.works {input : List Header} (h : RouteTally client disc r input published s)
    (hw : Forwards w WellFormed routes outputs)
    (heof : ∀ client eof, ∀ m ∈ w.sendFinalEof client eof, m.messageId = finalEofId client eof disc)
    (hr : r ∈ routes client) {more : List Posted} {s' : Replicas w}
    (hworks : Replicas.Works n s more s') :
    RouteTally client disc r input (published ++ more) s' := by
  cases hworks with
  | @handles i before after m handled hi hqueue hhandles =>
    have hm : m ∈ s.queue := by
      rw [hqueue]
      exact List.mem_append_right _ List.mem_cons_self
    obtain ⟨hcopies, hsent⟩ := hw.posted heof hr (h.clients m hm) hhandles
    have hperm : (s.queue.map Inbound.header).Perm
        (m.header :: (before ++ after).map Inbound.header) := by
      rw [hqueue]
      exact List.perm_middle.map Inbound.header
    -- the group is sent the message once, and the queue has lost it
    have hids := sum_copies_posted (g := fun m ↦ Header.ids [m]) (fun m' hm' ↦
      Header.ids_singleton_congr (hsent m' hm').1 (hsent m' hm').2.1) hcopies
    have hends := sum_copies_posted (g := fun m ↦ Header.ends [m]) (fun m' hm' ↦
      Header.ends_singleton_congr (hsent m' hm').1) hcopies
    have htotal := h.ids
    have htotal' := h.ends
    rw [Header.ids_perm hperm, Header.ids_cons, ← add_assoc] at htotal
    rw [Header.ends_perm hperm, Header.ends_cons, ← add_assoc] at htotal'
    have hleft : ∀ m' ∈ before ++ after, m' ∈ s.queue := fun m' hm' ↦ by
      rw [hqueue]
      exact List.mem_append.mpr ((List.mem_append.mp hm').imp_right (List.mem_cons_of_mem _))
    refine ⟨fun m' hm' ↦ h.clients m' (hleft m' hm'),
      fun m' hm' ↦ h.queued m' (hleft m' hm'), ?_, ?_,
      fun m' hm' hnone ↦ ?_, fun m' hm' eof hsome ↦ ?_⟩
    · rw [List.map_append, List.sum_append, hids, htotal]
    · rw [List.map_append, List.sum_append, hends, htotal']
    · rcases List.mem_append.mp hm' with hm' | hm'
      · exact h.data m' hm' hnone
      · obtain ⟨m'', hm'', rfl⟩ := List.mem_map.mp hm'
        obtain ⟨heq, hid, -⟩ := hsent m'' hm''
        have hmem : m.header.messageId ∈ Header.ids (s.queue.map Inbound.header) := by
          refine Header.mem_ids.mpr ?_
          rw [← heq.symm.trans hnone]
          exact List.mem_map_of_mem hm
        have hsame : m''.posted.header.messageId = m.header.messageId := hid (heq.symm.trans hnone)
        rw [← h.ids, hsame]
        exact Multiset.mem_add.mpr (Or.inr hmem)
    · rcases List.mem_append.mp hm' with hm' | hm'
      · exact h.eofs m' hm' eof hsome
      · obtain ⟨m'', hm'', rfl⟩ := List.mem_map.mp hm'
        obtain ⟨heq, -, hid⟩ := hsent m'' hm''
        exact ⟨hid eof (heq.symm.trans hsome), m.header, h.queued m hm, heq.symm.trans hsome⟩

/-- The tally of a history. -/
theorem tally_of_history (hw : Forwards w WellFormed routes outputs)
    (heof : ∀ client eof, ∀ m ∈ w.sendFinalEof client eof, m.messageId = finalEofId client eof disc)
    (hr : r ∈ routes client) [DecidableEq G] {s : (w.component n client intake).State}
    (h : (w.component n client intake).History arrived published s) :
    RouteTally client disc r ((arrived intake 0).map Posted.header) published s := by
  induction h with
  | initial => exact ⟨fun m hm ↦ absurd hm List.not_mem_nil, fun m hm ↦ absurd hm List.not_mem_nil,
      rfl, rfl, fun m hm ↦ absurd hm List.not_mem_nil, fun m hm ↦ absurd hm List.not_mem_nil⟩
  | receives _ hreceives ih =>
    obtain ⟨rfl, rfl, inbound, hclient, hheader, rfl⟩ := hreceives
    rw [Function.update_self, Function.update_self, List.map_append, List.map_singleton, ← hheader]
    exact ih.receives hclient
  | works _ hworks ih => exact ih.works hw heof hr hworks

namespace RouteTally

variable {disc' : Option String} {queues : ℕ → List Header}

/-- **No two consumers of a group are sent the same data message.** -/
theorem apart (h : RouteTally client disc r (queues 0) published s)
    (hqueues : CleanQueues client disc' queues) :
    Apart (r.routed published) := by
  intro count
  refine Multiset.nodup_of_le (le_trans (Route.sum_ids_routed_le published count) ?_)
    (hqueues.ids 0)
  rw [← h.ids]
  exact Multiset.le_add_right _ _

/-- **A stateless stage keeps queues clean.** -/
theorem clean (h : RouteTally client disc r (queues 0) published s)
    (hqueues : CleanQueues client disc' queues) :
    CleanQueues client disc (r.routed published) where
  ids := (h.apart hqueues).nodup
  ends count := by
    refine le_trans (Route.sum_ends_routed_le published count) (le_trans ?_ (hqueues.ends_le 0))
    rw [← h.ends]
    exact Nat.le_add_right _ _
  data q m hm hnone := by
    obtain ⟨m', hm', rfl⟩ := List.mem_map.mp hm
    have hmem := h.data m' (List.mem_of_mem_filter hm') hnone
    have hid := hqueues.data 0 _ (Header.mem_ids.mp hmem) rfl
    exact hid
  eofs q m hm eof hsome := by
    obtain ⟨m', hm', rfl⟩ := List.mem_map.mp hm
    exact (h.eofs m' (List.mem_of_mem_filter hm') eof hsome).1

end RouteTally

end History

end MoneyLaundering
