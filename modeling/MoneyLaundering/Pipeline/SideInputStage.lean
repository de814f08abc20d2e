import MoneyLaundering.Collections.Dataflow
import MoneyLaundering.Joins.Process
import MoneyLaundering.Pipeline.Headers

/-!
# A stage with a side input in the pipeline

The replicas of a side-input worker have a queue each for their main channel and another for their
side channel. What they publish goes to the clients, and no worker is fed from it.

A replica remembers the ids of the messages that it has taken, of each channel those that are no
cleanups (`mids_handle`). So if no queue is sent two messages with one id, then none that waits has
been seen (`Took.notMem_seen`).
-/

namespace MoneyLaundering

open SideInputWorker

variable {w : SideInputWorker}

namespace SideDelivery

def channel : SideDelivery w → Channel
  | .main _ => .main
  | .side _ => .side

def header : SideDelivery w → Header
  | .main (.data messageId _) => ⟨messageId, none⟩
  | .main (.eof messageId eof) => ⟨messageId, some eof⟩
  | .side (.batch messageId _) => ⟨messageId, none⟩
  | .side (.eof messageId eof) => ⟨messageId, some eof⟩

end SideDelivery

/-- A replica of a side-input worker, with what waits in its queues. -/
structure SideReplica (w : SideInputWorker) where
  inbox : List (SideDelivery w)
  process : SideProcess w

namespace SideReplica

def init (w : SideInputWorker) : SideReplica w := ⟨[], .init w⟩

inductive Step (client : ClientId) : SideReplica w → SideReplica w → Prop
  /-- A thread takes a message from its queue. -/
  | takes {s : SideReplica w} {before after : List (SideDelivery w)} {delivery : SideDelivery w}
      {process : SideProcess w} (hinbox : s.inbox = before ++ delivery :: after)
      (hstep : SideProcess.Step (fun c d ↦ c = client ∧ d = delivery) s.process process)
      (hfree : s.process.handling = none) (htaken : process.handling ≠ none) :
      Step client s ⟨before ++ after, process⟩
  /-- A thread goes on with what it has. -/
  | continues {s : SideReplica w} {process : SideProcess w}
      (hstep : SideProcess.Step (fun _ _ ↦ False) s.process process) :
      Step client s ⟨s.inbox, process⟩

def deliver (s : SideReplica w) (delivery : SideDelivery w) : SideReplica w :=
  ⟨s.inbox ++ [delivery], s.process⟩

end SideReplica

variable {G : Type}

/-- The queue that a replica takes a message from. -/
def SideDelivery.source (main : G) (side : NodeId → G) (i : NodeId) : SideDelivery w → G × ℕ
  | .main _ => (main, i)
  | .side _ => (side i, 0)

/-- The replicas as a component. Whatever a message of the client has in it, a replica is given
it. -/
def SideInputWorker.component (w : SideInputWorker) (n : ℕ) (client : ClientId) (main : G)
    (side : NodeId → G) : Dataflow.Component G Posted where
  State := NodeId → SideReplica w
  initial _ := .init w
  Receives s g q m s' := ∃ i delivery, i < n ∧ SideDelivery.source main side i delivery = (g, q) ∧
    delivery.header = m.header ∧ s' = Function.update s i ((s i).deliver delivery)
  Works s more s' := ∃ i replica, i < n ∧ more = [] ∧ (s i).Step client replica ∧
    s' = Function.update s i replica

section Component

variable {n : ℕ} {client : ClientId} {main g : G} {side : NodeId → G} {q : ℕ} {m : Posted}
  {s : NodeId → SideReplica w}

theorem SideInputWorker.receives (i : NodeId) (delivery : SideDelivery w) (hi : i < n)
    (hsource : delivery.source main side i = (g, q)) (hheader : delivery.header = m.header) :
    (w.component n client main side).Receives s g q m
      (Function.update s i ((s i).deliver delivery)) :=
  ⟨i, delivery, hi, hsource, hheader, rfl⟩

theorem SideInputWorker.works (i : NodeId) {replica : SideReplica w} (hi : i < n)
    (hstep : (s i).Step client replica) :
    (w.component n client main side).Works s [] (Function.update s i replica) :=
  ⟨i, replica, hi, rfl, hstep, rfl⟩

end Component

/-! ## What is seen -/

section Seen

variable {client : ClientId}

/-- A record of an id is the only change of the ids of a channel. -/
theorem mem_mids_addTo_setdefault {seen : Seen} {ch ch' : Channel} {mid id : MessageId}
    (h : id ∈ ((seen.setdefault ch).addTo ch mid).mids ch') :
    id ∈ seen.mids ch' ∨ ch' = ch ∧ id = mid := by
  rw [Seen.mids_addTo (Seen.setdefault_self_ne_none seen ch), Seen.mids_setdefault] at h
  by_cases hch : ch' = ch
  · subst hch
    rw [Function.update_self, Finset.mem_insert] at h
    exact h.symm.imp_right fun heq ↦ ⟨rfl, heq⟩
  · rw [Function.update_of_ne hch] at h
    exact Or.inl h

theorem mids_handleMessage {flow flow' : SideFlow w.Table} {es : List (SideEff w)}
    {message : SideMainMessage w} (h : handleMessage client flow message = some (flow', es))
    {ch : Channel} {id : MessageId} (hid : id ∈ flow'.seen.mids ch) :
    id ∈ flow.seen.mids ch ∨ ch = .main ∧ id = message.messageId ∧
      (SideDelivery.main message).header.isCleanup = false := by
  rw [handleMessage] at h
  split at h
  · obtain rfl := (Prod.mk.inj (Option.some.inj h)).1
    rw [Seen.mids_setdefault] at hid
    exact Or.inl hid
  · cases message with
    | data mid payload =>
      obtain ⟨_, -, heq⟩ := Option.map_eq_some_iff.mp h
      obtain rfl := (Prod.mk.inj heq).1
      exact (mem_mids_addTo_setdefault hid).imp_right fun hnew ↦ ⟨hnew.1, hnew.2, rfl⟩
    | eof mid eof =>
      obtain rfl := (Prod.mk.inj (Option.some.inj h)).1
      by_cases hcleanup : isCleanupEof eof = true
      · -- nothing is left, and the id is added to a set that is gone
        simp [handleEofMessage, hcleanup, cleanupFlow, emptyFlow, Seen.addTo_empty] at hid
      · simp only [handleEofMessage, hcleanup] at hid
        exact (mem_mids_addTo_setdefault hid).imp_right fun hnew ↦
          ⟨hnew.1, hnew.2, Bool.eq_false_of_not_eq_true hcleanup⟩

theorem mids_handleSideMessage {flow flow' : SideFlow w.Table} {es : List (SideEff w)}
    {message : SideMessage w} (h : handleSideMessage flow message = some (flow', es))
    {ch : Channel} {id : MessageId} (hid : id ∈ flow'.seen.mids ch) :
    id ∈ flow.seen.mids ch ∨ ch = .side ∧ id = message.messageId ∧
      (SideDelivery.side message).header.isCleanup = false := by
  rw [handleSideMessage] at h
  split at h
  · obtain rfl := (Prod.mk.inj (Option.some.inj h)).1
    rw [Seen.mids_setdefault] at hid
    exact Or.inl hid
  · cases message with
    | batch mid payload =>
      obtain ⟨_, -, heq⟩ := Option.map_eq_some_iff.mp h
      obtain rfl := (Prod.mk.inj heq).1
      exact (mem_mids_addTo_setdefault hid).imp_right fun hnew ↦ ⟨hnew.1, hnew.2, rfl⟩
    | eof mid eof =>
      rw [acceptSideMessage] at h
      split at h
      case isTrue hcleanup =>
        obtain rfl := (Prod.mk.inj (Option.some.inj h)).1
        exact absurd hid (Finset.notMem_empty id)
      case isFalse hcleanup =>
        obtain rfl := (Prod.mk.inj (Option.some.inj h)).1
        exact (mem_mids_addTo_setdefault hid).imp_right fun hnew ↦
          ⟨hnew.1, hnew.2, Bool.eq_false_of_not_eq_true hcleanup⟩

/-- **A handler adds the id of its message to those of its channel**, unless it is a cleanup. -/
theorem mids_handle {flow flow' : SideFlow w.Table} {es : List (SideEff w)}
    {delivery : SideDelivery w} (h : handle client flow delivery = some (flow', es))
    {ch : Channel} {id : MessageId} (hid : id ∈ flow'.seen.mids ch) :
    id ∈ flow.seen.mids ch ∨ ch = delivery.channel ∧ id = delivery.header.messageId ∧
      delivery.header.isCleanup = false := by
  cases delivery with
  | main message =>
    have hheader : (SideDelivery.main message).header.messageId = message.messageId := by
      cases message <;> rfl
    rw [hheader]
    exact mids_handleMessage h hid
  | side message =>
    have hheader : (SideDelivery.side message).header.messageId = message.messageId := by
      cases message <;> rfl
    rw [hheader]
    exact mids_handleSideMessage h hid

/-- The memory changes when a message is taken. -/
theorem SideProcess.Step.mem_cases {feed : SideFeed w} {s s' : SideProcess w} (h : Step feed s s') :
    (∃ client delivery flow es, feed client delivery ∧
      handle client (s.store.mem client) delivery = some (flow, es) ∧
      s'.store.mem = Function.update s.store.mem client flow) ∨ s'.store.mem = s.store.mem := by
  cases h with
  | enter _ _ hfeed _ _ hhandle => exact Or.inl ⟨_, _, _, _, hfeed, hhandle, rfl⟩
  | @perform _ _ o _ _ => cases o <;> exact Or.inr rfl
  | append _ => exact Or.inr rfl
  | keep _ => exact Or.inr rfl
  | compact _ _ => exact Or.inr rfl
  | leave _ => exact Or.inr rfl
  | openSpill _ _ _ => exact Or.inr rfl
  | emitEntry _ _ => exact Or.inr rfl
  | closeSpill _ => exact Or.inr rfl
  | next _ _ => exact Or.inr rfl
  | start _ _ => exact Or.inr rfl

end Seen

/-! ## What is handled -/

namespace SideProcess

variable {feed feed' : SideFeed w} {s s' : SideProcess w} {client : ClientId}
  {delivery : SideDelivery w}

theorem Step.mono (hfeed : ∀ c d, feed c d → feed' c d) (h : Step feed s s') : Step feed' s s' := by
  cases h with
  | enter hstarted hfree hfed hthread hlock hhandle =>
    exact .enter hstarted hfree (hfeed _ _ hfed) hthread hlock hhandle
  | perform h => exact .perform h
  | append h => exact .append h
  | keep h => exact .keep h
  | compact h hcompacts => exact .compact h hcompacts
  | leave h => exact .leave h
  | openSpill h hreleased hlock => exact .openSpill h hreleased hlock
  | emitEntry h hemit => exact .emitEntry h hemit
  | closeSpill h => exact .closeSpill h
  | next h hdrained => exact .next h hdrained
  | start h hdrained => exact .start h hdrained

theorem Reachable.mono (hfeed : ∀ c d, feed c d → feed' c d) (h : Reachable feed s) :
    Reachable feed' s := by
  induction h with
  | refl => exact .refl
  | tail _ hstep ih => exact ih.tail (hstep.mono hfeed)

/-- The message is being handled, or was. -/
def Has (s : SideProcess w) (client : ClientId) (delivery : SideDelivery w) : Prop :=
  (client, delivery) ∈ s.handled ∨
    ∃ h, s.handling = some h ∧ h.client = client ∧ h.delivery = delivery

theorem Has.of_handling {rest rest' : List (SideEff w)} {c : ClientId} {d : SideDelivery w}
    (h : s.Has client delivery) (hhandling : s.handling = some ⟨c, d, rest⟩)
    (hhandled : s'.handled = s.handled) (hhandling' : s'.handling = some ⟨c, d, rest'⟩) :
    s'.Has client delivery := by
  rcases h with hmem | ⟨h, hsome, hclient, hdelivery⟩
  · exact Or.inl (hhandled ▸ hmem)
  · obtain rfl := Option.some.inj (hhandling.symm.trans hsome)
    exact Or.inr ⟨_, hhandling', hclient, hdelivery⟩

/-- What a thread has taken it handles to the end. -/
theorem Has.step (h : s.Has client delivery) (hstep : Step feed s s') : s'.Has client delivery := by
  cases hstep with
  | enter _ hfree _ _ _ _ =>
    rcases h with hmem | ⟨h, hsome, -, -⟩
    · exact Or.inl hmem
    · exact absurd (hfree.symm.trans hsome).symm (Option.some_ne_none _)
  | @perform _ _ o _ hhandling =>
    exact h.of_handling hhandling (by cases o <;> rfl) (by cases o <;> rfl)
  | append hhandling => exact h.of_handling hhandling rfl rfl
  | keep hhandling => exact h.of_handling hhandling rfl rfl
  | compact hhandling _ => exact h.of_handling hhandling rfl rfl
  | leave hhandling =>
    rcases h with hmem | ⟨h, hsome, rfl, rfl⟩
    · exact Or.inl (List.mem_append_left _ hmem)
    · obtain rfl := Option.some.inj (hhandling.symm.trans hsome)
      exact Or.inl (List.mem_append_right _ (List.mem_singleton_self _))
  | openSpill _ _ _ => exact h
  | emitEntry _ _ => exact h
  | closeSpill _ => exact h
  | next _ _ => exact h
  | start _ _ => exact h

/-- A thread that takes a message begins to handle it. -/
theorem Step.has_of_free (hstep : Step feed s s') (hfree : s.handling = none)
    (htaken : s'.handling ≠ none) : ∃ c d, feed c d ∧ s'.Has c d := by
  have hnone : ∀ {h}, s.handling ≠ some h := fun hsome ↦
    absurd (hfree.symm.trans hsome).symm (Option.some_ne_none _)
  cases hstep with
  | enter _ _ hfed _ _ _ => exact ⟨_, _, hfed, Or.inr ⟨_, rfl, rfl, rfl⟩⟩
  | perform h => exact absurd h hnone
  | append h => exact absurd h hnone
  | keep h => exact absurd h hnone
  | compact h _ => exact absurd h hnone
  | leave h => exact absurd h hnone
  | openSpill _ _ _ => exact absurd hfree htaken
  | emitEntry _ _ => exact absurd hfree htaken
  | closeSpill _ => exact absurd hfree htaken
  | next _ _ => exact absurd hfree htaken
  | start _ _ => exact absurd hfree htaken

end SideProcess

/-! ## What waits in the queues -/

section Took

variable {client : ClientId} {arrived : Channel → List Header} {s s' : SideReplica w}

/-- The headers of what has come on a channel. -/
def headersOn (ch : Channel) (deliveries : List (SideDelivery w)) : List Header :=
  (deliveries.filter fun d ↦ d.channel = ch).map SideDelivery.header

theorem headersOn_append (ch : Channel) (l l' : List (SideDelivery w)) :
    headersOn ch (l ++ l') = headersOn ch l ++ headersOn ch l' := by
  rw [headersOn, List.filter_append, List.map_append]
  rfl

theorem headersOn_singleton_self (d : SideDelivery w) : headersOn d.channel [d] = [d.header] := by
  rw [headersOn, List.filter_singleton, decide_eq_true rfl]
  rfl

theorem headersOn_singleton_of_ne {d : SideDelivery w} {ch : Channel} (h : ch ≠ d.channel) :
    headersOn ch [d] = [] := by
  rw [headersOn, List.filter_singleton, decide_eq_false h.symm]
  rfl

theorem headersOn_perm (ch : Channel) {l l' : List (SideDelivery w)} (h : l.Perm l') :
    (headersOn ch l).Perm (headersOn ch l') := (h.filter _).map _

/-- What has arrived at a replica waits or was taken, and what it has seen was taken. -/
structure Took (client : ClientId) (arrived : Channel → List Header)
    (taken : List (SideDelivery w)) (s : SideReplica w) : Prop where
  reach : SideProcess.Reachable (fun c d ↦ c = client ∧ d ∈ taken) s.process
  has : ∀ d ∈ taken, s.process.Has client d
  arrived : ∀ ch, (headersOn ch (s.inbox ++ taken)).Perm (arrived ch)
  seen : ∀ ch, ∀ id ∈ (s.process.store.mem client).seen.mids ch, ∃ d ∈ taken,
    d.channel = ch ∧ d.header.messageId = id ∧ d.header.isCleanup = false

theorem took_init : Took client (fun _ ↦ []) [] (SideReplica.init w) where
  reach := .refl
  has _ hd := absurd hd List.not_mem_nil
  arrived _ := List.Perm.refl _
  seen _ id hid := absurd hid (Finset.notMem_empty id)

theorem Took.deliver {taken : List (SideDelivery w)} (h : Took client arrived taken s)
    (delivery : SideDelivery w) :
    Took client (Function.update arrived delivery.channel
      (arrived delivery.channel ++ [delivery.header])) taken (s.deliver delivery) where
  reach := h.reach
  has := h.has
  arrived ch := by
    have hperm : ((s.deliver delivery).inbox ++ taken).Perm ((s.inbox ++ taken) ++ [delivery]) := by
      rw [SideReplica.deliver, List.append_assoc, List.append_assoc]
      exact List.perm_append_comm.append_left s.inbox
    refine (headersOn_perm ch hperm).trans ?_
    rw [headersOn_append]
    by_cases hch : ch = delivery.channel
    · subst hch
      rw [Function.update_self, headersOn_singleton_self]
      exact (h.arrived _).append_right _
    · rw [Function.update_of_ne hch, headersOn_singleton_of_ne hch, List.append_nil]
      exact h.arrived ch
  seen := h.seen

theorem Took.step {taken : List (SideDelivery w)} (h : Took client arrived taken s)
    (hstep : s.Step client s') : ∃ taken', Took client arrived taken' s' := by
  cases hstep with
  | @takes before after delivery process hinbox hstep hfree htaken =>
    have hperm : (before ++ after ++ delivery :: taken).Perm (s.inbox ++ taken) := by
      rw [hinbox, List.append_assoc, List.append_assoc, List.cons_append]
      exact (List.perm_middle.append_left before).trans (List.Perm.refl _)
    have hreach : SideProcess.Reachable (fun c d ↦ c = client ∧ d ∈ delivery :: taken) process := by
      refine (h.reach.mono fun c d hd ↦ ⟨hd.1, List.mem_cons_of_mem _ hd.2⟩).tail
        (hstep.mono fun c d hd ↦ ⟨hd.1, ?_⟩)
      rw [hd.2]
      exact List.mem_cons_self
    have hhas : ∀ d ∈ delivery :: taken, process.Has client d := by
      intro d hd
      rcases List.mem_cons.mp hd with heq | hd
      · obtain ⟨c, d', ⟨rfl, hdelivery⟩, hhas⟩ := hstep.has_of_free hfree htaken
        rwa [heq, ← hdelivery]
      · exact (h.has d hd).step hstep
    refine ⟨delivery :: taken, hreach, hhas,
      fun ch ↦ (headersOn_perm ch hperm).trans (h.arrived ch), fun ch id hid ↦ ?_⟩
    have hold : id ∈ (s.process.store.mem client).seen.mids ch → ∃ d ∈ delivery :: taken,
        d.channel = ch ∧ d.header.messageId = id ∧ d.header.isCleanup = false := fun hmem ↦ by
      obtain ⟨d, hd, hspec⟩ := h.seen ch id hmem
      exact ⟨d, List.mem_cons_of_mem _ hd, hspec⟩
    rcases hstep.mem_cases with ⟨c, d, flow, es, ⟨rfl, rfl⟩, hhandle, hmem⟩ | hmem
    · rw [hmem, Function.update_self] at hid
      rcases mids_handle hhandle hid with hmids | ⟨rfl, rfl, hcleanup⟩
      · exact hold hmids
      · exact ⟨d, List.mem_cons_self, rfl, rfl, hcleanup⟩
    · exact hold (hmem ▸ hid)
  | continues hstep =>
    rcases hstep.mem_cases with ⟨_, _, _, _, hfalse, _⟩ | hmem
    · exact hfalse.elim
    · exact ⟨taken, h.reach.tail (hstep.mono fun _ _ hfalse ↦ hfalse.elim),
        fun d hd ↦ (h.has d hd).step hstep, h.arrived, fun ch id hid ↦ h.seen ch id (hmem ▸ hid)⟩

theorem Header.Differ.symm {m m' : Header} (h : m.Differ m') : m'.Differ m :=
  h.imp And.symm Ne.symm

/-- **What waits was not seen**, if the messages that arrive differ. -/
theorem Took.notMem_seen {taken : List (SideDelivery w)} (h : Took client arrived taken s)
    (hdiffer : ∀ ch, (arrived ch).Pairwise Header.Differ) {d : SideDelivery w} (hd : d ∈ s.inbox)
    (hcleanup : d.header.isCleanup = false) :
    d.header.messageId ∉ (s.process.store.mem client).seen.mids d.channel := by
  intro hmem
  obtain ⟨d', hd', hch, hid, -⟩ := h.seen _ _ hmem
  have hpairs := (h.arrived d.channel).symm.pairwise (hdiffer d.channel) fun {_ _} hm ↦ hm.symm
  rw [headersOn_append, List.pairwise_append] at hpairs
  have hheader : d.header ∈ headersOn d.channel s.inbox :=
    List.mem_map_of_mem (List.mem_filter.mpr ⟨hd, decide_eq_true rfl⟩)
  have hheader' : d'.header ∈ headersOn d.channel taken :=
    List.mem_map_of_mem (List.mem_filter.mpr ⟨hd', decide_eq_true hch⟩)
  rcases hpairs.2.2 _ hheader _ hheader' with hcleanups | hne
  · rw [hcleanup] at hcleanups
    exact Bool.false_ne_true hcleanups.1
  · exact hne hid.symm

end Took

/-! ## A history -/

section History

variable {n : ℕ} {client : ClientId} {main : G} {side : NodeId → G}
  {arrived : G → ℕ → List Posted} {published : List Posted}

/-- What has arrived at a replica, by channel. -/
def arrivedAt (main : G) (side : NodeId → G) (arrived : G → ℕ → List Posted) (i : NodeId) :
    Channel → List Header
  | .main => (arrived main i).map Posted.header
  | .side => (arrived (side i) 0).map Posted.header
  | .control => []

theorem arrivedAt_update [DecidableEq G] (hside : Function.Injective side)
    (hne : ∀ i, side i ≠ main) {g : G} {q : ℕ} {m : Posted} {j : NodeId} {delivery : SideDelivery w}
    (hsource : delivery.source main side j = (g, q)) (hheader : delivery.header = m.header) :
    arrivedAt main side
      (Function.update arrived g (Function.update (arrived g) q (arrived g q ++ [m])))
      = Function.update (arrivedAt main side arrived) j
          (Function.update (arrivedAt main side arrived j) delivery.channel
            (arrivedAt main side arrived j delivery.channel ++ [delivery.header])) := by
  funext i ch
  by_cases hij : i = j
  · subst hij
    rw [Function.update_self]
    cases delivery with
    | main message =>
      obtain ⟨rfl, rfl⟩ := Prod.mk.inj hsource
      cases ch <;> simp [arrivedAt, SideDelivery.channel, hne, hheader]
    | side message =>
      obtain ⟨rfl, rfl⟩ := Prod.mk.inj hsource
      cases ch <;> simp [arrivedAt, SideDelivery.channel, (hne _).symm, hheader]
  · rw [Function.update_of_ne hij]
    cases delivery with
    | main message =>
      obtain ⟨rfl, rfl⟩ := Prod.mk.inj hsource
      cases ch <;> simp [arrivedAt, hne, hij]
    | side message =>
      obtain ⟨rfl, rfl⟩ := Prod.mk.inj hsource
      cases ch <;> simp [arrivedAt, (hne _).symm, hside.ne hij]

variable {rows : NodeId → Channel → List Header} {replicas : NodeId → SideReplica w}

theorem exists_took_deliver (h : ∀ i, ∃ taken, Took client (rows i) taken (replicas i)) (j : NodeId)
    (delivery : SideDelivery w) (i : NodeId) :
    ∃ taken, Took client
      (Function.update rows j (Function.update (rows j) delivery.channel
        (rows j delivery.channel ++ [delivery.header])) i)
      taken (Function.update replicas j ((replicas j).deliver delivery) i) := by
  obtain ⟨taken, htook⟩ := h i
  refine ⟨taken, ?_⟩
  by_cases hij : i = j
  · subst hij
    rw [Function.update_self, Function.update_self]
    exact htook.deliver delivery
  · rw [Function.update_of_ne hij, Function.update_of_ne hij]
    exact htook

theorem exists_took_step (h : ∀ i, ∃ taken, Took client (rows i) taken (replicas i)) {j : NodeId}
    {replica : SideReplica w} (hstep : (replicas j).Step client replica) (i : NodeId) :
    ∃ taken, Took client (rows i) taken (Function.update replicas j replica i) := by
  obtain ⟨taken, htook⟩ := h i
  by_cases hij : i = j
  · subst hij
    rw [Function.update_self]
    exact htook.step hstep
  · rw [Function.update_of_ne hij]
    exact ⟨taken, htook⟩

theorem took_of_history [DecidableEq G] (hside : Function.Injective side) (hne : ∀ i, side i ≠ main)
    {s : (w.component n client main side).State}
    (h : (w.component n client main side).History arrived published s) (i : NodeId) :
    ∃ taken, Took client (arrivedAt main side arrived i) taken (s i) := by
  induction h generalizing i with
  | initial =>
    have hnil : arrivedAt main side (fun _ _ ↦ []) i = fun _ ↦ [] := by
      funext ch
      cases ch <;> rfl
    exact ⟨[], hnil ▸ took_init⟩
  | receives _ hreceives ih =>
    obtain ⟨j, delivery, -, hsource, hheader, rfl⟩ := hreceives
    rw [arrivedAt_update hside hne hsource hheader]
    exact exists_took_deliver ih j delivery i
  | works _ hworks ih =>
    obtain ⟨j, replica, -, -, hstep, rfl⟩ := hworks
    exact exists_took_step ih hstep i

end History

end MoneyLaundering
