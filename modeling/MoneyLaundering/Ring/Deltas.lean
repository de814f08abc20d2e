import MoneyLaundering.Logging.Coarser
import MoneyLaundering.Ring.Progress

/-!
# What a node adds to a token

The totals of a token travel in unsigned fields, and what a node adds to them is a difference: what
it has counted, less what it has reported before. The differences are not negative as long as no
count falls below its report, in memory and in every memory that a restart rebuilds.

The handlers keep it so, the one that drops a client included: memory and log do not agree on what
was seen after it, but they do on the counts (`Tally`). A fleet is the nodes of a ring with any
traffic, for any number of clients; `ring_deltas_nonneg` says what holds in all of its states.
-/

namespace MoneyLaundering

open WriteAhead Visible StatefulWorker

/-! ## The counts -/

/-- The four counts of a client. -/
@[ext] structure Tally where
  processed : ℤ
  partialProcessed : ℤ
  sent : ℤ
  partialSent : ℤ

/-- No count is below its report. -/
structure Tally.Ordered (t : Tally) : Prop where
  partialProcessed_nonneg : 0 ≤ t.partialProcessed
  partialProcessed_le : t.partialProcessed ≤ t.processed
  partialSent_nonneg : 0 ≤ t.partialSent
  partialSent_le : t.partialSent ≤ t.sent

def Observed.tally {σ : Type} (v : Observed σ) : Tally :=
  ⟨v.processed, v.partialProcessed, v.sent, v.partialSent⟩

namespace StatefulWorker

variable (w : StatefulWorker)

/-- Replaying a record, as far as the counts are concerned. -/
def replayTally (r : FlowRecord w.Delta) (t : Tally) : Tally :=
  (w.replayCounters r ⟨fun _ ↦ ∅, t.processed, t.partialProcessed, t.sent, t.partialSent, ()⟩).tally

theorem replayTally_tally (r : FlowRecord w.Delta) (v : Observed Unit) :
    w.replayTally r v.tally = (w.replayCounters r v).tally := by
  match r with
  | .message mid delta eof => cases delta <;> cases eof <;> rfl
  | .control mid ring => cases mid <;> rfl
  | .snapshot .. => rfl
  | .cleanup => rfl

/-- The counts. -/
def tallies : View w.discipline Tally where
  view flow := flow.observe.tally
  apply := w.replayTally
  view_apply r flow :=
    (congrArg Observed.tally (w.counters.view_apply r flow)).trans (w.replayTally_tally r _).symm
  view_snap h := (w.replayTally_tally _ _).trans (congrArg Observed.tally (w.counters.view_snap h))

theorem counters_coarser : w.counters.Coarser w.tallies Observed.tally where
  view _ := rfl
  apply := w.replayTally_tally

end StatefulWorker

/-! ## Handlers -/

/-- What a delivery is for the ring, when it is not asked who added what. -/
def Delivery.taken {w : StatefulWorker} : Delivery w → Taken
  | .main message => message.taken
  | .control token => .token { Envelope.blank with token }

/-- The token that is taken, if it is one. -/
def Taken.brought : Taken → Option Token
  | .data _ => none
  | .eof _ _ => none
  | .token envelope => some envelope.token

/-- The totals of a token are at least those of another one, and not negative if there is none. -/
structure Token.Continues (origin : Option Token) (token : Token) : Prop where
  processed : (origin.elim 0 fun t ↦ t.ring.totalProcessedCount) ≤ token.ring.totalProcessedCount
  sent : (origin.elim 0 fun t ↦ t.ring.totalSentCount.getD 0) ≤ token.ring.totalSentCount.getD 0

/-- What a handler run may show of itself: ordered counts, and tokens that continue the one that was
handled. -/
def KeepsTallies {α : Type} (origin : Option Token) : Visible Tally (Output α) → Prop
  | .send (.ring _ token) => token.Continues origin
  | .send (.data _) => True
  | .send (.finalEof _ _) => True
  | .become t => t.Ordered

section Handlers

variable {α : Type} {cfg : NodeConfig} {client : ClientId} {queryId : Option String}
  {v : Observed Unit} {token : Token}

theorem Tally.Ordered.report (h : v.tally.Ordered) : v.report.tally.Ordered where
  partialProcessed_nonneg := h.partialProcessed_nonneg.trans h.partialProcessed_le
  partialProcessed_le := le_rfl
  partialSent_nonneg := h.partialSent_nonneg.trans h.partialSent_le
  partialSent_le := le_rfl

theorem Tally.Ordered.count (h : v.tally.Ordered) (mid : MessageId) (sends : ℕ) :
    (v.count mid sends).tally.Ordered where
  partialProcessed_nonneg := h.partialProcessed_nonneg
  partialProcessed_le := h.partialProcessed_le.trans (Int.le_add_one le_rfl)
  partialSent_nonneg := h.partialSent_nonneg
  partialSent_le := h.partialSent_le.trans (le_add_of_nonneg_right (Int.natCast_nonneg sends))

theorem Tally.Ordered.flushed (h : v.tally.Ordered) (sends : ℕ) :
    (StatefulWorker.flushed v sends).tally.Ordered where
  partialProcessed_nonneg := h.partialProcessed_nonneg
  partialProcessed_le := h.partialProcessed_le
  partialSent_nonneg :=
    (h.partialSent_nonneg.trans h.partialSent_le).trans
      (le_add_of_nonneg_right (Int.natCast_nonneg sends))
  partialSent_le := le_rfl

theorem ordered_zero : Observed.zero.tally.Ordered := ⟨le_rfl, le_rfl, le_rfl, le_rfl⟩

theorem continues_startToken (h : v.tally.Ordered) (marker : EOF) :
    (startToken client v marker).Continues none where
  processed := Int.sub_nonneg_of_le h.partialProcessed_le
  sent := Int.sub_nonneg_of_le h.partialSent_le

theorem continues_countToken (h : v.tally.Ordered) :
    (countToken cfg client v token).Continues (some token) := by
  have hprocessed : v.partialProcessed ≤ v.processed := h.partialProcessed_le
  have hsent : v.partialSent ≤ v.sent := h.partialSent_le
  constructor
  · simp only [Option.elim_some, countToken]
    omega
  · simp only [Option.elim_some, countToken, Option.getD_some]
    omega

/-- What a node passes on when it has flushed. -/
theorem keeps_flushOutput {sent : ℤ} (hsent : 0 ≤ sent) (coordinatorId : NodeId) :
    KeepsTallies (α := α) (some token)
      (.send (flushOutput cfg client queryId sent token coordinatorId)) := by
  rw [flushOutput]
  split
  · exact trivial
  · exact ⟨le_rfl, le_add_of_nonneg_right hsent⟩

theorem keeps_cleanupOutput (coordinatorId : NodeId) :
    KeepsTallies (α := α) (some token)
      (.send (cleanupOutput cfg client queryId token coordinatorId)) := by
  rw [cleanupOutput]
  split
  · exact trivial
  · exact ⟨le_rfl, le_rfl⟩

/-- **Plans keep the counts ordered**, and tokens do not lose anything. -/
theorem keeps_of_plan {taken : Taken} {sends : ℕ}
    {plan : List (Visible (Observed Unit) (Output α))}
    (hplan : Plan cfg client queryId v taken sends plan) (h : v.tally.Ordered) :
    ∀ x ∈ plan, KeepsTallies taken.brought (x.map Observed.tally) := by
  have hdata : ∀ (msgs : List (Message α)) (x : Visible (Observed Unit) (Output α)),
      x ∈ (msgs.map Output.data).map Visible.send →
        KeepsTallies taken.brought (x.map Observed.tally) := by
    intro msgs x hx
    obtain ⟨o, ho, rfl⟩ := List.mem_map.mp hx
    obtain ⟨m, -, rfl⟩ := List.mem_map.mp ho
    exact trivial
  cases hplan with
  | duplicate hseen => exact fun x hx ↦ absurd hx List.not_mem_nil
  | data msgs hseen =>
    intro x hx
    rcases List.mem_append.mp hx with hx | hx
    · exact hdata msgs x hx
    · rw [List.mem_singleton.mp hx]
      exact h.count _ _
  | @eof mid marker _ hseen =>
    intro x hx
    simp only [List.mem_cons, List.not_mem_nil, or_false] at hx
    rcases hx with rfl | rfl | rfl
    · exact continues_startToken h marker
    · exact h.report
    · exact h.report
  | count hseen hcoord =>
    intro x hx
    simp only [List.mem_cons, List.not_mem_nil, or_false] at hx
    rcases hx with rfl | rfl
    · exact continues_countToken h
    · exact h.report
  | flush msgs hseen hcoord hexp =>
    -- a flush adds to the token what the node has sent and not reported
    have hsent : 0 ≤ v.sent + msgs.length - v.partialSent := by
      have hle : v.partialSent ≤ v.sent := h.partialSent_le
      omega
    intro x hx
    rw [List.map_append, List.append_assoc] at hx
    rcases List.mem_append.mp hx with hx | hx
    · exact hdata msgs x hx
    · simp only [List.map_cons, List.map_nil, List.singleton_append, List.mem_cons,
        List.not_mem_nil, or_false] at hx
      rcases hx with rfl | rfl
      · exact keeps_flushOutput hsent _
      · exact h.flushed _
  | cleanup hseen hcoord hexp =>
    intro x hx
    simp only [List.mem_cons, List.not_mem_nil, or_false] at hx
    rcases hx with rfl | rfl
    · exact keeps_cleanupOutput _
    · exact ordered_zero

end Handlers

namespace StatefulWorker

variable {w : StatefulWorker} {cfg : NodeConfig} {client : ClientId} {flow flow' : Flow w.State}
  {es : List (Eff w)}

theorem Sound.coarser {V W : Type} {ν : View w.discipline V} {ω : View w.discipline W} {f : V → W}
    (h : Sound ν flow flow' es) (hcoarser : ν.Coarser ω f) : Sound ω flow flow' es where
  consistent := by
    rw [hcoarser.view]
    exact hcoarser.consistent h.consistent
  final := by rw [hcoarser.view, hcoarser.view, h.final, hcoarser.applyAll]
  settled := h.settled

/-- The handler that drops a client is sound for the counts: its own record says that they are zero,
as the record before it did. -/
theorem sound_cleanup (o : Output w.Item) (mid : MessageId) :
    Sound w.tallies flow w.emptyFlow
      [.append .cleanup, .publish o, .append (.control (some mid) ⟨0, 0, 0⟩),
        .checkpoint w.emptyFlow] where
  consistent := ⟨rfl, Or.inr rfl, trivial⟩
  final := rfl
  settled := Or.inr rfl

/-- Every handler is sound for the counts, and shows what its plan says. -/
theorem sound_tallies {delivery : Delivery w} (h : Handles cfg client flow delivery (flow', es)) :
    Sound w.tallies flow flow' es ∧ ∃ sends plan,
      Plan cfg client w.queryId flow.observe.forget delivery.taken sends plan ∧
      ∀ x ∈ w.tallies.visible (w.tallies.view flow) es, ∃ y ∈ plan, x = y.map Observed.tally := by
  have hvisible : ∀ x ∈ w.tallies.visible (w.tallies.view flow) es,
      ∃ y ∈ w.counters.visible flow.observe.forget es, x = y.map Observed.tally := by
    intro x hx
    rw [show w.tallies.view flow = flow.observe.forget.tally from rfl,
      w.counters_coarser.visible] at hx
    obtain ⟨y, hy, rfl⟩ := List.mem_map.mp hx
    exact ⟨y, hy, rfl⟩
  match delivery with
  | .main message =>
    obtain ⟨hsound, hplan⟩ := plan_of_handleMessage cfg client 0 h
    exact ⟨hsound.coarser w.counters_coarser, 0, _, hplan, hvisible⟩
  | .control token =>
    obtain ⟨msgs, -, h⟩ := h
    let envelope : Envelope := { Envelope.blank with token }
    by_cases hquiet : token.ring.expectedCount ≠ cleanupExpectedCount ∨
        token.ring.coordinatorId = none
    · have hhandled : handleControlMessage cfg client msgs flow envelope.token = (flow', es) := h
      obtain ⟨hsound, hplan⟩ := plan_of_handleControlMessage cfg client hhandled hquiet
      exact ⟨hsound.coarser w.counters_coarser, _, _, hplan, hvisible⟩
    · rw [not_or, not_not] at hquiet
      obtain ⟨hexp, hcoord⟩ := hquiet
      obtain ⟨coordinatorId, hcoord⟩ := Option.ne_none_iff_exists'.mp hcoord
      by_cases hseen : token.messageId ∈ flow.observe.seen .control
      · obtain ⟨rfl, rfl⟩ := Prod.ext_iff.mp
          ((handleControlMessage_seen cfg client hseen msgs).symm.trans h)
        exact ⟨((sound_duplicate flow .control).counters).coarser w.counters_coarser, 0, [],
          .duplicate (not_not_intro hseen), fun x hx ↦ absurd hx List.not_mem_nil⟩
      · obtain ⟨rfl, rfl⟩ := Prod.ext_iff.mp
          ((handleControlMessage_cleanup cfg client hseen hcoord hexp msgs).symm.trans h)
        have hplan : Plan (α := w.Item) cfg client w.queryId flow.observe.forget (.token envelope) 0
            [.send (cleanupOutput cfg client w.queryId token coordinatorId), .become .zero] :=
          .cleanup hseen hcoord hexp
        refine ⟨sound_cleanup _ _, 0, _, hplan, ?_⟩
        -- the counts become zero twice, before and after the token is passed on
        intro x hx
        simp only [View.visible, List.mem_cons, List.not_mem_nil, or_false] at hx
        rcases hx with rfl | rfl | rfl
        · exact ⟨_, List.mem_cons_of_mem _ List.mem_cons_self, rfl⟩
        · exact ⟨_, List.mem_cons_self, rfl⟩
        · exact ⟨_, List.mem_cons_of_mem _ List.mem_cons_self, rfl⟩

end StatefulWorker

theorem Token.Continues.of_origin {token : Token} {origin : Option Token}
    (h : token.Continues origin) (horigin : ∀ t, origin = some t → t.Continues none) :
    token.Continues none := by
  match origin with
  | none => exact h
  | some t =>
    have ht := horigin t rfl
    exact ⟨ht.processed.trans h.processed, ht.sent.trans h.sent⟩

/-! ## Fleets -/

/-- A published token, with the one its sender was handling, if it was. -/
structure Hop where
  node : NodeId
  client : ClientId
  token : Token
  origin : Option Token

/-- The tokens among what a node publishes for a client. -/
def hopsOf {α : Type} (client : ClientId) (origin : Option Token) (outs : List (Output α)) :
    List Hop :=
  outs.filterMap fun o ↦
    match o with
    | .data _ => none
    | .ring node token => some { node, client, token, origin }
    | .finalEof _ _ => none

/-- The nodes of a stage, and every token that was ever published. -/
structure Fleet (w : StatefulWorker) where
  store : NodeId → w.WorkerStore
  hops : List Hop

namespace Fleet

variable {w : StatefulWorker} (n : ℕ)

def init (w : StatefulWorker) : Fleet w := ⟨fun _ ↦ ⟨fun _ ↦ w.emptyFlow, []⟩, []⟩

/-- A node handles a delivery, possibly dying on the way, or is restarted. What comes on the main
channel is not constrained; a token was sent to the node before, and may be delivered any number of
times and late. -/
inductive Step : Fleet w → Fleet w → Prop
  | deliver {s : Fleet w} {i : NodeId} {client : ClientId} {delivery : Delivery w}
      {flow : Flow w.State} {es : List (Eff w)} {point : Option ℕ} {outs : List (Output w.Item)}
      {store : w.WorkerStore} {compacted : Bool} (hi : i < n)
      (hsent : ∀ token, delivery = .control token → ∃ hop ∈ s.hops, hop.node = i ∧
        hop.client = client ∧ hop.token = token)
      (hhandles : Handles ⟨i, n⟩ client ((s.store i).mem client) delivery (flow, es))
      (hrun : w.discipline.Outcome (s.store i) client flow es point outs store compacted) :
      Step s
        { store := Function.update s.store i store
          hops := s.hops ++ hopsOf client delivery.taken.brought outs }
  | restart {s : Fleet w} {i : NodeId} {store : w.WorkerStore} (hi : i < n)
      (hrestart : w.discipline.Restarts (s.store i).log store) :
      Step s { s with store := Function.update s.store i store }

def Reachable (s : Fleet w) : Prop := Relation.ReflTransGen (Step n) (init w) s

/-- Memory and log agree on the counts of a client, and these are in order. -/
structure Counts (store : w.WorkerStore) (client : ClientId) : Prop where
  synced : w.tallies.Synced store client
  ordered : (w.tallies.view (store.mem client)).Ordered

/-- The invariant of a fleet. -/
structure Counted (s : Fleet w) : Prop where
  counts : ∀ i client, Counts (s.store i) client
  hops : ∀ hop ∈ s.hops, hop.token.Continues none ∧ hop.token.Continues hop.origin

variable {n} {cfg : NodeConfig} {client client' : ClientId} {delivery : Delivery w}
  {flow : Flow w.State} {es : List (Eff w)} {point : Option ℕ} {outs : List (Output w.Item)}
  {st store : w.WorkerStore} {compacted : Bool}

/-- **One handler run**: the counts of its client stay in order, and the tokens it sends continue
the one it handles. -/
theorem Counts.deliver (h : Counts st client)
    (hhandles : Handles cfg client (st.mem client) delivery (flow, es))
    (hrun : w.discipline.Outcome st client flow es point outs store compacted) :
    Counts store client ∧
      ∀ node token, .ring node token ∈ outs → token.Continues delivery.taken.brought := by
  obtain ⟨hsound, sends, plan, hplan, hshown⟩ := sound_tallies hhandles
  obtain ⟨seen, hseen, -, rfl, hsync, hview⟩ :=
    hsound.outcome_visible hrun h.synced
  have hkeeps : ∀ x ∈ seen, KeepsTallies delivery.taken.brought x := by
    intro x hx
    obtain ⟨y, hy, rfl⟩ := hshown x (hseen.subset hx)
    exact keeps_of_plan hplan h.ordered y hy
  refine ⟨⟨hsync, ?_⟩, fun node token hmem ↦ hkeeps _ (send_mem_of_mem_sent hmem)⟩
  rw [hview]
  rcases settle_mem (w.tallies.view (st.mem client)) seen with heq | hmem
  · rw [heq]
    exact h.ordered
  · exact hkeeps _ hmem

theorem Counts.deliver_of_ne (h : Counts st client') (hne : client ≠ client')
    (hrun : w.discipline.Outcome st client flow es point outs store compacted) :
    Counts store client' := by
  obtain ⟨hsync, hview⟩ := w.tallies.outcome_view_of_ne w.settled_replayRecord hrun hne h.synced
  exact ⟨hsync, hview ▸ h.ordered⟩

theorem Counts.restart (h : Counts st client) (hrestart : w.discipline.Restarts st.log store) :
    Counts store client := by
  obtain ⟨hview, hsync⟩ := w.tallies.synced_of_restarts w.settled_replayRecord hrestart client
  exact ⟨hsync, (hview.trans h.synced.1.symm) ▸ h.ordered⟩

theorem counted_init : Counted (init w) where
  counts _ _ := ⟨⟨rfl, Discipline.settled_empty⟩, ⟨le_rfl, le_rfl, le_rfl, le_rfl⟩⟩
  hops _ hmem := absurd hmem List.not_mem_nil

/-- **One step of a fleet.** -/
theorem Counted.step {s s' : Fleet w} (h : Counted s) (hstep : Step n s s') : Counted s' := by
  cases hstep with
  | @deliver i client delivery flow es point outs store compacted hi hsent hhandles hrun =>
    obtain ⟨hcounts, hcontinues⟩ := (h.counts i client).deliver hhandles hrun
    constructor
    · intro j client'
      refine Family.forall_update (P := fun j (st : w.WorkerStore) ↦ Counts st client')
        (fun j ↦ h.counts j client') ?_ j
      by_cases hclient : client = client'
      · exact hclient ▸ hcounts
      · exact (h.counts i client').deliver_of_ne hclient hrun
    · intro hop hmem
      rcases List.mem_append.mp hmem with hmem | hmem
      · exact h.hops hop hmem
      · obtain ⟨o, ho, heq⟩ := List.mem_filterMap.mp hmem
        match o with
        | .data _ => exact absurd heq (by simp)
        | .finalEof _ _ => exact absurd heq (by simp)
        | .ring node token =>
          obtain rfl := Option.some.inj heq
          have hnext := hcontinues node token ho
          refine ⟨hnext.of_origin fun t ht ↦ ?_, hnext⟩
          -- the token that was handled is one that was sent before
          match delivery with
          | .main (.data _ _) =>
            exact absurd ht (by simp [Delivery.taken, MainMessage.taken, Taken.brought])
          | .main (.eof _ _) =>
            exact absurd ht (by simp [Delivery.taken, MainMessage.taken, Taken.brought])
          | .control origin =>
            obtain rfl := Option.some.inj ht
            obtain ⟨hop, hhop, -, -, htoken⟩ := hsent _ rfl
            exact htoken ▸ (h.hops hop hhop).1
  | @restart i store hi hrestart =>
    refine ⟨fun j client ↦ ?_, h.hops⟩
    exact Family.forall_update (P := fun j (st : w.WorkerStore) ↦ Counts st client)
      (fun j ↦ h.counts j client) ((h.counts i client).restart hrestart) j

theorem counted_of_reachable {s : Fleet w} (hreach : Reachable n s) : Counted s := by
  induction hreach with
  | refl => exact counted_init
  | tail _ hstep ih => exact ih.step hstep

/-! ## Stages -/

/-- The tokens in the queues of a stage are among those that were published for the client. -/
def Covers {α : Type} (client : ClientId) (hops : List Hop) (net : Network α) : Prop :=
  ∀ i, ∀ envelope ∈ net.control i,
    ∃ hop ∈ hops, hop.node = i ∧ hop.client = client ∧ hop.token = envelope.token

theorem Covers.handled {α σ : Type} {hops : List Hop} {net : Network α} {i : NodeId}
    {v : Observed σ}
    {taken : Taken} {outs : List (Output α)} (h : Covers client hops net) (origin : Option Token) :
    Covers client (hops ++ hopsOf client origin outs) (net.handled i v taken outs) := by
  intro j envelope hmem
  rcases Network.mem_control_handled hmem with hmem | ⟨token, hsent, rfl⟩
  · obtain ⟨hop, hhop, hplace⟩ := h j envelope hmem
    exact ⟨hop, List.mem_append_left _ hhop, hplace⟩
  · refine ⟨⟨j, client, token, origin⟩, List.mem_append_right _ ?_, rfl, rfl, rfl⟩
    exact List.mem_filterMap.mpr ⟨_, hsent, rfl⟩

/-- **What the nodes of a stage do, those of a fleet do.** -/
theorem exists_of_stage {condition : Stage w → Label → Prop} {inbox : NodeId → List (MainMessage w)}
    {s : Stage w} (hreach : Stage.Reachable n client condition (Stage.init inbox) s) :
    ∃ hops, Reachable n ⟨s.store, hops⟩ ∧ Covers client hops s.net := by
  induction hreach with
  | refl => exact ⟨[], .refl, fun i envelope hmem ↦ absurd hmem List.not_mem_nil⟩
  | tail _ hstep ih =>
    obtain ⟨hops, hreach, hcovers⟩ := ih
    obtain ⟨l, -, hstep⟩ := hstep
    cases hstep with
    | @main i before after message flow es point outs store compacted hi hinbox hhandles hrun =>
      exact ⟨_, hreach.tail (.deliver hi (fun _ h ↦ absurd h (by simp)) hhandles hrun),
        hcovers.handled _⟩
    | @token i envelope rest msgs flow es point outs store compacted hi hhead hflush
      hhandles hrun =>
      have hmem := hcovers i envelope (hhead ▸ List.mem_cons_self)
      have hsent : ∀ token, Delivery.control (w := w) envelope.token = .control token →
          ∃ hop ∈ hops, hop.node = i ∧ hop.client = client ∧ hop.token = token := by
        intro token heq
        obtain rfl := Delivery.control.inj heq
        exact hmem
      refine ⟨_, hreach.tail (.deliver hi hsent ⟨msgs, hflush, hhandles⟩ hrun), ?_⟩
      dsimp only
      split
      · exact fun j next hnext ↦ hcovers.handled _ j next (Network.mem_control_pop hnext)
      · exact hcovers.handled _
    | restart hi hrestart => exact ⟨hops, hreach.tail (.restart hi hrestart), hcovers⟩

/-! ## The totals of tokens -/

/-- **What a node adds to a token is never negative.** In every state of every run of a stage, with
any messages, tokens of any kind, redeliveries, compactions, crashes and restarts: no count of a
client is below its report, where a missing entry counts as zero, and no report is negative; so the
totals of every token ever published are not negative, and at least those of the token its sender
was handling. -/
theorem ring_deltas_nonneg {s : Fleet w} (hreach : Reachable n s) :
    (∀ i client,
      0 ≤ ((s.store i).mem client).partialProcessedCount.getD 0 ∧
      ((s.store i).mem client).partialProcessedCount.getD 0
        ≤ ((s.store i).mem client).processedCount.getD 0 ∧
      0 ≤ ((s.store i).mem client).partialSentCount.getD 0 ∧
      ((s.store i).mem client).partialSentCount.getD 0
        ≤ ((s.store i).mem client).sentCount.getD 0) ∧
    ∀ hop ∈ s.hops,
      0 ≤ hop.token.ring.totalProcessedCount ∧ 0 ≤ hop.token.ring.totalSentCount.getD 0 ∧
      ∀ origin, hop.origin = some origin →
        origin.ring.totalProcessedCount ≤ hop.token.ring.totalProcessedCount ∧
        origin.ring.totalSentCount.getD 0 ≤ hop.token.ring.totalSentCount.getD 0 := by
  have hcounted := counted_of_reachable hreach
  refine ⟨fun i client ↦ ?_, fun hop hmem ↦ ?_⟩
  · obtain ⟨hp, hple, hs, hsle⟩ := (hcounted.counts i client).ordered
    exact ⟨hp, hple, hs, hsle⟩
  · obtain ⟨hnonneg, hcontinues⟩ := hcounted.hops hop hmem
    refine ⟨hnonneg.processed, hnonneg.sent, fun origin horigin ↦ ?_⟩
    rw [horigin] at hcontinues
    exact ⟨hcontinues.processed, hcontinues.sent⟩

/-- A handler that is given its message can run to its end without a compaction. -/
theorem step_complete {s : Fleet w} {i : NodeId} (hi : i < n)
    (hsent : ∀ token, delivery = .control token → ∃ hop ∈ s.hops, hop.node = i ∧
      hop.client = client ∧ hop.token = token)
    (hhandles : Handles ⟨i, n⟩ client ((s.store i).mem client) delivery (flow, es)) :
    Step n s
      { store := Function.update s.store i ⟨Function.update (s.store i).mem client flow,
          (s.store i).log ++ (appends es).map fun r ↦ (client, r)⟩
        hops := s.hops ++ hopsOf client delivery.taken.brought (publishes es) } :=
  .deliver hi hsent hhandles (.complete (Discipline.exec_keep _ _ _ _))

/-- Two nodes with a message each. The first one is sent the end of the stream, which announces
more, and the end of a cleanup. -/
def leavingInbox : NodeId → List (MainMessage countingWorker)
  | 0 => [.data "c:0:0" ⟨1⟩, .eof "c:eof" ⟨3⟩, .eof "c:end" ⟨cleanupExpectedCount⟩]
  | 1 => [.data "c:1:0" ⟨1⟩]
  | _ => []

/-- A node dies when it has sent a token, sends it again, and the other node adds what it has
counted. Then the client is cleaned up, on the first node only as yet. -/
theorem ring_deltas_nonneg_cleanup :
    ∃ s : Fleet countingWorker, Reachable 2 s ∧
      ((s.store 0).mem "c").processedCount.getD 0 = 0 ∧
      ((s.store 1).mem "c").processedCount.getD 0 = 1 ∧
      (∃ hop ∈ s.hops, hop.token.ring.totalProcessedCount = 2) ∧
      (∃ hop ∈ s.hops, hop.origin ≠ none ∧ hop.token.ring.expectedCount = cleanupExpectedCount) ∧
      ∀ hop ∈ s.hops, 0 ≤ hop.token.ring.totalProcessedCount := by
  let w := countingWorker
  let r₀ : Ring w.Item := (Stage.init leavingInbox).ring "c"
  let moves : List Move := [.main 0 0 none, .main 1 0 none, .main 0 0 (some 1)]
  let more : List Move := [.token 1 none, .main 0 0 none, .main 0 0 none, .token 1 none,
    .token 1 none, .token 0 none]
  have hruns : ∃ r ∈ (r₀.run 2 "c" w.queryId moves).bind fun r ↦ r.run 2 "c" w.queryId more,
      (∃ envelope ∈ (r.net.control 0).head?, envelope.token.ring.coordinatorId = some 1 ∧
        envelope.token.ring.expectedCount = cleanupExpectedCount ∧
        envelope.messageId ∉ (r.node 0).seen .control) ∧
      (∃ envelope ∈ r.net.control 1, envelope.token.ring.totalProcessedCount = 2) ∧
      (r.node 1).processed = 1 := by
    decide +kernel
  obtain ⟨r₂, hr, ⟨envelope, hhead, hcoord, hexp, hunseen⟩, ⟨counted, hmem, htotal⟩, hprocessed⟩ :=
    hruns
  obtain ⟨r₁, hr₁, hr₂⟩ := Option.bind_eq_some_iff.mp hr
  have halong : r₀.Along 2 "c" w.queryId
      (fun r move ↦ r.Quiet move ∧ r.Allowed (fun _ _ ↦ True) move) moves := by
    refine ⟨⟨?_, fun _ _ ↦ trivial⟩, ⟨?_, fun _ _ ↦ trivial⟩, ⟨?_, fun _ _ ↦ trivial⟩, trivial⟩ <;>
      rintro envelope ⟨⟩
  obtain ⟨s₁, hreach₁, -, rfl⟩ :=
    Stage.exists_run silent_countingWorker (Stage.synced_init _) hr₁ halong
  obtain ⟨s₂, hreach₂, rfl⟩ := Stage.exists_run_complete silent_countingWorker hr₂ (by decide)
  have hreach₂ : Stage.Reachable 2 "c" (fun _ _ ↦ True) s₁ s₂ :=
    Relation.ReflTransGen.mono (fun _ _ ⟨l, _, hstep⟩ ↦ ⟨l, trivial, hstep⟩) _ _ hreach₂
  obtain ⟨hops, hreach, hcovers⟩ := exists_of_stage (hreach₁.trans hreach₂)
  -- the first node drops the client
  have hqueued : ∀ token, Delivery.control (w := w) envelope.token = .control token →
      ∃ hop ∈ hops, hop.node = 0 ∧ hop.client = "c" ∧ hop.token = token := by
    intro token heq
    obtain rfl := Delivery.control.inj heq
    exact hcovers 0 envelope (List.mem_of_mem_head? hhead)
  obtain ⟨msgs, hmsgs⟩ := w.exists_flushData 0 "c" ((s₂.store 0).mem "c").state
  have hhandles : Handles ⟨0, 2⟩ "c" ((s₂.store 0).mem "c") (.control envelope.token) (_, _) :=
    ⟨msgs, hmsgs, handleControlMessage_cleanup ⟨0, 2⟩ "c" hunseen hcoord hexp msgs⟩
  have hreach' := hreach.tail (step_complete (by decide) hqueued hhandles)
  refine ⟨_, hreach', ?_, hprocessed, ?_, ?_, fun hop hmem ↦
    ((ring_deltas_nonneg hreach').2 hop hmem).1⟩
  · simp only [Function.update_self]
    rfl
  · obtain ⟨hop, hhop, -, -, htoken⟩ := hcovers 1 counted hmem
    exact ⟨hop, List.mem_append_left _ hhop, htoken ▸ htotal⟩
  · exact ⟨_, List.mem_append_right _ List.mem_cons_self, Option.some_ne_none _, hexp⟩

end Fleet

end MoneyLaundering
