import MoneyLaundering.Ring.Announced

/-!
# A ring comes to an end

A counting token goes around as long as something is missing. Once the nodes of a stage have taken
all that its end announces, it takes one lap at most until a node finds that nothing is missing, and
one more until the coordinator ends the stream (`ring_terminates`). `Remaining` bounds the number of
tokens that are still to be handled: while the token counts, by the nodes ahead of it that have not
reported everything.
-/

namespace MoneyLaundering

open StatefulWorker

variable {α : Type} {feed : Feed} {n m : ℕ} {client : ClientId} {queryId : Option String}
  {i : NodeId} {r r' : Ring α} {l : Label}

/-- The nodes have seen all that is addressed to them. -/
def Feed.Delivered (feed : Feed) (n : ℕ) (r : Ring α) : Prop :=
  ∀ i < n, feed.addressed i ⊆ (r.node i).seen .main

/-- No more than `m` tokens are still to be handled. -/
inductive Remaining (n : ℕ) (r : Ring α) (m : ℕ) : Prop
  | ended (hcontrol : r.net.control = fun _ ↦ [])
  /-- The nodes that have something to report are among the next `k`. -/
  | counting (k : ℕ) (i : NodeId) (envelope : Envelope) (hi : i < n)
      (hcontrol : r.net.control = Function.update (fun _ ↦ []) i [envelope])
      (hcoord : envelope.token.ring.coordinatorId = none)
      (hlag : ∀ j < n, (r.node j).partialProcessed ≠ (r.node j).processed →
        ∃ t < k, (i + t) % n = j)
      (hk : 0 < k) (hm : k + n ≤ m)
  | flushing (k : ℕ) (b : NodeId) (envelope : Envelope) (hk : k < n) (hb : b < n)
      (hcontrol : r.net.control = Function.update (fun _ ↦ []) ((b + 1 + k) % n) [envelope])
      (hcoord : envelope.token.ring.coordinatorId = some b) (hm : n ≤ k + m)

namespace Remaining

/-- Two laps are enough. -/
theorem of_phase (h : Phase feed n client r) (hn : 0 < n) : Remaining n r (2 * n) := by
  cases h with
  | waiting heof hcontrol => exact .ended hcontrol
  | counting k envelope heof hcontrol hcoord =>
    refine .counting n _ envelope (Nat.mod_lt _ hn) hcontrol hcoord (fun j hj _ ↦ ?_) hn (by omega)
    exact Around.exists_step hj
  | flushing k b envelope hk hb heof hcontrol hcoord =>
    exact .flushing k b envelope hk hb hcontrol hcoord (by omega)
  | done b mid hb heof hcontrol => exact .ended hcontrol

/-- If no other node has something to report, the node that has the token finds that nothing is
missing. -/
theorem elected_of_reported (haccounting : Accounting feed n client r)
    (hexpected : feed.expected = ∑ i ∈ Finset.range n, ((feed.addressed i).card : ℤ))
    (hdelivered : feed.Delivered n r) (hi : i < n) {envelope : Envelope} {rest : List Envelope}
    (hhead : r.net.control i = envelope :: rest) (hcoord : envelope.token.ring.coordinatorId = none)
    (hothers : ∀ j < n, j ≠ i → (r.node j).partialProcessed = (r.node j).processed) :
    envelope.token.ring.expectedCount ≤ envelope.token.ring.totalProcessedCount
      + (r.node i).processed - (r.node i).partialProcessed := by
  have hprocessed : ∀ j ∈ Finset.range n,
      (r.node j).processed = ((feed.addressed j).card : ℤ) := by
    intro j hj
    rw [haccounting.processed, Finset.inter_eq_right.mpr (hdelivered j (Finset.mem_range.mp hj))]
  have hmissing : ∑ j ∈ Finset.range n, ((r.node j).processed - (r.node j).partialProcessed)
      = (r.node i).processed - (r.node i).partialProcessed := by
    refine Finset.sum_eq_single i (fun j hj hne ↦ ?_) fun hnot ↦
      absurd (Finset.mem_range.mpr hi) hnot
    rw [hothers j (Finset.mem_range.mp hj) hne, sub_self]
  rw [Finset.sum_sub_distrib, Finset.sum_congr rfl hprocessed, ← hexpected] at hmissing
  have hmem : envelope ∈ r.net.control i := by
    rw [hhead]
    exact List.mem_cons_self
  have htotal := (haccounting.totals i envelope hmem).1
  rw [Envelope.total] at htotal
  rw [(haccounting.tokens i envelope hmem).1]
  cases haccounting.phase with
  | waiting heof hcontrol => simp [hcontrol] at hhead
  | done b mid hb heof hcontrol => simp [hcontrol] at hhead
  | flushing k b envelope' hk hb heof hcontrol hcoord' =>
    obtain ⟨-, rfl⟩ := Network.eq_of_control hcontrol hhead
    exact absurd (hcoord'.symm.trans hcoord) (Option.some_ne_none b)
  | counting k envelope' heof hcontrol hcoord' hid hcarries =>
    obtain ⟨-, rfl⟩ := Network.eq_of_control hcontrol hhead
    simp only [(hcarries _).1] at htotal
    omega

/-- A node reports to a counting token. -/
theorem count (haccounting : Accounting feed n client r)
    (hexpected : feed.expected = ∑ i ∈ Finset.range n, ((feed.addressed i).card : ℤ))
    (hdelivered : feed.Delivered n r) (h : Remaining n r m) (hi : i < n) {envelope : Envelope}
    {rest : List Envelope} (hhead : r.net.control i = envelope :: rest)
    (hcoord : envelope.token.ring.coordinatorId = none) :
    0 < m ∧ Remaining n
      ⟨Function.update r.node i ((r.node i).report.see .control envelope.messageId), r.inbox,
        (r.net.handled i (r.node i) (.token envelope)
          [.ring ((i + 1) % n) (countToken ⟨i, n⟩ client (r.node i) envelope.token)]).pop i⟩
      (m - 1) := by
  cases h with
  | ended hcontrol => simp [hcontrol] at hhead
  | flushing k b envelope' hk hb hcontrol hcoord' =>
    obtain ⟨-, rfl⟩ := Network.eq_of_control hcontrol hhead
    exact absurd (hcoord'.symm.trans hcoord) (Option.some_ne_none b)
  | counting k j envelope' hj hcontrol hcoord' hlag hk hm =>
    obtain ⟨rfl, rfl⟩ := Network.eq_of_control hcontrol hhead
    set token := countToken ⟨j, n⟩ client (r.node j) envelope'.token with htoken
    have hcontrol' :
        ((r.net.handled j (r.node j) (.token envelope') [.ring ((j + 1) % n) token]).pop
        j).control = Function.update (fun _ ↦ []) ((j + 1) % n) [envelope'.pass j token] :=
      Network.control_relay hcontrol leaves_nil
    refine ⟨by omega, ?_⟩
    by_cases helected : envelope'.token.ring.expectedCount
        ≤ envelope'.token.ring.totalProcessedCount + (r.node j).processed
          - (r.node j).partialProcessed
    · -- the node becomes the coordinator
      exact .flushing 0 j (envelope'.pass j token) (Nat.zero_lt_of_lt hi) hi hcontrol'
        (if_pos helected) (by omega)
    · -- some other node has something to report
      have hlater : 1 < k := by
        by_contra hnot
        obtain rfl : k = 1 := by omega
        refine helected (elected_of_reported haccounting hexpected hdelivered hi hhead hcoord
          fun j' hj' hne ↦ ?_)
        by_contra hreported
        obtain ⟨t, ht, hplace⟩ := hlag j' hj' hreported
        obtain rfl : t = 0 := by omega
        rw [Nat.add_zero, Nat.mod_eq_of_lt hi] at hplace
        exact hne hplace.symm
      refine .counting (k - 1) ((j + 1) % n) (envelope'.pass j token)
        (Nat.mod_lt _ (Nat.zero_lt_of_lt hi)) hcontrol' (if_neg helected)
          (fun j' hj' hreported ↦ ?_)
        (by omega) (by omega)
      dsimp only at hreported
      -- the node itself has reported
      have hne : j' ≠ j := by
        rintro rfl
        rw [Function.update_self] at hreported
        exact hreported rfl
      rw [Function.update_of_ne hne] at hreported
      obtain ⟨t, ht, hplace⟩ := hlag j' hj' hreported
      have ht' : t ≠ 0 := by
        rintro rfl
        rw [Nat.add_zero, Nat.mod_eq_of_lt hi] at hplace
        exact hne hplace.symm
      obtain ⟨t, rfl⟩ := Nat.exists_eq_succ_of_ne_zero ht'
      refine ⟨t, by omega, ?_⟩
      rw [← hplace, Nat.mod_add_mod, Nat.add_assoc, Nat.add_comm 1 t]

/-- A node flushes. -/
theorem flush (h : Remaining n r m) {envelope : Envelope} {rest : List Envelope}
    (hhead : r.net.control i = envelope :: rest) {coordinatorId : NodeId}
    (hcoord : envelope.token.ring.coordinatorId = some coordinatorId) (msgs : List (Message α))
    (sent : ℤ) (v : Observed Unit) :
    0 < m ∧ Remaining n
      ⟨Function.update r.node i v, r.inbox, (r.net.handled i (r.node i) (.token envelope)
        (msgs.map .data ++ [flushOutput ⟨i, n⟩ client queryId sent envelope.token
          coordinatorId])).pop i⟩
      (m - 1) := by
  cases h with
  | ended hcontrol => simp [hcontrol] at hhead
  | counting k j envelope' hj hcontrol hcoord' =>
    obtain ⟨-, rfl⟩ := Network.eq_of_control hcontrol hhead
    exact absurd (hcoord.symm.trans hcoord') (Option.some_ne_none coordinatorId)
  | flushing k b envelope' hk hb hcontrol hcoord' hm =>
    obtain ⟨hplace, rfl⟩ := Network.eq_of_control hcontrol hhead
    obtain rfl := Option.some.inj (hcoord'.symm.trans hcoord)
    refine ⟨by omega, ?_⟩
    by_cases hlast : b = i
    · -- the coordinator has flushed last, and ends the stream
      refine .ended (Network.control_last (hplace ▸ hcontrol) fun o ho ↦ ?_)
      rcases List.mem_append.mp ho with ho | ho
      · exact leaves_map_data msgs o ho
      · rw [List.mem_singleton.mp ho, flushOutput, if_pos hlast]
        exact trivial
    · have hk' : k + 1 < n := by
        refine lt_of_le_of_ne hk fun heq ↦ hlast ?_
        rw [← hplace, Nat.add_assoc, Nat.add_comm 1 k, heq, Nat.add_mod_right, Nat.mod_eq_of_lt hb]
      rw [flushOutput_of_ne client queryId sent _ hlast]
      refine .flushing (k + 1) b
        (envelope'.pass i (flushToken client sent envelope'.token)) hk' hb ?_
        hcoord (by omega)
      rw [Around.next_step n (b + 1) k, hplace]
      exact Network.control_relay (hplace ▸ hcontrol) (leaves_map_data msgs)

/-- **Every step is one less**, when all messages have been taken. -/
theorem step (haccounting : Accounting feed n client r)
    (hexpected : feed.expected = ∑ i ∈ Finset.range n, ((feed.addressed i).card : ℤ))
    (hdelivered : feed.Delivered n r) (hinbox : ∀ i, r.inbox i = []) (h : Remaining n r m)
    (hl : l.Complete) (hstep : Ring.Step n client queryId r l r') :
    0 < m ∧ Remaining n r' (m - 1) := by
  refine Ring.complete_preserves (P := fun r' ↦ 0 < m ∧ Remaining n r' (m - 1)) hstep hl ?_ ?_
  · intro i before taken after sends outs v hi hinbox' hcompletion
    rw [hinbox i] at hinbox'
    exact absurd hinbox'.symm (List.append_ne_nil_of_right_ne_nil _ (List.cons_ne_nil _ _))
  · intro i envelope rest sends outs v hi hhead hcompletion
    have hmem : envelope ∈ r.net.control i := by
      rw [hhead]
      exact List.mem_cons_self
    cases hcompletion with
    | duplicate hfresh => exact absurd (haccounting.phase.fresh hmem) hfresh
    | count hfresh hcoord => exact h.count haccounting hexpected hdelivered hi hhead hcoord
    | flush msgs hfresh hcoord hexp => exact h.flush hhead hcoord msgs _ _
    | cleanup hfresh hcoord hexp => exact absurd hexp (haccounting.quiet i envelope hmem)

end Remaining

/-! ## Stages -/

section Stages

variable {w : StatefulWorker} {inbox : NodeId → List (MainMessage w)} {s s' : Stage w}

/-- The nodes are sent a feed, and all of it. -/
structure Feed.Fills (feed : Feed) (n : ℕ) (inbox : NodeId → List (MainMessage w)) : Prop where
  expected : feed.expected = ∑ i ∈ Finset.range n, ((feed.addressed i).card : ℤ)
  allows : ∀ i, ∀ message ∈ inbox i, feed.Allows i message.taken
  all : ∀ i < n, ∀ mid ∈ feed.addressed i, ∃ payload, .data mid payload ∈ inbox i
  eof : .eof feed.eofId ⟨feed.expected⟩ ∈ inbox feed.eofNode

namespace Stage

theorem delivered_of_reachable (hfills : feed.Fills n inbox)
    (hreach : Stage.Reachable n client (fun _ l ↦ l.Complete) (Stage.init inbox) s)
    (hinbox : ∀ i, s.inbox i = []) : feed.Delivered n (s.ring client) := by
  intro i hi mid hmid
  obtain ⟨payload, hmem⟩ := hfills.all i hi mid hmid
  exact seen_of_reachable hfills.expected hfills.allows hreach hinbox hmem

theorem remaining_of_reachable (hfills : feed.Fills n inbox) (hn : 0 < n)
    (hreach : Stage.Reachable n client (fun _ l ↦ l.Complete) (Stage.init inbox) s) :
    Remaining n (s.ring client) (2 * n) :=
  .of_phase (accounting_of_reachable hfills.expected hfills.allows hreach).phase hn

theorem remaining_step (hfills : feed.Fills n inbox)
    (hreach : Stage.Reachable n client (fun _ l ↦ l.Complete) (Stage.init inbox) s)
    (hinbox : ∀ i, s.inbox i = []) (h : Remaining n (s.ring client) m) (hl : l.Complete)
    (hstep : Step n client s l s') : 0 < m ∧ Remaining n (s'.ring client) (m - 1) := by
  refine h.step (accounting_of_reachable hfills.expected hfills.allows hreach) hfills.expected
    (delivered_of_reachable hfills hreach hinbox) (fun i ↦ ?_) hl (ring_step_of_complete hl hstep)
  exact congrArg (List.map MainMessage.taken) (hinbox i)

/-- Nothing is put in a main queue. -/
theorem inbox_eq_nil_of_step (hinbox : ∀ i, s.inbox i = []) (hstep : Step n client s l s')
    (i : NodeId) : s'.inbox i = [] := by
  cases hstep with
  | main hi hinbox' hhandles hrun =>
    rw [hinbox] at hinbox'
    exact absurd hinbox'.symm (List.append_ne_nil_of_right_ne_nil _ (List.cons_ne_nil _ _))
  | token hi hhead hflush hhandles hrun => exact hinbox i
  | restart hi hrestart => exact hinbox i

/-- Tokens are for nodes of the stage. -/
theorem control_eq_nil_of_le (hfills : feed.Fills n inbox) (hn : 0 < n)
    (hreach : Stage.Reachable n client (fun _ l ↦ l.Complete) (Stage.init inbox) s) (hi : n ≤ i) :
    s.net.control i = [] := by
  have hplace : ∀ {k : ℕ} {envelope : Envelope}, k < n →
      s.net.control = Function.update (fun _ ↦ []) k [envelope] → s.net.control i = [] := by
    intro k envelope hk hcontrol
    rw [hcontrol, Function.update_of_ne (hk.trans_le hi).ne']
  cases remaining_of_reachable hfills hn hreach with
  | ended hcontrol => exact congrFun hcontrol i
  | counting k j envelope hj hcontrol => exact hplace hj hcontrol
  | flushing k b envelope hk hb hcontrol => exact hplace (Nat.mod_lt _ hn) hcontrol

/-- No token is left in a stage that can do nothing. -/
theorem control_eq_nil_of_stuck (hfills : feed.Fills n inbox) (hn : 0 < n)
    (hreach : Stage.Reachable n client (fun _ l ↦ l.Complete) (Stage.init inbox) s)
    (hstuck : ∀ l s', l.Complete → ¬Step n client s l s') (i : NodeId) : s.net.control i = [] := by
  rcases lt_or_ge i n with hi | hi
  · cases hhead : s.net.control i with
    | nil => rfl
    | cons envelope rest =>
      obtain ⟨l, s', -, hl, hstep, -⟩ := @exists_step_of_token n client i w s hi _ _ hhead
      exact absurd hstep (hstuck l s' hl)
  · exact control_eq_nil_of_le hfills hn hreach hi

/-- Where all messages are taken and no token is left, the stream was ended. -/
theorem ended_of_control (hfills : feed.Fills n inbox)
    (hreach : Stage.Reachable n client (fun _ l ↦ l.Complete) (Stage.init inbox) s)
    (hinbox : ∀ i, s.inbox i = []) (hcontrol : ∀ i, s.net.control i = []) :
    (∀ i < n, i ∈ s.net.flushes) ∧
      ∃ b mid, s.net.finals = [(b, .finalEof mid ⟨s.net.published.length⟩)] := by
  have haccounting := accounting_of_reachable hfills.expected hfills.allows hreach
  have hqueued : ∀ {i envelope}, s.net.control ≠ Function.update (fun _ ↦ []) i [envelope] := by
    intro i envelope heq
    have hnil := hcontrol i
    rw [heq, Function.update_self] at hnil
    exact List.cons_ne_nil _ _ hnil
  cases haccounting.phase with
  | waiting hnot =>
    -- the node that the end was sent to has taken it
    exact absurd (seen_of_reachable hfills.expected hfills.allows hreach hinbox hfills.eof) hnot
  | counting k envelope heof hcontrol => exact absurd hcontrol hqueued
  | flushing k b envelope hk hb heof hcontrol => exact absurd hcontrol hqueued
  | done b mid hb heof hcontrol' hreported hflushes hfinals =>
    constructor
    · intro i hi
      have hflushes' : s.net.flushes = _ := hflushes
      obtain ⟨t, ht, hplace⟩ := Around.exists_step (i := b + 1) hi
      rw [hflushes', List.mem_map]
      exact ⟨t, List.mem_range.mpr ht, hplace⟩
    · have hpublished : (s.net.published.length : ℤ)
          = ∑ j ∈ Finset.range n, (s.node client j).sent := haccounting.published
      exact ⟨b, mid, by rw [hpublished]; exact hfinals⟩

/-- Each step of a run takes one of the tokens that remain. -/
theorem remaining_run (hfills : feed.Fills n inbox) (hn : 0 < n) {run : ℕ → Stage w}
    (hreach : Stage.Reachable n client (fun _ l ↦ l.Complete) (Stage.init inbox) (run 0))
    (hinbox : ∀ i, (run 0).inbox i = []) {k : ℕ}
    (hrun : ∀ j < k, ∃ l, l.Complete ∧ Step n client (run j) l (run (j + 1))) :
    Stage.Reachable n client (fun _ l ↦ l.Complete) (Stage.init inbox) (run k) ∧
      (∀ i, (run k).inbox i = []) ∧ k ≤ 2 * n ∧
        Remaining n ((run k).ring client) (2 * n - k) := by
  induction k with
  | zero => exact ⟨hreach, hinbox, Nat.zero_le _, remaining_of_reachable hfills hn hreach⟩
  | succ k ih =>
    obtain ⟨hreach, hinbox, hle, hremaining⟩ := ih fun j hj ↦ hrun j (Nat.lt_succ_of_lt hj)
    obtain ⟨l, hl, hstep⟩ := hrun k (Nat.lt_succ_self k)
    obtain ⟨hpos, hremaining'⟩ := remaining_step hfills hreach hinbox hremaining hl hstep
    exact ⟨hreach.tail ⟨l, hl, hstep⟩, inbox_eq_nil_of_step hinbox hstep, by omega, hremaining'⟩

end Stage

/-- **A ring terminates.** In a run without crashes and cleanups of a stage that is sent all that
its end announces: once the nodes have taken everything, no more than two laps of tokens follow. If
then nothing is left that the stage could do, all nodes have flushed, and the stream was ended, with
the number of messages that were published. -/
theorem ring_terminates (w : StatefulWorker) {n : ℕ} (hn : 0 < n) {client : ClientId} {feed : Feed}
    {inbox : NodeId → List (MainMessage w)} (hfills : feed.Fills n inbox) {run : ℕ → Stage w}
    (hreach : Stage.Reachable n client (fun _ l ↦ l.Complete) (Stage.init inbox) (run 0))
    (hinbox : ∀ i, (run 0).inbox i = []) {k : ℕ}
    (hrun : ∀ j < k, ∃ l, l.Complete ∧ Stage.Step n client (run j) l (run (j + 1))) :
    k ≤ 2 * n ∧ ((∀ l s, l.Complete → ¬Stage.Step n client (run k) l s) →
      (∀ i < n, i ∈ (run k).net.flushes) ∧
        ∃ b mid, (run k).net.finals = [(b, .finalEof mid ⟨(run k).net.published.length⟩)]) := by
  obtain ⟨hreach', hinbox', hle, -⟩ := Stage.remaining_run hfills hn hreach hinbox hrun
  refine ⟨hle, fun hstuck ↦ ?_⟩
  have hcontrol := Stage.control_eq_nil_of_stuck hfills hn hreach' hstuck
  exact Stage.ended_of_control hfills hreach' hinbox' hcontrol

end Stages

/-! ## A ring of one node -/

theorem fills_countingInbox : (countingFeed ["c:0:0", "c:1:0"] 2 (by decide) (by decide)).Fills 1
    (countingInbox ["c:0:0", "c:1:0"] 2) where
  expected := by decide
  allows := allows_countingInbox (by decide) (by decide)
  all i hi mid hmid := by
    obtain rfl := Nat.lt_one_iff.mp hi
    have hmid' : mid ∈ ["c:0:0", "c:1:0"] := List.mem_toFinset.mp hmid
    exact ⟨⟨1⟩, List.mem_append_left _ (List.mem_map_of_mem hmid')⟩
  eof := List.mem_append_right _ (List.mem_singleton_self _)

/-- A node has taken two messages and the end. Two tokens follow, and then nothing. -/
theorem ring_terminates_counted : ∃ s : Stage countingWorker,
    Stage.Reachable 1 "c" (fun _ l ↦ l.Complete)
      (Stage.init (countingInbox ["c:0:0", "c:1:0"] 2)) s ∧
      ∃ b mid, s.net.finals = [(b, .finalEof mid ⟨s.net.published.length⟩)] := by
  obtain ⟨r, hr, hinbox, r₁, hcount, envelope, rest, hhead⟩ :
      ∃ r, (countingRing ["c:0:0", "c:1:0"] 2).run 1 "c" countingWorker.queryId
          [.main 0 0 none, .main 0 0 none, .main 0 0 none] = some r ∧ (∀ i, r.inbox i = []) ∧
        ∃ r₁, r.exec 1 "c" countingWorker.queryId (.token 0 none) = some r₁ ∧
          ∃ envelope rest, r₁.net.control 0 = envelope :: rest :=
    ⟨_, rfl, Nat.rec rfl fun _ _ ↦ rfl, _, rfl, _, _, rfl⟩
  obtain ⟨s, hreach, rfl⟩ := Stage.exists_run_complete silent_countingWorker hr
    (by simp [Move.cut])
  have hempty : ∀ i, s.inbox i = [] := fun i ↦ List.map_eq_nil_iff.mp (hinbox i)
  -- the token counts, and makes the node flush
  obtain ⟨l₁, s₁, hl₁, hstep₁, rfl⟩ :=
    Stage.exists_exec_complete silent_countingWorker hcount rfl
  obtain ⟨l₂, s₂, -, hl₂, hstep₂, -⟩ :=
    @Stage.exists_step_of_token 1 "c" 0 countingWorker s₁ Nat.one_pos _ _ hhead
  let run (s₃ : Stage countingWorker) (j : ℕ) : Stage countingWorker :=
    if j = 0 then s else if j = 1 then s₁ else if j = 2 then s₂ else s₃
  have hrun : ∀ s₃, ∀ j < 2, ∃ l, l.Complete ∧ Stage.Step 1 "c" (run s₃ j) l (run s₃ (j + 1)) := by
    intro s₃ j hj
    rcases Nat.le_one_iff_eq_zero_or_eq_one.mp (Nat.le_of_lt_succ hj) with rfl | rfl
    · exact ⟨l₁, hl₁, hstep₁⟩
    · exact ⟨l₂, hl₂, hstep₂⟩
  refine ⟨s₂, (hreach.tail ⟨l₁, hl₁, hstep₁⟩).tail ⟨l₂, hl₂, hstep₂⟩, ?_⟩
  obtain ⟨-, hended⟩ := ring_terminates countingWorker Nat.one_pos fills_countingInbox
    hreach hempty (hrun s₂)
  refine (hended fun l s₃ hl hstep ↦ ?_).2
  have hlonger : ∀ j < 3, ∃ l, l.Complete ∧ Stage.Step 1 "c" (run s₃ j) l (run s₃ (j + 1)) := by
    intro j hj
    rcases Nat.lt_succ_iff_lt_or_eq.mp hj with hj | rfl
    · exact hrun s₃ j hj
    · exact ⟨l, hl, hstep⟩
  have hle := (ring_terminates countingWorker Nat.one_pos fills_countingInbox hreach
    hempty hlonger).1
  omega

end MoneyLaundering
