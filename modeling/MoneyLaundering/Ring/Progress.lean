import MoneyLaundering.Ring.Traffic
import MoneyLaundering.Worker.Recovery

/-!
# Running a ring

A ring is coarser than its stage, so something that a ring can do need not be something that a stage
of workers does. For workers that handle every data message and send nothing before they are flushed
it is, up to the flush: `exists_run`. Such a ring can be run, by giving for each move the queue, the
position of the message in it, and how many visible effects happen before the node dies, if it does.
-/

namespace WriteAhead.View

variable {S R O V : Type*} {D : Discipline S R} (ν : View D V)

/-- Every initial part of what an observer sees is what is seen of some initial part of the
effects. -/
theorem exists_visible_take (v : V) (es : List (Effect S R O)) (k : ℕ) :
    ∃ m, ν.visible v (es.take m) = (ν.visible v es).take k := by
  induction es generalizing v k with
  | nil => exact ⟨0, by simp [visible]⟩
  | cons e es ih =>
    cases e with
    | publish o =>
      cases k with
      | zero => exact ⟨0, rfl⟩
      | succ k =>
        obtain ⟨m, hm⟩ := ih v k
        exact ⟨m + 1, congrArg (Visible.send o :: ·) hm⟩
    | append r =>
      cases k with
      | zero => exact ⟨0, rfl⟩
      | succ k =>
        obtain ⟨m, hm⟩ := ih (ν.apply r v) k
        exact ⟨m + 1, congrArg (Visible.become (ν.apply r v) :: ·) hm⟩
    | checkpoint s =>
      obtain ⟨m, hm⟩ := ih v k
      exact ⟨m + 1, hm⟩

end WriteAhead.View

namespace MoneyLaundering

open WriteAhead Visible StatefulWorker

variable {α : Type}

/-- The worker handles every data message and sends nothing before it is flushed. -/
def StatefulWorker.Silent (w : StatefulWorker) : Prop :=
  ∀ mid state payload, ∃ state' delta,
    w.handleDataMessage mid state payload = some (state', [], delta)

/-- What a node of silent workers does with a message; nothing is said about a flush. -/
def planOf (cfg : NodeConfig) (client : ClientId) (queryId : Option String) (v : Observed Unit)
    (taken : Taken) : Option (List (Visible (Observed Unit) (Output α))) :=
  if taken.Fresh v then
    match taken with
    | .data mid => some [.become (v.count mid 0)]
    | .eof mid marker =>
      some [.send (.ring cfg.getNextNodeId (startToken client v marker)), .become v.report,
        .become (v.report.see .main mid)]
    | .token envelope =>
      match envelope.token.ring.coordinatorId with
      | none =>
        some [.send (.ring cfg.getNextNodeId (countToken cfg client v envelope.token)),
          .become (v.report.see .control envelope.messageId)]
      | some coordinatorId =>
        if envelope.token.ring.expectedCount = cleanupExpectedCount then
          some [.send (cleanupOutput cfg client queryId envelope.token coordinatorId),
            .become .zero]
        else none
  else some []

/-- One move of a run: the `k`-th message of a main queue, or the head of a control queue, is
handled to the end, or until some visible effects have happened. -/
inductive Move
  | main (i : NodeId) (k : ℕ) (cut : Option ℕ)
  | token (i : NodeId) (cut : Option ℕ)

namespace Move

def cut : Move → Option ℕ
  | .main _ _ cut => cut
  | .token _ cut => cut

end Move

namespace Ring

/-- The message that a move takes. -/
def taken (r : Ring α) : Move → Option Taken
  | .main i k _ => (r.inbox i)[k]?
  | .token i _ => (r.net.control i).head?.map .token

/-- The move does not take a token of a cleanup. -/
def Quiet (r : Ring α) (move : Move) : Prop :=
  ∀ envelope, r.taken move = some (.token envelope) →
    envelope.token.ring.expectedCount ≠ cleanupExpectedCount

/-- The condition holds of the step that a move stands for. -/
def Allowed (condition : Ring α → Label → Prop) (r : Ring α) : Move → Prop
  | .main i k cut => ∀ taken, (r.inbox i)[k]? = some taken → condition r (.main i taken cut.isNone)
  | .token i cut => ∀ sends, condition r (.token i sends cut.isNone)

variable (n : ℕ) (client : ClientId) (queryId : Option String)

/-- The ring after a move, if it is possible. -/
def exec (r : Ring α) : Move → Option (Ring α)
  | .main i k cut =>
    if i < n then do
      let taken ← (r.inbox i)[k]?
      let plan ← planOf ⟨i, n⟩ client queryId (r.node i) taken
      let seen := cut.elim plan plan.take
      some
        { node := Function.update r.node i (settle (r.node i) seen)
          inbox := if cut.isNone then
              Function.update r.inbox i ((r.inbox i).take k ++ (r.inbox i).drop (k + 1))
            else r.inbox
          net := r.net.handled i (r.node i) taken (sent seen) }
    else none
  | .token i cut =>
    if i < n then do
      let envelope ← (r.net.control i).head?
      let plan ← planOf ⟨i, n⟩ client queryId (r.node i) (.token envelope)
      let seen := cut.elim plan plan.take
      let net := r.net.handled i (r.node i) (.token envelope) (sent seen)
      some
        { node := Function.update r.node i (settle (r.node i) seen)
          inbox := r.inbox
          net := if cut.isNone then net.pop i else net }
    else none

def run (r : Ring α) : List Move → Option (Ring α)
  | [] => some r
  | move :: moves => (exec n client queryId r move).bind fun r' ↦ r'.run moves

/-- Every move of a run is as it should be. -/
def Along (ok : Ring α → Move → Prop) (r : Ring α) : List Move → Prop
  | [] => True
  | move :: moves => ok r move ∧
      match exec n client queryId r move with
      | none => True
      | some r' => r'.Along ok moves

end Ring

/-! ## A stage can do it -/

namespace Stage

variable {w : StatefulWorker} {n : ℕ} {client : ClientId}

/-- The effects of a handler of a silent worker look like the plan of the ring. -/
theorem exists_handles (hw : w.Silent) {s : Stage w} {i : NodeId} {message : MainMessage w}
    {plan : List (Visible (Observed Unit) (Output w.Item))}
    (hplan : planOf ⟨i, n⟩ client w.queryId (s.node client i) message.taken = some plan) :
    ∃ flow es, Handles ⟨i, n⟩ client ((s.store i).mem client) (.main message) (flow, es) ∧
      w.counters.visible (s.node client i) es = plan := by
  by_cases hseen : message.messageId ∈ (s.node client i).seen .main
  · have hfresh : ¬message.taken.Fresh (s.node client i) := by
      cases message <;> exact not_not_intro hseen
    obtain rfl := Option.some.inj ((if_neg hfresh).symm.trans hplan)
    exact ⟨_, [], handleMessage_seen ⟨i, n⟩ client hseen, rfl⟩
  · cases message with
    | data mid payload =>
      obtain rfl := Option.some.inj ((if_pos hseen).symm.trans hplan)
      obtain ⟨state', delta, hdata⟩ := hw mid ((s.store i).mem client).state payload
      refine ⟨_, _, handleMessage_data_eq ⟨i, n⟩ client hseen hdata, ?_⟩
      obtain ⟨-, hsent⟩ := w.handle_eq hdata
      have hcount : (s.node client i).count mid 0
          = w.counters.apply (.message mid (some delta) false) (s.node client i) := by
        rw [Observed.count, ← List.length_nil (α := Message w.Item), ← hsent]
        rfl
      rw [hcount]
      rfl
    | eof mid marker =>
      obtain rfl := Option.some.inj ((if_pos hseen).symm.trans hplan)
      obtain ⟨flow₁, flow₂, heq, -⟩ := handleMessage_eof ⟨i, n⟩ client marker hseen
      exact ⟨flow₂, _, heq, rfl⟩

/-- A message of the ring's inbox is one of the stage's. -/
theorem exists_message {s : Stage w} {i : NodeId} {k : ℕ} {taken : Taken}
    (htaken : ((s.ring client).inbox i)[k]? = some taken) :
    ∃ message before after, message.taken = taken ∧ s.inbox i = before ++ message :: after ∧
      before.map MainMessage.taken = ((s.ring client).inbox i).take k ∧
      after.map MainMessage.taken = ((s.ring client).inbox i).drop (k + 1) := by
  have htaken' : ((s.inbox i).map MainMessage.taken)[k]? = some taken := htaken
  rw [List.getElem?_map, Option.map_eq_some_iff] at htaken'
  obtain ⟨message, hmessage, rfl⟩ := htaken'
  obtain ⟨hlt, hget⟩ := List.getElem?_eq_some_iff.mp hmessage
  refine ⟨message, (s.inbox i).take k, (s.inbox i).drop (k + 1), rfl, ?_, List.map_take,
    List.map_drop⟩
  rw [← hget, List.getElem_cons_drop, List.take_append_drop]

theorem exists_handles_token {s : Stage w} {i : NodeId} {envelope : Envelope}
    {plan : List (Visible (Observed Unit) (Output w.Item))}
    (hplan : planOf ⟨i, n⟩ client w.queryId (s.node client i) (.token envelope) = some plan)
    (hquiet : envelope.token.ring.expectedCount ≠ cleanupExpectedCount ∨
      envelope.token.ring.coordinatorId = none) :
    ∃ msgs flow es, w.FlushData i client ((s.store i).mem client).state msgs ∧
      handleControlMessage ⟨i, n⟩ client msgs ((s.store i).mem client) envelope.token = (flow, es) ∧
      w.counters.visible (s.node client i) es = plan := by
  obtain ⟨msgs, hmsgs⟩ := w.exists_flushData i client ((s.store i).mem client).state
  by_cases hseen : envelope.messageId ∈ (s.node client i).seen .control
  · have hfresh : ¬(Taken.token envelope).Fresh (s.node client i) := not_not_intro hseen
    obtain rfl := Option.some.inj ((if_neg hfresh).symm.trans hplan)
    exact ⟨msgs, _, [], hmsgs, handleControlMessage_seen ⟨i, n⟩ client hseen msgs, rfl⟩
  · have hplan :=
      (if_pos (show (Taken.token envelope).Fresh (s.node client i) from hseen)).symm.trans
      hplan
    cases hcoord : envelope.token.ring.coordinatorId with
    | none =>
      simp only [hcoord] at hplan
      obtain rfl := Option.some.inj hplan
      obtain ⟨flow, heq, -⟩ := handleControlMessage_count ⟨i, n⟩ client hseen hcoord msgs
      exact ⟨msgs, flow, _, hmsgs, heq, rfl⟩
    | some coordinatorId =>
      have hexp := hquiet.resolve_right (by rw [hcoord]; exact Option.some_ne_none _)
      simp only [hcoord] at hplan
      exact absurd ((if_neg hexp).symm.trans hplan) (by simp)

/-- A sound handler can be cut off after any number of visible effects. -/
theorem exists_outcome {st : w.WorkerStore} {flow : Flow w.State} {es : List (Eff w)}
    {plan : List (Visible (Observed Unit) (Output w.Item))} (hsync : w.counters.Synced st client)
    (hsound : Sound w.counters (st.mem client) flow es)
    (hplan : w.counters.visible (st.mem client).observe.forget es = plan) (cut : Option ℕ) :
    ∃ point outs st' b, w.discipline.Outcome st client flow es point outs st' b ∧
      point.isNone = cut.isNone ∧ outs = sent (cut.elim plan plan.take) ∧
      w.counters.Synced st' client ∧ (st'.mem client).observe.forget
        = settle (st.mem client).observe.forget (cut.elim plan plan.take) := by
  have hview : ∀ {point outs st' b}, w.discipline.Outcome st client flow es point outs st' b →
      w.counters.visible (st.mem client).observe.forget (upTo point es)
        = cut.elim plan plan.take →
      outs = sent (cut.elim plan plan.take) ∧ w.counters.Synced st' client ∧
        (st'.mem client).observe.forget
          = settle (st.mem client).observe.forget (cut.elim plan plan.take) := by
    intro point outs st' b hrun heq
    obtain ⟨houts, hsync', hmem⟩ := hsound.outcome hrun hsync
    rw [← heq, View.sent_visible, View.settle_visible]
    exact ⟨houts, hsync', hmem⟩
  cases cut with
  | none =>
    have hrun : w.discipline.Outcome st client flow es none _ _ false :=
      .complete (Discipline.exec_keep _ _ _ _)
    exact ⟨none, _, _, _, hrun, rfl, hview hrun hplan⟩
  | some k =>
    obtain ⟨m, hm⟩ := w.counters.exists_visible_take (st.mem client).observe.forget es k
    obtain ⟨st', hrestart⟩ := w.exists_restarts
      (st.log ++ (appends (es.take m)).map fun r ↦ (client, r))
    have hrun : w.discipline.Outcome st client flow es (some m) _ st' true :=
      .crash m (Discipline.exec_keep _ _ _ _) hrestart
    exact ⟨some m, _, _, _, hrun, rfl, hview hrun (by rw [← hplan]; exact hm)⟩

theorem exists_exec (hw : w.Silent) {s : Stage w} (hsync : s.Synced client) {move : Move}
    {r : Ring w.Item} (hexec : (s.ring client).exec n client w.queryId move = some r)
    (hquiet : (s.ring client).Quiet move) :
    ∃ l s', Step n client s l s' ∧ s'.Synced client ∧ s'.ring client = r ∧
      ∀ condition, (s.ring client).Allowed condition move → condition (s.ring client) l := by
  cases move with
  | main i k cut =>
    rw [Ring.exec] at hexec
    split at hexec
    swap
    · exact absurd hexec (by simp)
    next hi =>
    obtain ⟨taken, htaken, hexec⟩ := Option.bind_eq_some_iff.mp hexec
    obtain ⟨plan, hplan, hexec⟩ := Option.bind_eq_some_iff.mp hexec
    obtain rfl := Option.some.inj hexec
    obtain ⟨message, before, after, rfl, hinbox, hbefore, hafter⟩ := exists_message htaken
    obtain ⟨flow, es, hhandles, hvisible⟩ := exists_handles hw hplan
    obtain ⟨hsound, -⟩ := plan_of_handleMessage ⟨i, n⟩ client 0 hhandles
    obtain ⟨point, outs, st, b, hrun, hpoint, houts, hsync', hview⟩ :=
      exists_outcome (hsync i) hsound hvisible cut
    have hstep := Step.main hi hinbox hhandles hrun
    rw [hpoint] at hstep
    refine ⟨_, _, hstep, hsync.update hsync' _ _, ?_, fun condition hallowed ↦ hallowed _ htaken⟩
    rw [ring_update, inbox_update client, hview, houts, List.map_append, hbefore, hafter]
    rfl
  | token i cut =>
    rw [Ring.exec] at hexec
    split at hexec
    swap
    · exact absurd hexec (by simp)
    next hi =>
    obtain ⟨envelope, henvelope, hexec⟩ := Option.bind_eq_some_iff.mp hexec
    obtain ⟨plan, hplan, hexec⟩ := Option.bind_eq_some_iff.mp hexec
    obtain rfl := Option.some.inj hexec
    obtain ⟨rest, hhead⟩ := List.head?_eq_some_iff.mp henvelope
    have hexp := hquiet envelope (by rw [Ring.taken, henvelope]; rfl)
    obtain ⟨msgs, flow, es, hmsgs, hhandles, hvisible⟩ := exists_handles_token hplan (Or.inl hexp)
    obtain ⟨hsound, -⟩ := plan_of_handleControlMessage ⟨i, n⟩ client hhandles (Or.inl hexp)
    obtain ⟨point, outs, st, b, hrun, hpoint, houts, hsync', hview⟩ :=
      exists_outcome (hsync i) hsound hvisible cut
    have hstep := Step.token hi hhead hmsgs hhandles hrun
    rw [hpoint] at hstep
    refine ⟨_, _, hstep, hsync.update hsync' _ _, ?_, fun condition hallowed ↦ hallowed _⟩
    rw [ring_update, hview, houts]
    rfl

/-- **What a ring of silent workers can do, its stage can do**, as long as nothing is flushed or
cleaned up. -/
theorem exists_run (hw : w.Silent) {condition : Ring w.Item → Label → Prop} {moves : List Move}
    {s : Stage w} {r : Ring w.Item} (hsync : s.Synced client)
    (hrun : (s.ring client).run n client w.queryId moves = some r)
    (halong : (s.ring client).Along n client w.queryId
      (fun r move ↦ r.Quiet move ∧ r.Allowed condition move) moves) :
    ∃ s', Reachable n client (fun s l ↦ condition (s.ring client) l) s s' ∧ s'.Synced client ∧
      s'.ring client = r := by
  induction moves generalizing s with
  | nil => exact ⟨s, .refl, hsync, Option.some.inj hrun⟩
  | cons move moves ih =>
    obtain ⟨r₁, hexec, hrun⟩ := Option.bind_eq_some_iff.mp hrun
    obtain ⟨⟨hquiet, hallowed⟩, hrest⟩ := halong
    rw [hexec] at hrest
    obtain ⟨l, s₁, hstep, hsync₁, rfl, hcondition⟩ := exists_exec hw hsync hexec hquiet
    obtain ⟨s', hreach, hsync', hring⟩ := ih hsync₁ hrun hrest
    exact ⟨s', .head ⟨l, hcondition condition hallowed, hstep⟩ hreach, hsync', hring⟩

theorem synced_init (inbox : NodeId → List (MainMessage w)) : (init inbox).Synced client :=
  fun _ ↦ ⟨rfl, Discipline.settled_empty⟩

/-! ### Handlers that run to their end -/

theorem exists_handles_complete {s : Stage w} {i : NodeId} {envelope : Envelope}
    {plan : List (Visible (Observed Unit) (Output w.Item))}
    (hplan : planOf ⟨i, n⟩ client w.queryId (s.node client i) (.token envelope) = some plan) :
    ∃ msgs flow es, w.FlushData i client ((s.store i).mem client).state msgs ∧
      handleControlMessage ⟨i, n⟩ client msgs ((s.store i).mem client) envelope.token = (flow, es) ∧
      publishes es = sent plan ∧ flow.observe.forget = settle (s.node client i) plan := by
  by_cases hquiet : envelope.token.ring.expectedCount ≠ cleanupExpectedCount ∨
      envelope.token.ring.coordinatorId = none
  · obtain ⟨msgs, flow, es, hmsgs, hhandles, rfl⟩ := exists_handles_token hplan hquiet
    obtain ⟨hsound, -⟩ := plan_of_handleControlMessage ⟨i, n⟩ client hhandles hquiet
    exact ⟨msgs, flow, es, hmsgs, hhandles, (View.sent_visible _ _ _).symm, hsound.settle_visible⟩
  · rw [not_or, not_not] at hquiet
    obtain ⟨hexp, hcoord⟩ := hquiet
    obtain ⟨coordinatorId, hcoord⟩ := Option.ne_none_iff_exists'.mp hcoord
    obtain ⟨msgs, hmsgs⟩ := w.exists_flushData i client ((s.store i).mem client).state
    by_cases hseen : envelope.messageId ∈ (s.node client i).seen .control
    · have hfresh : ¬(Taken.token envelope).Fresh (s.node client i) := not_not_intro hseen
      obtain rfl := Option.some.inj ((if_neg hfresh).symm.trans hplan)
      exact ⟨msgs, _, [], hmsgs, handleControlMessage_seen ⟨i, n⟩ client hseen msgs, rfl,
        congrArg Observed.forget (((s.store i).mem client).observe_setdefault .control)⟩
    · have hplan := (if_pos (show (Taken.token envelope).Fresh (s.node client i) from
        hseen)).symm.trans hplan
      simp only [hcoord, if_pos hexp] at hplan
      obtain rfl := Option.some.inj hplan
      exact ⟨msgs, _, _, hmsgs, handleControlMessage_cleanup ⟨i, n⟩ client hseen hcoord hexp msgs,
        rfl, rfl⟩

theorem exists_exec_complete (hw : w.Silent) {s : Stage w} {move : Move} {r : Ring w.Item}
    (hexec : (s.ring client).exec n client w.queryId move = some r) (hcut : move.cut = none) :
    ∃ l s', l.Complete ∧ Step n client s l s' ∧ s'.ring client = r := by
  cases move with
  | main i k cut =>
    obtain rfl : cut = none := hcut
    rw [Ring.exec] at hexec
    split at hexec
    swap
    · exact absurd hexec (by simp)
    next hi =>
    obtain ⟨taken, htaken, hexec⟩ := Option.bind_eq_some_iff.mp hexec
    obtain ⟨plan, hplan, hexec⟩ := Option.bind_eq_some_iff.mp hexec
    obtain rfl := Option.some.inj hexec
    obtain ⟨message, before, after, rfl, hinbox, hbefore, hafter⟩ := exists_message htaken
    obtain ⟨flow, es, hhandles, rfl⟩ := exists_handles hw hplan
    obtain ⟨hsound, -⟩ := plan_of_handleMessage ⟨i, n⟩ client 0 hhandles
    refine ⟨.main i message.taken true, _, rfl, step_main hi hinbox hhandles, ?_⟩
    have hview : flow.observe.forget = _ := hsound.settle_visible
    have hinbox' := inbox_update client s i true (before ++ after)
    rw [List.map_append, hbefore, hafter] at hinbox'
    have hsent := w.counters.sent_visible (s.node client i) es
    refine (ring_update s i _ _ _).trans ?_
    simp only [Function.update_self, hview, ← hsent]
    exact congrArg (fun inbox ↦ (⟨_, inbox, _⟩ : Ring w.Item)) hinbox'
  | token i cut =>
    obtain rfl : cut = none := hcut
    rw [Ring.exec] at hexec
    split at hexec
    swap
    · exact absurd hexec (by simp)
    next hi =>
    obtain ⟨envelope, henvelope, hexec⟩ := Option.bind_eq_some_iff.mp hexec
    obtain ⟨plan, hplan, hexec⟩ := Option.bind_eq_some_iff.mp hexec
    obtain rfl := Option.some.inj hexec
    obtain ⟨rest, hhead⟩ := List.head?_eq_some_iff.mp henvelope
    obtain ⟨msgs, flow, es, hmsgs, hhandles, hsent, hview⟩ := exists_handles_complete hplan
    refine ⟨.token i msgs.length true, _, rfl, step_token hi hhead hmsgs hhandles, ?_⟩
    refine (ring_update s i _ _ _).trans ?_
    simp only [Function.update_self, hview, hsent]
    rfl

theorem exists_run_complete (hw : w.Silent) {moves : List Move} {s : Stage w} {r : Ring w.Item}
    (hrun : (s.ring client).run n client w.queryId moves = some r)
    (hcut : ∀ move ∈ moves, move.cut = none) :
    ∃ s', Reachable n client (fun _ l ↦ l.Complete) s s' ∧ s'.ring client = r := by
  induction moves generalizing s with
  | nil => exact ⟨s, .refl, Option.some.inj hrun⟩
  | cons move moves ih =>
    obtain ⟨r₁, hexec, hrun⟩ := Option.bind_eq_some_iff.mp hrun
    obtain ⟨l, s₁, hcomplete, hstep, rfl⟩ :=
      exists_exec_complete hw hexec (hcut move List.mem_cons_self)
    obtain ⟨s', hreach, hring⟩ := ih hrun fun move hmove ↦ hcut move (List.mem_cons_of_mem _ hmove)
    exact ⟨s', .head ⟨l, hcomplete, hstep⟩ hreach, hring⟩

end Stage

/-! ## A stage of one counter -/

/-- A worker that counts, for runs on fixed inputs. -/
abbrev countingWorker : StatefulWorker :=
  StatefulKind.lowAmountReducer.worker hashOf id countingConfig

theorem silent_countingWorker : countingWorker.Silent := fun _ _ _ ↦ ⟨_, _, rfl⟩

/-- Data messages with the ids `mids`, then the end of the stream, for the only node of a stage. -/
def countingInbox (mids : List MessageId) (expected : ℤ) (i : NodeId) :
    List (MainMessage countingWorker) :=
  if i = 0 then mids.map (fun mid ↦ .data mid ⟨1⟩) ++ [.eof "c:eof" ⟨expected⟩] else []

def countingRing (mids : List MessageId) (expected : ℤ) : Ring countingWorker.Item :=
  (Stage.init (countingInbox mids expected)).ring "c"

/-- What that stage is fed. -/
def countingFeed (mids : List MessageId) (expected : ℤ) (heof : "c:eof" ∉ mids.toFinset)
    (hexpected : expected ≠ cleanupExpectedCount) : Feed where
  addressed i := if i = 0 then mids.toFinset else ∅
  eofNode := 0
  eofId := "c:eof"
  expected := expected
  eofId_notMem := heof
  expected_ne := hexpected

theorem allows_countingInbox {mids : List MessageId} {expected : ℤ} (heof : "c:eof" ∉ mids.toFinset)
    (hexpected : expected ≠ cleanupExpectedCount) (i : NodeId) :
    ∀ message ∈ countingInbox mids expected i,
      (countingFeed mids expected heof hexpected).Allows i message.taken := by
  intro message hmessage
  rw [countingInbox] at hmessage
  split at hmessage
  · next hi =>
    rcases List.mem_append.mp hmessage with hmem | hmem
    · obtain ⟨mid, hmid, rfl⟩ := List.mem_map.mp hmem
      simpa [Feed.Allows, MainMessage.taken, countingFeed, hi] using hmid
    · obtain rfl := List.mem_singleton.mp hmem
      exact ⟨hi, rfl, rfl⟩
  · exact absurd hmessage List.not_mem_nil

end MoneyLaundering
