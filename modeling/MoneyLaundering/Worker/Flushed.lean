import MoneyLaundering.Logging.Forgetting
import MoneyLaundering.Worker.Recovery

/-!
# What is left of a flow that was flushed

A flush empties the business state in memory. The record that the handler then appends is about the
ring only, so the log goes on describing the state that was flushed, and a restart rebuilds it. Only
a compaction in the process that has flushed, or dropping the client, gets rid of it; and once a
restart has brought it back, every compaction writes it out again.

`Later` is what may happen to the store of a node after the flush, with the marks that it leaves,
and `recovered_after_flush` decides from the marks whether the flushed state is there.
-/

namespace MoneyLaundering

open WriteAhead StatefulWorker

namespace StatefulWorker

variable (w : StatefulWorker)

/-- What a record says about the business state. -/
def replayState : FlowRecord w.Delta → w.State → w.State
  | .message _ delta _, state => delta.elim state fun delta ↦ w.applyDelta delta state
  | .control _ _, state => state
  | .snapshot _ delta _ _ _ _, state => delta.elim state fun delta ↦ w.applyDelta delta state
  | .cleanup, _ => w.empty

/-- The business state alone. -/
def business : View w.discipline w.State where
  view := Flow.state
  apply := w.replayState
  view_apply r flow := by
    match r with
    | .message _ none true | .message _ none false | .message _ (some _) true
    | .message _ (some _) false | .control none _ | .control (some _) _
    | .snapshot _ none _ _ _ _ | .snapshot _ (some _) _ _ _ _ | .cleanup => rfl
  view_snap {flow r} h := by
    match r with
    | .snapshot _ none _ _ _ _ | .snapshot _ (some _) _ _ _ _ => exact w.restore h.2.1

end StatefulWorker

variable {w : StatefulWorker} {cfg : NodeConfig} {client : ClientId}

/-! ## What a handler does to the business state -/

/-- What a delivery does to the business state apart from its record. A copy does nothing. -/
def actionMarks (flow : Flow w.State) (point : Option ℕ) : Delivery w → List Mark
  | .main _ => []
  | .control token =>
    if token.messageId ∈ flow.observe.seen .control then []
    else if token.ring.coordinatorId = none then []
    else if token.ring.expectedCount = cleanupExpectedCount then
      if point = some 0 then [] else [.dropped]
    else [.emptied]

/-- The delivery is not a data message that the client has not sent before. -/
def Delivery.Spent (flow : Flow w.State) : Delivery w → Prop
  | .main (.data mid _) => mid ∈ flow.observe.seen .main
  | .main (.eof _ _) => True
  | .control _ => True

theorem state_handleControlMessage_flush (cfg : NodeConfig) (client : ClientId)
    {flow : Flow w.State} {token : Token}
    {coordinatorId : NodeId} (hseen : token.messageId ∉ flow.observe.seen .control)
    (hcoord : token.ring.coordinatorId = some coordinatorId)
    (hexp : token.ring.expectedCount ≠ cleanupExpectedCount) (msgs : List (Message w.Item)) :
    (handleControlMessage cfg client msgs flow token).1.state = w.empty := by
  have hstate (flow : Flow w.State) (n : ℕ) : (flow.countSent n).state = flow.state := by
    induction n with
    | zero => rfl
    | succ n ih => exact ih
  rw [handleControlMessage_unseen cfg client hseen, acceptControlMessage, handleControlEofMessage,
    hcoord]
  simp only [handleAction_flush cfg client hexp, flushedFlow, hstate]

/-- A handler that leaves the business state of the client alone. -/
theorem held_of_idle {st st' : w.WorkerStore} {flow : Flow w.State} {es : List (Eff w)}
    {point : Option ℕ} {b : Bool} (hrun : w.discipline.Run st client flow es point b st')
    (hsilent : ∀ r ∈ appends es, ∀ v, w.replayState r v = v)
    (hcheckpoints : ∀ flow', .checkpoint flow' ∈ es →
      flow'.state = (st.mem client).state ∧ flow'.InFlowKeys)
    (hstate : flow.state = (st.mem client).state) (hkeys : flow.InFlowKeys) :
    w.business.held st' client
        = (w.business.held st client).afterAll w.empty ([] ++ runMarks b point) ∧
      w.discipline.Settled (st'.mem client) :=
  View.held_run w.empty w.settled_replayRecord hrun hsilent
    (fun flow' hmem ↦ (hcheckpoints flow' hmem).imp_right Or.inl) hstate (Or.inl hkeys)

theorem held_of_duplicate {st st' : w.WorkerStore} {ch : Channel} {point : Option ℕ} {b : Bool}
    (hrun : w.discipline.Run st client
      { st.mem client with seen := (st.mem client).seen.setdefault ch } ([] : List (Eff w)) point b
      st') :
    w.business.held st' client
        = (w.business.held st client).afterAll w.empty ([] ++ runMarks b point) ∧
      w.discipline.Settled (st'.mem client) :=
  held_of_idle hrun (fun _ hr ↦ absurd hr List.not_mem_nil)
    (fun _ hmem ↦ absurd hmem List.not_mem_nil) rfl
    (inFlowKeys_of_seen ch (Seen.setdefault_self_ne_none _ ch))

theorem held_of_main {st st' : w.WorkerStore} {message : MainMessage w} {flow : Flow w.State}
    {es : List (Eff w)} {point : Option ℕ} {b : Bool}
    (hspent : (Delivery.main message).Spent (st.mem client))
    (hhandles : handleMessage cfg client (st.mem client) message = some (flow, es))
    (hrun : w.discipline.Run st client flow es point b st') :
    w.business.held st' client
        = (w.business.held st client).afterAll w.empty ([] ++ runMarks b point) ∧
      w.discipline.Settled (st'.mem client) := by
  by_cases hseen : message.messageId ∈ (st.mem client).observe.seen .main
  · obtain ⟨rfl, rfl⟩ := Prod.ext_iff.mp
      (Option.some.inj ((handleMessage_seen cfg client hseen).symm.trans hhandles))
    exact held_of_duplicate hrun
  · match message with
    | .data mid payload => exact absurd hspent hseen
    | .eof mid eof =>
      obtain ⟨flow₁, flow₂, heq, hobs₁, hobs₂, hkeys₁, hkeys₂⟩ :=
        handleMessage_eof cfg client eof hseen
      obtain ⟨rfl, rfl⟩ := Prod.ext_iff.mp (Option.some.inj (heq.symm.trans hhandles))
      have hstate₁ : flow₁.state = (st.mem client).state := congrArg Observed.state hobs₁
      have hstate₂ : flow₂.state = (st.mem client).state := congrArg Observed.state hobs₂
      refine held_of_idle hrun ?_ ?_ hstate₂ hkeys₂
      · simp [appends, replayState]
      · simp only [List.mem_cons, reduceCtorEq, Effect.checkpoint.injEq, List.not_mem_nil, or_false,
          false_or, forall_eq_or_imp, forall_eq]
        exact ⟨⟨hstate₁, hkeys₁⟩, hstate₂, hkeys₂⟩

theorem held_of_flush {st st' : w.WorkerStore} {token : Token} {coordinatorId : NodeId}
    {flow : Flow w.State} {es : List (Eff w)} {point : Option ℕ} {b : Bool}
    (hseen : token.messageId ∉ (st.mem client).observe.seen .control)
    (hcoord : token.ring.coordinatorId = some coordinatorId)
    (hexp : token.ring.expectedCount ≠ cleanupExpectedCount)
    (hhandles : Handles cfg client (st.mem client) (.control token) (flow, es))
    (hrun : w.discipline.Run st client flow es point b st') :
    w.business.held st' client = (w.business.held st client).afterAll w.empty
        ([.emptied] ++ runMarks b point) ∧ w.discipline.Settled (st'.mem client) := by
  obtain ⟨msgs, -, heq⟩ := hhandles
  obtain ⟨flow', hflush, -, hkeys⟩ := handleControlMessage_flush cfg client hseen hcoord hexp msgs
  have hempty := state_handleControlMessage_flush cfg client hseen hcoord hexp msgs
  rw [hflush] at hempty
  obtain ⟨rfl, rfl⟩ := Prod.ext_iff.mp (hflush.symm.trans heq)
  refine View.held_run w.empty w.settled_replayRecord hrun ?_ (fun flow hmem ↦ ?_) hempty
    (Or.inl hkeys)
  · rw [appends_map_publish]
    intro r hr v
    rw [List.mem_singleton.mp hr]
    rfl
  · -- the only checkpoint is the last effect
    have hmem : flow = flow' := by simpa using hmem
    exact hmem ▸ ⟨hempty, Or.inl hkeys⟩

theorem held_of_drop {st st' : w.WorkerStore} {token : Token} {coordinatorId : NodeId}
    {flow : Flow w.State} {es : List (Eff w)} {point : Option ℕ} {b : Bool}
    (hseen : token.messageId ∉ (st.mem client).observe.seen .control)
    (hcoord : token.ring.coordinatorId = some coordinatorId)
    (hexp : token.ring.expectedCount = cleanupExpectedCount)
    (hhandles : Handles cfg client (st.mem client) (.control token) (flow, es))
    (hrun : w.discipline.Run st client flow es point b st') :
    w.business.held st' client = (w.business.held st client).afterAll w.empty
        ((if point = some 0 then [] else [.dropped]) ++ runMarks b point) ∧
      w.discipline.Settled (st'.mem client) := by
  obtain ⟨msgs, -, heq⟩ := hhandles
  obtain ⟨hflow, hes⟩ := Prod.ext_iff.mp
    ((handleControlMessage_cleanup cfg client hseen hcoord hexp msgs).symm.trans heq)
  simp only at hflow hes
  subst hflow hes
  refine View.held_run_drop w.settled_replayRecord hrun (fun _ ↦ rfl) ?_ (fun flow hmem ↦ ?_) rfl
    (Or.inr rfl)
  · simp [appends, business, replayState]
  · have hmem : flow = w.emptyFlow := by simpa using hmem
    exact hmem ▸ ⟨rfl, Or.inr rfl⟩

/-- **What a handler of the client does to its business state**, in memory and in the log. -/
theorem held_handles {st st' : w.WorkerStore} {delivery : Delivery w} {flow : Flow w.State}
    {es : List (Eff w)} {point : Option ℕ} {b : Bool} (hspent : delivery.Spent (st.mem client))
    (hhandles : Handles cfg client (st.mem client) delivery (flow, es))
    (hrun : w.discipline.Run st client flow es point b st') :
    w.business.held st' client = (w.business.held st client).afterAll w.empty
        (actionMarks (st.mem client) point delivery ++ runMarks b point) ∧
      w.discipline.Settled (st'.mem client) := by
  match delivery with
  | .main message => exact held_of_main hspent hhandles hrun
  | .control token =>
    rw [actionMarks]
    split
    · next hseen =>
      obtain ⟨msgs, -, heq⟩ := hhandles
      obtain ⟨rfl, rfl⟩ := Prod.ext_iff.mp
        ((handleControlMessage_seen cfg client hseen msgs).symm.trans heq)
      exact held_of_duplicate hrun
    · next hseen =>
      rcases hcoord : token.ring.coordinatorId with _ | coordinatorId
      · obtain ⟨msgs, -, heq⟩ := hhandles
        obtain ⟨flow', hcount, hobs, hkeys⟩ :=
          handleControlMessage_count cfg client hseen hcoord msgs
        obtain ⟨rfl, rfl⟩ := Prod.ext_iff.mp (hcount.symm.trans heq)
        have hstate : flow'.state = (st.mem client).state := congrArg Observed.state hobs
        refine held_of_idle hrun ?_ ?_ hstate hkeys
        · simp [appends, replayState]
        · simp [hstate, hkeys]
      · rw [if_neg (Option.some_ne_none coordinatorId)]
        split
        · next hexp => exact held_of_drop hseen hcoord hexp hhandles hrun
        · next hexp => exact held_of_flush hseen hcoord hexp hhandles hrun

/-! ## What may happen after the flush -/

/-- A run of a node after a flush, with what it does to the business state of a client. Deliveries
for other clients are not constrained; of the client itself nothing new arrives, since a flush
begins when all its data is processed. -/
inductive Later (cfg : NodeConfig) (client : ClientId) :
    w.WorkerStore → List Mark → w.WorkerStore → Prop
  | refl (st) : Later cfg client st [] st
  | other {st st' st'' : w.WorkerStore} {marks : List Mark} {client' : ClientId}
      {delivery : Delivery w} {flow : Flow w.State} {es : List (Eff w)}
      {point : Option ℕ} {b : Bool}
      (h : Later cfg client st marks st') (hclient : client' ≠ client)
      (hhandles : Handles cfg client' (st'.mem client') delivery (flow, es))
      (hrun : w.discipline.Run st' client' flow es point b st'') :
      Later cfg client st (marks ++ runMarks b point) st''
  | own {st st' st'' : w.WorkerStore} {marks : List Mark} {delivery : Delivery w}
      {flow : Flow w.State} {es : List (Eff w)} {point : Option ℕ} {b : Bool}
      (h : Later cfg client st marks st') (hspent : delivery.Spent (st'.mem client))
      (hhandles : Handles cfg client (st'.mem client) delivery (flow, es))
      (hrun : w.discipline.Run st' client flow es point b st'') :
      Later cfg client st
        (marks ++ (actionMarks (st'.mem client) point delivery ++ runMarks b point)) st''
  | restart {st st' st'' : w.WorkerStore} {marks : List Mark} (h : Later cfg client st marks st')
      (hrestart : w.discipline.Restarts st'.log st'') :
      Later cfg client st (marks ++ [.crashed]) st''

theorem Later.held {st st' : w.WorkerStore} {marks : List Mark}
    (h : Later cfg client st marks st') (hset : w.discipline.Settled (st.mem client)) :
    w.business.held st' client = (w.business.held st client).afterAll w.empty marks ∧
      w.discipline.Settled (st'.mem client) := by
  induction h with
  | refl => exact ⟨rfl, hset⟩
  | other _ hclient _ hrun ih =>
    obtain ⟨hheld, hset'⟩ := ih
    obtain ⟨hheld', hset''⟩ :=
      View.held_run_of_ne w.empty w.settled_replayRecord hrun hclient hset'
    exact ⟨by rw [hheld', hheld, Held.afterAll_append], hset''⟩
  | own _ hspent hhandles hrun ih =>
    obtain ⟨hheld', hset''⟩ := held_handles hspent hhandles hrun
    exact ⟨by simp only [hheld', ih.1, Held.afterAll_append], hset''⟩
  | restart _ hrestart ih =>
    obtain ⟨hheld', hset''⟩ := w.business.held_restarts w.settled_replayRecord hrestart client
    refine ⟨?_, hset''⟩
    rw [hheld', Held.afterAll_append, ← ih.1]
    rfl

/-- **What is left after a flush**, for every kind of worker, in every run. The state that the log
described before the flush token (in a run in which the client was neither flushed nor dropped: the
state that is flushed) is recovered exactly as long as the marks of what happened since say that the
log holds it, and a compaction writes it out again exactly as long as memory does. -/
theorem recovered_after_flush {A : Type} [Amount A] (kind : StatefulKind) (hash : String → ℕ)
    (paymentFormatKey : String → String) (config : Config A) (cfg : NodeConfig) (client : ClientId)
    {st st₁ st₂ : (kind.worker hash paymentFormatKey config).WorkerStore} {token : Token}
    {coordinatorId : NodeId} (hcoord : token.ring.coordinatorId = some coordinatorId)
    (hexp : token.ring.expectedCount ≠ cleanupExpectedCount)
    (hseen : token.messageId ∉ (st.mem client).observe.seen .control)
    {flow : Flow (kind.worker hash paymentFormatKey config).State}
    {es : List (Eff (kind.worker hash paymentFormatKey config))}
    (hhandles : Handles cfg client (st.mem client) (.control token) (flow, es)) {b : Bool}
    (hrun : (kind.worker hash paymentFormatKey config).discipline.Run st client flow es none b st₁)
    {marks : List Mark} (hlater : Later cfg client st₁ marks st₂) :
    let w := kind.worker hash paymentFormatKey config
    let before := (w.discipline.recovered st.log client).state
    let remaining := Held.remaining (runMarks b none ++ marks)
    ((w.discipline.recovered st₂.log client).state = w.empty ↔
        before = w.empty ∨ remaining.log = false) ∧
      ∀ log, w.discipline.Compacts st₂.mem log →
        ((w.discipline.recovered log client).state = w.empty ↔
          before = w.empty ∨ remaining.memory = false) := by
  intro w before remaining
  obtain ⟨hheld₁, hset₁⟩ := held_of_flush hseen hcoord hexp hhandles hrun
  obtain ⟨hheld₂, hset₂⟩ := hlater.held hset₁
  have hvalues : w.business.held st₂ client
      = remaining.map fun holds ↦ if holds then before else w.empty := by
    rw [hheld₂, hheld₁, ← Held.afterAll_append, List.append_assoc]
    exact Held.afterAll_eq_remaining w.empty before _
  have hiff (holds : Bool) (state : w.State) (hstate : state = if holds then before else w.empty) :
      state = w.empty ↔ before = w.empty ∨ holds = false := by
    cases holds <;> simp [hstate]
  refine ⟨hiff _ _ (congrArg Held.log hvalues), fun log hlog ↦ hiff _ _ ?_⟩
  exact (w.business.durable_of_compacts hlog client hset₂).trans (congrArg Held.memory hvalues)

/-! ### Runs of a counting worker -/

/-- The flush token of a ring of one. -/
def flushingToken : Token := ⟨ringId "c" ringPhaseFlush 0, ⟨1, 1, some 0, some 0⟩⟩

/-- What the counting worker flushes. -/
def countedMessage (count : ℤ) : Message Q5Result where
  msgType := .q5ResultBatch
  routingKey := some "c"
  messageId := flushId 0 "c" 0
  payload := [⟨count⟩]

/-- A counting worker has counted seven, and compacts its log when it is flushed: the restart finds
nothing. -/
theorem recovered_after_flush_compacted :
    let w := StatefulKind.lowAmountReducer.worker hashOf id countingConfig
    ∃ (st st₁ st₂ : w.WorkerStore) (flow : Flow w.State) (es : List (Eff w)),
      (w.discipline.recovered st.log "c").state = (7 : ℤ) ∧
      Handles ⟨0, 1⟩ "c" (st.mem "c") (.control flushingToken) (flow, es) ∧
      w.discipline.Run st "c" flow es none true st₁ ∧ w.discipline.Restarts st₁.log st₂ ∧
      (w.discipline.recovered st₂.log "c").state = w.empty := by
  intro w
  let counted : Flow w.State := { w.emptyFlow with state := (7 : ℤ) }
  let st : w.WorkerStore := ⟨Function.update (fun _ ↦ w.emptyFlow) "c" counted,
    [("c", .message "c:0:0" (some (7 : ℤ)) false)]⟩
  have hmem : st.mem "c" = counted := by simp only [st, Function.update_self]
  have hseen : flushingToken.messageId ∉ (st.mem "c").observe.seen .control := by
    rw [hmem]
    exact Finset.notMem_empty _
  obtain ⟨flow, heq, -, -⟩ := handleControlMessage_flush ⟨0, 1⟩ "c" hseen rfl (by decide)
    [countedMessage 7]
  let es : List (Eff w) :=
    (handleControlMessage ⟨0, 1⟩ "c" [countedMessage 7] (st.mem "c") flushingToken).2
  have hes : es = _ := congrArg Prod.snd heq
  have hhandles : Handles ⟨0, 1⟩ "c" (st.mem "c") (.control flushingToken) (flow, es) :=
    ⟨[countedMessage 7], by rw [hmem]; rfl, by rw [hes]; exact heq⟩
  obtain ⟨log, hlog⟩ := Discipline.exists_compacts (D := w.discipline)
    (fun flow _ ↦ w.exists_snapshotFlow flow) (Function.update st.mem "c" flow) ["c"]
    fun client htracked ↦ by
      by_contra hne
      rw [List.mem_singleton] at hne
      have hempty : Function.update st.mem "c" flow client = w.emptyFlow := by
        simp only [st, Function.update_of_ne hne]
      rw [hempty] at htracked
      exact w.not_inFlowKeys_emptyFlow htracked
  have hrun : w.discipline.Run st "c" flow es none true ⟨Function.update st.mem "c" flow, log⟩ := by
    rw [hes]
    exact .complete (.publish _ (.publish _ (.append _ (.compact _ hlog (.nil _)))))
  obtain ⟨st₂, hrestart⟩ := w.exists_restarts log
  refine ⟨st, _, st₂, flow, es, rfl, hhandles, hrun, hrestart, ?_⟩
  exact (recovered_after_flush .lowAmountReducer hashOf id countingConfig ⟨0, 1⟩ "c" rfl (by decide)
    hseen hhandles hrun (.restart (.refl _) hrestart)).1.mpr (Or.inr rfl)

/-- A counting worker has counted seven, is flushed, and is restarted: the log, which was not
compacted in between, still says seven. -/
theorem flushed_recovered :
    let w := StatefulKind.lowAmountReducer.worker hashOf id countingConfig
    ∃ (s : Process w) (st₁ st₂ : w.WorkerStore) (flow : Flow w.State) (es : List (Eff w)),
      Process.Reachable ⟨0, 1⟩ s ∧ (s.store.mem "c").state = (7 : ℤ) ∧
      Handles ⟨0, 1⟩ "c" (s.store.mem "c") (.control flushingToken) (flow, es) ∧
      w.discipline.Run s.store "c" flow es none false st₁ ∧ (st₁.mem "c").state = w.empty ∧
      w.discipline.Restarts st₁.log st₂ ∧ (st₂.mem "c").state = (7 : ℤ) ∧
      (st₂.mem "c").state ≠ w.empty := by
  intro w
  let message : MainMessage w := .data "c:0:0" (⟨7⟩ : Count)
  let handled : Flow w.State × List (Eff w) :=
    acceptData { w.emptyFlow with seen := w.emptyFlow.seen.setdefault .main } "c:0:0"
      ((7 : ℤ), ([] : List (Message Q5Result)), (7 : ℤ))
  have hhandles : Handles ⟨0, 1⟩ "c" ((Process.init w).store.mem "c") (.main message) handled := rfl
  let store : w.WorkerStore := ⟨Function.update (Process.init w).store.mem "c" handled.1,
    [("c", .message "c:0:0" (some (7 : ℤ)) false)]⟩
  let s := (Process.init w).remember "c" (.main message) handled.2 none store
  have hreach : Process.Reachable ⟨0, 1⟩ s :=
    .single (.deliver hhandles (.complete (Discipline.exec_keep _ _ _ _)))
  let flushing :=
    handleControlMessage ⟨0, 1⟩ "c" [countedMessage 7] (s.store.mem "c") flushingToken
  have hflushing : Handles ⟨0, 1⟩ "c" (s.store.mem "c") (.control flushingToken) flushing :=
    ⟨_, rfl, rfl⟩
  have hrun : w.discipline.Run s.store "c" flushing.1 flushing.2 none false _ :=
    .complete (Discipline.exec_keep _ _ _ _)
  obtain ⟨st₂, hrestart⟩ := w.exists_restarts
    (s.store.log ++ (appends flushing.2).map fun r ↦ ("c", r))
  have hseven : (st₂.mem "c").state = (7 : ℤ) := by
    rw [hrestart.1]
    rfl
  refine ⟨s, _, st₂, flushing.1, flushing.2, hreach, rfl, hflushing, hrun, ?_, hrestart, hseven, ?_⟩
  · simp only [Function.update_self]
    exact state_handleControlMessage_flush ⟨0, 1⟩ "c" (Finset.notMem_empty _) rfl (by decide) _
  · rw [hseven]
    exact show (7 : ℤ) ≠ 0 by decide

end MoneyLaundering
