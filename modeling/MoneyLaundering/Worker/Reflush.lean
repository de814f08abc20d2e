import MoneyLaundering.Worker.Recovery

/-!
# Flushing again after a crash

A flush empties the business state in memory, sends its messages, passes the token on, and only then
writes a record. If the node dies before the record is durable, the token is delivered again to a
node that was rebuilt from its log. The second flush sends the messages of a complete first one, up
to the order among and inside them, since a flush is a function of the business state up to the
order of iteration (`StatefulWorker.flush_same`) and nothing that may happen between the two
attempts changes the state that the log describes.

The total that the token carries on is another matter. It is what the node has not yet reported, and
a node reports its counts whenever it starts a ring or takes a token without a coordinator. If one
of these was published before the first flush, but not recorded, it is delivered again as well, and
when it comes before the flush token the node has less to add. `reflush_same_iff` says that this is
the only difference, and `reflush_total_changed` that it happens.
-/

namespace MoneyLaundering

open WriteAhead StatefulWorker

variable {w : StatefulWorker} (cfg : NodeConfig) (client : ClientId) (token : Token)

/-- Whether a delivery is a copy of something the client has already sent. -/
def Delivery.SeenBy (flow : Flow w.State) : Delivery w → Prop
  | .main message => message.messageId ∈ flow.observe.seen .main
  | .control token => token.messageId ∈ flow.observe.seen .control

/-- Handling the delivery reports the node's counts to the ring and does nothing else: the end of
the stream, or another token that has no coordinator. -/
def Delivery.Reports : Delivery w → Prop
  | .main (.data ..) => False
  | .main (.eof ..) => True
  | .control other => other.ring.coordinatorId = none ∧ other.messageId ≠ token.messageId

/-- What may happen to a node between a flush that was cut off and the next one, all data having
been processed. The flag says whether it made durable that the node reported its counts. -/
inductive Interruption : Bool → w.WorkerStore → w.WorkerStore → Prop
  /-- An attempt to handle the token, or anything that neither flushes nor cleans up, dies before
  its first record is durable. -/
  | crash {st st' : w.WorkerStore} {delivery : Delivery w} {flow : Flow w.State} {es : List (Eff w)}
      {n : ℕ} {outs : List (Output w.Item)} {compacted : Bool}
      (hdelivery : delivery = .control token ∨ delivery.Quiet)
      (hhandles : Handles cfg client (st.mem client) delivery (flow, es))
      (hrun : w.discipline.Outcome st client flow es (some n) outs st' compacted)
      (hrecord : appends (upTo (some n) es) = []) : Interruption false st st'
  /-- A delivery for another client, possibly cut off. -/
  | other {st st' : w.WorkerStore} {client' : ClientId} {delivery : Delivery w}
      {flow : Flow w.State} {es : List (Eff w)} {point : Option ℕ} {outs : List (Output w.Item)}
      {compacted : Bool} (hclient : client' ≠ client)
      (hhandles : Handles cfg client' (st.mem client') delivery (flow, es))
      (hrun : w.discipline.Outcome st client' flow es point outs st' compacted) :
      Interruption false st st'
  /-- A copy of something the client has sent before, possibly cut off. -/
  | duplicate {st st' : w.WorkerStore} {delivery : Delivery w} {flow : Flow w.State}
      {es : List (Eff w)} {point : Option ℕ} {outs : List (Output w.Item)} {compacted : Bool}
      (hseen : delivery.SeenBy (st.mem client))
      (hhandles : Handles cfg client (st.mem client) delivery (flow, es))
      (hrun : w.discipline.Outcome st client flow es point outs st' compacted) :
      Interruption false st st'
  /-- The end of the stream or a token without a coordinator, which was not recorded before and now
  is, possibly cut off after its first record. -/
  | report {st st' : w.WorkerStore} {delivery : Delivery w} {flow : Flow w.State}
      {es : List (Eff w)} {point : Option ℕ} {outs : List (Output w.Item)} {compacted : Bool}
      (hreports : delivery.Reports token) (hunseen : ¬delivery.SeenBy (st.mem client))
      (hhandles : Handles cfg client (st.mem client) delivery (flow, es))
      (hrun : w.discipline.Outcome st client flow es point outs st' compacted)
      (hrecord : appends (upTo point es) ≠ []) : Interruption true st st'
  | restart {st st' : w.WorkerStore} (hrestart : w.discipline.Restarts st.log st') :
      Interruption false st st'

/-- Any number of interruptions. The flag says whether one of them reported the node's counts. -/
inductive Interruptions : Bool → w.WorkerStore → w.WorkerStore → Prop
  | refl (st : w.WorkerStore) : Interruptions false st st
  | tail {st st' st'' : w.WorkerStore} {reported reported' : Bool}
      (hfirst : Interruptions reported st st')
      (hlast : Interruption cfg client token reported' st' st'') :
      Interruptions (reported || reported') st st''

/-- Downstream the two runs of a handler cannot be told apart: the same messages, up to the order
among and inside them, and then the same token or the same end of the stream. -/
def SamePublishes (es₁ es₂ : List (Eff w)) : Prop :=
  ∃ msgs₁ msgs₂ out, SameMessages msgs₁ msgs₂ ∧
    publishes es₁ = msgs₁.map .data ++ [out] ∧ publishes es₂ = msgs₂.map .data ++ [out]

/-- What is known of a client when the token comes back: it was not handled, and the node has the
state and the counts of `v`, of which it has reported more if `reported`. -/
structure Resumes (v : Observed w.State) (reported : Bool) (v' : Observed w.State) : Prop where
  unseen : token.messageId ∉ v'.seen .control
  state : v'.state = v.state
  sent : v'.sent = v.sent
  partialSent : v'.partialSent = if reported then v.sent else v.partialSent

variable {cfg client token}

theorem Resumes.refl {v : Observed w.State} (hunseen : token.messageId ∉ v.seen .control) :
    Resumes token v false v := ⟨hunseen, rfl, rfl, rfl⟩

theorem Resumes.trans {v v' v'' : Observed w.State} {reported reported' : Bool}
    (h : Resumes token v reported v') (h' : Resumes token v' reported' v'') :
    Resumes token v (reported || reported') v'' where
  unseen := h'.unseen
  state := h'.state.trans h.state
  sent := h'.sent.trans h.sent
  partialSent := by
    rw [h'.partialSent, h.sent, h.partialSent]
    cases reported' <;> simp

theorem eq_of_handles_seen {flow flow' : Flow w.State} {delivery : Delivery w} {es : List (Eff w)}
    (hseen : delivery.SeenBy flow) (h : Handles cfg client flow delivery (flow', es)) :
    ∃ ch, flow' = { flow with seen := flow.seen.setdefault ch } ∧ es = [] := by
  cases delivery with
  | main message =>
    obtain ⟨hflow, hes⟩ := Prod.ext_iff.mp
      (Option.some.inj ((handleMessage_seen cfg client hseen).symm.trans h))
    exact ⟨.main, hflow.symm, hes.symm⟩
  | control token =>
    obtain ⟨msgs, -, hrun⟩ := h
    obtain ⟨hflow, hes⟩ := Prod.ext_iff.mp
      ((handleControlMessage_seen cfg client hseen msgs).symm.trans hrun)
    exact ⟨.control, hflow.symm, hes.symm⟩

/-- A flush publishes its messages and then passes the token on or ends the stream. -/
theorem handles_flush {flow flow' : Flow w.State} {coordinatorId : NodeId} {es : List (Eff w)}
    (hseen : token.messageId ∉ flow.observe.seen .control)
    (hcoord : token.ring.coordinatorId = some coordinatorId)
    (hexp : token.ring.expectedCount ≠ cleanupExpectedCount)
    (h : Handles cfg client flow (.control token) (flow', es)) :
    ∃ msgs, w.FlushData cfg.nodeId client flow.state msgs ∧
      ∃ r, es = (msgs.map Output.data ++ [flushOutput cfg client w.queryId
          (flow.observe.sent + msgs.length - flow.observe.partialSent) token
          coordinatorId]).map .publish ++ [.append r, .checkpoint flow'] := by
  obtain ⟨msgs, hflush, hrun⟩ := h
  obtain ⟨flow₁, heq, -, -⟩ := handleControlMessage_flush cfg client hseen hcoord hexp msgs
  obtain ⟨rfl, rfl⟩ := Prod.ext_iff.mp (heq.symm.trans hrun)
  exact ⟨msgs, hflush, _, rfl⟩

theorem publishes_flush {α σ ρ : Type} (msgs : List (Message α)) (out : Output α) (r : ρ)
    (flow : σ) :
    publishes ((msgs.map Output.data ++ [out]).map .publish ++ [.append r, .checkpoint flow])
      = msgs.map Output.data ++ [out] := by
  rw [publishes_map_publish, publishes, publishes, publishes, List.append_nil]

/-- The last thing a flush publishes tells how many messages it has added to the total. -/
theorem flushOutput_injective {α : Type} {queryId : Option String} {sent sent' : ℤ}
    {coordinatorId : NodeId}
    (h : (flushOutput cfg client queryId sent token coordinatorId : Output α)
      = flushOutput cfg client queryId sent' token coordinatorId) : sent = sent' := by
  by_cases hcoord : coordinatorId = cfg.nodeId
  · simp only [flushOutput, hcoord, if_true, Output.finalEof.injEq, EOF.mk.injEq] at h
    omega
  · simp only [flushOutput, hcoord, if_false, Output.ring.injEq, Token.mk.injEq, RingEOF.mk.injEq,
      Option.some.injEq] at h
    omega

/-! ## What an interruption leaves -/

theorem Delivery.Reports.quiet {delivery : Delivery w} (h : delivery.Reports token) :
    delivery.Quiet := by
  cases delivery with
  | main message => exact trivial
  | control other => exact h.1

/-- The records of a delivery that reports: first the control record with the counts reported, which
does not mention the flush token, and for the end of the stream its own record. -/
theorem appends_of_reports {flow flow' : Flow w.State} {delivery : Delivery w} {es : List (Eff w)}
    (hreports : delivery.Reports token) (hunseen : ¬delivery.SeenBy flow)
    (h : Handles cfg client flow delivery (flow', es)) :
    ∃ mid rest, appends es = .control mid (snapshotOf flow.observe.report) :: rest ∧
      mid ≠ some token.messageId ∧ ∀ r ∈ rest, ∃ mid', r = .message mid' none true := by
  cases delivery with
  | main message =>
    cases message with
    | data mid payload => exact hreports.elim
    | eof mid eof =>
      obtain ⟨flow₁, flow₂, heq, -⟩ := handleMessage_eof cfg client eof hunseen
      obtain ⟨-, rfl⟩ := Prod.ext_iff.mp (Option.some.inj (heq.symm.trans h))
      refine ⟨none, [.message mid none true], rfl, by simp, fun r hr ↦ ⟨mid, ?_⟩⟩
      exact List.mem_singleton.mp hr
  | control other =>
    obtain ⟨msgs, -, hrun⟩ := h
    obtain ⟨flow₁, heq, -⟩ := handleControlMessage_count cfg client hunseen hreports.1 msgs
    obtain ⟨-, rfl⟩ := Prod.ext_iff.mp (heq.symm.trans hrun)
    exact ⟨some other.messageId, [], rfl, fun hmid ↦ hreports.2 (Option.some.inj hmid), by simp⟩

/-- Records of ends of streams only add to the seen set of the main channel. -/
theorem resumes_applyAll_eof {rs : List (FlowRecord w.Delta)} {v : Observed w.State}
    (hrs : ∀ r ∈ rs, ∃ mid, r = .message mid none true)
    (hunseen : token.messageId ∉ v.seen .control) :
    Resumes token v false (w.observation.applyAll rs v) := by
  induction rs generalizing v with
  | nil => exact .refl hunseen
  | cons r rs ih =>
    obtain ⟨mid, rfl⟩ := hrs r List.mem_cons_self
    have hsee : (w.observation.apply (.message mid none true) v) = v.see .main mid :=
      replayObserved_eof v mid
    rw [View.applyAll_cons, hsee]
    have hunseen' : token.messageId ∉ (v.see .main mid).seen .control := hunseen
    obtain ⟨hseen, hstate, hsent, hpartial⟩ :=
      ih (fun r hr ↦ hrs r (List.mem_cons_of_mem _ hr)) hunseen'
    exact ⟨hseen, hstate, hsent, hpartial⟩

/-- The record of a report, and what may follow it. -/
theorem resumes_applyAll_report {mid : Option MessageId} {rest : List (FlowRecord w.Delta)}
    {v : Observed w.State} (hmid : mid ≠ some token.messageId)
    (hrest : ∀ r ∈ rest, ∃ mid, r = .message mid none true)
    (hunseen : token.messageId ∉ v.seen .control) :
    Resumes token v true
      (w.observation.applyAll (.control mid (snapshotOf v.report) :: rest) v) := by
  have hreport : Resumes token v true
      (w.observation.apply (.control mid (snapshotOf v.report)) v) := by
    rw [show w.observation.apply (.control mid (snapshotOf v.report)) v = _ from
      replayObserved_control mid]
    cases mid with
    | none => exact ⟨hunseen, rfl, rfl, rfl⟩
    | some mid =>
      refine ⟨?_, rfl, rfl, rfl⟩
      have hsee : (v.report.see .control mid).seen .control = insert mid (v.seen .control) :=
        Function.update_self Channel.control _ v.seen
      rw [Option.elim_some, hsee, Finset.mem_insert, not_or]
      exact ⟨fun heq ↦ hmid (congrArg some heq.symm), hunseen⟩
  rw [View.applyAll_cons]
  exact hreport.trans (resumes_applyAll_eof hrest hreport.unseen)

/-- **What may happen in between keeps the state and the counts**, but for what is reported. -/
theorem Interruption.resumes {st st' : w.WorkerStore} {coordinatorId : NodeId} {reported : Bool}
    (hcoord : token.ring.coordinatorId = some coordinatorId)
    (hexp : token.ring.expectedCount ≠ cleanupExpectedCount)
    (hunseen : token.messageId ∉ (st.mem client).observe.seen .control)
    (hsync : w.observation.Synced st client)
    (h : Interruption cfg client token reported st st') :
    w.observation.Synced st' client ∧
      Resumes token (st.mem client).observe reported (st'.mem client).observe := by
  have hsame {st' : w.WorkerStore}
      (hview : (st'.mem client).observe = (st.mem client).observe) :
      Resumes token (st.mem client).observe false (st'.mem client).observe := by
    rw [hview]
    exact .refl hunseen
  cases h with
  | crash hdelivery hhandles hrun hrecord =>
    rcases hdelivery with rfl | hquiet
    · obtain ⟨msgs, -, r, rfl⟩ := handles_flush hunseen hcoord hexp hhandles
      cases hrun with
      | crash n hex hr =>
        -- only messages have gone out, so the restart finds the log as it was
        rw [take_eq_map_publish hrecord] at hex
        rw [hex.log_eq_of_publishes] at hr
        obtain ⟨hmem, hsync'⟩ := w.observation.synced_of_restarts w.settled_replayRecord hr client
        exact ⟨hsync', hsame (hmem.trans hsync.1.symm)⟩
    · have hsound := (quietRun_of_handles cfg client hquiet hhandles).sound
      obtain ⟨-, hsync', hview⟩ := hsound.outcome hrun hsync
      rw [hrecord] at hview
      exact ⟨hsync', hsame hview⟩
  | other hclient hhandles hrun =>
    obtain ⟨hsync', hview⟩ :=
      w.observation.outcome_view_of_ne w.settled_replayRecord hrun hclient hsync
    exact ⟨hsync', hsame hview⟩
  | duplicate hdup hhandles hrun =>
    obtain ⟨ch, rfl, rfl⟩ := eq_of_handles_seen hdup hhandles
    have hsound := sound_duplicate (st.mem client) ch
    obtain ⟨-, hsync', hview⟩ := hsound.outcome hrun hsync
    have hnil : ∀ point, appends (upTo point ([] : List (Eff w))) = [] := fun point ↦
      List.prefix_nil.mp (appends_upTo point [])
    rw [hnil] at hview
    exact ⟨hsync', hsame hview⟩
  | @report _ _ delivery flow es point _ _ hreports hnew hhandles hrun hrecord =>
    have hsound := (quietRun_of_handles cfg client hreports.quiet hhandles).sound
    obtain ⟨-, hsync', hview⟩ := hsound.outcome hrun hsync
    refine ⟨hsync', ?_⟩
    obtain ⟨mid, rest, happ, hmid, hrest⟩ := appends_of_reports hreports hnew hhandles
    have hpre := appends_upTo point es
    rw [happ] at hpre
    rcases List.prefix_cons_iff.mp hpre with hnil | ⟨rest', heq, hrest'⟩
    · exact absurd hnil hrecord
    · rw [heq] at hview
      have hobs : (st'.mem client).observe = _ := hview
      rw [hobs]
      exact resumes_applyAll_report hmid (fun r hr ↦ hrest r (hrest'.subset hr)) hunseen
  | restart hr =>
    obtain ⟨hmem, hsync'⟩ := w.observation.synced_of_restarts w.settled_replayRecord hr client
    exact ⟨hsync', hsame (hmem.trans hsync.1.symm)⟩

theorem Interruptions.resumes {st st' : w.WorkerStore} {coordinatorId : NodeId} {reported : Bool}
    (hcoord : token.ring.coordinatorId = some coordinatorId)
    (hexp : token.ring.expectedCount ≠ cleanupExpectedCount)
    (hunseen : token.messageId ∉ (st.mem client).observe.seen .control)
    (hsync : w.observation.Synced st client)
    (h : Interruptions cfg client token reported st st') :
    w.observation.Synced st' client ∧
      Resumes token (st.mem client).observe reported (st'.mem client).observe := by
  induction h with
  | refl => exact ⟨hsync, .refl hunseen⟩
  | tail hfirst hlast ih =>
    obtain ⟨hsync₁, hresumes₁⟩ := ih hunseen hsync
    obtain ⟨hsync₂, hresumes₂⟩ := hlast.resumes hcoord hexp hresumes₁.unseen hsync₁
    exact ⟨hsync₂, hresumes₁.trans hresumes₂⟩

/-! ## The second flush -/

/-- Two flushes of one state publish the same messages, and the same token or end of the stream if
and only if the nodes had the same number of messages left to report. -/
theorem samePublishes_iff {flow₁ flow₂ flow₁' flow₂' : Flow w.State} {es₁ es₂ : List (Eff w)}
    {coordinatorId : NodeId} (hcoord : token.ring.coordinatorId = some coordinatorId)
    (hexp : token.ring.expectedCount ≠ cleanupExpectedCount)
    (hseen₁ : token.messageId ∉ flow₁.observe.seen .control)
    (hseen₂ : token.messageId ∉ flow₂.observe.seen .control) (hstate : flow₂.state = flow₁.state)
    (h₁ : Handles cfg client flow₁ (.control token) (flow₁', es₁))
    (h₂ : Handles cfg client flow₂ (.control token) (flow₂', es₂)) :
    SamePublishes es₁ es₂ ↔
      flow₁.observe.sent - flow₁.observe.partialSent
        = flow₂.observe.sent - flow₂.observe.partialSent := by
  obtain ⟨msgs₁, hflush₁, r₁, rfl⟩ := handles_flush hseen₁ hcoord hexp h₁
  obtain ⟨msgs₂, hflush₂, r₂, rfl⟩ := handles_flush hseen₂ hcoord hexp h₂
  rw [hstate] at hflush₂
  have hsame := w.flush_same hflush₁ hflush₂
  have hlength := hsame.length_eq
  simp only [SamePublishes, publishes_flush]
  constructor
  · rintro ⟨msgs₁', msgs₂', out, -, hes₁, hes₂⟩
    obtain ⟨-, hout₁⟩ := List.append_inj' hes₁ rfl
    obtain ⟨-, hout₂⟩ := List.append_inj' hes₂ rfl
    have hsent := flushOutput_injective (List.cons.inj (hout₁.trans hout₂.symm)).1
    omega
  · intro hleft
    refine ⟨msgs₁, msgs₂, _, hsame, rfl, ?_⟩
    rw [hlength, add_sub_right_comm, add_sub_right_comm, hleft]

/-- **Flushing again after a crash is flushing once, unless the node has reported its counts in
between.** From any state that a run of any kind of worker leads to, let a flush token that was not
seen before be handled completely, or let it be handled after any number of attempts that died
before their record was durable, restarts, copies of earlier messages, ends of streams and tokens
without a coordinator that are delivered again, and deliveries for other clients. Either way the
same messages are published. The token passed on, or the end of the stream, is the same if and only
if none of these made durable that the node reported its counts, or the node had nothing left to
report when the token came first. -/
theorem reflush_same_iff {A : Type} [Amount A] (kind : StatefulKind) (hash : String → ℕ)
    (paymentFormatKey : String → String) (config : Config A) (cfg : NodeConfig) (client : ClientId)
    {s : Process (kind.worker hash paymentFormatKey config)} (hreach : Process.Reachable cfg s)
    (hquiet : ∀ p ∈ s.delivered, p.1 = client → p.2.Quiet) {token : Token} {coordinatorId : NodeId}
    (hcoord : token.ring.coordinatorId = some coordinatorId)
    (hexp : token.ring.expectedCount ≠ cleanupExpectedCount)
    (hseen : token.messageId ∉ (s.store.mem client).observe.seen .control) {reported : Bool}
    {st : (kind.worker hash paymentFormatKey config).WorkerStore}
    (hbetween : Interruptions cfg client token reported s.store st)
    {flow₁ flow₂ : Flow (kind.worker hash paymentFormatKey config).State}
    {es₁ es₂ : List (Eff (kind.worker hash paymentFormatKey config))}
    (hfirst : Handles cfg client (s.store.mem client) (.control token) (flow₁, es₁))
    (hagain : Handles cfg client (st.mem client) (.control token) (flow₂, es₂)) :
    SamePublishes es₁ es₂ ↔
      reported = false ∨
        (s.store.mem client).observe.sent = (s.store.mem client).observe.partialSent := by
  obtain ⟨-, hresumes⟩ := hbetween.resumes hcoord hexp hseen
    (recovers_of_reachable hreach hquiet).synced
  rw [samePublishes_iff hcoord hexp hseen hresumes.unseen hresumes.state hfirst hagain,
    hresumes.sent, hresumes.partialSent]
  cases reported with
  | false => simp
  | true => simp [sub_eq_zero]

/-- A counting worker dies after sending its count and before passing the token on. -/
theorem reflush_same_iff_crash :
    ∃ (s : Process (StatefulKind.lowAmountReducer.worker hashOf id countingConfig)) (st : _)
      (es₁ es₂ : List (Eff (StatefulKind.lowAmountReducer.worker hashOf id countingConfig))),
      s.delivered.length = 1 ∧
      Interruptions ⟨0, 1⟩ "c" ⟨"c:flush:0", ⟨1, 1, some 0, some 0⟩⟩ false s.store st ∧
      SamePublishes es₁ es₂ := by
  let w := StatefulKind.lowAmountReducer.worker hashOf id countingConfig
  let message : MainMessage w := .data "c:0:0" (⟨7⟩ : Count)
  let token : Token := ⟨"c:flush:0", ⟨1, 1, some 0, some 0⟩⟩
  let handled : Flow w.State × List (Eff w) :=
    acceptData { w.emptyFlow with seen := w.emptyFlow.seen.setdefault .main } "c:0:0"
      ((7 : ℤ), ([] : List (Message Q5Result)), (7 : ℤ))
  have hhandles : Handles ⟨0, 1⟩ "c" ((Process.init w).store.mem "c") (.main message) handled := rfl
  let store : w.WorkerStore := ⟨Function.update (Process.init w).store.mem "c" handled.1,
    [("c", .message "c:0:0" (some (7 : ℤ)) false)]⟩
  let s := (Process.init w).remember "c" (.main message) handled.2 none store
  have hreach : Process.Reachable ⟨0, 1⟩ s :=
    .single (.deliver hhandles (.complete (Discipline.exec_keep _ _ _ _)))
  have hseen : token.messageId ∉ (s.store.mem "c").observe.seen .control := Finset.notMem_empty _
  let flushing (flow : Flow w.State) : Flow w.State × List (Eff w) :=
    handleControlMessage ⟨0, 1⟩ "c"
      [{ msgType := .q5ResultBatch
         routingKey := some "c"
         messageId := flushId 0 "c" 0
         payload := [(⟨flow.state⟩ : Q5Result)] }] flow token
  have hflushing : ∀ flow, Handles ⟨0, 1⟩ "c" flow (.control token) (flushing flow) := fun flow ↦
    ⟨_, rfl, rfl⟩
  obtain ⟨st, hrestart⟩ := w.exists_restarts s.store.log
  have hcrash : Interruptions ⟨0, 1⟩ "c" token false s.store st :=
    .tail (.refl _) (.crash (.inl rfl) (hflushing (s.store.mem "c"))
      (.crash 1 (.publish _ (.nil _)) hrestart) rfl)
  refine ⟨s, st, (flushing (s.store.mem "c")).2, (flushing (st.mem "c")).2, rfl, hcrash, ?_⟩
  exact (reflush_same_iff .lowAmountReducer hashOf id countingConfig ⟨0, 1⟩ "c" hreach (by
      intro p hp _
      have hp : p = ("c", Delivery.main message) := by
        simpa [s, Process.remember, Process.init] using hp
      rw [hp]
      exact trivial) rfl (by decide) hseen hcrash
    (hflushing (s.store.mem "c")) (hflushing (st.mem "c"))).mpr (Or.inl rfl)

/-! ## A report in between -/

/-- A sharder with one replica behind it. -/
abbrev edgeSharder : StatefulWorker :=
  StatefulKind.bidirectionalSharder.worker hashOf id countingConfig

/-- A transaction that the sharder sends on, as one message. -/
def oneTransfer : Transaction ℕ where
  timestamp := some 0
  fromBank := some "1"
  fromAccount := some "a"
  toBank := some "2"
  toAccount := some "b"
  amount := some 5
  currency := none
  paymentFormat := none

/-- The counters of a sharder that has processed one message and reported nothing. -/
def sharded (mid : MessageId) : Observed edgeSharder.State :=
  edgeSharder.process edgeSharder.nothing mid (1 : ℤ)

theorem exists_sharded (cfg : NodeConfig) (mid : MessageId) :
    ∃ s : Process edgeSharder, Process.Reachable cfg s ∧
      s.delivered = [("c", .main (.data mid [oneTransfer]))] ∧
      s.acked = [("c", .main (.data mid [oneTransfer]))] ∧
      (s.store.mem "c").observe = sharded mid := by
  let flow := { edgeSharder.emptyFlow with seen := edgeSharder.emptyFlow.seen.setdefault .main }
  let msgs := (createEdgesByShard hashOf countingConfig [oneTransfer]).items.map
    (edgeMessage countingConfig mid)
  have hlength : msgs.length = 1 := by
    rw [List.length_map]
    simp only [createEdgesByShard, shardOf, countingConfig, Nat.mod_one]
    decide
  have hdata : edgeSharder.handleDataMessage mid () [oneTransfer] = some ((), msgs, (1 : ℤ)) := by
    have hcount : (msgs.length : ℤ) = 1 := by rw [hlength, Nat.cast_one]
    rw [← hcount]
    rfl
  have hhandles : Handles cfg "c" ((Process.init edgeSharder).store.mem "c")
      (.main (.data mid [oneTransfer])) (acceptData flow mid ((), msgs, (1 : ℤ))) :=
    handleMessage_data_eq cfg "c" (Finset.notMem_empty mid) hdata
  obtain ⟨hobs, -⟩ := observe_acceptData flow (Seen.setdefault_self_ne_none _ .main) hdata
  refine ⟨_, .single (.deliver hhandles (.complete (Discipline.exec_keep _ _ _ _))), rfl, rfl, ?_⟩
  rw [Flow.observe_setdefault] at hobs
  simp only [Process.remember, Function.update_self]
  exact hobs

/-- The token that starts the ring for two messages. -/
def firstLap : Token := ⟨ringId "c" ringPhaseCount 0, ⟨2, 1, none, some 1⟩⟩

/-- What the second of two sharders makes of it. -/
def flushLap : Token := ⟨ringId "c" ringPhaseFlush 0, ⟨2, 2, some 1, some 2⟩⟩

/-- The token that the first sharder passes on when it has flushed, with the total it carries. -/
def lastHop (totalSent : ℤ) : Token := ⟨ringId "c" ringPhaseFlush 1, ⟨2, 2, some 1, some totalSent⟩⟩

/-- A handler may die right after the first thing it publishes. -/
theorem outcome_publish {st st' : w.WorkerStore} {flow : Flow w.State} {es : List (Eff w)}
    {o : Output w.Item} (htake : es.take 1 = [.publish o])
    (hrestart : w.discipline.Restarts st.log st') :
    w.discipline.Outcome st client flow es (some 1) [o] st' true := by
  have hexec : w.discipline.Exec st.mem client (es.take 1) st.log st.log [o] false := by
    rw [htake]
    exact .publish o (.nil st.log)
  exact .crash 1 hexec hrestart

theorem handles_eof (cfg : NodeConfig) {flow : Flow edgeSharder.State} {mid : MessageId}
    (hobs : flow.observe = sharded mid) (hmid : mid ≠ "c:eof") :
    ∃ flow' es, Handles cfg "c" flow (.main (.eof "c:eof" ⟨2⟩)) (flow', es) ∧ appends es ≠ [] ∧
      es.take 1 = [.publish (.ring cfg.getNextNodeId firstLap)] := by
  have hunseen : "c:eof" ∉ flow.observe.seen .main := by
    rw [hobs]
    exact fun hmem ↦ hmid (Finset.mem_singleton.mp hmem).symm
  obtain ⟨flow₁, flow₂, heq, -⟩ := handleMessage_eof cfg "c" ⟨2⟩ hunseen
  refine ⟨flow₂, _, heq, List.cons_ne_nil _ _, ?_⟩
  rw [hobs]
  rfl

theorem handles_firstLap {flow : Flow edgeSharder.State} {mid : MessageId}
    (hobs : flow.observe = sharded mid) :
    ∃ flow' es, Handles ⟨1, 2⟩ "c" flow (.control firstLap) (flow', es) ∧
      publishes es = [.ring 0 flushLap] := by
  have hunseen : firstLap.messageId ∉ flow.observe.seen .control := by
    rw [hobs]
    exact Finset.notMem_empty _
  obtain ⟨flow', heq, -⟩ := handleControlMessage_count ⟨1, 2⟩ "c" hunseen rfl []
  refine ⟨flow', _, ⟨[], rfl, heq⟩, ?_⟩
  rw [hobs]
  rfl

theorem handles_flushLap {flow : Flow edgeSharder.State}
    (hunseen : flushLap.messageId ∉ flow.observe.seen .control) :
    ∃ flow' es, Handles ⟨0, 2⟩ "c" flow (.control flushLap) (flow', es) ∧
      publishes es = [.ring 1 (lastHop (2 + (flow.observe.sent - flow.observe.partialSent)))] ∧
      es.take 1 = [.publish
        (.ring 1 (lastHop (2 + (flow.observe.sent - flow.observe.partialSent))))] := by
  obtain ⟨flow', heq, -⟩ := handleControlMessage_flush ⟨0, 2⟩ "c" hunseen rfl (by decide)
    ([] : List (Message edgeSharder.Item))
  have hout : flushOutput ⟨0, 2⟩ "c" edgeSharder.queryId
      (flow.observe.sent + ([] : List (Message edgeSharder.Item)).length
        - flow.observe.partialSent) flushLap 1
      = (.ring 1 (lastHop (2 + (flow.observe.sent - flow.observe.partialSent))) :
        Output edgeSharder.Item) := by
    simp [flushOutput, flushLap, lastHop, NodeConfig.getNextNodeId]
  rw [hout] at heq
  exact ⟨flow', _, ⟨[], rfl, heq⟩, rfl, rfl⟩

/-- A sharder has processed one message, and takes the end of the stream, but dies after publishing
the first token. -/
theorem exists_started :
    ∃ s : Process edgeSharder, Process.Reachable ⟨0, 2⟩ s ∧ (∀ p ∈ s.delivered, p.2.Quiet) ∧
      ("c", .main (.eof "c:eof" ⟨2⟩)) ∈ s.delivered ∧
      ("c", .main (.eof "c:eof" ⟨2⟩)) ∉ s.acked ∧
      (s.store.mem "c").observe = sharded "c:0" := by
  obtain ⟨s, hreach, hdelivered, hacked, hobs⟩ := exists_sharded ⟨0, 2⟩ "c:0"
  obtain ⟨flow, es, hhandles, -, htake⟩ := handles_eof ⟨0, 2⟩ hobs (by decide)
  have hrecovers : Recovers ⟨0, 2⟩ "c" s := recovers_of_reachable hreach (by
    intro p hp _
    rw [hdelivered, List.mem_singleton] at hp
    rw [hp]
    exact trivial)
  obtain ⟨st, hrestart⟩ := edgeSharder.exists_restarts s.store.log
  refine ⟨_, hreach.tail (.deliver hhandles (outcome_publish htake hrestart)), ?_, ?_, ?_, ?_⟩
  · intro p hp
    rcases List.mem_append.mp hp with hp | hp
    · rw [hdelivered, List.mem_singleton] at hp
      rw [hp]
      exact trivial
    · rw [List.mem_singleton.mp hp]
      exact trivial
  · exact List.mem_append_right _ List.mem_cons_self
  · simp [Process.remember, hacked]
  · obtain ⟨hmem, -⟩ := edgeSharder.observation.synced_of_restarts edgeSharder.settled_replayRecord
      hrestart "c"
    exact (hmem.trans hrecovers.synced.1.symm).trans hobs

/-- Two sharders have processed one message each, which is all that the end of the stream announces.
The first one takes the end of the stream and dies after publishing the first token. The second one
makes it the flush token, which comes back to the first one, restarted. A complete first flush would
pass on a total of 3. The first flush dies after doing so, the end of the stream is redelivered and
recorded, and the redelivered flush token is passed on, under the same id, with a total of 2. -/
theorem reflush_total_changed :
    ∃ (s s' : Process edgeSharder) (st : edgeSharder.WorkerStore)
      (flow₀ flow₁ flow₂ flow' : Flow edgeSharder.State) (es₀ es₁ es₂ es' : List (Eff edgeSharder)),
      Process.Reachable ⟨0, 2⟩ s ∧ Process.Reachable ⟨1, 2⟩ s' ∧
      (∀ p ∈ s.delivered, p.2.Quiet) ∧
      ("c", .main (.eof "c:eof" ⟨2⟩)) ∈ s.delivered ∧
      ("c", .main (.eof "c:eof" ⟨2⟩)) ∉ s.acked ∧
      Handles ⟨0, 2⟩ "c" (s.store.mem "c") (.main (.eof "c:eof" ⟨2⟩)) (flow₀, es₀) ∧
      es₀.take 1 = [.publish (.ring 1 firstLap)] ∧
      Handles ⟨1, 2⟩ "c" (s'.store.mem "c") (.control firstLap) (flow', es') ∧
      publishes es' = [.ring 0 flushLap] ∧
      flushLap.messageId ∉ (s.store.mem "c").observe.seen .control ∧
      Interruptions ⟨0, 2⟩ "c" flushLap true s.store st ∧
      Handles ⟨0, 2⟩ "c" (s.store.mem "c") (.control flushLap) (flow₁, es₁) ∧
      Handles ⟨0, 2⟩ "c" (st.mem "c") (.control flushLap) (flow₂, es₂) ∧
      publishes es₁ = [.ring 1 (lastHop 3)] ∧ publishes es₂ = [.ring 1 (lastHop 2)] ∧
      ¬SamePublishes es₁ es₂ := by
  obtain ⟨s, hreach, hquiet, hdelivered, hacked, hobs⟩ := exists_started
  obtain ⟨s', hreach', -, -, hobs'⟩ := exists_sharded ⟨1, 2⟩ "c:1"
  have hunseen : flushLap.messageId ∉ (s.store.mem "c").observe.seen .control := by
    rw [hobs]
    exact Finset.notMem_empty _
  have hrecovers : Recovers ⟨0, 2⟩ "c" s := recovers_of_reachable hreach fun p hp _ ↦ hquiet p hp
  have hsync := hrecovers.synced
  obtain ⟨flow', es', hhandles', hpublishes'⟩ := handles_firstLap hobs'
  obtain ⟨flow₁, es₁, hfirst, hpublishes₁, htake₁⟩ := handles_flushLap hunseen
  -- the first flush dies after passing the token on
  obtain ⟨st₁, hrestart₁⟩ := edgeSharder.exists_restarts s.store.log
  have hcrash : Interruption ⟨0, 2⟩ "c" flushLap false s.store st₁ :=
    .crash (Or.inl rfl) hfirst (outcome_publish htake₁ hrestart₁) (by rw [upTo, htake₁]; rfl)
  obtain ⟨hsync₁, hresumes₁⟩ := hcrash.resumes rfl (by decide) hunseen hsync
  -- then the end of the stream is handled to its end
  obtain ⟨hmem₁, -⟩ := edgeSharder.observation.synced_of_restarts edgeSharder.settled_replayRecord
    hrestart₁ "c"
  have hobs₁ : (st₁.mem "c").observe = sharded "c:0" := (hmem₁.trans hsync.1.symm).trans hobs
  obtain ⟨flow₀', es₀', heof', happends', -⟩ := handles_eof ⟨0, 2⟩ hobs₁ (by decide)
  have hreports : (Delivery.main (.eof "c:eof" ⟨2⟩) : Delivery edgeSharder).Reports flushLap :=
    trivial
  have hnew : ¬(Delivery.main (.eof "c:eof" ⟨2⟩)).SeenBy (st₁.mem "c") := by
    rw [Delivery.SeenBy, hobs₁]
    decide
  have hreport : Interruption ⟨0, 2⟩ "c" flushLap true st₁ _ :=
    .report hreports hnew heof' (.complete (Discipline.exec_keep _ _ _ _)) happends'
  have hbetween := ((Interruptions.refl s.store).tail hcrash).tail hreport
  obtain ⟨-, hresumes⟩ := hbetween.resumes rfl (by decide) hunseen hsync
  obtain ⟨flow₂, es₂, hagain, hpublishes₂, -⟩ := handles_flushLap hresumes.unseen
  obtain ⟨flow₀, es₀, heof, -, htake⟩ := handles_eof ⟨0, 2⟩ hobs (by decide)
  refine ⟨s, s', _, flow₀, flow₁, flow₂, flow', es₀, es₁, es₂, es', hreach, hreach', hquiet,
    hdelivered, hacked, heof, htake, hhandles', hpublishes', hunseen, hbetween, hfirst, hagain,
    ?_, ?_, ?_⟩
  · rw [hpublishes₁, hobs]
    rfl
  · rw [hpublishes₂, hresumes.sent, hresumes.partialSent, hobs]
    rfl
  · rw [samePublishes_iff rfl (by decide) hunseen hresumes.unseen hresumes.state hfirst hagain,
      hresumes.sent, hresumes.partialSent, hobs]
    decide

end MoneyLaundering
