import MoneyLaundering.Worker.Run
import MoneyLaundering.Workers.Kinds

/-!
# Exact recovery and exactly-once effect

A worker logs a delta for each data message, an absolute snapshot of its ring counters for each
token and each start of a ring, and now and then replaces the log by one snapshot for each client.
Live handling and replay are different code. The result of this module, `exact_recovery`, is that
they agree: whatever was delivered, wherever the process crashed and wherever the log was compacted,
what a restart rebuilds for a client is what live handling of exactly the records that became
durable would have left, and every message whose handling completed is among them once.

The client must not have been flushed or dropped, since a flush is not logged.

## Missing entries

Replay may create a counter at zero or an empty set where live handling has none. States are
compared by `Flow.observe`, which no reader can tell apart.
-/

namespace MoneyLaundering

open WriteAhead StatefulWorker

namespace FlowRecord

variable {Δ : Type}

/-- A record that handling a delivery may append, short of a cleanup. -/
def Plain : FlowRecord Δ → Prop
  | .message _ (some _) false => True
  | .message _ none true => True
  | .control .. => True
  | _ => False

/-- The id of a message of the main channel. -/
def mainId : FlowRecord Δ → Option MessageId
  | .message mid _ _ => some mid
  | _ => none

/-- The id and the delta of a data message. -/
def data : FlowRecord Δ → Option (MessageId × Δ)
  | .message mid (some delta) false => some (mid, delta)
  | _ => none

end FlowRecord

variable {w : StatefulWorker} (cfg : NodeConfig) (client : ClientId)

/-! ## Live handling of the durable records -/

/-- Handle again, live and without a crash, what made a record durable. The end of a stream makes
two records durable, one when its ring is started and one when it is done. -/
def redo (flow : Flow w.State) : Durable w → Flow w.State
  | ⟨.main (.data mid payload), _⟩ =>
    ((handleMessage cfg client flow (.data mid payload)).map Prod.fst).getD flow
  | ⟨.main (.eof _ eof), .control ..⟩ => (handleEofMessage cfg client flow eof).1
  | ⟨.main (.eof mid _), _⟩ =>
    { flow with seen := (flow.seen.setdefault .main).addTo .main mid }
  | ⟨.control token, _⟩ => (handleControlMessage cfg client [] flow token).1

/-- What a worker holds for a client after handling exactly the durable records. -/
def liveFlow (durable : List (Durable w)) : Flow w.State :=
  durable.foldl (redo cfg client) w.emptyFlow

theorem liveFlow_append (durable durable' : List (Durable w)) :
    liveFlow cfg client (durable ++ durable')
      = durable'.foldl (redo cfg client) (liveFlow cfg client durable) := List.foldl_append

theorem observe_handleEofMessage (flow : Flow w.State) (eof : EOF) :
    (handleEofMessage cfg client flow eof).1.observe = flow.observe.report := by
  simp [handleEofMessage, getTotalCount, Flow.observe, Observed.report]

theorem observe_redo_data {flow : Flow w.State} {mid : MessageId} {payload : w.Payload}
    {handled : w.State × List (Message w.Item) × w.Delta} (h : mid ∉ flow.observe.seen .main)
    (hdata : w.handleDataMessage mid flow.state payload = some handled)
    (r : FlowRecord w.Delta) :
    (redo cfg client flow ⟨.main (.data mid payload), r⟩).observe
      = w.process flow.observe mid handled.2.2 := by
  simp only [redo, handleMessage_data_eq cfg client h hdata, Option.map_some, Option.getD_some]
  obtain ⟨hobs, -⟩ := observe_acceptData { flow with seen := flow.seen.setdefault .main }
    (Seen.setdefault_self_ne_none flow.seen .main) hdata
  rw [hobs, Flow.observe_setdefault]

/-! ## Handling one delivery -/

/-- What is known about a handler run for a delivery that neither flushes nor cleans up. -/
structure QuietRun (flow flow' : Flow w.State) (delivery : Delivery w) (es : List (Eff w)) :
    Prop where
  sound : Sound w.observation flow flow' es
  plain : ∀ r ∈ appends es, r.Plain
  fresh : ∀ mid ∈ (appends es).filterMap FlowRecord.mainId, mid ∉ flow.observe.seen .main
  nodup : ((appends es).filterMap FlowRecord.mainId).Nodup
  done : ∀ message, delivery = .main message → message.messageId ∈ flow.observe.seen .main ∨
    message.messageId ∈ (appends es).filterMap FlowRecord.mainId
  redone : ∀ live : Flow w.State, live.observe = flow.observe → ∀ rs, rs <+: appends es →
    ((rs.map (Durable.mk delivery)).foldl (redo cfg client) live).observe
      = w.observation.applyAll rs live.observe

theorem quietRun_duplicate (flow : Flow w.State) (ch : Channel) (delivery : Delivery w)
    (hdone : ∀ message, delivery = .main message → message.messageId ∈ flow.observe.seen .main) :
    QuietRun cfg client flow { flow with seen := flow.seen.setdefault ch } delivery [] where
  sound := sound_duplicate flow ch
  plain := by simp [appends]
  fresh := by simp [appends]
  nodup := by simp [appends]
  done message h := Or.inl (hdone message h)
  redone live _ rs hrs := by
    rw [List.prefix_nil.mp hrs]
    rfl

theorem quietRun_data {flow flow' : Flow w.State} {mid : MessageId} {payload : w.Payload}
    {es : List (Eff w)} (h : mid ∉ flow.observe.seen .main)
    (hrun : handleMessage cfg client flow (.data mid payload) = some (flow', es)) :
    QuietRun cfg client flow flow' (.main (.data mid payload)) es := by
  obtain ⟨state, msgs, delta, hdata, rfl, hobs, hkeys⟩ := handleMessage_data cfg client h hrun
  have happ : appends ((msgs.map Output.data).map .publish ++
      [.append (.message mid (some delta) false), .checkpoint flow'] : List (Eff w))
        = [FlowRecord.message mid (some delta) false] := by
    rw [appends_map_publish]
    rfl
  refine ⟨sound_data _ hobs hkeys, ?_, ?_, ?_, ?_, ?_⟩ <;> rw [happ]
  · simp [FlowRecord.Plain]
  · simpa [FlowRecord.mainId] using h
  · simp [FlowRecord.mainId]
  · rintro message hmessage
    obtain rfl := (Delivery.main.inj hmessage).symm
    exact Or.inr (by simp [FlowRecord.mainId, MainMessage.messageId])
  · intro live hlive rs hrs
    rcases List.prefix_cons_iff.mp hrs with rfl | ⟨rs', rfl, hrs'⟩
    · rfl
    · rw [List.prefix_nil.mp hrs']
      have hstate : live.state = flow.state := congrArg Observed.state hlive
      exact observe_redo_data cfg client (by rw [hlive]; exact h) (by rw [hstate]; exact hdata)
        (.message mid (some delta) false)

theorem quietRun_eof {flow flow' : Flow w.State} {mid : MessageId} {eof : EOF} {es : List (Eff w)}
    (h : mid ∉ flow.observe.seen .main)
    (hrun : handleMessage cfg client flow (.eof mid eof) = some (flow', es)) :
    QuietRun cfg client flow flow' (.main (.eof mid eof)) es := by
  obtain ⟨flow₁, flow₂, heq, h₁, h₂, hkeys₁, hkeys₂⟩ := handleMessage_eof cfg client eof h
  obtain ⟨rfl, rfl⟩ := Prod.ext_iff.mp (Option.some.inj (heq.symm.trans hrun))
  refine ⟨sound_eof h₁ h₂ hkeys₁ hkeys₂, ?_, ?_, ?_, ?_, ?_⟩ <;> simp only [appends]
  · simp [FlowRecord.Plain]
  · simpa [FlowRecord.mainId] using h
  · exact List.nodup_singleton mid
  · rintro message hmessage
    obtain rfl := (Delivery.main.inj hmessage).symm
    exact Or.inr (by simp [FlowRecord.mainId, MainMessage.messageId])
  · intro live hlive rs hrs
    have hstart : (redo cfg client live ⟨.main (.eof mid eof),
        .control none (snapshotOf flow.observe.report)⟩).observe = live.observe.report :=
      observe_handleEofMessage cfg client live eof
    rcases List.prefix_cons_iff.mp hrs with rfl | ⟨rs', rfl, hrs'⟩
    · rfl
    · rcases List.prefix_cons_iff.mp hrs' with rfl | ⟨rs'', rfl, hrs''⟩
      · rw [hlive] at hstart ⊢
        exact hstart
      · rw [List.prefix_nil.mp hrs'']
        have hsee := Flow.observe_see (redo cfg client live ⟨.main (.eof mid eof),
          .control none (snapshotOf flow.observe.report)⟩) .main mid
        rw [hstart, hlive] at hsee
        rw [hlive]
        exact hsee

theorem quietRun_count {flow flow' : Flow w.State} {token : Token} {es : List (Eff w)}
    {msgs : List (Message w.Item)} (h : token.messageId ∉ flow.observe.seen .control)
    (hquiet : token.ring.coordinatorId = none)
    (hrun : handleControlMessage cfg client msgs flow token = (flow', es)) :
    QuietRun cfg client flow flow' (.control token) es := by
  obtain ⟨flow₁, heq, hobs, hkeys⟩ := handleControlMessage_count cfg client h hquiet msgs
  obtain ⟨rfl, rfl⟩ := Prod.ext_iff.mp (heq.symm.trans hrun)
  refine ⟨sound_count hobs hkeys, ?_, ?_, ?_, ?_, ?_⟩ <;> simp only [appends]
  · simp [FlowRecord.Plain]
  · simp [FlowRecord.mainId]
  · exact List.nodup_nil
  · rintro message hmessage
    exact absurd hmessage (by simp)
  · intro live hlive rs hrs
    rcases List.prefix_cons_iff.mp hrs with rfl | ⟨rs', rfl, hrs'⟩
    · rfl
    · rw [List.prefix_nil.mp hrs']
      obtain ⟨flow₂, heq₂, hobs₂, -⟩ := handleControlMessage_count cfg client
        (show token.messageId ∉ live.observe.seen .control by rw [hlive]; exact h) hquiet []
      have hredo : redo cfg client live ⟨.control token, .control (some token.messageId)
          (snapshotOf flow.observe.report)⟩ = flow₂ := congrArg Prod.fst heq₂
      rw [hlive] at hobs₂
      simp only [List.map_cons, List.map_nil, List.foldl_cons, List.foldl_nil, hredo, hobs₂, hlive]
      rfl

theorem quietRun_of_handles {flow flow' : Flow w.State} {delivery : Delivery w}
    {es : List (Eff w)} (hquiet : delivery.Quiet)
    (h : Handles cfg client flow delivery (flow', es)) :
    QuietRun cfg client flow flow' delivery es := by
  cases delivery with
  | main message =>
    by_cases hseen : message.messageId ∈ flow.observe.seen .main
    · obtain ⟨rfl, rfl⟩ := Prod.ext_iff.mp
        (Option.some.inj ((handleMessage_seen cfg client hseen).symm.trans h))
      refine quietRun_duplicate cfg client flow .main _ fun message' h' ↦ ?_
      rw [← Delivery.main.inj h']
      exact hseen
    · cases message with
      | data mid payload => exact quietRun_data cfg client hseen h
      | eof mid eof => exact quietRun_eof cfg client hseen h
  | control token =>
    obtain ⟨msgs, -, hrun⟩ := h
    by_cases hseen : token.messageId ∈ flow.observe.seen .control
    · obtain ⟨rfl, rfl⟩ := Prod.ext_iff.mp
        ((handleControlMessage_seen cfg client hseen msgs).symm.trans hrun)
      exact quietRun_duplicate cfg client flow .control _ fun message' h' ↦ absurd h' (by simp)
    · exact quietRun_count cfg client hseen hquiet hrun

/-! ## What plain records add up to -/

theorem mem_seen_applyAll {rs : List (FlowRecord w.Delta)} (h : ∀ r ∈ rs, r.Plain)
    (v : Observed w.State) (mid : MessageId) :
    mid ∈ (w.observation.applyAll rs v).seen .main
      ↔ mid ∈ v.seen .main ∨ mid ∈ rs.filterMap FlowRecord.mainId := by
  induction rs generalizing v with
  | nil => simp
  | cons r rs ih =>
    rw [View.applyAll_cons, ih (fun r hr ↦ h r (List.mem_cons_of_mem _ hr)), List.filterMap_cons]
    have hr := h r List.mem_cons_self
    cases r with
    | message mid' delta eof =>
      have hsee : (w.observation.apply (.message mid' delta eof) v).seen .main
          = insert mid' (v.seen .main) := by
        cases delta <;> cases eof <;> exact Function.update_self Channel.main _ v.seen
      rw [hsee]
      simp only [FlowRecord.mainId, Finset.mem_insert, List.mem_cons]
      tauto
    | control mid' ring =>
      have hsee : (w.observation.apply (.control mid' ring) v).seen .main = v.seen .main := by
        cases mid' with
        | none => rfl
        | some mid' =>
          exact Function.update_of_ne (show Channel.main ≠ .control by decide)
            (insert mid' (v.seen .control)) v.seen
      rw [hsee]
      rfl
    | snapshot => exact hr.elim
    | cleanup => exact hr.elim

theorem processed_applyAll {rs : List (FlowRecord w.Delta)} (h : ∀ r ∈ rs, r.Plain)
    (v : Observed w.State) :
    (w.observation.applyAll rs v).processed
        = v.processed + (rs.filterMap FlowRecord.data).length ∧
      (w.observation.applyAll rs v).state
        = (rs.filterMap FlowRecord.data).foldl (fun state p ↦ w.applyDelta p.2 state) v.state := by
  induction rs generalizing v with
  | nil => simp
  | cons r rs ih =>
    obtain ⟨ih₁, ih₂⟩ := ih (fun r hr ↦ h r (List.mem_cons_of_mem _ hr))
      (w.observation.apply r v)
    rw [View.applyAll_cons, ih₁, ih₂, List.filterMap_cons]
    have hr := h r List.mem_cons_self
    rcases r with ⟨mid, delta | delta, eof | eof⟩ | ⟨mid | mid, ring⟩ | _ | _
    · exact hr.elim
    · exact ⟨rfl, rfl⟩
    · simp only [FlowRecord.data, List.length_cons, List.foldl_cons, Nat.cast_add_one]
      refine ⟨?_, rfl⟩
      have hone : (w.observation.apply (.message mid (some delta) false) v).processed
          = v.processed + 1 := rfl
      rw [hone]
      ring
    · exact hr.elim
    · exact ⟨rfl, rfl⟩
    · exact ⟨rfl, rfl⟩
    · exact hr.elim
    · exact hr.elim

/-! ## Runs -/

/-- The records that became durable for a client. -/
def Process.records (s : Process w) (client : ClientId) : List (FlowRecord w.Delta) :=
  (s.durable client).map Durable.record

/-- What holds for a client that has been neither flushed nor dropped. -/
structure Recovers (s : Process w) : Prop where
  synced : w.observation.Synced s.store client
  live : (liveFlow cfg client (s.durable client)).observe = (s.store.mem client).observe
  replayed : (s.store.mem client).observe = w.observation.applyAll (s.records client) w.nothing
  plain : ∀ r ∈ s.records client, r.Plain
  nodup : ((s.records client).filterMap FlowRecord.mainId).Nodup
  acked : ∀ message, (client, .main message) ∈ s.acked →
    message.messageId ∈ (s.records client).filterMap FlowRecord.mainId

theorem recovers_init : Recovers cfg client (Process.init w) where
  synced := ⟨rfl, Discipline.settled_empty⟩
  live := rfl
  replayed := rfl
  plain := by simp [Process.records, Process.init]
  nodup := by simp [Process.records, Process.init]
  acked := by simp [Process.init]

variable {cfg client}

theorem Recovers.mem_seen {s : Process w} (h : Recovers cfg client s) (mid : MessageId) :
    mid ∈ (s.store.mem client).observe.seen .main
      ↔ mid ∈ (s.records client).filterMap FlowRecord.mainId := by
  rw [h.replayed, mem_seen_applyAll h.plain]
  simp [nothing, Flow.observe, emptyFlow]

theorem records_remember (client : ClientId) (s : Process w) (client' : ClientId)
    (delivery : Delivery w)
    (es : List (Eff w)) (point : Option ℕ) (store : w.WorkerStore) :
    (s.remember client' delivery es point store).records client
      = if client' = client then s.records client ++ appends (upTo point es)
        else s.records client := by
  by_cases hc : client' = client
  · subst hc
    simp [Process.records, Process.remember, Function.comp_def]
  · simp [Process.records, Process.remember, Function.update_of_ne (Ne.symm hc), hc]

/-- A delivery of the client itself. -/
theorem Recovers.deliver {s : Process w} (h : Recovers cfg client s) {delivery : Delivery w}
    {flow : Flow w.State} {es : List (Eff w)} {point : Option ℕ} {outs : List (Output w.Item)}
    {store : w.WorkerStore} {b : Bool}
    (hq : QuietRun cfg client (s.store.mem client) flow delivery es)
    (hrun : w.discipline.Outcome s.store client flow es point outs store b) :
    Recovers cfg client (s.remember client delivery es point store) := by
  obtain ⟨-, hsynced, hview⟩ := hq.sound.outcome hrun h.synced
  have hpre := appends_upTo point es
  have hrecords := records_remember client s client delivery es point store
  rw [if_pos rfl] at hrecords
  have hsub : ∀ r ∈ appends (upTo point es), r ∈ appends es := fun r hr ↦ hpre.subset hr
  have hids := hpre.filterMap FlowRecord.mainId
  refine ⟨hsynced, ?_, ?_, ?_, ?_, ?_⟩
  · have hdurable : (s.remember client delivery es point store).durable client
        = s.durable client ++ (appends (upTo point es)).map (Durable.mk delivery) :=
      Function.update_self ..
    rw [hdurable, liveFlow_append, hq.redone _ h.live _ hpre, h.live]
    exact hview.symm
  · rw [hrecords, View.applyAll_append, ← h.replayed]
    exact hview
  · rw [hrecords]
    intro r hr
    rcases List.mem_append.mp hr with hr | hr
    · exact h.plain r hr
    · exact hq.plain r (hsub r hr)
  · rw [hrecords, List.filterMap_append, List.nodup_append]
    refine ⟨h.nodup, hq.nodup.sublist hids.sublist, fun mid hmid mid' hmid' heq ↦ ?_⟩
    subst heq
    exact hq.fresh mid (hids.subset hmid') ((h.mem_seen mid).mpr hmid)
  · intro message hmem
    rw [hrecords, List.filterMap_append, List.mem_append]
    by_cases hold : (client, Delivery.main message) ∈ s.acked
    · exact Or.inl (h.acked message hold)
    · cases point with
      | some n => exact absurd hmem hold
      | none =>
        rcases List.mem_append.mp hmem with hmem | hmem
        · exact absurd hmem hold
        · have heq := (Prod.ext_iff.mp (List.mem_singleton.mp hmem)).2
          rcases hq.done message heq.symm with hin | hin
          · exact Or.inl ((h.mem_seen _).mp hin)
          · exact Or.inr hin

/-- What happens to other clients, and restarts, change nothing for a client. -/
theorem Recovers.frame {s s' : Process w} (h : Recovers cfg client s)
    (hsynced : w.observation.Synced s'.store client)
    (hmem : (s'.store.mem client).observe = (s.store.mem client).observe)
    (hdurable : s'.durable client = s.durable client)
    (hacked : ∀ message, (client, Delivery.main message) ∈ s'.acked →
      (client, Delivery.main message) ∈ s.acked) : Recovers cfg client s' := by
  have hrecords : s'.records client = s.records client := by
    rw [Process.records, hdurable, ← Process.records]
  exact ⟨hsynced, by rw [hdurable, hmem]; exact h.live, by rw [hmem, hrecords]; exact h.replayed,
    by rw [hrecords]; exact h.plain, by rw [hrecords]; exact h.nodup,
    fun message hm ↦ by rw [hrecords]; exact h.acked message (hacked message hm)⟩

theorem recovers_of_reachable {s : Process w} (hreach : Process.Reachable cfg s)
    (hquiet : ∀ p ∈ s.delivered, p.1 = client → p.2.Quiet) : Recovers cfg client s := by
  induction hreach with
  | refl => exact recovers_init cfg client
  | tail _ hstep ih =>
    cases hstep with
    | @deliver client' delivery flow es point outs store b hhandles hrun =>
      have hrec := ih fun p hp hc ↦ hquiet p (List.mem_append_left _ hp) hc
      by_cases hc : client' = client
      · subst hc
        exact hrec.deliver (quietRun_of_handles cfg _
          (hquiet _ (List.mem_append_right _ List.mem_cons_self) rfl) hhandles) hrun
      · obtain ⟨hsynced, hmem⟩ := w.observation.outcome_view_of_ne w.settled_replayRecord hrun hc
          hrec.synced
        refine hrec.frame hsynced hmem (Function.update_of_ne (Ne.symm hc) _ _) fun message hm ↦ ?_
        rw [Process.remember] at hm
        split at hm
        · rcases List.mem_append.mp hm with hm | hm
          · exact hm
          · exact absurd (Prod.ext_iff.mp (List.mem_singleton.mp hm)).1 (Ne.symm hc)
        · exact hm
    | @restart store hrestart =>
      have hrec := ih hquiet
      obtain ⟨hmem, hsynced⟩ :=
        w.observation.synced_of_restarts w.settled_replayRecord hrestart client
      exact hrec.frame hsynced (hmem.trans hrec.synced.1.symm) rfl fun _ hm ↦ hm

/-! ## The result, for every kind of worker -/

/-- **Exact recovery and exactly-once effect.** In every state that a run of any kind of worker
leads to, and for every client that no flush or cleanup token was delivered for: recovery rebuilds,
and memory holds, what live handling of exactly the durable records gives; the ids of the durable
messages are distinct; every data message among them counts once in the processed count and once in
the business state; and every message whose handling completed is among them. -/
theorem exact_recovery {A : Type} [Amount A] (kind : StatefulKind) (hash : String → ℕ)
    (paymentFormatKey : String → String) (config : Config A) (cfg : NodeConfig) (client : ClientId)
    {s : Process (kind.worker hash paymentFormatKey config)} (hreach : Process.Reachable cfg s)
    (hquiet : ∀ p ∈ s.delivered, p.1 = client → p.2.Quiet) :
    let w := kind.worker hash paymentFormatKey config
    let live := liveFlow cfg client (s.durable client)
    let data := (s.records client).filterMap FlowRecord.data
    (w.discipline.recovered s.store.log client).observe = live.observe ∧
      (s.store.mem client).observe = live.observe ∧
      ((s.records client).filterMap FlowRecord.mainId).Nodup ∧
      live.observe.processed = data.length ∧
      live.state = data.foldl (fun state p ↦ w.applyDelta p.2 state) w.empty ∧
      ∀ message, (client, .main message) ∈ s.acked →
        message.messageId ∈ (s.records client).filterMap FlowRecord.mainId := by
  have h := recovers_of_reachable hreach hquiet
  have hlive : (liveFlow cfg client (s.durable client)).observe = _ := h.live.trans h.replayed
  obtain ⟨hprocessed, hstate⟩ :=
    processed_applyAll h.plain (kind.worker hash paymentFormatKey config).nothing
  refine ⟨h.synced.1.symm.trans h.live.symm, h.live.symm, h.nodup, ?_, ?_, h.acked⟩
  · rw [hlive, hprocessed]
    exact zero_add _
  · exact (congrArg Observed.state hlive).trans hstate

/-- A counting worker, for the run below. -/
def countingConfig : Config ℕ where
  minRequiredAccounts := 1
  outputNodeCount := 1
  outputNodePrefix := "node"
  numShards := 1
  batchSize := 1
  amountThreshold := 0
  queryId := "5"

/-- A run in which a counting worker handles a message, crashes before acknowledging it, and drops
the copy that is delivered again. -/
theorem exact_recovery_redelivery :
    ∃ s : Process (StatefulKind.lowAmountReducer.worker hashOf id countingConfig),
      s.delivered.length = 2 ∧ s.acked.length = 1 ∧
      (s.store.mem "c").observe = (liveFlow ⟨0, 1⟩ "c" (s.durable "c")).observe ∧
      (liveFlow ⟨0, 1⟩ "c" (s.durable "c")).observe.processed = 1 := by
  let w := StatefulKind.lowAmountReducer.worker hashOf id countingConfig
  let message : MainMessage w := .data "c:0:0" (⟨7⟩ : Count)
  let handled : Flow w.State × List (Eff w) :=
    acceptData { w.emptyFlow with seen := w.emptyFlow.seen.setdefault .main } "c:0:0"
      ((7 : ℤ), ([] : List (Message Q5Result)), (7 : ℤ))
  have hhandles : Handles ⟨0, 1⟩ "c" ((Process.init w).store.mem "c") (.main message) handled := rfl
  obtain ⟨store₁, hrestart⟩ := w.exists_restarts [("c", .message "c:0:0" (some (7 : ℤ)) false)]
  have hcrash : w.discipline.Outcome (Process.init w).store "c" handled.1 handled.2 (some 2) []
      store₁ true := .crash 2 (Discipline.exec_keep _ _ _ _) hrestart
  let s₁ := (Process.init w).remember "c" (.main message) handled.2 (some 2) store₁
  have hseen : message.messageId ∈ (s₁.store.mem "c").observe.seen .main := by
    have hmem : s₁.store.mem = w.discipline.recovered _ := hrestart.1
    rw [hmem]
    exact Finset.mem_insert_self _ _
  let flow₂ := { s₁.store.mem "c" with seen := (s₁.store.mem "c").seen.setdefault .main }
  have hhandles₂ : Handles ⟨0, 1⟩ "c" (s₁.store.mem "c") (.main message) (flow₂, []) :=
    handleMessage_seen ⟨0, 1⟩ "c" hseen
  let s₂ := s₁.remember "c" (.main message) [] none
    ⟨Function.update s₁.store.mem "c" flow₂, s₁.store.log⟩
  have hreach : Process.Reachable ⟨0, 1⟩ s₂ :=
    (Relation.ReflTransGen.single (.deliver hhandles hcrash)).tail
      (.deliver hhandles₂ (.complete (.nil _)))
  obtain ⟨-, hmem, -, hprocessed, -, -⟩ := exact_recovery .lowAmountReducer hashOf id countingConfig
    ⟨0, 1⟩ "c" hreach (by
      intro p hp _
      have hp : p = ("c", Delivery.main message) := by
        simpa [s₂, s₁, Process.remember, Process.init] using hp
      rw [hp]
      exact trivial)
  exact ⟨s₂, rfl, rfl, hmem, hprocessed⟩

end MoneyLaundering
