import MoneyLaundering.Worker.Handlers
import MoneyLaundering.Worker.ShardedFlush
import MoneyLaundering.Workers.Edges

/-!
# A publish that raises

`BidirectionalSharder._handle_data_message` counts each message as it sends it, and nothing takes
the counts back when a later publish raises: `Worker._handle_message` returns the message to the
broker and raises again, with the counts of the messages that were sent still in memory. Until the
process exits, the control thread may report them to the ring and write them to the log.

`failed_publish_intact_iff` says that the counters survive exactly when nothing had been sent.
-/

namespace MoneyLaundering

open WriteAhead

/-! ## The control thread -/

namespace StatefulWorker

variable {w : StatefulWorker} (cfg : NodeConfig) (client : ClientId)

/-- The control thread handles some tokens, in a worker that sends nothing when it flushes. -/
def handleTokens (flow : Flow w.State) (tokens : List Token) : Flow w.State × List (Eff w) :=
  tokens.foldl (fun done token ↦
    ((handleControlMessage cfg client [] done.1 token).1,
      done.2 ++ (handleControlMessage cfg client [] done.1 token).2)) (flow, [])

theorem handleTokens_append (flow : Flow w.State) (tokens : List Token) (token : Token) :
    handleTokens cfg client flow (tokens ++ [token])
      = ((handleControlMessage cfg client [] (handleTokens cfg client flow tokens).1 token).1,
        (handleTokens cfg client flow tokens).2
          ++ (handleControlMessage cfg client [] (handleTokens cfg client flow tokens).1
            token).2) := by
  rw [handleTokens, List.foldl_append]
  rfl

/-- What a token does depends on the counters and on what has been seen. -/
theorem handleControlMessage_congr {flow flow' : Flow w.State}
    (h : flow.observe.forget = flow'.observe.forget) (msgs : List (Message w.Item))
    (token : Token) :
    (handleControlMessage cfg client msgs flow token).1.observe.forget
        = (handleControlMessage cfg client msgs flow' token).1.observe.forget ∧
      publishes (handleControlMessage cfg client msgs flow token).2
        = publishes (handleControlMessage cfg client msgs flow' token).2 ∧
      appends (handleControlMessage cfg client msgs flow token).2
        = appends (handleControlMessage cfg client msgs flow' token).2 := by
  have hseen : flow.observe.seen = flow'.observe.seen := congrArg (Observed.seen (σ := Unit)) h
  by_cases hmem : token.messageId ∈ flow.observe.seen .control
  · have hmem' : token.messageId ∈ flow'.observe.seen .control := hseen ▸ hmem
    rw [handleControlMessage_seen cfg client hmem, handleControlMessage_seen cfg client hmem']
    simpa using h
  · have hmem' : token.messageId ∉ flow'.observe.seen .control := hseen ▸ hmem
    cases hcoord : token.ring.coordinatorId with
    | none =>
      obtain ⟨flow₁, hrun, hobs, -⟩ := handleControlMessage_count cfg client hmem hcoord msgs
      obtain ⟨flow₂, hrun', hobs', -⟩ := handleControlMessage_count cfg client hmem' hcoord msgs
      have hreport : flow.observe.report.forget = flow'.observe.report.forget :=
        congrArg Observed.report h
      have htoken : countToken cfg client flow.observe token
          = countToken cfg client flow'.observe token :=
        congrArg (countToken (σ := Unit) cfg client · token) h
      have hsnapshot : snapshotOf flow.observe.report = snapshotOf flow'.observe.report :=
        congrArg (snapshotOf (σ := Unit)) hreport
      rw [hrun, hrun']
      refine ⟨?_, ?_, ?_⟩
      · rw [hobs, hobs']
        exact congrArg (Observed.see · .control token.messageId) hreport
      · simp only [publishes, htoken]
      · simp only [appends, hsnapshot]
    | some coordinatorId =>
      by_cases hexp : token.ring.expectedCount = cleanupExpectedCount
      · rw [handleControlMessage_cleanup cfg client hmem hcoord hexp,
          handleControlMessage_cleanup cfg client hmem' hcoord hexp]
        exact ⟨rfl, rfl, rfl⟩
      · obtain ⟨flow₁, hrun, hobs, -⟩ := handleControlMessage_flush cfg client hmem hcoord hexp msgs
        obtain ⟨flow₂, hrun', hobs', -⟩ :=
          handleControlMessage_flush cfg client hmem' hcoord hexp msgs
        have hsent : flow.observe.sent = flow'.observe.sent :=
          congrArg (Observed.sent (σ := Unit)) h
        have hpart : flow.observe.partialSent = flow'.observe.partialSent :=
          congrArg (Observed.partialSent (σ := Unit)) h
        rw [hrun, hrun']
        refine ⟨?_, ?_, ?_⟩
        · rw [hobs, hobs', h]
        · rw [publishes_map_publish, publishes_map_publish, hsent, hpart]
          rfl
        · rw [appends_map_publish, appends_map_publish, h]
          rfl

/-- What some tokens do depends on the counters and on what has been seen. -/
theorem handleTokens_congr {flow flow' : Flow w.State}
    (h : flow.observe.forget = flow'.observe.forget) (tokens : List Token) :
    (handleTokens cfg client flow tokens).1.observe.forget
        = (handleTokens cfg client flow' tokens).1.observe.forget ∧
      publishes (handleTokens cfg client flow tokens).2
        = publishes (handleTokens cfg client flow' tokens).2 ∧
      appends (handleTokens cfg client flow tokens).2
        = appends (handleTokens cfg client flow' tokens).2 := by
  induction tokens using List.reverseRecOn with
  | nil => exact ⟨h, rfl, rfl⟩
  | append_singleton tokens token ih =>
    obtain ⟨hobs, hout, happ⟩ := ih
    obtain ⟨hobs', hout', happ'⟩ := handleControlMessage_congr cfg client hobs [] token
    rw [handleTokens_append, handleTokens_append]
    refine ⟨hobs', ?_, ?_⟩
    · rw [publishes_append, publishes_append, hout, hout']
    · rw [appends_append, appends_append, happ, happ']

/-- A token that cleans nothing up leaves the sent count as it is, when the flush sends nothing: in
memory, and in the record it appends. -/
theorem sent_handleControlMessage (flow : Flow w.State) {token : Token}
    (hexp : token.ring.expectedCount ≠ cleanupExpectedCount) :
    (handleControlMessage cfg client [] flow token).1.observe.sent = flow.observe.sent ∧
      (appends (handleControlMessage cfg client [] flow token).2 = [] ∨
        ∃ ring, appends (handleControlMessage cfg client [] flow token).2
            = [.control (some token.messageId) ring] ∧ ring.sentCount = flow.observe.sent) := by
  by_cases hmem : token.messageId ∈ flow.observe.seen .control
  · rw [handleControlMessage_seen cfg client hmem]
    exact ⟨rfl, Or.inl rfl⟩
  · cases hcoord : token.ring.coordinatorId with
    | none =>
      obtain ⟨flow', hrun, hobs, -⟩ := handleControlMessage_count cfg client hmem hcoord []
      rw [hrun, hobs]
      exact ⟨rfl, Or.inr ⟨_, rfl, rfl⟩⟩
    | some coordinatorId =>
      obtain ⟨flow', hrun, hobs, -⟩ := handleControlMessage_flush cfg client hmem hcoord hexp []
      rw [hrun, appends_map_publish]
      refine ⟨?_, Or.inr ⟨_, rfl, add_zero _⟩⟩
      exact (congrArg Observed.sent hobs).trans (add_zero _)

/-- What tokens that clean nothing up do to the counters of a log that agrees about the sent
count. -/
theorem sent_handleTokens {flow : Flow w.State} {tokens : List Token}
    (hexp : ∀ token ∈ tokens, token.ring.expectedCount ≠ cleanupExpectedCount) {v : Observed Unit}
    (hv : v.sent = flow.observe.sent) :
    (handleTokens cfg client flow tokens).1.observe.sent = flow.observe.sent ∧
      let logged := w.counters.applyAll (appends (handleTokens cfg client flow tokens).2) v
      logged.sent = flow.observe.sent ∧ logged.processed = v.processed ∧
        logged.seen .main = v.seen .main := by
  induction tokens using List.reverseRecOn with
  | nil => exact ⟨rfl, hv, rfl, rfl⟩
  | append_singleton tokens token ih =>
    obtain ⟨hmem, hsent, hprocessed, hseen⟩ := ih fun t ht ↦ hexp t (List.mem_append_left _ ht)
    obtain ⟨hmem', happ⟩ := sent_handleControlMessage cfg client
      (handleTokens cfg client flow tokens).1
      (hexp token (List.mem_append_right _ (List.mem_singleton_self token)))
    rw [handleTokens_append, appends_append, View.applyAll_append]
    refine ⟨hmem'.trans hmem, ?_⟩
    rcases happ with hnil | ⟨ring, hring, hcount⟩
    · rw [hnil]
      exact ⟨hsent, hprocessed, hseen⟩
    · rw [hring]
      refine ⟨(hcount.trans hmem : _), hprocessed, ?_⟩
      exact hseen

end StatefulWorker

/-! ## The sharder -/

/-- Send some messages and count each of them, until the publish number `k` raises. -/
def Flow.sendFailing {α σ : Type} (flow : Flow σ) : List (Message α) → ℕ → Flow σ
  | _ :: msgs, k + 2 => flow.incrementSentCount.sendFailing msgs (k + 1)
  | _, _ => flow

theorem Flow.sendFailing_eq {α σ : Type} {msgs : List (Message α)} {k : ℕ} (flow : Flow σ)
    (hk : k < msgs.length) :
    (flow.sendFailing msgs (k + 1)).observe = (flow.countSent k).observe := by
  induction msgs generalizing flow k with
  | nil => exact absurd hk (Nat.not_lt_zero k)
  | cons m msgs ih =>
    cases k with
    | zero => rfl
    | succ k =>
      rw [sendFailing, ih _ (Nat.lt_of_succ_lt_succ hk)]
      simp only [observe_countSent]
      simp [observe, incrementSentCount, add_assoc, add_comm]

section Sharder

variable {A : Type} (hash : String → ℕ) (cfg : Config A)

/-- The messages that a batch is sent in, one for each shard. -/
def edgeMessages (mid : MessageId) (payload : List (Transaction A)) : List (Message AccountEdge) :=
  (createEdgesByShard hash cfg payload).items.map (edgeMessage cfg mid)

/-- `_handle_message` of the sharder, for a batch that has not been seen and whose publish number
`k` raises: what is in memory when the batch has been returned to the broker. -/
def failMessage (flow : Flow Unit) (mid : MessageId) (payload : List (Transaction A)) (k : ℕ) :
    Flow Unit :=
  { flow with seen := flow.seen.setdefault .main }.sendFailing (edgeMessages hash cfg mid payload) k

theorem observe_failMessage {mid : MessageId} {payload : List (Transaction A)} {k : ℕ}
    (flow : Flow Unit) (hk : k < (edgeMessages hash cfg mid payload).length) :
    (failMessage hash cfg flow mid payload (k + 1)).observe
      = { flow.observe with sent := flow.observe.sent + k } := by
  rw [failMessage, Flow.sendFailing_eq _ hk, Flow.observe_countSent, Flow.observe_setdefault]

variable (node : NodeConfig) (client : ClientId)

/-- The failure has left no trace: memory is what it was; whatever tokens the control thread handles
before the process exits, it reports and logs what it would after a recovery; and when the batch is
delivered again, it is counted once. -/
structure Intact (flow failed : Flow Unit)
    (log : List (ClientId × FlowRecord (bidirectionalSharder hash cfg).Delta)) (mid : MessageId)
    (payload : List (Transaction A)) : Prop where
  memory : failed.observe = flow.observe
  reported : ∀ tokens,
    let exiting := StatefulWorker.handleTokens (w := bidirectionalSharder hash cfg) node client
      failed tokens
    let recovered := StatefulWorker.handleTokens node client
      ((bidirectionalSharder hash cfg).discipline.recovered log client) tokens
    publishes exiting.2 = publishes recovered.2 ∧ appends exiting.2 = appends recovered.2
  counted : ∀ tokens : List Token, (∀ token ∈ tokens,
    token.ring.expectedCount ≠ cleanupExpectedCount) → ∀ flow' es,
    let exiting := StatefulWorker.handleTokens (w := bidirectionalSharder hash cfg) node client
      failed tokens
    StatefulWorker.handleMessage node client ((bidirectionalSharder hash cfg).discipline.recovered
      (log ++ (appends exiting.2).map (Prod.mk client)) client) (.data mid payload)
        = some (flow', es) →
    flow'.observe.sent = flow.observe.sent + (edgeMessages hash cfg mid payload).length ∧
      flow'.observe.processed = flow.observe.processed + 1

/-- **A failed publish leaves no trace exactly when it is the first.** -/
theorem failed_publish_intact_iff {flow : Flow Unit}
    {log : List (ClientId × FlowRecord (bidirectionalSharder hash cfg).Delta)} {mid : MessageId}
    {payload : List (Transaction A)} {k : ℕ} (hunseen : mid ∉ flow.observe.seen .main)
    (hlog : ((bidirectionalSharder hash cfg).discipline.recovered log client).observe
      = flow.observe)
    (hpos : 1 ≤ k) (hle : k ≤ (edgeMessages hash cfg mid payload).length) :
    Intact hash cfg node client flow (failMessage hash cfg flow mid payload k) log mid payload
      ↔ k = 1 := by
  obtain ⟨k, rfl⟩ := Nat.exists_eq_add_of_le' hpos
  have hfailed := @observe_failMessage _ hash cfg mid payload k flow hle
  constructor
  · intro h
    -- the messages that were published before the failure were counted
    have hsent := congrArg Observed.sent (hfailed.symm.trans h.memory)
    simp at hsent
    omega
  · intro hk
    obtain rfl : k = 0 := Nat.succ_injective hk
    have hmemory : (failMessage hash cfg flow mid payload (0 + 1)).observe = flow.observe := by
      rw [hfailed]
      simp
    refine ⟨hmemory, fun tokens ↦ ?_, fun tokens hexp flow' es hrun ↦ ?_⟩
    · exact (StatefulWorker.handleTokens_congr (w := bidirectionalSharder hash cfg) node client
        (congrArg Observed.forget (hmemory.trans hlog.symm)) tokens).2
    · -- what the log says after the tokens, and then the batch is handled again
      let w := bidirectionalSharder hash cfg
      let exiting := StatefulWorker.handleTokens (w := w) node client
        (failMessage hash cfg flow mid payload (0 + 1)) tokens
      have hdurable : w.counters.durable
          (log ++ (appends exiting.2).map (Prod.mk client)) client
          = w.counters.applyAll (appends exiting.2) flow.observe.forget := by
        rw [View.durable_append_records]
        exact congrArg (w.counters.applyAll (appends exiting.2)) (congrArg Observed.forget hlog)
      have hsent : flow.observe.forget.sent
          = (failMessage hash cfg flow mid payload (0 + 1)).observe.sent := by
        rw [hmemory]
        rfl
      obtain ⟨-, hlogged, hprocessed, hseen⟩ :=
        StatefulWorker.sent_handleTokens (w := w) node client hexp hsent
      rw [← hdurable] at hlogged hprocessed hseen
      have hunseen' : mid ∉ (w.discipline.recovered
          (log ++ (appends exiting.2).map (Prod.mk client)) client).observe.seen .main := by
        intro hmem
        exact hunseen (hseen ▸ hmem)
      obtain ⟨state, msgs, delta, hdata, -, hobs, -⟩ :=
        StatefulWorker.handleMessage_data node client hunseen' hrun
      obtain ⟨-, rfl, rfl⟩ := Prod.ext_iff.mp (Option.some.inj hdata) |>.imp_right Prod.ext_iff.mp
      rw [hobs]
      exact ⟨congrArg (· + ((edgeMessages hash cfg mid payload).length : ℤ))
        (hlogged.trans hsent.symm), congrArg (· + 1) hprocessed⟩

/-- A transfer whose two edges go to different shards of two. -/
def crossingTransfer : Transaction ℕ :=
  ⟨none, some "1", some "a", some "2", some "a", some 5, none, none⟩

abbrev twoShards : Config ℕ := ⟨1, 2, "", 1, 1, 0, ""⟩

theorem length_crossingTransfer :
    (edgeMessages hashOf twoShards "c:0" [crossingTransfer]).length = 2 := by decide +kernel

/-- The first of the two publishes raises. -/
theorem failed_publish_intact_first :
    let flow : Flow Unit := (bidirectionalSharder hashOf twoShards).emptyFlow
    Intact hashOf twoShards ⟨0, 1⟩ "c" flow
      (failMessage hashOf twoShards flow "c:0" [crossingTransfer] 1)
      [] "c:0" [crossingTransfer] := by
  intro flow
  have hunseen : "c:0" ∉ flow.observe.seen .main := Finset.notMem_empty _
  refine (failed_publish_intact_iff hashOf twoShards ⟨0, 1⟩ "c" hunseen ?_ le_rfl ?_).mpr rfl
  · rfl
  · rw [length_crossingTransfer]
    decide

/-- The second of the two publishes raises: the worker still counts the first. -/
theorem failed_publish_counted :
    let flow : Flow Unit := (bidirectionalSharder hashOf twoShards).emptyFlow
    let failed := failMessage hashOf twoShards flow "c:0" [crossingTransfer] 2
    failed.observe.sent = 1 ∧ flow.observe.sent = 0 ∧
      ¬Intact hashOf twoShards ⟨0, 1⟩ "c" flow failed [] "c:0" [crossingTransfer] := by
  intro flow failed
  have hfailed : failed.observe.sent = 1 := congrArg Observed.sent
    (observe_failMessage hashOf twoShards (k := 1) flow (by rw [length_crossingTransfer]; decide))
  have hflow : flow.observe.sent = 0 := rfl
  refine ⟨hfailed, hflow, fun h ↦ ?_⟩
  have hsent := congrArg Observed.sent h.memory
  rw [hfailed, hflow] at hsent
  exact absurd hsent one_ne_zero

end Sharder

end MoneyLaundering
