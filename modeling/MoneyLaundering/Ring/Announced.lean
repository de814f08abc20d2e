import Mathlib.Data.String.Basic
import MoneyLaundering.Ring.Accounting
import MoneyLaundering.Ring.Identified

/-!
# What a stage announces

The end of a stream announces a number of messages. A stage that is fed no more data messages than
that (`Fits`) counts them right. The end that it publishes announces the number of messages that it
has published (`announces_of_reachable`), and if nothing is left in its queues it has published one
(`ended_of_reachable`).
-/

namespace MoneyLaundering

open StatefulWorker

variable {w : StatefulWorker} {n : ℕ} {client : ClientId}

/-- What nodes are fed: one end of the stream at most, no more data messages than it announces, and
no cleanups. -/
structure Fits (n : ℕ) (inbox : NodeId → List (MainMessage w)) : Prop where
  outside : ∀ i, n ≤ i → inbox i = []
  starts : undelivered n Taken.isStart (fun i ↦ (inbox i).map MainMessage.taken) ≤ 1
  announced : ∀ i mid marker, .eof mid marker ∈ inbox i →
    ((dataIdsOf n inbox).card : ℤ) ≤ marker.messageCount
  ne : ∀ i mid marker, .eof mid marker ∈ inbox i → ∀ mid' payload, .data mid' payload ∈ inbox i →
    mid' ≠ mid

/-- Of a kind of which there is one at most, any two in a family of lists are at one place. -/
theorem eq_of_sum_countP_le {β : Type} {kind : β → Bool} {l : ℕ → List β}
    (h : ∑ j ∈ Finset.range n, (l j).countP kind ≤ 1) {i j : ℕ} (hi : i < n) (hj : j < n) {b b' : β}
    (hb : b ∈ l i) (hb' : b' ∈ l j) (hkind : kind b = true) (hkind' : kind b' = true) :
    i = j ∧ b = b' := by
  have hpos : 0 < (l i).countP kind := List.countP_pos_iff.mpr ⟨b, hb, hkind⟩
  have hpos' : 0 < (l j).countP kind := List.countP_pos_iff.mpr ⟨b', hb', hkind'⟩
  have hij : i = j := by
    by_contra hne
    have hsum := Finset.add_le_sum (f := fun j ↦ (l j).countP kind) (fun _ _ ↦ Nat.zero_le _)
      (Finset.mem_range.mpr hi) (Finset.mem_range.mpr hj) hne
    omega
  subst hij
  have hle : (l i).countP kind ≤ 1 :=
    (Finset.single_le_sum (f := fun j ↦ (l j).countP kind) (fun _ _ ↦ Nat.zero_le _)
      (Finset.mem_range.mpr hi)).trans h
  rw [List.countP_eq_length_filter] at hpos hle
  obtain ⟨c, hc⟩ := List.length_eq_one_iff.mp (by omega : ((l i).filter kind).length = 1)
  have hall : ∀ b ∈ l i, kind b = true → b = c := fun b hb hkind ↦
    List.mem_singleton.mp (hc ▸ List.mem_filter.mpr ⟨hb, hkind⟩)
  exact ⟨rfl, (hall b hb hkind).trans (hall b' hb' hkind').symm⟩

namespace Fits

variable {inbox : NodeId → List (MainMessage w)}

theorem lt (h : Fits n inbox) {i : NodeId} {message : MainMessage w} (hmem : message ∈ inbox i) :
    i < n := by
  by_contra hnot
  rw [h.outside i (not_lt.mp hnot)] at hmem
  exact List.not_mem_nil hmem

theorem isStart (h : Fits n inbox) {i : NodeId} {mid : MessageId} {marker : EOF}
    (hmem : .eof mid marker ∈ inbox i) : (Taken.eof mid marker).isStart = true := by
  have hannounced := h.announced i mid marker hmem
  refine decide_eq_true fun heq ↦ ?_
  rw [heq, cleanupExpectedCount] at hannounced
  omega

theorem eof_unique (h : Fits n inbox) {i j : NodeId} {mid mid' : MessageId} {marker marker' : EOF}
    (hmem : .eof mid marker ∈ inbox i) (hmem' : .eof mid' marker' ∈ inbox j) :
    i = j ∧ mid = mid' ∧ marker = marker' := by
  obtain ⟨hij, heq⟩ := eq_of_sum_countP_le h.starts (h.lt hmem) (h.lt hmem')
    (List.mem_map_of_mem hmem) (List.mem_map_of_mem hmem') (h.isStart hmem) (h.isStart hmem')
  obtain ⟨hmid, hmarker⟩ := Taken.eof.inj heq
  exact ⟨hij, hmid, hmarker⟩

/-- The ids of the data messages for a node. -/
def ids (inbox : NodeId → List (MainMessage w)) (i : NodeId) : Finset MessageId :=
  ((inbox i).filterMap MainMessage.dataId).toFinset

theorem mem_ids {i : NodeId} {mid : MessageId} :
    mid ∈ ids inbox i ↔ ∃ payload, .data mid payload ∈ inbox i := by
  rw [ids, List.mem_toFinset, List.mem_filterMap]
  refine ⟨?_, fun ⟨payload, hmem⟩ ↦ ⟨_, hmem, rfl⟩⟩
  rintro ⟨message, hmem, hid⟩
  cases message with
  | data mid' payload =>
    obtain rfl := Option.some.inj hid
    exact ⟨payload, hmem⟩
  | eof mid' marker => exact absurd hid (Option.some_ne_none _).symm

theorem sum_card_ids_le (n : ℕ) (inbox : NodeId → List (MainMessage w)) :
    ∑ i ∈ Finset.range n, (ids inbox i).card ≤ (dataIdsOf n inbox).card := by
  rw [dataIdsOf, Multiset.card_sum]
  exact Finset.sum_le_sum fun i _ ↦ List.toFinset_card_le _

/-- **What fits is a feed.** The end may announce more messages than there are. They are given ids
that are not used otherwise. -/
theorem exists_feed (h : Fits n inbox) : ∃ feed : Feed,
    feed.expected = ∑ i ∈ Finset.range n, ((feed.addressed i).card : ℤ) ∧
      ∀ i, ∀ message ∈ inbox i, feed.Allows i message.taken := by
  by_cases hex : ∃ j mid marker, .eof mid marker ∈ inbox j
  · obtain ⟨j, mid, marker, hmem⟩ := hex
    have hj := Finset.mem_range.mpr (h.lt hmem)
    have hannounced := h.announced j mid marker hmem
    have hle := sum_card_ids_le n inbox
    obtain ⟨count, hcount⟩ := Int.eq_ofNat_of_zero_le (by omega : 0 ≤ marker.messageCount)
    have hnotMem : mid ∉ ids inbox j := fun hmid ↦ by
      obtain ⟨payload, hdata⟩ := mem_ids.mp hmid
      exact h.ne j mid marker hmem mid payload hdata rfl
    -- the node of the end gets the ids that are missing
    obtain ⟨more, hmore, hcard⟩ := Infinite.exists_superset_card_eq (insert mid (ids inbox j))
      ((ids inbox j).card + (count - ∑ i ∈ Finset.range n, (ids inbox i).card) + 1) (by
        rw [Finset.card_insert_of_notMem hnotMem]
        omega)
    have hsum := Family.sum_update_add hj (ids inbox) (more.erase mid) Finset.card
    rw [Finset.card_erase_of_mem (hmore (Finset.mem_insert_self _ _)), hcard] at hsum
    refine ⟨⟨Function.update (ids inbox) j (more.erase mid), j, mid, count, ?_, ?_⟩, ?_, ?_⟩
    · rw [Function.update_self]
      exact Finset.notMem_erase _ _
    · rw [cleanupExpectedCount]
      omega
    · dsimp only
      rw [← Nat.cast_sum]
      omega
    · intro i message hmessage
      cases message with
      | data mid' payload =>
        have hdata := mem_ids.mpr ⟨payload, hmessage⟩
        change mid' ∈ Function.update (ids inbox) j (more.erase mid) i
        by_cases hij : i = j
        · subst hij
          rw [Function.update_self]
          exact Finset.mem_erase.mpr ⟨h.ne i mid marker hmem mid' payload hmessage,
            hmore (Finset.mem_insert_of_mem hdata)⟩
        · rw [Function.update_of_ne hij]
          exact hdata
      | eof mid' marker' =>
        obtain ⟨rfl, rfl, rfl⟩ := h.eof_unique hmem hmessage
        exact ⟨rfl, rfl, congrArg EOF.mk hcount⟩
  · obtain ⟨mid, hmid⟩ := Infinite.exists_notMem_finset (ids inbox 0)
    refine ⟨⟨ids inbox, 0, mid, ∑ i ∈ Finset.range n, ((ids inbox i).card : ℤ), hmid, ?_⟩, rfl,
      fun i message hmessage ↦ ?_⟩
    · rw [cleanupExpectedCount, ← Nat.cast_sum]
      omega
    · cases message with
      | data mid' payload => exact mem_ids.mpr ⟨payload, hmessage⟩
      | eof mid' marker => exact absurd ⟨i, mid', marker, hmessage⟩ hex

end Fits

/-! ## The end that is published -/

variable {α : Type} {feed : Feed} {r r' : Ring α} {queryId : Option String} {l : Label}

theorem mem_finals {net : Network α} {i : NodeId} {mid : MessageId} {eof : EOF} :
    (i, .finalEof mid eof) ∈ net.finals ↔ (i, .finalEof mid eof) ∈ net.outputs := by
  rw [Network.finals, List.mem_filter]
  exact and_iff_left rfl

theorem length_published (net : Network α) : net.published.length = net.messages.length := by
  rw [Network.published, Network.messages, ← List.countP_eq_length_filter,
    List.length_filterMap_eq_countP]
  refine List.countP_congr fun p _ ↦ ?_
  obtain ⟨i, o⟩ := p
  cases o <;> simp [Output.isData, Output.toMessage]

/-- The end announces what was published. -/
theorem Accounting.announces (h : Accounting feed n client r) {i : NodeId} {mid : MessageId}
    {eof : EOF} (hmem : (i, .finalEof mid eof) ∈ r.net.outputs) :
    eof.messageCount = r.net.messages.length := by
  have hfinal := mem_finals.mpr hmem
  cases h.phase with
  | waiting heof hcontrol hseen hreported hflushes hfinals => simp [hfinals] at hfinal
  | counting k envelope heof hcontrol hcoord hid hcarries hseen hflushes hfinals =>
    simp [hfinals] at hfinal
  | flushing k b envelope hk hb heof hcontrol hcoord hid hcarries hseen hreported hflushes
      hfinals => simp [hfinals] at hfinal
  | done b mid' hb heof hcontrol hreported hflushes hfinals =>
    rw [hfinals, List.mem_singleton] at hfinal
    obtain ⟨-, heq⟩ := Prod.mk.inj hfinal
    obtain ⟨-, rfl⟩ := Output.finalEof.inj heq
    rw [← length_published, h.published]

/-- Once the end was handled, a token is on its way or the stream was ended. -/
theorem Accounting.ended (h : Accounting feed n client r)
    (heof : feed.eofId ∈ (r.node feed.eofNode).seen .main) (hcontrol : ∀ i, r.net.control i = []) :
    ∃ i mid eof, (i, .finalEof mid eof) ∈ r.net.outputs := by
  have hqueued : ∀ {i envelope}, r.net.control ≠ Function.update (fun _ ↦ []) i [envelope] := by
    intro i envelope heq
    have hnil := hcontrol i
    rw [heq, Function.update_self] at hnil
    exact List.cons_ne_nil _ _ hnil
  cases h.phase with
  | waiting hnot => exact absurd heof hnot
  | counting k envelope heof hcontrol => exact absurd hcontrol hqueued
  | flushing k b envelope hk hb heof hcontrol => exact absurd hcontrol hqueued
  | done b mid hb heof hcontrol hreported hflushes hfinals =>
    exact ⟨b, mid, _, mem_finals.mp (by rw [hfinals]; exact List.mem_singleton_self _)⟩

/-- The message is still in the queue of the node, or was seen. -/
def Ring.Keeps (r : Ring α) (i : NodeId) (taken : Taken) : Prop :=
  taken ∈ r.inbox i ∨ taken.id ∈ (r.node i).seen .main

/-- What a node has seen it does not forget, without a cleanup. -/
theorem subset_of_completion {cfg : NodeConfig} {v v' : Observed Unit} {taken : Taken} {sends : ℕ}
    {outs : List (Output α)} (h : Completion cfg client queryId v taken sends outs v')
    (hquiet : ∀ envelope, taken = .token envelope →
      envelope.token.ring.expectedCount ≠ cleanupExpectedCount) (ch : Channel) :
    v.seen ch ⊆ v'.seen ch := by
  cases h with
  | duplicate h => exact Finset.Subset.refl _
  | data msgs h => exact subset_see v .main ch _
  | eof h => exact subset_see v.report .main ch _
  | count h hcoord => exact subset_see v.report .control ch _
  | flush msgs h hcoord hexp => exact subset_see (flushed v msgs.length) .control ch _
  | cleanup h hcoord hexp => exact absurd hexp (hquiet _ rfl)

/-- A message of the main queue that was handled was seen. -/
theorem mem_of_completion {cfg : NodeConfig} {v v' : Observed Unit} {taken : Taken} {sends : ℕ}
    {outs : List (Output α)} (htaken : ∀ envelope, taken ≠ .token envelope)
    (h : Completion cfg client queryId v taken sends outs v') : taken.id ∈ v'.seen .main := by
  cases h with
  | duplicate h =>
    cases taken with
    | data mid => exact not_not.mp h
    | eof mid marker => exact not_not.mp h
    | token envelope => exact absurd rfl (htaken envelope)
  | data msgs h =>
    rw [Observed.count, see_self]
    exact Finset.mem_insert_self _ _
  | eof h =>
    rw [see_self]
    exact Finset.mem_insert_self _ _
  | count h hcoord => exact absurd rfl (htaken _)
  | flush msgs h hcoord hexp => exact absurd rfl (htaken _)
  | cleanup h hcoord hexp => exact absurd rfl (htaken _)

theorem Ring.Keeps.step {j : NodeId} {kept : Taken} (h : r.Keeps j kept)
    (haccounting : Accounting feed n client r) (hl : l.Complete)
    (hstep : Ring.Step n client queryId r l r') : r'.Keeps j kept := by
  refine Ring.complete_preserves (P := fun r ↦ r.Keeps j kept) hstep hl ?_ ?_
  · intro i before taken after sends outs v hi hinbox hcompletion
    have harrival := haccounting.arrivals i taken (by simp [hinbox])
    have hallows : feed.Allows i taken ∨
        ∃ envelope, taken = .token envelope ∧ feed.Labels client envelope := Or.inl harrival
    have hsubset : ∀ j, (r.node j).seen .main ⊆ ((r.react i taken outs v).node j).seen .main :=
      fun j ↦ Ring.seen_react
        (subset_of_completion hcompletion (Feed.quiet_of_allows hallows)) j .main
    rcases h with h | h
    · by_cases hi : j = i
      · subst hi
        rw [hinbox, List.mem_append, List.mem_cons] at h
        rcases h with h | rfl | h
        · exact Or.inl (by simp [h])
        · refine Or.inr ?_
          rw [Ring.node_react_self]
          exact mem_of_completion (fun envelope heq ↦ by simp [heq, Feed.Allows] at harrival)
            hcompletion
        · exact Or.inl (by simp [h])
      · exact Or.inl (by simpa only [Function.update_of_ne hi] using h)
    · exact Or.inr (hsubset j h)
  · intro i envelope rest sends outs v hi hhead hcompletion
    have hquiet : ∀ envelope', Taken.token envelope = .token envelope' →
        envelope'.token.ring.expectedCount ≠ cleanupExpectedCount := by
      intro envelope' heq
      obtain rfl := Taken.token.inj heq
      exact haccounting.quiet i envelope (by rw [hhead]; exact List.mem_cons_self)
    have hsubset : ∀ j, (r.node j).seen .main
        ⊆ ((r.react i (.token envelope) outs v).node j).seen .main :=
      fun j ↦ Ring.seen_react (subset_of_completion hcompletion hquiet) j .main
    exact h.imp_right fun hseen ↦ hsubset j hseen

/-! ## Runs -/

section Runs

variable {inbox : NodeId → List (MainMessage w)} {s : Stage w}

/-- A stage that has taken all messages has seen them. -/
theorem Stage.seen_of_reachable (hexpected : feed.expected
      = ∑ i ∈ Finset.range n, ((feed.addressed i).card : ℤ))
    (hallows : ∀ i, ∀ message ∈ inbox i, feed.Allows i message.taken)
    (hreach : Stage.Reachable n client (fun _ l ↦ l.Complete) (Stage.init inbox) s)
    (hinbox : ∀ i, s.inbox i = []) {i : NodeId} {message : MainMessage w}
    (hmem : message ∈ inbox i) :
    message.taken.id ∈ (s.node client i).seen .main := by
  have hboth : Accounting feed n client (s.ring client) ∧
      (s.ring client).Keeps i message.taken := by
    refine @Stage.invariant_of_complete w n client
      (fun r ↦ Accounting feed n client r ∧ r.Keeps i message.taken) inbox s
      ⟨Accounting.init fun j taken htaken ↦ ?_, Or.inl (List.mem_map_of_mem hmem)⟩
      (fun h hl hstep ↦ ⟨h.1.step hexpected hl hstep, h.2.step h.1 hl hstep⟩) hreach
    obtain ⟨message', hmessage', rfl⟩ := List.mem_map.mp htaken
    exact hallows j message' hmessage'
  refine hboth.2.resolve_left fun hmem' ↦ ?_
  obtain ⟨message', hmessage', -⟩ := List.mem_map.mp hmem'
  rw [hinbox] at hmessage'
  exact List.not_mem_nil hmessage'

/-- **The end announces what was published.** -/
theorem Fits.announces_of_reachable (h : Fits n inbox)
    (hreach : Stage.Reachable n client (fun _ l ↦ l.Complete) (Stage.init inbox) s) {i : NodeId}
    {mid : MessageId} {eof : EOF} (hmem : (i, .finalEof mid eof) ∈ s.net.outputs) :
    eof.messageCount = s.net.messages.length := by
  obtain ⟨feed, hexpected, hallows⟩ := h.exists_feed
  exact (Stage.accounting_of_reachable hexpected hallows hreach).announces hmem

/-- **A stage that comes to rest has ended its stream**, if it was sent the end of its input. -/
theorem Fits.ended_of_reachable (h : Fits n inbox)
    (hreach : Stage.Reachable n client (fun _ l ↦ l.Complete) (Stage.init inbox) s)
    {j : NodeId} {mid : MessageId} {marker : EOF} (hmem : .eof mid marker ∈ inbox j)
    (hinbox : ∀ i, s.inbox i = []) (hcontrol : ∀ i, s.net.control i = []) :
    ∃ i mid eof, (i, .finalEof mid eof) ∈ s.net.outputs := by
  obtain ⟨feed, hexpected, hallows⟩ := h.exists_feed
  obtain ⟨rfl, rfl, rfl⟩ := hallows j _ hmem
  exact (Stage.accounting_of_reachable hexpected hallows hreach).ended
    (Stage.seen_of_reachable hexpected hallows hreach hinbox hmem) hcontrol

end Runs

/-! ## Where the messages go -/

/-- The routing keys of all messages of a worker meet a condition. -/
structure StatefulWorker.SendsTo (w : StatefulWorker) (client : ClientId)
    (Key : Option String → Prop) : Prop where
  data : ∀ {mid state payload state' msgs delta},
    w.handleDataMessage mid state payload = some (state', msgs, delta) → ∀ m ∈ msgs,
      Key m.routingKey
  flush : ∀ {node state msgs}, w.FlushData node client state msgs → ∀ m ∈ msgs, Key m.routingKey

theorem Stage.key_of_reachable {Key : Option String → Prop} (hw : w.SendsTo client Key)
    {inbox : NodeId → List (MainMessage w)} {s : Stage w}
    (hreach : Stage.Reachable n client (fun _ l ↦ l.Complete) (Stage.init inbox) s) :
    ∀ p ∈ s.net.messages, Key p.2.routingKey := by
  induction hreach with
  | refl => exact fun p hp ↦ absurd hp List.not_mem_nil
  | tail _ hlast ih =>
    obtain ⟨l, hl, hstep⟩ := hlast
    intro p hp
    have hmore : ∀ {i : NodeId} {msgs : List (Message w.Item)}, (∀ m ∈ msgs, Key m.routingKey) →
        p ∈ msgs.map (Prod.mk i) → Key p.2.routingKey := by
      intro i msgs hmsgs hp
      obtain ⟨m, hm, rfl⟩ := List.mem_map.mp hp
      exact hmsgs m hm
    cases Stage.changes_of_step hl hstep with
    | quiet hinbox hmessages hflushes =>
      rw [hmessages] at hp
      exact ih p hp
    | data hi hinbox hinbox' hdata hmessages hflushes =>
      rw [hmessages] at hp
      exact (List.mem_append.mp hp).elim (ih p) (hmore (hw.data hdata))
    | flush hi hinbox hflush hmessages hflushes =>
      rw [hmessages] at hp
      exact (List.mem_append.mp hp).elim (ih p) (hmore (hw.flush hflush))

/-! ## The kinds of workers -/

section Kinds

variable {A : Type} [Amount A] {hash : String → ℕ} {paymentFormatKey : String → String}
  {cfg : Config A}

/-- The routing keys that a worker publishes its messages under. -/
def StatefulKind.Key (cfg : Config A) (client : ClientId) (key : Option String) :
    StatefulKind → Prop
  | bidirectionalSharder => ∃ shard < cfg.outputNodeCount, key = some (cfg.routingKey shard)
  | accountFrequencyFilter => ∃ shard < cfg.outputNodeCount, key = some (cfg.routingKey shard)
  | pathMapper => ∃ shard < cfg.outputNodeCount, key = some (cfg.routingKey shard)
  | pathFrequencyFilter => ∃ shard < cfg.outputNodeCount, key = some (cfg.routingKey shard)
  | bankMaxAggregator => ∃ shard < cfg.numShards, key = some (toString shard)
  | paymentFormatAggregator => ∃ shard < cfg.numShards, key = some (toString shard)
  | bankMaxReducer => ∃ shard < cfg.outputNodeCount, key = some (toString shard)
  | lowAmountAggregator => key = none
  | paymentFormatReducer => key = none
  | duplicateAccountFilter => key = some client
  | lowAmountReducer => key = some client

omit [Amount A] in
theorem key_of_flushSharded {msgType : MsgType} {node : NodeId} {keyOf : α → String}
    {numShards batchSize : ℕ} {routingKeyFor : ℕ → String} (hpos : 0 < numShards) {items : List α}
    {msgs : List (Message α)} (hmsgs : msgs = flushSharded hash msgType client node keyOf numShards
      batchSize routingKeyFor items) :
    ∀ m ∈ msgs, ∃ shard < numShards, m.routingKey = some (routingKeyFor shard) := by
  subst hmsgs
  intro m hm
  obtain ⟨shard, -, -, hkey, -, hpayload, hshard⟩ := mem_flushSharded hm
  -- a message has an item in it, and the shard of the item is less than the number of shards
  obtain ⟨item, hitem⟩ := List.exists_mem_of_ne_nil _ hpayload
  exact ⟨shard, (hshard item hitem).2 ▸ Nat.mod_lt _ hpos, hkey⟩

theorem key_of_singleton {m : Message α} {msgs : List (Message α)} (hmsgs : msgs = [m]) :
    ∀ m' ∈ msgs, m'.routingKey = m.routingKey := by
  subst hmsgs
  intro m' hm'
  rw [List.mem_singleton.mp hm']

/-- **Every message is addressed to a replica of the next stage**, or to the client. -/
theorem StatefulKind.sendsTo (houtput : 0 < cfg.outputNodeCount) (hshards : 0 < cfg.numShards)
    (k : StatefulKind) :
    (k.worker hash paymentFormatKey cfg).SendsTo client (k.Key cfg client) := by
  have hsilent : ∀ {mid state payload state' msgs delta}, k ≠ .bidirectionalSharder →
      (k.worker hash paymentFormatKey cfg).handleDataMessage mid state payload
        = some (state', msgs, delta) → ∀ m ∈ msgs, k.Key cfg client m.routingKey := by
    intro mid state payload state' msgs delta hk hdata m hm
    rw [StatefulKind.sendsOnFlush hk hdata] at hm
    exact absurd hm List.not_mem_nil
  cases k with
  | bidirectionalSharder =>
    refine ⟨fun h m hm ↦ ?_, fun h m hm ↦ ?_⟩
    · obtain ⟨-, rfl, -⟩ := Prod.mk.inj (Option.some.inj h) |>.imp_right Prod.mk.inj
      obtain ⟨⟨shard, edges⟩, hgroup, rfl⟩ := List.mem_map.mp hm
      obtain ⟨-, edge, -, hshard⟩ := Dict.mem_items_groupBy.mp hgroup
      exact ⟨shard, hshard ▸ Nat.mod_lt _ houtput, rfl⟩
    · obtain rfl := h
      exact absurd hm List.not_mem_nil
  | accountFrequencyFilter =>
    refine ⟨hsilent (by decide), fun h ↦ ?_⟩
    obtain ⟨order, horder⟩ := h
    exact key_of_flushSharded houtput horder
  | pathMapper =>
    refine ⟨hsilent (by decide), fun h ↦ ?_⟩
    obtain ⟨order, horder⟩ := h
    exact key_of_flushSharded houtput horder
  | pathFrequencyFilter => exact ⟨hsilent (by decide), fun h ↦ key_of_flushSharded houtput h⟩
  | duplicateAccountFilter =>
    refine ⟨hsilent (by decide), fun h m hm ↦ ?_⟩
    obtain ⟨_, _, hkey⟩ := key_of_flushSharded one_pos h m hm
    exact hkey
  | bankMaxAggregator => exact ⟨hsilent (by decide), fun h ↦ key_of_flushSharded hshards h⟩
  | bankMaxReducer => exact ⟨hsilent (by decide), fun h ↦ key_of_flushSharded houtput h⟩
  | lowAmountAggregator => exact ⟨hsilent (by decide), fun h ↦ key_of_singleton h⟩
  | lowAmountReducer => exact ⟨hsilent (by decide), fun h ↦ key_of_singleton h⟩
  | paymentFormatAggregator => exact ⟨hsilent (by decide), fun h ↦ key_of_flushSharded hshards h⟩
  | paymentFormatReducer => exact ⟨hsilent (by decide), fun h ↦ key_of_singleton h⟩

end Kinds

end MoneyLaundering
