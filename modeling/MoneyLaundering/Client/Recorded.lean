import MoneyLaundering.Client.Conversation

/-!
# What a client has written

A client writes a batch of results unless it has seen the id of it, and acknowledges it in both
cases. What it has seen goes through all its sessions (`Client.Recorded`). `Client.Progress` says
what a step of the client makes of the results that it has.
-/

namespace MoneyLaundering

variable {R : Type} {cfg : ClientConfig}

namespace Client

variable {c c' : Client R} {queryId : ℤ} {records : List R} {messageId : MessageId}

/-- The batches that were written, by query and id, without those that have no id. -/
def writtenKeys (c : Client R) : List (ℤ × MessageId) :=
  (c.written.map fun w ↦ (w.1, w.2.2)).filter (·.2 ≠ "")

/-- A batch with the query and the id of a message is written. Without an id it is the message. -/
def Confirmed (c : Client R) : ResultMessage R → Prop
  | .batch queryId records messageId =>
    ∃ records', (queryId, records', messageId) ∈ c.written ∧ (messageId = "" → records' = records)
  | .queryEnd _ _ => True

theorem Confirmed.mono {message : ResultMessage R} (h : c.Confirmed message)
    (hsub : c.written ⊆ c'.written) : c'.Confirmed message := by
  match message with
  | .batch _ _ _ => exact h.imp fun _ ↦ And.imp_left fun hmem ↦ hsub hmem
  | .queryEnd _ _ => trivial

theorem mem_writtenKeys :
    (queryId, messageId) ∈ c.writtenKeys ↔
      messageId ≠ "" ∧ ∃ records, (queryId, records, messageId) ∈ c.written := by
  simp only [writtenKeys, List.mem_filter, List.mem_map, decide_eq_true_eq]
  constructor
  · rintro ⟨⟨⟨q, records, mid⟩, hmem, heq⟩, hne⟩
    obtain ⟨rfl, rfl⟩ := Prod.mk.inj heq
    exact ⟨hne, records, hmem⟩
  · rintro ⟨hne, records, hmem⟩
    exact ⟨⟨_, hmem, rfl⟩, hne⟩

/-- What a client has seen it has written, once, unless it has raised, and a query is finalized at
the count of one of its ends. -/
structure Recorded (c : Client R) : Prop where
  seen : ∀ key ∈ c.seenResults, key ∈ c.writtenKeys ∨ c.phase = .failed
  written : ∀ key ∈ c.writtenKeys, key ∈ c.seenResults
  nodup : c.writtenKeys.Nodup
  received : ∀ queryId, c.received queryId = c.written.countP (·.1 = queryId)
  expected : ∀ queryId count, c.expected queryId = some count → (queryId, count) ∈ c.ends
  finalized : ∀ queryId ∈ c.finalized, ∃ count, (queryId, count) ∈ c.ends ∧
    count ≤ c.received queryId

theorem recorded_init : (init : Client R).Recorded where
  seen key hkey := absurd hkey List.not_mem_nil
  written key hkey := absurd hkey List.not_mem_nil
  nodup := List.nodup_nil
  received queryId := rfl
  expected queryId count h := absurd h (by simp [init])
  finalized queryId h := absurd h List.not_mem_nil

namespace Recorded

/-- The threads of the client and the queues between them do not matter. -/
theorem congr (h : c.Recorded) (hseen : c'.seenResults = c.seenResults)
    (hreceived : c'.received = c.received) (hexpected : c'.expected = c.expected)
    (hfinalized : c'.finalized = c.finalized) (hwritten : c'.written = c.written)
    (hends : c'.ends = c.ends) (hphase : c.phase = .failed → c'.phase = .failed) :
    c'.Recorded := by
  have hkeys : c'.writtenKeys = c.writtenKeys := by rw [writtenKeys, writtenKeys, hwritten]
  refine ⟨?_, ?_, ?_, ?_, ?_, ?_⟩
  · rw [hseen, hkeys]
    exact fun key hkey ↦ (h.seen key hkey).imp_right hphase
  · rw [hseen, hkeys]
    exact h.written
  · rw [hkeys]
    exact h.nodup
  · rw [hreceived, hwritten]
    exact h.received
  · rw [hexpected, hends]
    exact h.expected
  · rw [hfinalized, hends, hreceived]
    exact h.finalized

theorem thenAck (h : c.Recorded) (deliveryId : ℕ) : (c.thenAck deliveryId).Recorded := by
  rw [Client.thenAck]
  split
  · exact h
  · exact h.congr rfl rfl rfl rfl rfl rfl id

theorem maybeFinalize (h : c.Recorded) (queryId : ℤ) :
    (c.maybeFinalize cfg queryId).Recorded := by
  rw [Client.maybeFinalize]
  split
  · exact h
  · split
    · next hcomplete =>
      refine ⟨fun key hkey ↦ (h.seen key hkey).imp_right fun hfailed ↦ ?_, h.written, h.nodup,
        h.received, h.expected, fun queryId' hmem ↦ ?_⟩
      · simp only [hfailed, ite_self]
      · rcases List.mem_cons.mp hmem with rfl | hmem
        · obtain ⟨count, hcount, hle⟩ := hcomplete
          exact ⟨count, h.expected _ count hcount, hle⟩
        · exact h.finalized queryId' hmem
    · exact h

/-- An end of a query is handled. -/
theorem expect (h : c.Recorded) (queryId count : ℤ) :
    Recorded
      { c with
        ends := c.ends ++ [(queryId, count)]
        expected := Function.update c.expected queryId (some count) } := by
  refine ⟨h.seen, h.written, h.nodup, h.received, fun queryId' count' hcount ↦ ?_,
    fun queryId' hmem ↦ ?_⟩
  · change Function.update c.expected queryId (some count) queryId' = some count' at hcount
    by_cases heq : queryId' = queryId
    · subst heq
      rw [Function.update_self] at hcount
      obtain rfl := Option.some.inj hcount
      exact List.mem_append_right _ List.mem_cons_self
    · rw [Function.update_of_ne heq] at hcount
      exact List.mem_append_left _ (h.expected queryId' count' hcount)
  · obtain ⟨count', hmem', hle⟩ := h.finalized queryId' hmem
    exact ⟨count', List.mem_append_left _ hmem', hle⟩

/-- A client that raises behind `markSeen`. -/
theorem fail (h : c.Recorded) (queryId : ℤ) (messageId : MessageId) :
    Recorded { c.markSeen queryId messageId with phase := .failed } := by
  rw [Client.markSeen]
  split
  · exact h.congr rfl rfl rfl rfl rfl rfl fun _ ↦ rfl
  · exact ⟨fun _ _ ↦ Or.inr rfl, fun key hkey ↦ List.mem_cons_of_mem _ (h.written key hkey),
      h.nodup, h.received, h.expected, h.finalized⟩

/-- A batch that the client has not seen is written. -/
theorem write (h : c.Recorded) (hnew : messageId ≠ "" → (queryId, messageId) ∉ c.seenResults) :
    ((c.markSeen queryId messageId).write queryId records messageId).Recorded := by
  have hreceived (queryId' : ℤ) :
      Function.update c.received queryId (c.received queryId + 1) queryId'
        = (c.written ++ [(queryId, records, messageId)]).countP (·.1 = queryId') := by
    rw [List.countP_append, ← h.received, List.countP_singleton]
    by_cases heq : queryId = queryId'
    · subst heq
      simp
    · rw [Function.update_of_ne (Ne.symm heq)]
      simp [heq]
  have hfinalized : ∀ queryId' ∈ c.finalized, ∃ count, (queryId', count) ∈ c.ends ∧
      count ≤ Function.update c.received queryId (c.received queryId + 1) queryId' := by
    intro queryId' hmem
    obtain ⟨count, hends, hle⟩ := h.finalized queryId' hmem
    refine ⟨count, hends, hle.trans ?_⟩
    rw [hreceived, h.received, List.countP_append]
    exact_mod_cast Nat.le_add_right _ _
  by_cases hid : messageId = ""
  · have hkeys : (c.write queryId records messageId).writtenKeys = c.writtenKeys := by
      simp [writtenKeys, Client.write, hid]
    rw [Client.markSeen, if_pos hid]
    refine ⟨?_, ?_, ?_, hreceived, h.expected, hfinalized⟩
    · rw [hkeys]
      exact h.seen
    · rw [hkeys]
      exact h.written
    · rw [hkeys]
      exact h.nodup
  · rw [Client.markSeen, if_neg hid]
    have hkeys : Client.writtenKeys
        (Client.write { c with seenResults := (queryId, messageId) :: c.seenResults } queryId
          records messageId)
          = c.writtenKeys ++ [(queryId, messageId)] := by
      simp [writtenKeys, Client.write, hid]
    refine ⟨fun key hkey ↦ ?_, fun key hkey ↦ ?_, ?_, hreceived, h.expected, hfinalized⟩
    · rw [hkeys]
      rcases List.mem_cons.mp hkey with rfl | hkey
      · exact Or.inl (List.mem_append_right _ List.mem_cons_self)
      · exact (h.seen key hkey).imp_left (List.mem_append_left _)
    · rw [hkeys] at hkey
      rcases List.mem_append.mp hkey with hkey | hkey
      · exact List.mem_cons_of_mem _ (h.written key hkey)
      · exact List.mem_singleton.mp hkey ▸ List.mem_cons_self
    · rw [hkeys, List.nodup_append]
      refine ⟨h.nodup, List.nodup_singleton _, fun key hkey key' hkey' heq ↦ ?_⟩
      obtain rfl := List.mem_singleton.mp hkey'
      exact hnew hid (h.written _ (heq ▸ hkey))

end Recorded

/-! ## A step of the client -/

/-- A result that the receiver has handed over. -/
def HasResult (c : Client R) (message : ResultMessage R) (deliveryId : ℕ) : Prop :=
  some (.result message deliveryId) ∈ c.receiverQueue

/-- An acknowledgement of a delivery that is not sent. -/
def HasResultAck (c : Client R) (deliveryId : ℕ) : Prop :=
  some (.resultAck deliveryId) ∈ c.senderQueue ∨ c.sender = .sending (.resultAck deliveryId)

/-- What a client does with its results: it writes and acknowledges those it has, and it
acknowledges a batch behind writing it. -/
structure Progress (c c' : Client R) : Prop where
  recorded : c'.Recorded
  subset : c.written ⊆ c'.written
  written : ∀ w ∈ c'.written, w ∈ c.written ∨ ∃ d, c.HasResult (.batch w.1 w.2.1 w.2.2) d
  ends : ∀ e ∈ c'.ends, e ∈ c.ends ∨ ∃ d, c.HasResult (.queryEnd e.1 e.2) d
  results : ∀ message d, c'.HasResult message d → c.HasResult message d
  resultAcks : ∀ d, c'.HasResultAck d →
    c.HasResultAck d ∨ ∃ message, c.HasResult message d ∧ c'.Confirmed message

/-- A step that handles no result. -/
theorem progress_of_same (h : c.Recorded) (hseen : c'.seenResults = c.seenResults)
    (hreceived : c'.received = c.received) (hexpected : c'.expected = c.expected)
    (hfinalized : c'.finalized = c.finalized) (hwritten : c'.written = c.written)
    (hends : c'.ends = c.ends) (hphase : c.phase = .failed → c'.phase = .failed)
    (hresults : ∀ message d, c'.HasResult message d → c.HasResult message d)
    (hacks : ∀ d, c'.HasResultAck d → c.HasResultAck d) : c.Progress c' where
  recorded := h.congr hseen hreceived hexpected hfinalized hwritten hends hphase
  subset := hwritten ▸ List.Subset.refl _
  written _ hw := Or.inl (hwritten ▸ hw)
  ends _ he := Or.inl (hends ▸ he)
  results := hresults
  resultAcks d hd := Or.inl (hacks d hd)

theorem progress_refl (h : c.Recorded) : c.Progress c :=
  progress_of_same h rfl rfl rfl rfl rfl rfl id (fun _ _ ↦ id) fun _ ↦ id

theorem markSeen_eq (c : Client R) (queryId : ℤ) (messageId : MessageId) :
    ∃ seenResults, c.markSeen queryId messageId = { c with seenResults } := by
  rw [markSeen]
  split
  · exact ⟨c.seenResults, rfl⟩
  · exact ⟨_, rfl⟩

theorem maybeFinalize_eq (cfg : ClientConfig) (c : Client R) (queryId : ℤ) :
    ∃ finalized phase, c.maybeFinalize cfg queryId = { c with finalized, phase } := by
  rw [maybeFinalize]
  split
  · exact ⟨c.finalized, c.phase, rfl⟩
  · split
    · exact ⟨_, _, rfl⟩
    · exact ⟨c.finalized, c.phase, rfl⟩

theorem thenAck_eq (c : Client R) (deliveryId : ℕ) :
    ∃ senderQueue, c.thenAck deliveryId = { c with senderQueue } ∧
      ∀ item ∈ senderQueue, item ∈ c.senderQueue ∨ item = some (.resultAck deliveryId) := by
  rw [thenAck]
  split
  · exact ⟨c.senderQueue, rfl, fun _ ↦ Or.inl⟩
  · refine ⟨_, rfl, fun item hitem ↦ ?_⟩
    exact (List.mem_append.mp hitem).imp_right List.mem_singleton.mp

theorem Recorded.handleResult (h : c.Recorded) (message : ResultMessage R) (deliveryId : ℕ) :
    (c.handleResult cfg message deliveryId).Recorded := by
  match message with
  | .queryEnd queryId count =>
    exact ((h.expect queryId count).maybeFinalize queryId).thenAck deliveryId
  | .batch queryId records messageId =>
    rw [Client.handleResult, handleQueryResult]
    split
    · exact h.congr rfl rfl rfl rfl rfl rfl id
    · next hfresh =>
      split
      · exact ((h.write fun hid hseen ↦ hfresh ⟨hid, hseen⟩).maybeFinalize queryId).thenAck
          deliveryId
      · exact h.fail queryId messageId

/-- What becomes of a result that a client handles. -/
structure Handles (c c' : Client R) (message : ResultMessage R) (deliveryId : ℕ) : Prop where
  subset : c.written ⊆ c'.written
  written : ∀ w ∈ c'.written, w ∈ c.written ∨ message = .batch w.1 w.2.1 w.2.2
  ends : ∀ e ∈ c'.ends, e ∈ c.ends ∨ message = .queryEnd e.1 e.2
  receiverQueue : c'.receiverQueue = c.receiverQueue
  sender : c'.sender = c.sender
  senderQueue : ∀ item ∈ c'.senderQueue,
    item ∈ c.senderQueue ∨ item = some (.resultAck deliveryId) ∧ c'.Confirmed message

/-- A result is written, or its copy was, before it is acknowledged. -/
theorem handles_handleResult (cfg : ClientConfig) (h : c.Recorded) (hphase : c.phase ≠ .failed)
    (message : ResultMessage R) (deliveryId : ℕ) :
    c.Handles (c.handleResult cfg message deliveryId) message deliveryId := by
  match message with
  | .queryEnd queryId count =>
    rw [handleResult, handleQueryEnd]
    obtain ⟨finalized, phase, hfinalize⟩ := maybeFinalize_eq cfg
      { c with
        ends := c.ends ++ [(queryId, count)]
        expected := Function.update c.expected queryId (some count) } queryId
    rw [hfinalize]
    obtain ⟨senderQueue, hthen, hsenderQueue⟩ := thenAck_eq
      { c with
        ends := c.ends ++ [(queryId, count)]
        expected := Function.update c.expected queryId (some count)
        finalized, phase } deliveryId
    rw [hthen]
    refine ⟨List.Subset.refl _, fun _ ↦ Or.inl, fun e he ↦ ?_, rfl, rfl, fun item hitem ↦ ?_⟩
    · refine (List.mem_append.mp he).imp_right fun he ↦ ?_
      rw [List.mem_singleton.mp he]
    · exact (hsenderQueue item hitem).imp_right fun hitem ↦ ⟨hitem, trivial⟩
  | .batch queryId records messageId =>
    rw [handleResult, handleQueryResult]
    split
    · next hseen =>
      refine ⟨List.Subset.refl _, fun _ ↦ Or.inl, fun _ ↦ Or.inl, rfl, rfl, fun item hitem ↦ ?_⟩
      refine (List.mem_append.mp hitem).imp_right fun hitem ↦ ⟨List.mem_singleton.mp hitem, ?_⟩
      have hkey := (h.seen _ hseen.2).resolve_right hphase
      obtain ⟨-, records', hmem⟩ := mem_writtenKeys.mp hkey
      exact ⟨records', hmem, fun hid ↦ absurd hid hseen.1⟩
    · obtain ⟨seenResults, hmark⟩ := markSeen_eq c queryId messageId
      simp only [hmark]
      split
      · obtain ⟨finalized, phase, hfinalize⟩ := maybeFinalize_eq cfg
          (Client.write { c with seenResults } queryId records messageId) queryId
        rw [hfinalize]
        obtain ⟨senderQueue, hthen, hsenderQueue⟩ := thenAck_eq
          { Client.write { c with seenResults } queryId records messageId with finalized, phase }
          deliveryId
        rw [hthen]
        refine ⟨List.subset_append_left _ _, fun w hw ↦ ?_, fun _ ↦ Or.inl, rfl, rfl,
          fun item hitem ↦ ?_⟩
        · refine (List.mem_append.mp hw).imp_right fun hw ↦ ?_
          rw [List.mem_singleton.mp hw]
        · refine (hsenderQueue item hitem).imp_right fun hitem ↦ ⟨hitem, records, ?_, fun _ ↦ rfl⟩
          exact List.mem_append_right _ List.mem_cons_self
      · exact ⟨List.Subset.refl _, fun _ ↦ Or.inl, fun _ ↦ Or.inl, rfl, rfl, fun _ ↦ Or.inl⟩

theorem progress_handleResult (h : c.Recorded) {message : ResultMessage R} {deliveryId : ℕ}
    {queue : List (Option (Reply R))}
    (hqueue : c.receiverQueue = some (.result message deliveryId) :: queue)
    (hphase : c.phase ≠ .failed) :
    c.Progress (Client.handleResult cfg { c with receiverQueue := queue } message deliveryId) := by
  have htaken : Recorded { c with receiverQueue := queue } :=
    h.congr rfl rfl rfl rfl rfl rfl id
  have hhandles : Handles { c with receiverQueue := queue } _ message deliveryId :=
    handles_handleResult cfg htaken hphase message deliveryId
  have hhas : c.HasResult message deliveryId := by
    rw [HasResult, hqueue]
    exact List.mem_cons_self
  refine ⟨htaken.handleResult message deliveryId, hhandles.subset, fun w hw ↦ ?_, fun e he ↦ ?_,
    fun message' d hd ↦ ?_, fun d hd ↦ ?_⟩
  · rcases hhandles.written w hw with hw | rfl
    · exact Or.inl hw
    · exact Or.inr ⟨deliveryId, hhas⟩
  · rcases hhandles.ends e he with he | rfl
    · exact Or.inl he
    · exact Or.inr ⟨deliveryId, hhas⟩
  · rw [HasResult, hhandles.receiverQueue] at hd
    rw [HasResult, hqueue]
    exact List.mem_cons_of_mem _ hd
  · rw [HasResultAck, hhandles.sender] at hd
    rcases hd with hd | hd
    · rcases hhandles.senderQueue _ hd with hd | ⟨heq, hconfirmed⟩
      · exact Or.inl (Or.inl hd)
      · obtain rfl : d = deliveryId := Request.resultAck.inj (Option.some.inj heq)
        exact Or.inr ⟨message, hhas, hconfirmed⟩
    · exact Or.inl (Or.inr hd)

/-- A step that leaves the results of the client alone. -/
theorem progress_of_queues (h : c.Recorded) {phase : ClientPhase}
    (hphase : c.phase = .failed → phase = .failed) {receiverQueue : List (Option (Reply R))}
    (hresults : ∀ message d, some (.result message d) ∈ receiverQueue → c.HasResult message d)
    {senderQueue : List (Option Request)} {sender : ClientSender}
    (hacks : ∀ d, some (.resultAck d) ∈ senderQueue ∨ sender = .sending (.resultAck d) →
      c.HasResultAck d) {yielded : ℕ} {pendingMsg : Option Upload} {aborted receiving : Bool} :
    c.Progress
      { c with
        phase, receiverQueue, senderQueue, sender, yielded, pendingMsg, aborted, receiving } :=
  progress_of_same h rfl rfl rfl rfl rfl rfl hphase hresults hacks

theorem progress_put (h : c.Recorded) (hphase : c.phase ≠ .failed) (yielded : ℕ) (u : Upload) :
    c.Progress (Client.put { c with yielded } u) := by
  refine progress_of_queues h (fun hfailed ↦ absurd hfailed hphase) (fun _ _ ↦ id) fun d hd ↦ ?_
  refine hd.imp_left fun hd ↦ ?_
  rcases List.mem_append.mp hd with hd | hd
  · exact hd
  · cases List.mem_singleton.mp hd

theorem progress_produce (h : c.Recorded) (hphase : c.phase = .producing) :
    c.Progress (c.produce cfg) := by
  have hne : c.phase ≠ .failed := by simp [hphase]
  rw [produce]
  split
  · exact progress_of_queues h (fun hfailed ↦ absurd hfailed hne) (fun _ _ ↦ id) fun _ ↦ id
  · split
    · exact progress_put h hne c.yielded _
    · split
      · exact progress_put h hne (c.yielded + 1) _
      · exact progress_of_queues h (fun hfailed ↦ absurd hfailed hne) (fun _ _ ↦ id) fun _ ↦ id

theorem progress_orchestrate (h : c.Recorded) : c.Progress (c.orchestrate cfg) := by
  have hphase (phase phase' : ClientPhase) (hne : phase' ≠ .failed) (heq : c.phase = phase') :
      c.Progress { c with phase } :=
    progress_of_queues h (fun hfailed ↦ absurd (heq.symm.trans hfailed) hne) (fun _ _ ↦ id)
      fun _ ↦ id
  have htail {item : Option (Reply R)} {queue : List (Option (Reply R))}
      (hqueue : c.receiverQueue = item :: queue) (message : ResultMessage R) (d : ℕ)
      (hd : some (.result message d) ∈ queue) : c.HasResult message d := by
    rw [HasResult, hqueue]
    exact List.mem_cons_of_mem _ hd
  rw [orchestrate]
  split
  · next hproducing => exact progress_produce h hproducing
  · next hwaiting =>
    have hne : c.phase ≠ .failed := by simp [hwaiting]
    rw [waitAck]
    split
    · exact progress_refl h
    · next queue hqueue =>
      exact progress_of_queues h (fun hfailed ↦ absurd hfailed hne) (htail hqueue) fun _ ↦ id
    · next queue hqueue =>
      exact progress_of_queues h (fun hfailed ↦ absurd hfailed hne) (htail hqueue) fun _ ↦ id
    · next message deliveryId queue hqueue => exact progress_handleResult h hqueue hne
  · next hproduced => exact hphase _ _ (by decide) hproduced
  · next hconsuming =>
    have hne : c.phase ≠ .failed := by simp [hconsuming]
    rw [consumeRemaining]
    split
    · exact hphase _ _ (by decide) hconsuming
    · split
      · exact progress_refl h
      · next queue hqueue =>
        exact progress_of_queues h (fun hfailed ↦ absurd hfailed hne) (htail hqueue) fun _ ↦ id
      · next queue hqueue =>
        exact progress_of_queues h (fun hfailed ↦ absurd hfailed hne) (htail hqueue) fun _ ↦ id
      · next message deliveryId queue hqueue => exact progress_handleResult h hqueue hne
  · next hending =>
    refine progress_of_queues h (fun hfailed ↦ absurd (hending.symm.trans hfailed) (by decide))
      (fun _ _ ↦ id) fun d hd ↦ hd.imp_left fun hd ↦ ?_
    rcases List.mem_append.mp hd with hd | hd
    · exact hd
    · cases List.mem_singleton.mp hd
  · next hjoining =>
    split
    · exact hphase _ _ (by decide) hjoining
    · exact progress_refl h
  · exact progress_refl h
  · exact progress_refl h
  · exact progress_refl h

/-- The end that a thread puts in a queue. -/
theorem mem_of_mem_append_none {α : Type} {a : α} {queue : List (Option α)}
    (h : some a ∈ queue ++ [none]) : some a ∈ queue :=
  (List.mem_append.mp h).resolve_right fun h ↦ by cases List.mem_singleton.mp h

theorem progress_senderTakes (h : c.Recorded) : c.Progress c.senderTakes := by
  rw [senderTakes]
  split
  · next queue hsender hqueue =>
    refine progress_of_queues h id (fun _ _ ↦ mem_of_mem_append_none) fun d hd ↦ ?_
    rcases hd with hd | hd
    · rw [HasResultAck, hqueue]
      exact Or.inl (List.mem_cons_of_mem _ hd)
    · cases hd
  · next request queue hsender hqueue =>
    refine progress_of_queues h id (fun _ _ ↦ id) fun d hd ↦ ?_
    rw [HasResultAck, hqueue]
    rcases hd with hd | hd
    · exact Or.inl (List.mem_cons_of_mem _ hd)
    · rw [ClientSender.sending.inj hd]
      exact Or.inl List.mem_cons_self
  · exact progress_refl h

theorem progress_senderFails (h : c.Recorded) : c.Progress c.senderFails := by
  rw [senderFails]
  split
  · refine progress_of_queues h id (fun _ _ ↦ mem_of_mem_append_none) fun d hd ↦ ?_
    exact Or.inl (hd.resolve_right fun hd ↦ by cases hd)
  · exact progress_refl h
  · exact progress_refl h

theorem progress_receiverFails (h : c.Recorded) : c.Progress c.receiverFails := by
  rw [receiverFails]
  split
  · exact progress_of_queues h id (fun _ _ ↦ mem_of_mem_append_none) fun d hd ↦
      hd.imp_left mem_of_mem_append_none
  · exact progress_refl h

end Client

end MoneyLaundering
