import MoneyLaundering.Client.InFlight

/-!
# The upload protocol

A client sends an upload when the one before it is acknowledged, and the gateway acknowledges an
upload when it has published it. What makes this hold over many sessions is that, of all that is
under way in one session, at most one thing concerns an upload: the upload itself, or its
acknowledgement (`Waits`). Everything else, what an old session still has under way included, was
sent when all that precedes it was published (`Due`).
-/

namespace MoneyLaundering

open EventRuns

variable {R : Type} {cfg : ClientConfig} {router : InternalRouter} {clientId : ClientId}

namespace Conversation

variable {s : Conversation R}

/-! ## At most one thing concerns an upload -/

/-- What is under way in the current session: at most one upload, the pending one, or one
acknowledgement, and then the pending upload is published. When the main thread is about to send,
there is nothing. -/
structure Waits (s : Conversation R) : Prop where
  alone : s.path.card + s.pathAcks ≤ 1
  producing : s.client.phase = .producing → s.path.card + s.pathAcks = 0
  pending : ∀ u ∈ s.path, s.client.pendingMsg = some u
  acked : 0 < s.pathAcks → ∀ u, s.client.pendingMsg = some u → ∃ m, (u, m) ∈ s.forwarded

theorem waits_init : Waits (init : Conversation R) where
  alone := Nat.zero_le 1
  producing _ := rfl
  pending _ hu := absurd hu (Multiset.notMem_zero _)
  acked h := absurd h (Nat.lt_irrefl 0)

theorem Waits.step {s' : Conversation R} (h : s.Waits) (hmoves : Moves cfg router clientId s s') :
    s'.Waits := by
  obtain ⟨halone, hproducing, hpending, hacked⟩ := h
  match hmoves with
  | .quiet hforwarded _ hpendingMsg hpath hacks hphase =>
    have hcard := Multiset.card_le_card hpath
    refine ⟨by omega, fun h ↦ ?_, fun u hu ↦ ?_, fun h u hu ↦ ?_⟩
    · have := hproducing (hphase h)
      omega
    · rw [hpendingMsg]
      exact hpending u (Multiset.mem_of_le hpath hu)
    · rw [hforwarded]
      exact hacked (by omega) u (hpendingMsg ▸ hu)
  | .put u hforwarded hphase hphase' hpendingMsg hpath hacks _ =>
    -- the client puts an upload only when none is on its way
    have hnone := hproducing hphase
    have hempty : s.path = 0 := Multiset.card_eq_zero.mp (by omega)
    rw [hempty, zero_add] at hpath
    refine ⟨?_, fun h ↦ absurd (hphase'.symm.trans h) (by decide), fun u' hu' ↦ ?_, fun h ↦ ?_⟩
    · rw [hpath, Multiset.card_singleton]
      omega
    · rw [hpath, Multiset.mem_singleton] at hu'
      rw [hpendingMsg, hu']
    · omega
  | .acked hforwarded _ hpendingMsg hpath hacks =>
    -- the acknowledgement was all that was on its way
    have hempty : s.path = 0 := Multiset.card_eq_zero.mp (by omega)
    rw [hempty] at hpath
    refine ⟨?_, fun _ ↦ ?_, fun u hu ↦ ?_, fun h ↦ ?_⟩
    · rw [hpath, Multiset.card_zero]
      omega
    · rw [hpath, Multiset.card_zero]
      omega
    · exact absurd (hpath ▸ hu) (Multiset.notMem_zero u)
    · omega
  | .forward u m _ _ hforwarded _ hpendingMsg hphase hcurrent =>
    -- the handler is that of the current session, or of one that is lost
    rcases hcurrent with ⟨hpath, hacks⟩ | ⟨-, hpath, hacks⟩
    · have hcard : s.path.card = s'.path.card + 1 := by
        rw [hpath, Multiset.card_add, Multiset.card_singleton]
      have hu : s.client.pendingMsg = some u := by
        refine hpending u ?_
        rw [hpath]
        exact Multiset.mem_add.mpr (Or.inr (Multiset.mem_singleton_self u))
      refine ⟨by omega, fun h ↦ ?_, fun u' hu' ↦ ?_, fun _ u' hu' ↦ ⟨m, ?_⟩⟩
      · have := hproducing (hphase.symm.trans h)
        omega
      · rw [hpendingMsg]
        exact hpending u' (by rw [hpath]; exact Multiset.mem_add.mpr (Or.inl hu'))
      · obtain rfl := Option.some.inj (hu.symm.trans (hpendingMsg ▸ hu'))
        rw [hforwarded]
        exact List.mem_append_right _ List.mem_cons_self
    · refine ⟨by rw [hpath, hacks]; exact halone, fun h ↦ ?_, fun u' hu' ↦ ?_, fun h u' hu' ↦ ?_⟩
      · rw [hpath, hacks]
        exact hproducing (hphase.symm.trans h)
      · rw [hpendingMsg]
        exact hpending u' (hpath ▸ hu')
      · obtain ⟨m', hm'⟩ := hacked (hacks ▸ h) u' (hpendingMsg ▸ hu')
        rw [hforwarded]
        exact ⟨m', List.mem_append_left _ hm'⟩
  | .connect _ _ _ hpath hacks _ =>
    refine ⟨?_, fun _ ↦ ?_, fun u hu ↦ ?_, fun h ↦ ?_⟩
    · rw [hpath, hacks]
      exact Nat.zero_le 1
    · rw [hpath, hacks]
      rfl
    · exact absurd (hpath ▸ hu) (Multiset.notMem_zero u)
    · omega

/-! ## What is sent was due -/

/-- Message `k` of the stream is published. -/
def Published (cfg : ClientConfig) (forwarded : List (Upload × RawMessage)) (k : ℕ) : Prop :=
  ∃ u message, (messagesToSend cfg).1[k]? = some u ∧ (u, message) ∈ forwarded

/-- Everything that precedes an upload in the stream is published. -/
structure Due (cfg : ClientConfig) (forwarded : List (Upload × RawMessage)) (u : Upload) :
    Prop where
  mem : u ∈ (messagesToSend cfg).1
  earlier : ∀ k, (messagesToSend cfg).1[k]? = some u → ∀ j < k, Published cfg forwarded j

theorem Published.mono {forwarded forwarded' : List (Upload × RawMessage)} {k : ℕ}
    (h : Published cfg forwarded k) (hsub : forwarded ⊆ forwarded') :
    Published cfg forwarded' k :=
  h.imp fun _ ↦ Exists.imp fun _ ↦ And.imp_right fun hmem ↦ hsub hmem

theorem Due.mono {forwarded forwarded' : List (Upload × RawMessage)} {u : Upload}
    (h : Due cfg forwarded u) (hsub : forwarded ⊆ forwarded') : Due cfg forwarded' u where
  mem := h.mem
  earlier k hk j hj := (h.earlier k hk j hj).mono hsub

/-- No message is in the stream twice. -/
theorem due_of_getElem? {forwarded : List (Upload × RawMessage)} {u : Upload} {k : ℕ}
    (hk : (messagesToSend cfg).1[k]? = some u) (h : ∀ j < k, Published cfg forwarded j) :
    Due cfg forwarded u where
  mem := List.mem_of_getElem? hk
  earlier k' hk' := by
    obtain ⟨hlt, -⟩ := List.getElem?_eq_some_iff.mp hk
    have heq : k = k' :=
      (List.getElem?_inj hlt (nodup_messagesToSend cfg)).mp (hk.trans hk'.symm)
    exact heq ▸ h

/-- What the client has yielded is published, up to the pending message, and what is under way or
published was due. -/
structure Ordered (cfg : ClientConfig) (router : InternalRouter) (clientId : ClientId)
    (s : Conversation R) : Prop where
  pending : ∀ u, s.client.pendingMsg = some u → ∃ k, s.client.yielded = k + 1 ∧
    (messagesToSend cfg).1[k]? = some u ∧ ∀ j < k, Published cfg s.forwarded j
  between : s.client.pendingMsg = none → ∀ j < s.client.yielded, Published cfg s.forwarded j
  inFlight : ∀ u, s.InFlight u → Due cfg s.forwarded u
  forwarded : ∀ before u message after, s.forwarded = before ++ (u, message) :: after →
    router.dispatch clientId u = some message ∧ Due cfg before u

theorem ordered_init : Ordered cfg router clientId (init : Conversation R) where
  pending u hu := absurd hu (by simp [init, Client.init])
  between _ j hj := absurd hj (Nat.not_lt_zero j)
  inFlight u hu := by
    rcases hu with hu | ⟨i, hu⟩ <;> exact absurd hu (Multiset.notMem_zero u)
  forwarded before u message after h := by simp [init] at h

/-- What comes to be under way is the pending message. -/
theorem Ordered.due_of_step {s' : Conversation R} (h : Ordered cfg router clientId s)
    (hsub : s.forwarded ⊆ s'.forwarded)
    (hpending : ∀ u, s'.client.pendingMsg = some u → ∃ k, s'.client.yielded = k + 1 ∧
      (messagesToSend cfg).1[k]? = some u ∧ ∀ j < k, Published cfg s'.forwarded j)
    (hinFlight : ∀ u, s'.InFlight u → s.InFlight u ∨ s'.client.pendingMsg = some u) (u : Upload)
    (hu : s'.InFlight u) : Due cfg s'.forwarded u := by
  rcases hinFlight u hu with hu | hu
  · exact (h.inFlight u hu).mono hsub
  · obtain ⟨k, -, hk, hearlier⟩ := hpending u hu
    exact due_of_getElem? hk hearlier

theorem Ordered.step {s' : Conversation R} (h : Ordered cfg router clientId s) (hwaits : s.Waits)
    (hmoves : Moves cfg router clientId s s')
    (hinFlight : ∀ u, s'.InFlight u → s.InFlight u ∨ s'.client.pendingMsg = some u) :
    Ordered cfg router clientId s' := by
  -- the steps that leave the client where it is in the stream, and publish nothing
  have hsame (hforwarded : s'.forwarded = s.forwarded)
      (hyielded : s'.client.yielded = s.client.yielded)
      (hpendingMsg : s'.client.pendingMsg = s.client.pendingMsg) :
      Ordered cfg router clientId s' := by
    have hpending : ∀ u, s'.client.pendingMsg = some u → ∃ k, s'.client.yielded = k + 1 ∧
        (messagesToSend cfg).1[k]? = some u ∧ ∀ j < k, Published cfg s'.forwarded j := by
      rw [hforwarded, hyielded, hpendingMsg]
      exact h.pending
    refine ⟨hpending, ?_, h.due_of_step (hforwarded ▸ List.Subset.refl _) hpending hinFlight, ?_⟩
    · rw [hforwarded, hyielded, hpendingMsg]
      exact h.between
    · rw [hforwarded]
      exact h.forwarded
  match hmoves with
  | .quiet hforwarded hyielded hpendingMsg _ _ _ => exact hsame hforwarded hyielded hpendingMsg
  | .connect hforwarded hyielded hpendingMsg _ _ _ => exact hsame hforwarded hyielded hpendingMsg
  | .put u hforwarded _ _ hpendingMsg _ _ hnext =>
    have hpending : ∀ u', s'.client.pendingMsg = some u' → ∃ k, s'.client.yielded = k + 1 ∧
        (messagesToSend cfg).1[k]? = some u' ∧ ∀ j < k, Published cfg s'.forwarded j := by
      intro u' hu'
      obtain rfl : u = u' := Option.some.inj (hpendingMsg.symm.trans hu')
      rw [hforwarded]
      rcases hnext with ⟨hagain, hyielded⟩ | ⟨hnone, hget, hyielded⟩
      · rw [hyielded]
        exact h.pending u hagain
      · exact ⟨s.client.yielded, hyielded, hget, h.between hnone⟩
    refine ⟨hpending, fun hnone ↦ ?_,
      h.due_of_step (hforwarded ▸ List.Subset.refl _) hpending hinFlight, ?_⟩
    · exact absurd (hpendingMsg.symm.trans hnone) (by simp)
    · rw [hforwarded]
      exact h.forwarded
  | .acked hforwarded hyielded hpendingMsg _ hacks =>
    have hpending : ∀ u, s'.client.pendingMsg = some u → ∃ k, s'.client.yielded = k + 1 ∧
        (messagesToSend cfg).1[k]? = some u ∧ ∀ j < k, Published cfg s'.forwarded j :=
      fun u hu ↦ absurd (hpendingMsg.symm.trans hu) (by simp)
    refine ⟨hpending, fun _ j hj ↦ ?_,
      h.due_of_step (hforwarded ▸ List.Subset.refl _) hpending hinFlight, ?_⟩
    · rw [hforwarded]
      rw [hyielded] at hj
      rcases hpend : s.client.pendingMsg with _ | u
      · exact h.between hpend j hj
      · obtain ⟨k, hk, hget, hearlier⟩ := h.pending u hpend
        -- the acknowledgement says that the pending message is published
        obtain ⟨message, hmessage⟩ := hwaits.acked (by omega) u hpend
        rcases Nat.lt_succ_iff_lt_or_eq.mp (hk ▸ hj) with hlt | rfl
        · exact hearlier j hlt
        · exact ⟨u, message, hget, hmessage⟩
    · rw [hforwarded]
      exact h.forwarded
  | .forward u message hdispatch hu hforwarded hyielded hpendingMsg _ _ =>
    have hsub : s.forwarded ⊆ s'.forwarded := hforwarded ▸ List.subset_append_left _ _
    have hpending : ∀ u, s'.client.pendingMsg = some u → ∃ k, s'.client.yielded = k + 1 ∧
        (messagesToSend cfg).1[k]? = some u ∧ ∀ j < k, Published cfg s'.forwarded j := by
      intro u' hu'
      obtain ⟨k, hk, hget, hearlier⟩ := h.pending u' (hpendingMsg ▸ hu')
      exact ⟨k, hyielded.trans hk, hget, fun j hj ↦ (hearlier j hj).mono hsub⟩
    refine ⟨hpending, fun hnone j hj ↦ ?_, h.due_of_step hsub hpending hinFlight,
      fun before u' message' after hsplit ↦ ?_⟩
    · exact (h.between (hpendingMsg ▸ hnone) j (hyielded ▸ hj)).mono hsub
    · rw [hforwarded] at hsplit
      rcases List.eq_nil_or_concat after with rfl | ⟨after, last, rfl⟩
      · obtain ⟨rfl, heq⟩ := List.append_inj' hsplit rfl
        obtain ⟨rfl, rfl⟩ := Prod.mk.inj (List.singleton_inj.mp heq)
        exact ⟨hdispatch, h.inFlight u hu⟩
      · rw [List.concat_eq_append, ← List.cons_append, ← List.append_assoc] at hsplit
        exact h.forwarded before u' message' after (List.append_inj' hsplit rfl).1

end Conversation

/-! ## The end of the stream -/

namespace Client

variable {c c' : Client R}

/-- The generator has yielded everything, and has not raised. -/
def Exhausted (cfg : ClientConfig) (c : Client R) : Prop :=
  (messagesToSend cfg).1.length ≤ c.yielded ∧ (messagesToSend cfg).2 = false

/-- A client that waits has a pending message, and one without a pending message comes behind
`_produce_and_wait_acks` at the end of the stream only, or because the session is lost. -/
structure Finishes (cfg : ClientConfig) (c : Client R) : Prop where
  waiting : c.phase = .waiting → c.pendingMsg ≠ none
  produced : c.phase = .produced → c.aborted = true ∨ c.pendingMsg ≠ none ∨ c.Exhausted cfg
  consuming : c.phase = .consuming → c.pendingMsg ≠ none ∨ c.Exhausted cfg

theorem Finishes.of_phase (hwaiting : c.phase ≠ .waiting) (hproduced : c.phase ≠ .produced)
    (hconsuming : c.phase ≠ .consuming) : c.Finishes cfg :=
  ⟨fun h ↦ absurd h hwaiting, fun h ↦ absurd h hproduced, fun h ↦ absurd h hconsuming⟩

theorem Finishes.congr (h : c.Finishes cfg) (hyielded : c'.yielded = c.yielded)
    (hpendingMsg : c'.pendingMsg = c.pendingMsg) (haborted : c.aborted = true → c'.aborted = true)
    (hphase : c'.phase = c.phase ∨ c'.phase = .failed) : c'.Finishes cfg := by
  rcases hphase with hphase | hfailed
  · refine ⟨?_, fun hproduced ↦ ?_, ?_⟩
    · rw [hphase, hpendingMsg]
      exact h.waiting
    · rw [hpendingMsg, Exhausted, hyielded]
      exact (h.produced (hphase ▸ hproduced)).imp_left haborted
    · rw [hphase, hpendingMsg, Exhausted, hyielded]
      exact h.consuming
  · exact .of_phase (by simp [hfailed]) (by simp [hfailed]) (by simp [hfailed])

theorem Finishes.keeps (h : c.Finishes cfg) (hkeeps : c.Keeps c') : c'.Finishes cfg :=
  h.congr hkeeps.yielded hkeeps.pendingMsg hkeeps.aborted hkeeps.phase

theorem finishes_put (c : Client R) (u : Upload) : (c.put u).Finishes cfg :=
  ⟨fun _ ↦ by simp [put], fun h ↦ absurd h (by simp [put]), fun h ↦ absurd h (by simp [put])⟩

theorem finishes_produce (c : Client R) : (c.produce cfg).Finishes cfg := by
  rw [produce]
  split
  · next haborted =>
    exact ⟨fun h ↦ absurd h (by simp), fun _ ↦ Or.inl haborted, fun h ↦ absurd h (by simp)⟩
  · split
    · exact finishes_put _ _
    · split
      · exact finishes_put _ _
      · next hnext =>
        by_cases hraises : (messagesToSend cfg).2 = true
        · exact .of_phase (by simp [hraises]) (by simp [hraises]) (by simp [hraises])
        · simp only [hraises]
          refine ⟨fun h ↦ absurd h (by simp), fun _ ↦ Or.inr (Or.inr ⟨?_, ?_⟩),
            fun h ↦ absurd h (by simp)⟩
          · exact List.getElem?_eq_none_iff.mp hnext
          · exact Bool.eq_false_iff.mpr hraises

theorem Finishes.orchestrate (h : c.Finishes cfg) : (c.orchestrate cfg).Finishes cfg := by
  have htakes (queue : List (Option (Reply R))) (message : ResultMessage R) (deliveryId : ℕ) :
      (Client.handleResult cfg { c with receiverQueue := queue } message
        deliveryId).Finishes cfg := by
    have hqueue : Client.Finishes cfg { c with receiverQueue := queue } :=
      h.congr rfl rfl id (Or.inl rfl)
    exact hqueue.keeps (.handleResult message deliveryId)
  rw [Client.orchestrate]
  split
  · exact finishes_produce c
  · next hwaiting =>
    rw [waitAck]
    split
    · exact h
    · exact ⟨fun h ↦ absurd h (by simp), fun _ ↦ Or.inr (Or.inl (h.waiting hwaiting)),
        fun h ↦ absurd h (by simp)⟩
    · exact .of_phase (by simp) (by simp) (by simp)
    · exact htakes _ _ _
  · next hproduced =>
    by_cases haborted : c.aborted = true
    · exact .of_phase (by simp [haborted]) (by simp [haborted]) (by simp [haborted])
    · refine ⟨fun h ↦ absurd h (by simp [haborted]), fun h ↦ absurd h (by simp [haborted]),
        fun _ ↦ ?_⟩
      exact (h.produced hproduced).resolve_left haborted
  · rw [consumeRemaining]
    split
    · exact .of_phase (by simp) (by simp) (by simp)
    · split
      · exact h
      · exact .of_phase (by simp) (by simp) (by simp)
      · exact h.congr rfl rfl id (Or.inl rfl)
      · exact htakes _ _ _
  · exact .of_phase (by simp) (by simp) (by simp)
  · split
    · by_cases hdone : c.allDone cfg
      · exact .of_phase (by simp [hdone]) (by simp [hdone]) (by simp [hdone])
      · exact .of_phase (by simp [hdone]) (by simp [hdone]) (by simp [hdone])
    · exact h
  · exact h
  · exact h
  · exact h

end Client

namespace Conversation

variable {s : Conversation R}

theorem finishes_step (h : s.client.Finishes cfg) (event : Event R) :
    (s.step cfg router clientId event).client.Finishes cfg := by
  match event with
  | .orchestrate => exact h.orchestrate
  | .senderTakes => exact h.keeps .senderTakes
  | .senderFails => exact h.keeps .senderFails
  | .receiverFails => exact h.keeps .receiverFails
  | .connect =>
    rw [step]
    split
    · exact .of_phase (by simp [Client.runSession]) (by simp [Client.runSession])
        (by simp [Client.runSession])
    · exact h
  | .senderSends =>
    rw [step, senderSends]
    split
    · exact h.congr rfl rfl id (Or.inl rfl)
    · exact h
    · exact h
  | .receives =>
    rw [step, receives]
    split
    · exact h
    · split
      · exact h.congr rfl rfl id (Or.inl rfl)
      · exact h
  | .deliver i k =>
    rw [step]
    split
    · rw [deliver]
      split <;> exact h
    · exact h
  | .reads i =>
    rw [step, reads]
    simp only
    split <;> exact h
  | .forwards i =>
    rw [step, forwards]
    simp only
    split
    · split <;> exact h
    all_goals exact h
  | .enqueuesAck i =>
    rw [step, enqueuesAck]
    split <;> exact h
  | .settle _ _ =>
    rw [step]
    split <;> exact h
  | .publish _ | .requeue _ _ | .fails _ | .sends _ | .sendFails _ => exact h

/-! ## The uploads of a run -/

/-- What holds after every run. -/
structure UploadInvariant (cfg : ClientConfig) (router : InternalRouter) (clientId : ClientId)
    (s : Conversation R) : Prop where
  waits : s.Waits
  ordered : Ordered cfg router clientId s
  finishes : s.client.Finishes cfg

theorem uploadInvariant_init : UploadInvariant cfg router clientId (init : Conversation R) where
  waits := waits_init
  ordered := ordered_init
  finishes := .of_phase (by simp [init, Client.init]) (by simp [init, Client.init])
    (by simp [init, Client.init])

theorem UploadInvariant.step (h : UploadInvariant cfg router clientId s) (event : Event R) :
    UploadInvariant cfg router clientId (s.step cfg router clientId event) where
  waits := h.waits.step (moves_step event)
  ordered := h.ordered.step h.waits (moves_step event) fun _ ↦ inFlight_step event
  finishes := finishes_step h.finishes event

theorem uploadInvariant_run (events : List (Event R)) :
    UploadInvariant cfg router clientId (run (step cfg router clientId) init events) :=
  run_of_invariant (fun _ event h ↦ h.step event) uploadInvariant_init

/-- What is sent is due, what is published is what the gateway makes of an upload that was due, an
end is published behind all batches of its file and with their number, and a client that consumes
the remaining results, with nothing pending, has uploaded both files. -/
structure Uploads (cfg : ClientConfig) (router : InternalRouter) (clientId : ClientId)
    (s : Conversation R) : Prop where
  /-- A message is sent when all that precede it in the stream are published. -/
  sent : ∀ event, ∃ sent : List Upload,
    (s.step cfg router clientId event).sends = s.sends ++ sent ∧
      ∀ u ∈ sent, Due cfg s.forwarded u
  /-- A message is published when all that precede it in the stream are published. -/
  forwarded : ∀ before u message after, s.forwarded = before ++ (u, message) :: after →
    router.dispatch clientId u = some message ∧ Due cfg before u
  transactionBatch : ∀ records i message, (.transactionBatch records i, message) ∈ s.forwarded →
    (∃ transactions, cfg.transactionBatches = some transactions ∧ transactions[i]? = some records) ∧
      message = router.forwardRawTransactions clientId records (toString i)
  accountBatch : ∀ records i message, (.accountBatch records i, message) ∈ s.forwarded →
    (∃ accounts, cfg.accountBatches = some accounts ∧ accounts[i]? = some records) ∧
      message = router.forwardRawAccounts clientId records (toString i)
  eofTransactions : ∀ before count message after,
    s.forwarded = before ++ (.eofTransactions count, message) :: after →
      ∃ transactions, cfg.transactionBatches = some transactions ∧
        message = router.forwardEofTransactions clientId transactions.length ∧
        ∀ i records, transactions[i]? = some records →
          (.transactionBatch records i,
            router.forwardRawTransactions clientId records (toString i)) ∈ before
  eofAccounts : ∀ before count message after,
    s.forwarded = before ++ (.eofAccounts count, message) :: after →
      ∃ accounts, cfg.accountBatches = some accounts ∧
        message = router.forwardEofAccounts clientId accounts.length ∧
        ∀ i records, accounts[i]? = some records →
          (.accountBatch records i,
            router.forwardRawAccounts clientId records (toString i)) ∈ before
  consuming : s.client.phase = .consuming → s.client.pendingMsg = none →
    (messagesToSend cfg).2 = false ∧
      ∀ u ∈ (messagesToSend cfg).1, ∃ message, (u, message) ∈ s.forwarded

section Published

variable (h : Ordered cfg router clientId s)

include h

/-- What is published is in the stream, and is what the gateway makes of it. -/
theorem Ordered.of_mem {u : Upload} {message : RawMessage} (hmem : (u, message) ∈ s.forwarded) :
    u ∈ (messagesToSend cfg).1 ∧ router.dispatch clientId u = some message := by
  obtain ⟨before, after, hsplit⟩ := List.append_of_mem hmem
  obtain ⟨hdispatch, hdue⟩ := h.forwarded before u message after hsplit
  exact ⟨hdue.mem, hdispatch⟩

/-- What was published before is all that precedes an upload in the stream. -/
theorem Ordered.mem_before {before after : List (Upload × RawMessage)} {u u' : Upload}
    {message message' : RawMessage} (hsplit : s.forwarded = before ++ (u, message) :: after)
    {j k : ℕ} (hk : (messagesToSend cfg).1[k]? = some u) (hj : j < k)
    (hj' : (messagesToSend cfg).1[j]? = some u')
    (hdispatch : router.dispatch clientId u' = some message') : (u', message') ∈ before := by
  obtain ⟨-, hdue⟩ := h.forwarded before u message after hsplit
  obtain ⟨u'', message'', hget, hmem⟩ := hdue.earlier k hk j hj
  obtain rfl : u' = u'' := Option.some.inj (hj'.symm.trans hget)
  have hforwarded : (u', message'') ∈ s.forwarded := hsplit ▸ List.mem_append_left _ hmem
  obtain rfl : message' = message'' :=
    Option.some.inj (hdispatch.symm.trans (h.of_mem hforwarded).2)
  exact hmem

end Published

/-- **The upload protocol.** -/
theorem uploads_run (events : List (Event R)) :
    Uploads cfg router clientId (run (step cfg router clientId) init events) := by
  have hinvariant : UploadInvariant cfg router clientId
      (run (step cfg router clientId) init events) := uploadInvariant_run events
  generalize run (step cfg router clientId) init events = s at hinvariant
  obtain ⟨hwaits, hordered, hfinishes⟩ := hinvariant
  refine ⟨fun event ↦ ?_, hordered.forwarded, fun records i message hmem ↦ ?_,
    fun records i message hmem ↦ ?_, fun before count message after hsplit ↦ ?_,
    fun before count message after hsplit ↦ ?_, fun hconsuming hnone ↦ ?_⟩
  · obtain ⟨sent, hsends, hsent⟩ := sends_step event
    exact ⟨sent, hsends, fun u hu ↦ hordered.inFlight u (hsent u hu)⟩
  · obtain ⟨hu, hdispatch⟩ := hordered.of_mem hmem
    exact ⟨exists_transactions_of_mem hu, (Option.some.inj hdispatch).symm⟩
  · obtain ⟨hu, hdispatch⟩ := hordered.of_mem hmem
    exact ⟨exists_accounts_of_mem hu, (Option.some.inj hdispatch).symm⟩
  · obtain ⟨hdispatch, hdue⟩ := hordered.forwarded before _ message after hsplit
    obtain ⟨k, hk⟩ := List.mem_iff_getElem?.mp hdue.mem
    obtain ⟨transactions, ht, rfl, hearlier⟩ := exists_lt_of_getElem?_eofTransactions hk
    refine ⟨transactions, ht, ?_, fun i records hi ↦ ?_⟩
    · exact Option.some.inj (hdispatch.symm.trans (router.dispatch_eofTransactions clientId _))
    · obtain ⟨j, hj, hget⟩ := hearlier i records hi
      exact hordered.mem_before hsplit hk hj hget rfl
  · obtain ⟨hdispatch, hdue⟩ := hordered.forwarded before _ message after hsplit
    obtain ⟨k, hk⟩ := List.mem_iff_getElem?.mp hdue.mem
    obtain ⟨accounts, ha, rfl, hearlier⟩ := exists_lt_of_getElem?_eofAccounts hk
    refine ⟨accounts, ha, ?_, fun i records hi ↦ ?_⟩
    · exact Option.some.inj (hdispatch.symm.trans (router.dispatch_eofAccounts clientId _))
    · obtain ⟨j, hj, hget⟩ := hearlier i records hi
      exact hordered.mem_before hsplit hk hj hget rfl
  · obtain ⟨hlength, hraises⟩ := (hfinishes.consuming hconsuming).resolve_left (not_not_intro hnone)
    refine ⟨hraises, fun u hu ↦ ?_⟩
    obtain ⟨k, hk⟩ := List.mem_iff_getElem?.mp hu
    obtain ⟨hlt, -⟩ := List.getElem?_eq_some_iff.mp hk
    obtain ⟨u', message, hget, hmem⟩ := hordered.between hnone k (by omega)
    obtain rfl : u = u' := Option.some.inj (hk.symm.trans hget)
    exact ⟨message, hmem⟩

end Conversation

end MoneyLaundering
