import MoneyLaundering.Client.Upload

/-!
# Uploads that are published once

A client that begins a session sends its pending upload again, and the gateway publishes it again.
If no session is lost before its uploads are acknowledged, there is none: then the gateway publishes
each upload once, in the order of the stream (`forwarded_once`).
-/

namespace MoneyLaundering

open EventRuns

variable {R : Type} {cfg : ClientConfig} {router : InternalRouter} {clientId : ClientId}

namespace Conversation

variable {s : Conversation R}

/-- When a session begins, all uploads of those before are acknowledged. -/
def Acknowledged (s : Conversation R) : Event R → Prop
  | .connect => s.client.phase = .disconnected → s.client.pendingMsg = none
  | _ => True

instance (s : Conversation R) : DecidablePred s.Acknowledged
  | .connect => inferInstanceAs (Decidable (_ → _))
  | .publish _ | .deliver _ _ | .settle _ _ | .requeue _ _ | .orchestrate | .senderTakes
  | .senderSends | .senderFails | .receives | .receiverFails | .reads _ | .forwards _
  | .enqueuesAck _ | .fails _ | .sends _ | .sendFails _ => inferInstanceAs (Decidable True)

/-! ## The sessions that are over -/

theorem uploads_update_le {i : ℕ} {h : Handler R} (hle : h.uploads ≤ (s.handlers i).uploads)
    (j : ℕ) : (Function.update s.handlers i h j).uploads ≤ (s.handlers j).uploads := by
  by_cases hj : j = i
  · subst hj
    rw [Function.update_self]
    exact hle
  · rw [Function.update_of_ne hj]

/-- Nothing comes to be under way in a session that is over. -/
theorem uploads_step (event : Event R) :
    (s.step cfg router clientId event).count = s.count ∧
        (∀ i, i ≠ s.current →
          ((s.step cfg router clientId event).handlers i).uploads ≤ (s.handlers i).uploads) ∨
      event = .connect ∧ s.client.phase = .disconnected ∧
        s.step cfg router clientId event
          = { s.update s.count Handler.init with
              client := s.client.runSession, count := s.count + 1 } := by
  have hsame : s.count = s.count ∧ ∀ i, i ≠ s.current →
      (s.handlers i).uploads ≤ (s.handlers i).uploads := ⟨rfl, fun _ _ ↦ le_rfl⟩
  have hhandler {i : ℕ} {h : Handler R} (hle : h.uploads ≤ (s.handlers i).uploads) :
      s.count = s.count ∧ ∀ j, j ≠ s.current →
        (Function.update s.handlers i h j).uploads ≤ (s.handlers j).uploads :=
    ⟨rfl, fun j _ ↦ uploads_update_le hle j⟩
  match event with
  | .connect =>
    by_cases hphase : s.client.phase = .disconnected
    · exact Or.inr ⟨rfl, hphase, if_pos hphase⟩
    · rw [step, if_neg hphase]
      exact Or.inl hsame
  | .deliver i k =>
    left
    rw [step]
    split
    · rw [deliver]
      split
      · exact hsame
      · exact hhandler (Handler.uploads_onResult _ _).le
    · exact hsame
  | .settle i tag =>
    left
    rw [step]
    split <;> exact hsame
  | .senderSends =>
    left
    rw [step, senderSends]
    split
    · exact ⟨rfl, fun i hi ↦ (congrArg Handler.uploads (Function.update_of_ne hi _ _)).le⟩
    · exact hsame
    · exact hsame
  | .receives =>
    left
    rw [step, receives]
    split
    · exact hsame
    · split
      · exact hhandler le_rfl
      · exact hsame
  | .reads i =>
    left
    rw [step, reads]
    simp only
    split
    · next u requests hreceiving hrequests =>
      refine hhandler (le_of_eq ?_)
      -- the upload moves from the socket to the receive loop
      rw [Handler.uploads, Handler.uploads, hreceiving, hrequests]
      change ((requests.filterMap Request.upload? : List Upload) : Multiset Upload) + {u}
        = ((u :: requests.filterMap Request.upload? : List Upload) : Multiset Upload) + 0
      rw [add_zero, ← Multiset.cons_coe, ← Multiset.singleton_add, add_comm]
    · next deliveryId requests hreceiving hrequests =>
      refine hhandler (le_of_eq ?_)
      rw [Handler.uploads, Handler.uploads, hrequests]
      rfl
    · exact hsame
  | .forwards i =>
    left
    have hle {receiving : Receiving} (hnone : receiving.uploads = 0) :
        ({ s.handlers i with receiving := receiving } : Handler R).uploads
          ≤ (s.handlers i).uploads := by
      rw [Handler.uploads, Handler.uploads]
      exact add_le_add le_rfl (hnone ▸ Multiset.zero_le _)
    rw [step, forwards]
    simp only
    split
    · split
      · exact hhandler (hle rfl)
      · exact hhandler (hle rfl)
    all_goals exact hsame
  | .enqueuesAck i =>
    left
    rw [step, enqueuesAck]
    split
    · refine hhandler ?_
      rw [Handler.uploads, Handler.uploads]
      exact add_le_add le_rfl (Multiset.zero_le _)
    all_goals exact hsame
  | .fails i => exact Or.inl (hhandler (Handler.uploads_fails_le _))
  | .sends i | .sendFails i => exact Or.inl (hhandler (Handler.uploads_senderStep _ _).le)
  | .publish _ | .requeue _ _ | .orchestrate | .senderTakes | .senderFails | .receiverFails =>
    exact Or.inl hsame

/-! ## One step -/

/-- The gateway has published an initial part of the stream, all that was yielded or all but the
pending upload. -/
structure Once (cfg : ClientConfig) (router : InternalRouter) (clientId : ClientId)
    (s : Conversation R) : Prop extends UploadInvariant cfg router clientId s where
  old : ∀ i, i ≠ s.current → (s.handlers i).uploads = 0
  inOrder : s.forwarded.map Prod.fst = (messagesToSend cfg).1.take s.forwarded.length
  idle : s.client.pendingMsg = none → s.path = 0 ∧ s.forwarded.length = s.client.yielded
  pending : s.client.pendingMsg ≠ none → s.path = 0 ∧ s.forwarded.length = s.client.yielded ∨
    s.forwarded.length + 1 = s.client.yielded
  producing : s.client.phase = .producing → s.client.pendingMsg = none

theorem once_init : Once cfg router clientId (init : Conversation R) where
  toUploadInvariant := uploadInvariant_init
  old _ _ := rfl
  inOrder := rfl
  idle _ := ⟨rfl, rfl⟩
  pending h := absurd rfl h
  producing h := absurd h (by simp [init, Client.init])

namespace Once

/-- Only the current session publishes anything, and that is the next upload of the stream. -/
theorem next (h : Once cfg router clientId s) {s' : Conversation R} {u : Upload}
    (hcurrent : s.path = s'.path + {u} ∧ s'.pathAcks = s.pathAcks + 1 ∨
      (∃ i, i ≠ s.current ∧ u ∈ (s.handlers i).uploads) ∧ s'.path = s.path ∧
        s'.pathAcks = s.pathAcks) :
    s'.path = 0 ∧ s.forwarded.length + 1 = s.client.yielded ∧
      (messagesToSend cfg).1[s.forwarded.length]? = some u := by
  rcases hcurrent with ⟨hpath, -⟩ | ⟨⟨i, hi, hmem⟩, -⟩
  · have halone := h.waits.alone
    have hu : u ∈ s.path := by
      rw [hpath]
      exact Multiset.mem_add.mpr (Or.inr (Multiset.mem_singleton_self u))
    have hne : s.path ≠ 0 := fun hzero ↦ Multiset.notMem_zero u (hzero ▸ hu)
    have hpendingMsg := h.waits.pending u hu
    have hlength := (h.pending (by rw [hpendingMsg]; exact Option.some_ne_none u)).resolve_left
      fun hnone ↦ hne hnone.1
    obtain ⟨k, hk, hget, -⟩ := h.ordered.pending u hpendingMsg
    obtain rfl : k = s.forwarded.length := by omega
    rw [hpath, Multiset.card_add, Multiset.card_singleton] at halone
    exact ⟨Multiset.card_eq_zero.mp (by omega), hlength, hget⟩
  · exact absurd (h.old i hi ▸ hmem) (Multiset.notMem_zero u)

/-- The pending upload is published when it is acknowledged. -/
theorem acked (h : Once cfg router clientId s) (hacks : 0 < s.pathAcks) :
    s.forwarded.length = s.client.yielded := by
  rcases hpendingMsg : s.client.pendingMsg with _ | u
  · exact (h.idle hpendingMsg).2
  · rcases h.pending (by rw [hpendingMsg]; exact Option.some_ne_none u) with hall | hlast
    · exact hall.2
    · -- otherwise the pending upload would be in the stream twice
      obtain ⟨m, hm⟩ := h.waits.acked hacks u hpendingMsg
      obtain ⟨k, hk, hget, -⟩ := h.ordered.pending u hpendingMsg
      have hmem : u ∈ (messagesToSend cfg).1.take s.forwarded.length := by
        rw [← h.inOrder]
        exact List.mem_map_of_mem hm
      obtain ⟨j, hj, hget'⟩ := List.mem_take_iff_getElem.mp hmem
      have hsome : (messagesToSend cfg).1[j]? = some u := by
        rw [← hget']
        exact List.getElem?_eq_getElem _
      have heq : j = k := (List.getElem?_inj (by omega) (nodup_messagesToSend cfg)).mp
        (hsome.trans hget.symm)
      omega

/-- A session begins, and nothing was under way in the one before. -/
theorem connect (h : Once cfg router clientId s) (hmsg : s.client.pendingMsg = none)
    (hinv : UploadInvariant cfg router clientId
      { s.update s.count Handler.init with
        client := s.client.runSession, count := s.count + 1 }) :
    Once cfg router clientId
      { s.update s.count Handler.init with
        client := s.client.runSession, count := s.count + 1 } := by
  obtain ⟨hempty, hlength⟩ := h.idle hmsg
  refine ⟨hinv, fun i hi ↦ ?_, h.inOrder, fun _ ↦ ⟨?_, hlength⟩, fun hmsg' ↦ absurd hmsg hmsg',
    fun _ ↦ hmsg⟩
  · have hi' : i ≠ s.count := by simpa [current] using hi
    simp only [update, Function.update_of_ne hi']
    by_cases hold : i = s.current
    · subst hold
      rw [path, add_eq_zero] at hempty
      exact hempty.2
    · exact h.old i hold
  · simp only [path, current, update, Nat.add_sub_cancel, Function.update_self]
    rfl

theorem step (h : Once cfg router clientId s) {event : Event R} (hack : s.Acknowledged event) :
    Once cfg router clientId (s.step cfg router clientId event) := by
  have hinv := h.toUploadInvariant.step event
  have hmoves : Moves cfg router clientId s (s.step cfg router clientId event) := moves_step event
  rcases uploads_step (s := s) event with ⟨hcount, hold⟩ | ⟨rfl, hphase, heq⟩
  · have hcurrent : (s.step cfg router clientId event).current = s.current :=
      congrArg (· - 1) hcount
    have hnone : ∀ i, i ≠ (s.step cfg router clientId event).current →
        ((s.step cfg router clientId event).handlers i).uploads = 0 := fun i hi ↦ by
      have hi' : i ≠ s.current := hcurrent ▸ hi
      exact Multiset.le_zero.mp ((hold i hi').trans_eq (h.old i hi'))
    generalize s.step cfg router clientId event = s' at hmoves hcount hnone hinv
    match hmoves with
    | .quiet hforwarded hyielded hpendingMsg hpath hacks hproducing =>
      refine ⟨hinv, hnone, hforwarded ▸ h.inOrder, fun hmsg ↦ ?_, fun hmsg ↦ ?_, fun hphase ↦ ?_⟩
      · obtain ⟨hempty, hlength⟩ := h.idle (hpendingMsg ▸ hmsg)
        exact ⟨Multiset.le_zero.mp (hpath.trans_eq hempty), by rw [hforwarded, hyielded, hlength]⟩
      · rw [hforwarded, hyielded]
        exact (h.pending (hpendingMsg ▸ hmsg)).imp_left fun ⟨hempty, hlength⟩ ↦
          ⟨Multiset.le_zero.mp (hpath.trans_eq hempty), hlength⟩
      · exact hpendingMsg.trans (h.producing (hproducing hphase))
    | .put u hforwarded hphase hphase' hpendingMsg hpath hacks hnext =>
      have hmsg := h.producing hphase
      obtain ⟨hagain, -⟩ | ⟨-, -, hyielded⟩ := hnext
      · exact absurd (hmsg.symm.trans hagain) (Option.some_ne_none u).symm
      · refine ⟨hinv, hnone, hforwarded ▸ h.inOrder, fun hmsg' ↦ ?_,
          fun _ ↦ Or.inr ?_, fun hphase ↦ ?_⟩
        · exact absurd (hpendingMsg.symm.trans hmsg') (Option.some_ne_none u)
        · rw [hforwarded, hyielded, (h.idle hmsg).2]
        · exact absurd (hphase'.symm.trans hphase) (by decide)
    | .acked hforwarded hyielded hpendingMsg hpath hacks =>
      have hempty : s.path = 0 := by
        have := h.waits.alone
        exact Multiset.card_eq_zero.mp (by omega)
      refine ⟨hinv, hnone, hforwarded ▸ h.inOrder, fun _ ↦ ⟨hpath.trans hempty, ?_⟩,
        fun hmsg ↦ absurd hpendingMsg hmsg, fun _ ↦ hpendingMsg⟩
      rw [hforwarded, hyielded]
      exact h.acked (by omega)
    | .forward u message hdispatch hu hforwarded hyielded hpendingMsg hphase hpaths =>
      obtain ⟨hempty, hlength, hget⟩ := h.next hpaths
      have hforwarded' : s'.forwarded.length = s'.client.yielded := by
        rw [hforwarded, List.length_append, List.length_singleton, hyielded, hlength]
      refine ⟨hinv, hnone, ?_, fun _ ↦ ⟨hempty, hforwarded'⟩,
        fun _ ↦ Or.inl ⟨hempty, hforwarded'⟩,
        fun hproducing ↦ hpendingMsg.trans (h.producing (hphase ▸ hproducing))⟩
      rw [hforwarded, List.map_append, List.length_append, List.length_singleton,
        List.take_add_one, h.inOrder, hget]
      rfl
    | .connect _ _ _ _ _ hcount' => omega
  · rw [heq] at hinv ⊢
    exact h.connect (hack hphase) hinv

/-- What a step publishes, if anything, is the next upload of the stream. -/
theorem forwarded_step (h : Once cfg router clientId s) (event : Event R) :
    (s.step cfg router clientId event).forwarded = s.forwarded ∨
      ∃ u message, (messagesToSend cfg).1[s.forwarded.length]? = some u ∧
        router.dispatch clientId u = some message ∧
        (s.step cfg router clientId event).forwarded = s.forwarded ++ [(u, message)] := by
  have hmoves : Moves cfg router clientId s (s.step cfg router clientId event) := moves_step event
  match hmoves with
  | .quiet hforwarded _ _ _ _ _ | .put _ hforwarded _ _ _ _ _ _ | .acked hforwarded _ _ _ _
  | .connect hforwarded _ _ _ _ _ => exact Or.inl hforwarded
  | .forward u message hdispatch _ hforwarded _ _ _ hpaths =>
    exact Or.inr ⟨u, message, (h.next hpaths).2.2, hdispatch, hforwarded⟩

end Once

/-- **Each upload is published once**, in the order of the stream, if no session is lost before its
uploads are acknowledged. -/
theorem forwarded_once (events : List (Event R))
    (hruns : Runs (step cfg router clientId) Acknowledged init events) :
    Once cfg router clientId (run (step cfg router clientId) init events) :=
  hruns.run_of_invariant (fun _ _ h hack ↦ h.step hack) once_init

/-! ## A session without losses -/

/-- What a step publishes is added to what was published. -/
theorem exists_forwarded_step (s : Conversation R) (event : Event R) :
    ∃ new, (s.step cfg router clientId event).forwarded = s.forwarded ++ new := by
  have hmoves : Moves cfg router clientId s (s.step cfg router clientId event) := moves_step event
  match hmoves with
  | .quiet hforwarded _ _ _ _ _ | .put _ hforwarded _ _ _ _ _ _ | .acked hforwarded _ _ _ _
  | .connect hforwarded _ _ _ _ _ => exact ⟨[], by rw [hforwarded, List.append_nil]⟩
  | .forward u message _ _ hforwarded _ _ _ _ => exact ⟨[(u, message)], hforwarded⟩

/-- The first session, in which some uploads were forwarded and acknowledged. -/
def served (forwarded : List (Upload × RawMessage)) : Conversation R :=
  { init with
    client := { (Client.init : Client R).runSession with yielded := forwarded.length }
    count := 1
    sends := forwarded.map Prod.fst
    forwarded := forwarded }

theorem step_connect : (init : Conversation R).step cfg router clientId .connect = served [] := by
  simp [step, served, update, init, Client.init, Client.runSession]

/-- An upload is sent, forwarded and acknowledged. -/
def exchange : List (Event R) :=
  [.orchestrate, .senderTakes, .senderSends, .reads 0, .forwards 0, .enqueuesAck 0, .sends 0,
    .receives, .orchestrate]

theorem run_exchange {forwarded : List (Upload × RawMessage)} {u : Upload} {message : RawMessage}
    (hget : (messagesToSend cfg).1[forwarded.length]? = some u)
    (hdispatch : router.dispatch clientId u = some message) :
    run (step cfg router clientId) (served forwarded : Conversation R) exchange
      = served (forwarded ++ [(u, message)]) := by
  simp [run, exchange, step, served, init, update, current, senderSends, reads,
    forwards, enqueuesAck,
    receives, Client.init, Client.runSession, Client.orchestrate, Client.produce, Client.put,
    Client.senderTakes, Client.waitAck, Handler.init, Handler.senderStep, hget, hdispatch]

theorem acknowledged_exchange (s : Conversation R) :
    Runs (step cfg router clientId) Acknowledged s exchange :=
  runs_of_forall fun event hevent s ↦ by
    simp only [exchange, List.mem_cons, List.not_mem_nil, or_false] at hevent
    rcases hevent with rfl | rfl | rfl | rfl | rfl | rfl | rfl | rfl | rfl <;> exact trivial

-- the session is lost when the gateway has published the upload, before it is acknowledged
example :
    let cfg : ClientConfig := ⟨["header", "a"], ["header"], 1, 1, [1]⟩
    let router : InternalRouter := ⟨"transaction", "account"⟩
    let events : List (Event Unit) := [.connect, .orchestrate, .senderTakes, .senderSends, .reads 0,
      .forwards 0, .receiverFails, .orchestrate, .orchestrate, .orchestrate, .senderTakes,
      .orchestrate, .connect, .orchestrate, .senderTakes, .senderSends, .reads 1, .forwards 1]
    (run (step cfg router "c") init events).forwarded.map Prod.fst
      = [.transactionBatch ["a"] 0, .transactionBatch ["a"] 0] := by decide +kernel

end Conversation

end MoneyLaundering
