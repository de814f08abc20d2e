import MoneyLaundering.Client.Conversation
import Mathlib.Data.Multiset.AddSub
import Mathlib.Data.Multiset.Filter

/-!
# The uploads under way

An upload is under way from the moment in which the main thread of the client puts it in the queue
of the sender until the gateway has published it, and from then on its acknowledgement is. What a
step can do to either is listed once, in `Moves`; what a new session finds is nothing, but the
handlers of the old ones may still have uploads (`InFlight`).
-/

namespace MoneyLaundering

/-! ## What is under way -/

/-- The upload of a request. -/
def Request.upload? : Request → Option Upload
  | upload u => some u
  | resultAck _ => none

/-- An acknowledgement of an upload. -/
def Reply.isAck {R : Type} : Reply R → Bool
  | ack => true
  | result _ _ => false

def HandlerItem.isAck {R : Type} : HandlerItem R → Bool
  | ack => true
  | result _ _ => false

variable {R : Type}

@[simp] theorem Reply.isAck_ack : (ack : Reply R).isAck = true := rfl

@[simp] theorem Reply.isAck_result (message : ResultMessage R) (deliveryId : ℕ) :
    (result message deliveryId).isAck = false := rfl

@[simp] theorem HandlerItem.isAck_ack : (ack : HandlerItem R).isAck = true := rfl

@[simp] theorem HandlerItem.isAck_result (message : ResultMessage R) (tag : ℕ) :
    (result message tag).isAck = false := rfl

def Receiving.uploads : Receiving → Multiset Upload
  | dispatching u => {u}
  | reading | forwarded | ended => 0

def Receiving.acks : Receiving → ℕ
  | forwarded => 1
  | reading | dispatching _ | ended => 0

def ClientSender.uploads : ClientSender → Multiset Upload
  | sending (.upload u) => {u}
  | sending (.resultAck _) | waiting | ended => 0

namespace Handler

/-- The uploads that were sent in a session and are not published. -/
def uploads (h : Handler R) : Multiset Upload :=
  (h.toGateway.filterMap Request.upload? : List Upload) + h.receiving.uploads

/-- The uploads that are published, and whose acknowledgements are not received. -/
def acks (h : Handler R) : ℕ :=
  h.receiving.acks + h.queue.countP HandlerItem.isAck + h.toClient.countP Reply.isAck

@[simp] theorem uploads_onResult (h : Handler R) (message : ResultMessage R) :
    (h.onResult message).uploads = h.uploads := rfl

@[simp] theorem acks_onResult (h : Handler R) (message : ResultMessage R) :
    (h.onResult message).acks = h.acks := by
  simp [acks, onResult]

@[simp] theorem uploads_senderStep (h : Handler R) (succeeds : Bool) :
    (h.senderStep succeeds).uploads = h.uploads := by
  rw [senderStep]
  split
  · match h.queue, succeeds with
    | [], _ | .ack :: _, true | .ack :: _, false | .result _ _ :: _, true
    | .result _ _ :: _, false => rfl
  · rfl

theorem acks_senderStep_le (h : Handler R) (succeeds : Bool) :
    (h.senderStep succeeds).acks ≤ h.acks := by
  rw [senderStep]
  split
  · rcases hqueue : h.queue with _ | ⟨item, queue⟩
    · exact Nat.le_refl _
    · match item, succeeds with
      | .ack, true =>
        simp [acks, hqueue, List.countP_cons_of_pos HandlerItem.isAck_ack]
        omega
      | .ack, false => simp [acks, hqueue, List.countP_cons_of_pos HandlerItem.isAck_ack]
      | .result _ _, true | .result _ _, false => simp [acks, hqueue, registerPendingAck]
  · exact Nat.le_refl _

theorem uploads_fails_le (h : Handler R) :
    ({ h with receiving := .ended } : Handler R).uploads ≤ h.uploads := by
  rw [uploads, uploads]
  exact add_le_add le_rfl (Multiset.zero_le _)

theorem acks_fails_le (h : Handler R) :
    ({ h with receiving := .ended } : Handler R).acks ≤ h.acks := by
  rw [acks, acks]
  exact Nat.add_le_add_right (Nat.add_le_add_right (Nat.zero_le _) _) _

end Handler

namespace Client

/-- The uploads that the threads of the client have not sent. -/
def uploads (c : Client R) : Multiset Upload :=
  (c.senderQueue.filterMap (Option.bind · Request.upload?) : List Upload) + c.sender.uploads

/-- The acknowledgements that the main thread has not taken. -/
def acks (c : Client R) : ℕ := c.receiverQueue.countP (Option.any Reply.isAck)

variable {cfg : ClientConfig} {c : Client R}

/-- What most steps of a client leave as it was: nothing comes to be under way, and the main thread
stays where it is unless it raises. -/
structure Keeps (c c' : Client R) : Prop where
  yielded : c'.yielded = c.yielded
  pendingMsg : c'.pendingMsg = c.pendingMsg
  uploads : c'.uploads ≤ c.uploads
  acks : c'.acks ≤ c.acks
  aborted : c.aborted = true → c'.aborted = true
  phase : c'.phase = c.phase ∨ c'.phase = .failed

namespace Keeps

theorem refl (c : Client R) : c.Keeps c := ⟨rfl, rfl, le_rfl, le_rfl, id, Or.inl rfl⟩

theorem trans {c' c'' : Client R} (h : c.Keeps c') (h' : c'.Keeps c'') : c.Keeps c'' where
  yielded := h'.yielded.trans h.yielded
  pendingMsg := h'.pendingMsg.trans h.pendingMsg
  uploads := h'.uploads.trans h.uploads
  acks := h'.acks.trans h.acks
  aborted := h'.aborted ∘ h.aborted
  phase := h'.phase.elim (fun heq ↦ heq ▸ h.phase) Or.inr

theorem ackResult (deliveryId : ℕ) : c.Keeps (c.ackResult deliveryId) where
  yielded := rfl
  pendingMsg := rfl
  uploads := by
    have hqueue : (c.senderQueue ++ [some (Request.resultAck deliveryId)]).filterMap
        (Option.bind · Request.upload?)
          = c.senderQueue.filterMap (Option.bind · Request.upload?) := by
      rw [List.filterMap_append]
      exact List.append_nil _
    rw [Client.uploads, Client.uploads, Client.ackResult, hqueue]
  acks := le_rfl
  aborted := id
  phase := Or.inl rfl

theorem thenAck (deliveryId : ℕ) : c.Keeps (c.thenAck deliveryId) := by
  rw [Client.thenAck]
  split
  · exact refl c
  · exact ackResult deliveryId

theorem maybeFinalize (queryId : ℤ) : c.Keeps (c.maybeFinalize cfg queryId) := by
  rw [Client.maybeFinalize]
  split
  · exact refl c
  · split
    · refine ⟨rfl, rfl, le_rfl, le_rfl, id, ?_⟩
      by_cases hmem : queryId ∈ cfg.expectedQueryIds
      · exact Or.inl (if_pos hmem)
      · exact Or.inr (if_neg hmem)
    · exact refl c

theorem markSeen (queryId : ℤ) (messageId : MessageId) :
    c.Keeps (c.markSeen queryId messageId) := by
  rw [Client.markSeen]
  split
  · exact refl c
  · exact ⟨rfl, rfl, le_rfl, le_rfl, id, Or.inl rfl⟩

theorem handleResult (message : ResultMessage R) (deliveryId : ℕ) :
    c.Keeps (c.handleResult cfg message deliveryId) := by
  match message with
  | .queryEnd queryId messageCount =>
    have hexpecting : c.Keeps
        { c with
          ends := c.ends ++ [(queryId, messageCount)]
          expected := Function.update c.expected queryId (some messageCount) } :=
      ⟨rfl, rfl, le_rfl, le_rfl, id, Or.inl rfl⟩
    exact (hexpecting.trans (maybeFinalize queryId)).trans (thenAck deliveryId)
  | .batch queryId records messageId =>
    have hmarked := markSeen (c := c) queryId messageId
    rw [Client.handleResult, Client.handleQueryResult]
    split
    · exact ackResult deliveryId
    · split
      · have hwrite : (c.markSeen queryId messageId).Keeps
            ((c.markSeen queryId messageId).write queryId records messageId) :=
          ⟨rfl, rfl, le_rfl, le_rfl, id, Or.inl rfl⟩
        exact ((hmarked.trans hwrite).trans (maybeFinalize queryId)).trans (thenAck deliveryId)
      · exact hmarked.trans ⟨rfl, rfl, le_rfl, le_rfl, id, Or.inr rfl⟩

/-- The sender takes an upload out of its queue, which it still has to send. -/
theorem senderTakes : c.Keeps c.senderTakes := by
  rw [Client.senderTakes]
  split
  · next queue hsender hqueue =>
    refine ⟨rfl, rfl, ?_, ?_, id, Or.inl rfl⟩
    · rw [Client.uploads, Client.uploads, hsender, hqueue]
      rfl
    · simp [Client.acks]
  · next request queue hsender hqueue =>
    refine ⟨rfl, rfl, ?_, le_rfl, id, Or.inl rfl⟩
    rw [Client.uploads, Client.uploads, hsender, hqueue]
    match request with
    | .upload u =>
      change ((queue.filterMap (Option.bind · Request.upload?) : List Upload) :
        Multiset Upload) + {u}
        ≤ (u :: queue.filterMap (Option.bind · Request.upload?) : List Upload) + 0
      rw [add_zero, ← Multiset.cons_coe, ← Multiset.singleton_add, add_comm]
    | .resultAck _ => exact le_rfl
  · exact refl c

theorem senderFails : c.Keeps c.senderFails := by
  rw [Client.senderFails]
  split
  · refine ⟨rfl, rfl, ?_, ?_, fun _ ↦ rfl, Or.inl rfl⟩
    · rw [Client.uploads, Client.uploads]
      exact add_le_add le_rfl (Multiset.zero_le _)
    · simp [Client.acks]
  · exact refl c
  · exact refl c

theorem receiverFails : c.Keeps c.receiverFails := by
  rw [Client.receiverFails]
  split
  · refine ⟨rfl, rfl, ?_, ?_, fun _ ↦ rfl, Or.inl rfl⟩
    · rw [Client.uploads, Client.uploads, List.filterMap_append]
      exact le_of_eq (congrArg (fun l : List Upload ↦ (l : Multiset Upload) + c.sender.uploads)
        (List.append_nil _))
    · simp [Client.acks]
  · exact refl c

end Keeps

end Client

/-! ## What a step does to the uploads -/

namespace Conversation

variable (s : Conversation R)

/-- The uploads that are under way in the current session. -/
def path : Multiset Upload := s.client.uploads + (s.handlers s.current).uploads

/-- The acknowledgements that are under way in the current session. -/
def pathAcks : ℕ := s.client.acks + (s.handlers s.current).acks

/-- An upload is under way, in any session. -/
def InFlight (u : Upload) : Prop := u ∈ s.client.uploads ∨ ∃ i, u ∈ (s.handlers i).uploads

/-- What a step can do. -/
inductive Moves (cfg : ClientConfig) (router : InternalRouter) (clientId : ClientId)
    (s s' : Conversation R) : Prop
  /-- Nothing comes to be under way; something may get lost. -/
  | quiet (forwarded : s'.forwarded = s.forwarded) (yielded : s'.client.yielded = s.client.yielded)
      (pendingMsg : s'.client.pendingMsg = s.client.pendingMsg) (path : s'.path ≤ s.path)
      (acks : s'.pathAcks ≤ s.pathAcks)
      (phase : s'.client.phase = .producing → s.client.phase = .producing)
  /-- The client puts the pending upload, or the next one, in the queue of its sender. -/
  | put (u : Upload) (forwarded : s'.forwarded = s.forwarded) (phase : s.client.phase = .producing)
      (phase' : s'.client.phase = .waiting) (pendingMsg : s'.client.pendingMsg = some u)
      (path : s'.path = s.path + {u}) (acks : s'.pathAcks = s.pathAcks)
      (next : s.client.pendingMsg = some u ∧ s'.client.yielded = s.client.yielded ∨
        s.client.pendingMsg = none ∧ (messagesToSend cfg).1[s.client.yielded]? = some u ∧
          s'.client.yielded = s.client.yielded + 1)
  /-- The client takes an acknowledgement. -/
  | acked (forwarded : s'.forwarded = s.forwarded) (yielded : s'.client.yielded = s.client.yielded)
      (pendingMsg : s'.client.pendingMsg = none) (path : s'.path = s.path)
      (acks : s'.pathAcks + 1 = s.pathAcks)
  /-- A handler publishes an upload, that of the current session or that of an old one. -/
  | forward (u : Upload) (message : RawMessage)
      (dispatch : router.dispatch clientId u = some message) (inFlight : s.InFlight u)
      (forwarded : s'.forwarded = s.forwarded ++ [(u, message)])
      (yielded : s'.client.yielded = s.client.yielded)
      (pendingMsg : s'.client.pendingMsg = s.client.pendingMsg)
      (phase : s'.client.phase = s.client.phase)
      (current : s.path = s'.path + {u} ∧ s'.pathAcks = s.pathAcks + 1 ∨
        (∃ i, i ≠ s.current ∧ u ∈ (s.handlers i).uploads) ∧ s'.path = s.path ∧
          s'.pathAcks = s.pathAcks)
  /-- A session begins. -/
  | connect (forwarded : s'.forwarded = s.forwarded)
      (yielded : s'.client.yielded = s.client.yielded)
      (pendingMsg : s'.client.pendingMsg = s.client.pendingMsg) (path : s'.path = 0)
      (acks : s'.pathAcks = 0) (count : s'.count = s.count + 1)

variable {s} {router : InternalRouter} {clientId : ClientId}

theorem moves_refl : Moves cfg router clientId s s := .quiet rfl rfl rfl le_rfl le_rfl id

/-- A step of the threads of the client. -/
theorem moves_keeps {c : Client R} (h : s.client.Keeps c) :
    Moves cfg router clientId s { s with client := c } := by
  refine .quiet rfl h.yielded h.pendingMsg (add_le_add h.uploads le_rfl)
    (Nat.add_le_add_right h.acks _) fun hphase ↦ ?_
  rcases h.phase with heq | hfailed
  · exact heq.symm.trans hphase
  · exact absurd (hfailed.symm.trans hphase) (by decide)

/-- A step of a handler through which nothing comes to be under way. -/
theorem moves_handler {s' : Conversation R} {i : ℕ} {h : Handler R}
    (hclient : s'.client = s.client) (hcount : s'.count = s.count)
    (hhandlers : s'.handlers = Function.update s.handlers i h)
    (hforwarded : s'.forwarded = s.forwarded) (huploads : h.uploads ≤ (s.handlers i).uploads)
    (hacks : h.acks ≤ (s.handlers i).acks) : Moves cfg router clientId s s' := by
  have hcurrent : (s'.handlers s'.current).uploads ≤ (s.handlers s.current).uploads ∧
      (s'.handlers s'.current).acks ≤ (s.handlers s.current).acks := by
    rw [current, hcount, ← current, hhandlers]
    by_cases hi : s.current = i
    · rw [hi, Function.update_self]
      exact ⟨huploads, hacks⟩
    · rw [Function.update_of_ne hi]
      exact ⟨le_rfl, le_rfl⟩
  refine .quiet hforwarded (by rw [hclient]) (by rw [hclient]) ?_ ?_ (by rw [hclient]; exact id)
  · rw [path, path, hclient]
    exact add_le_add le_rfl hcurrent.1
  · rw [pathAcks, pathAcks, hclient]
    exact Nat.add_le_add_left hcurrent.2 _

theorem moves_produce (hphase : s.client.phase = .producing) :
    Moves cfg router clientId s { s with client := s.client.produce cfg } := by
  -- `put` with the generator at `yielded`
  have hput (u : Upload) (yielded : ℕ)
      (hnext : s.client.pendingMsg = some u ∧ yielded = s.client.yielded ∨
        s.client.pendingMsg = none ∧ (messagesToSend cfg).1[s.client.yielded]? = some u ∧
          yielded = s.client.yielded + 1) :
      Moves cfg router clientId s
        { s with client := Client.put { s.client with yielded := yielded } u } := by
    refine .put u rfl hphase rfl rfl ?_ rfl hnext
    have hqueue : (s.client.senderQueue ++ [some (Request.upload u)]).filterMap
        (Option.bind · Request.upload?)
          = s.client.senderQueue.filterMap (Option.bind · Request.upload?) ++ [u] := by
      rw [List.filterMap_append]
      rfl
    simp only [path, Client.uploads, Client.put, hqueue, ← Multiset.coe_add, current]
    rw [Multiset.coe_singleton]
    ac_rfl
  have hdone (phase : ClientPhase) (hne : phase ≠ .producing) :
      Moves cfg router clientId s { s with client := { s.client with phase := phase } } :=
    .quiet rfl rfl rfl le_rfl le_rfl fun hphase ↦ absurd hphase hne
  rw [Client.produce]
  split
  · exact hdone _ (by decide)
  · split
    · next u hpending => exact hput u s.client.yielded (Or.inl ⟨hpending, rfl⟩)
    · next hpending =>
      split
      · next u hnext => exact hput u (s.client.yielded + 1) (Or.inr ⟨hpending, hnext, rfl⟩)
      · refine hdone _ ?_
        split <;> decide

theorem moves_waitAck : Moves cfg router clientId s { s with client := s.client.waitAck cfg } := by
  rw [Client.waitAck]
  have hacks {item : Option (Reply R)} {queue : List (Option (Reply R))}
      (hqueue : s.client.receiverQueue = item :: queue) :
      s.client.acks = queue.countP (Option.any Reply.isAck)
        + if Option.any Reply.isAck item then 1 else 0 := by
    rw [Client.acks, hqueue, List.countP_cons]
  split
  · exact moves_refl
  · next queue hqueue =>
    refine .quiet rfl rfl rfl le_rfl (Nat.add_le_add_right ?_ _) fun hphase ↦
      absurd hphase (by simp)
    rw [hacks hqueue]
    exact Nat.le_add_right _ _
  · next queue hqueue =>
    refine .acked rfl rfl rfl rfl ?_
    rw [pathAcks, pathAcks, hacks hqueue]
    exact Nat.add_right_comm _ _ _
  · next message deliveryId queue hqueue =>
    have htakes : s.client.Keeps { s.client with receiverQueue := queue } :=
      ⟨rfl, rfl, le_rfl, hacks hqueue ▸ Nat.le_add_right _ _, id, Or.inl rfl⟩
    exact moves_keeps (htakes.trans (.handleResult message deliveryId))

theorem moves_consumeRemaining :
    Moves cfg router clientId s { s with client := s.client.consumeRemaining cfg } := by
  have hdone (queue : List (Option (Reply R)))
      (hqueue : ∃ item, s.client.receiverQueue = item :: queue) :
      queue.countP (Option.any Reply.isAck) ≤ s.client.acks := by
    obtain ⟨item, hqueue⟩ := hqueue
    rw [Client.acks, hqueue, List.countP_cons]
    exact Nat.le_add_right _ _
  rw [Client.consumeRemaining]
  split
  · exact .quiet rfl rfl rfl le_rfl le_rfl fun h ↦ absurd h (by simp)
  · split
    · exact moves_refl
    · next queue hqueue =>
      exact .quiet rfl rfl rfl le_rfl (Nat.add_le_add_right (hdone queue ⟨_, hqueue⟩) _)
        fun h ↦ absurd h (by simp)
    · next queue hqueue =>
      exact moves_keeps ⟨rfl, rfl, le_rfl, hdone queue ⟨_, hqueue⟩, id, Or.inl rfl⟩
    · next message deliveryId queue hqueue =>
      have htakes : s.client.Keeps { s.client with receiverQueue := queue } :=
        ⟨rfl, rfl, le_rfl, hdone queue ⟨_, hqueue⟩, id, Or.inl rfl⟩
      exact moves_keeps (htakes.trans (.handleResult message deliveryId))

theorem moves_orchestrate :
    Moves cfg router clientId s { s with client := s.client.orchestrate cfg } := by
  have hphase (phase : ClientPhase) (hne : phase ≠ .producing) :
      Moves cfg router clientId s { s with client := { s.client with phase := phase } } :=
    .quiet rfl rfl rfl le_rfl le_rfl fun h ↦ absurd h hne
  rw [Client.orchestrate]
  split
  · next h => exact moves_produce h
  · exact moves_waitAck
  · refine hphase _ ?_
    split <;> decide
  · exact moves_consumeRemaining
  · refine .quiet rfl rfl rfl (add_le_add ?_ le_rfl) le_rfl fun h ↦ absurd h (by simp)
    rw [Client.uploads, Client.uploads, List.filterMap_append]
    exact le_of_eq (congrArg (fun l : List Upload ↦ (l : Multiset Upload) + s.client.sender.uploads)
      (List.append_nil _))
  · split
    · refine hphase _ ?_
      split <;> decide
    · exact moves_refl
  · exact moves_refl
  · exact moves_refl
  · exact moves_refl

theorem moves_senderSends : Moves cfg router clientId s s.senderSends := by
  rw [senderSends]
  split
  · next request hsender =>
    refine .quiet rfl rfl rfl (le_of_eq ?_) (le_of_eq ?_) id
    · simp only [path, current, update, Function.update_self, Client.uploads, Handler.uploads,
        hsender, List.filterMap_append, ← Multiset.coe_add]
      match request with
      | .upload u =>
        change _ + 0 + (_ + (({u} : Multiset Upload)) + _) = _ + {u} + (_ + _)
        rw [add_zero]
        ac_rfl
      | .resultAck deliveryId =>
        change _ + 0 + (_ + (0 : Multiset Upload) + _) = _ + 0 + (_ + _)
        rw [add_zero, add_zero]
    · simp only [pathAcks, current, update, Function.update_self]
      rfl
  · exact moves_refl
  · exact moves_refl

theorem moves_receives : Moves cfg router clientId s s.receives := by
  rw [receives]
  split
  · exact moves_refl
  · next reply replies hreplies =>
    split
    · refine .quiet rfl rfl rfl (le_of_eq ?_) (le_of_eq ?_) id
      · simp only [path, current, update, Function.update_self]
        rfl
      · simp only [pathAcks, current, update, Function.update_self, Client.acks, Handler.acks,
          List.countP_append, List.countP_cons, List.countP_nil, Option.any_some] at hreplies ⊢
        rw [hreplies, List.countP_cons]
        omega
    · exact moves_refl

theorem moves_reads (i : ℕ) : Moves cfg router clientId s (s.reads i) := by
  rw [reads]
  simp only
  split
  · next u requests hreceiving hrequests =>
    refine moves_handler rfl rfl rfl rfl (le_of_eq ?_) (le_of_eq ?_)
    · rw [Handler.uploads, Handler.uploads, hreceiving, hrequests]
      change _ + {u}
        = ((u :: requests.filterMap Request.upload? : List Upload) : Multiset Upload) + 0
      rw [add_zero, ← Multiset.cons_coe, ← Multiset.singleton_add, add_comm]
    · rw [Handler.acks, Handler.acks, hreceiving]
      rfl
  · next deliveryId requests hreceiving hrequests =>
    refine moves_handler rfl rfl rfl rfl (le_of_eq ?_) le_rfl
    rw [Handler.uploads, Handler.uploads, hrequests]
    rfl
  · exact moves_refl

theorem moves_enqueuesAck (i : ℕ) : Moves cfg router clientId s (s.enqueuesAck i) := by
  rw [enqueuesAck]
  split
  · next hreceiving =>
    refine moves_handler rfl rfl rfl rfl (le_of_eq ?_) (le_of_eq ?_)
    · rw [Handler.uploads, Handler.uploads, hreceiving]
      rfl
    · rw [Handler.acks, Handler.acks, hreceiving, List.countP_append]
      change 0 + (_ + 1) + (s.handlers i).toClient.countP _
        = 1 + _ + (s.handlers i).toClient.countP _
      omega
  · exact moves_refl
  · exact moves_refl
  · exact moves_refl

theorem moves_forwards (i : ℕ) :
    Moves cfg router clientId s (s.forwards router clientId i) := by
  rw [forwards]
  simp only
  split
  · next u hreceiving =>
    have huploads (receiving : Receiving) (hnone : receiving.uploads = 0) :
        (s.handlers i).uploads
          = ({ s.handlers i with receiving := receiving } : Handler R).uploads + {u} := by
      rw [Handler.uploads, Handler.uploads, hreceiving]
      change _ + {u} = _ + receiving.uploads + {u}
      rw [hnone, add_zero]
    split
    · next hdispatch =>
      exact moves_handler rfl rfl rfl rfl (Handler.uploads_fails_le _) (Handler.acks_fails_le _)
    · next message hdispatch =>
      have hmem : u ∈ (s.handlers i).uploads := by
        rw [huploads .forwarded rfl]
        exact Multiset.mem_add.mpr (Or.inr (Multiset.mem_singleton_self u))
      refine .forward u message hdispatch (Or.inr ⟨i, hmem⟩) rfl rfl rfl rfl ?_
      by_cases hi : s.current = i
      · left
        have hacks : ({ s.handlers i with receiving := .forwarded } : Handler R).acks
            = (s.handlers i).acks + 1 := by
          rw [Handler.acks, Handler.acks, hreceiving]
          change 1 + (s.handlers i).queue.countP _ + (s.handlers i).toClient.countP _
            = 0 + (s.handlers i).queue.countP _ + (s.handlers i).toClient.countP _ + 1
          omega
        simp only [path, pathAcks, current, update] at hi ⊢
        rw [hi, Function.update_self, huploads .forwarded rfl, hacks, add_assoc, Nat.add_assoc]
        exact ⟨rfl, rfl⟩
      · right
        refine ⟨⟨i, Ne.symm hi, hmem⟩, ?_⟩
        simp only [path, pathAcks, current, update] at hi ⊢
        rw [Function.update_of_ne hi]
        exact ⟨rfl, rfl⟩
  · exact moves_refl
  · exact moves_refl
  · exact moves_refl

/-- **What a step can do**, for each event. -/
theorem moves_step (event : Event R) :
    Moves cfg router clientId s (s.step cfg router clientId event) := by
  match event with
  | .publish message => exact .quiet rfl rfl rfl le_rfl le_rfl id
  | .deliver i k =>
    rw [step]
    split
    · rw [deliver]
      split
      · exact moves_refl
      · exact moves_handler rfl rfl rfl rfl le_rfl (Handler.acks_onResult _ _).le
    · exact moves_refl
  | .settle i tag =>
    rw [step]
    split
    · exact .quiet rfl rfl rfl le_rfl le_rfl id
    · exact moves_refl
  | .requeue i tag => exact .quiet rfl rfl rfl le_rfl le_rfl id
  | .connect =>
    rw [step]
    split
    · refine .connect rfl rfl rfl ?_ ?_ rfl
      · simp only [path, current, update, Nat.add_sub_cancel, Function.update_self]
        rfl
      · simp only [pathAcks, current, update, Nat.add_sub_cancel, Function.update_self]
        rfl
    · exact moves_refl
  | .orchestrate => exact moves_orchestrate
  | .senderTakes => exact moves_keeps .senderTakes
  | .senderSends => exact moves_senderSends
  | .senderFails => exact moves_keeps .senderFails
  | .receives => exact moves_receives
  | .receiverFails => exact moves_keeps .receiverFails
  | .reads i => exact moves_reads i
  | .forwards i => exact moves_forwards i
  | .enqueuesAck i => exact moves_enqueuesAck i
  | .fails i =>
    exact moves_handler rfl rfl rfl rfl (Handler.uploads_fails_le _) (Handler.acks_fails_le _)
  | .sends i =>
    exact moves_handler rfl rfl rfl rfl (Handler.uploads_senderStep _ _).le
      (Handler.acks_senderStep_le _ _)
  | .sendFails i =>
    exact moves_handler rfl rfl rfl rfl (Handler.uploads_senderStep _ _).le
      (Handler.acks_senderStep_le _ _)

/-! ## What is under way comes from the client -/

theorem InFlight.of_client {c : Client R} {u : Upload} (huploads : c.uploads ≤ s.client.uploads)
    (h : ({ s with client := c } : Conversation R).InFlight u) : s.InFlight u :=
  h.imp_left fun hu ↦ Multiset.mem_of_le huploads hu

theorem InFlight.of_handler {s' : Conversation R} {i : ℕ} {h : Handler R} {u : Upload}
    (hu : s'.InFlight u) (hclient : s'.client.uploads ≤ s.client.uploads)
    (hhandlers : s'.handlers = Function.update s.handlers i h)
    (huploads : ∀ u ∈ h.uploads, s.InFlight u) : s.InFlight u := by
  rcases hu with hu | ⟨j, hu⟩
  · exact Or.inl (Multiset.mem_of_le hclient hu)
  · rw [hhandlers] at hu
    by_cases hj : j = i
    · rw [hj, Function.update_self] at hu
      exact huploads u hu
    · rw [Function.update_of_ne hj] at hu
      exact Or.inr ⟨j, hu⟩

/-- The main thread sends only what is pending. -/
theorem mem_uploads_produce {c : Client R} {u : Upload} :
    u ∈ (c.produce cfg).uploads → u ∈ c.uploads ∨ (c.produce cfg).pendingMsg = some u := by
  have hput (c' : Client R) (huploads : c'.uploads = c.uploads) (u' : Upload) :
      u ∈ (c'.put u').uploads → u ∈ c.uploads ∨ (c'.put u').pendingMsg = some u := by
    intro hu
    rw [Client.uploads, Client.put, List.filterMap_append] at hu
    rcases Multiset.mem_add.mp hu with hqueue | hsender
    · rcases List.mem_append.mp (Multiset.mem_coe.mp hqueue) with hqueue | hlast
      · exact Or.inl (huploads ▸ Multiset.mem_add.mpr (Or.inl hqueue))
      · exact Or.inr (congrArg some (List.mem_singleton.mp hlast).symm)
    · exact Or.inl (huploads ▸ Multiset.mem_add.mpr (Or.inr hsender))
  rw [Client.produce]
  split
  · exact Or.inl
  · split
    · exact hput c rfl _
    · split
      · exact hput { c with yielded := c.yielded + 1 } rfl _
      · exact Or.inl

theorem mem_uploads_orchestrate {c : Client R} {u : Upload} :
    u ∈ (c.orchestrate cfg).uploads → u ∈ c.uploads ∨ (c.orchestrate cfg).pendingMsg = some u := by
  have htakes (queue : List (Option (Reply R))) (message : ResultMessage R) (deliveryId : ℕ) :
      u ∈ (Client.handleResult cfg { c with receiverQueue := queue } message deliveryId).uploads →
        u ∈ c.uploads :=
    Multiset.mem_of_le (Client.Keeps.handleResult message deliveryId).uploads
  rw [Client.orchestrate]
  split
  · exact mem_uploads_produce
  · rw [Client.waitAck]
    split
    · exact Or.inl
    · exact Or.inl
    · exact Or.inl
    · exact fun hu ↦ Or.inl (htakes _ _ _ hu)
  · exact Or.inl
  · rw [Client.consumeRemaining]
    split
    · exact Or.inl
    · split
      · exact Or.inl
      · exact Or.inl
      · exact Or.inl
      · exact fun hu ↦ Or.inl (htakes _ _ _ hu)
  · intro hu
    rw [Client.uploads, List.filterMap_append] at hu
    exact Or.inl ((congrArg (fun l : List Upload ↦ u ∈ (l : Multiset Upload) + c.sender.uploads)
      (List.append_nil _)).mp hu)
  · split <;> exact Or.inl
  · exact Or.inl
  · exact Or.inl
  · exact Or.inl

/-- What comes to be under way is pending. -/
theorem inFlight_step (event : Event R) {u : Upload}
    (h : (s.step cfg router clientId event).InFlight u) :
    s.InFlight u ∨ (s.step cfg router clientId event).client.pendingMsg = some u := by
  have hof (i : ℕ) {u : Upload} (hu : u ∈ (s.handlers i).uploads) : s.InFlight u := Or.inr ⟨i, hu⟩
  match event with
  | .publish message => exact Or.inl h
  | .deliver i k =>
    left
    rw [step] at h
    split at h
    · rw [deliver] at h
      split at h
      · exact h
      · exact InFlight.of_handler (s := s) h le_rfl rfl fun u hu ↦ hof i hu
    · exact h
  | .settle i tag =>
    left
    rw [step] at h
    split at h <;> exact h
  | .requeue i tag => exact Or.inl h
  | .connect =>
    left
    rw [step] at h
    split at h
    · -- a new handler has no uploads yet
      exact InFlight.of_handler (s := s) h (Multiset.zero_le _) rfl fun u hu ↦
        absurd hu (Multiset.notMem_zero u)
    · exact h
  | .orchestrate =>
    rcases h with hu | hu
    · exact (mem_uploads_orchestrate hu).imp_left Or.inl
    · exact Or.inl (Or.inr hu)
  | .senderTakes => exact Or.inl (InFlight.of_client (s := s) Client.Keeps.senderTakes.uploads h)
  | .senderFails => exact Or.inl (InFlight.of_client (s := s) Client.Keeps.senderFails.uploads h)
  | .receiverFails =>
    exact Or.inl (InFlight.of_client (s := s) Client.Keeps.receiverFails.uploads h)
  | .senderSends =>
    left
    rw [step, senderSends] at h
    split at h
    · next request hsender =>
      -- the upload moves from the sender to the socket of the handler
      refine InFlight.of_handler (s := s) h ?_ rfl fun u hu ↦ ?_
      · rw [Client.uploads, Client.uploads]
        exact add_le_add le_rfl (Multiset.zero_le _)
      · rw [Handler.uploads, List.filterMap_append] at hu
        rcases Multiset.mem_add.mp hu with hqueue | hreceiving
        · rcases List.mem_append.mp (Multiset.mem_coe.mp hqueue) with hqueue | hlast
          · exact hof _ (Multiset.mem_add.mpr (Or.inl hqueue))
          · match request with
            | .upload u' =>
              obtain rfl := List.mem_singleton.mp hlast
              refine Or.inl (Multiset.mem_add.mpr (Or.inr ?_))
              rw [hsender]
              exact Multiset.mem_singleton_self u
            | .resultAck _ => exact absurd hlast List.not_mem_nil
        · exact hof _ (Multiset.mem_add.mpr (Or.inr hreceiving))
    · exact h
    · exact h
  | .receives =>
    left
    rw [step, receives] at h
    split at h
    · exact h
    · split at h
      · exact InFlight.of_handler (s := s) h le_rfl rfl fun u hu ↦ hof _ hu
      · exact h
  | .reads i =>
    left
    rw [step, reads] at h
    simp only at h
    split at h
    · next u' requests hreceiving hrequests =>
      refine InFlight.of_handler (s := s) h le_rfl rfl fun u hu ↦ hof i ?_
      -- the upload moves from the socket to the receive loop
      rw [Handler.uploads, hreceiving, hrequests]
      change u ∈ ((u' :: requests.filterMap Request.upload? : List Upload) : Multiset Upload) + 0
      rw [add_zero, ← Multiset.cons_coe, ← Multiset.singleton_add, add_comm]
      exact hu
    · next deliveryId requests hreceiving hrequests =>
      refine InFlight.of_handler (s := s) h le_rfl rfl fun u hu ↦ hof i ?_
      rw [Handler.uploads, hrequests]
      exact hu
    · exact h
  | .forwards i =>
    left
    rw [step, forwards] at h
    simp only at h
    have hle {receiving : Receiving} (hnone : receiving.uploads = 0) :
        ({ s.handlers i with receiving := receiving } : Handler R).uploads
          ≤ (s.handlers i).uploads := by
      rw [Handler.uploads, Handler.uploads]
      exact add_le_add le_rfl (hnone ▸ Multiset.zero_le _)
    split at h
    · split at h
      · exact InFlight.of_handler (s := s) h le_rfl rfl fun u hu ↦
          hof i (Multiset.mem_of_le (hle rfl) hu)
      · exact InFlight.of_handler (s := s) h le_rfl rfl fun u hu ↦
          hof i (Multiset.mem_of_le (hle rfl) hu)
    · exact h
    · exact h
    · exact h
  | .enqueuesAck i =>
    left
    rw [step, enqueuesAck] at h
    split at h
    · refine InFlight.of_handler (s := s) h le_rfl rfl fun u hu ↦ hof i (Multiset.mem_of_le ?_ hu)
      rw [Handler.uploads, Handler.uploads]
      exact add_le_add le_rfl (Multiset.zero_le _)
    · exact h
    · exact h
    · exact h
  | .fails i =>
    exact Or.inl (InFlight.of_handler (s := s) h le_rfl rfl fun u hu ↦
      hof i (Multiset.mem_of_le (Handler.uploads_fails_le _) hu))
  | .sends i | .sendFails i =>
    exact Or.inl (InFlight.of_handler (s := s) h le_rfl rfl fun u hu ↦
      hof i (Handler.uploads_senderStep (s.handlers i) _ ▸ hu))

/-- What a step sends was under way. -/
theorem sends_step (event : Event R) :
    ∃ sent : List Upload, (s.step cfg router clientId event).sends = s.sends ++ sent ∧
      ∀ u ∈ sent, s.InFlight u := by
  have hquiet {s' : Conversation R} (h : s'.sends = s.sends) :
      ∃ sent : List Upload, s'.sends = s.sends ++ sent ∧ ∀ u ∈ sent, s.InFlight u :=
    ⟨[], h.trans (List.append_nil _).symm, fun _ hu ↦ absurd hu List.not_mem_nil⟩
  match event with
  | .senderSends =>
    rw [step, senderSends]
    split
    · next request hsender =>
      match request with
      | .upload u =>
        refine ⟨[u], rfl, fun u' hu' ↦ Or.inl (Multiset.mem_add.mpr (Or.inr ?_))⟩
        rw [hsender, List.mem_singleton.mp hu']
        exact Multiset.mem_singleton_self u
      | .resultAck _ => exact hquiet (List.append_nil _)
    · exact hquiet rfl
    · exact hquiet rfl
  | .deliver i k =>
    refine hquiet ?_
    rw [step]
    split
    · rw [deliver]
      split <;> rfl
    · rfl
  | .receives =>
    refine hquiet ?_
    rw [step, receives]
    split
    · rfl
    · split <;> rfl
  | .reads i =>
    refine hquiet ?_
    rw [step, reads]
    simp only
    split <;> rfl
  | .forwards i =>
    refine hquiet ?_
    rw [step, forwards]
    simp only
    split
    · split <;> rfl
    all_goals rfl
  | .enqueuesAck i =>
    refine hquiet ?_
    rw [step, enqueuesAck]
    split <;> rfl
  | .settle _ _ | .connect =>
    refine hquiet ?_
    rw [step]
    split <;> rfl
  | .publish _ | .requeue _ _ | .orchestrate | .senderTakes | .senderFails | .receiverFails
  | .fails _ | .sends _ | .sendFails _ => exact hquiet rfl

end Conversation

end MoneyLaundering
