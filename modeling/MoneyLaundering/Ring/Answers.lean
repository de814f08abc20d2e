import MoneyLaundering.Ring.Pending

/-!
# Tokens that are published again

A node that dies between publishing a token and recording it leaves the message it made the token of
*open*: it takes the message again, and publishes a token once more. `FinishesFirst` says that a
node with an open message turns to nothing else that changes its counts, and that no node reports
counts while another one may still accept a token that it has answered already.

What then holds is `Answering`. A token that is published once more has the id it had the first
time, so the copy is dropped; of the tokens that will be accepted, all but one were answered
already; and all were once a coordinator is designated.
-/

namespace MoneyLaundering

open WriteAhead StatefulWorker

/-- There is something a node has not reported. -/
def Observed.Owes {σ : Type} (v : Observed σ) : Prop :=
  v.partialProcessed < v.processed ∨ v.partialSent < v.sent

/-- The output is a token with a coordinator. -/
def Output.Coordinated {α : Type} : Output α → Prop
  | .data _ => False
  | .ring _ token => token.ring.coordinatorId ≠ none
  | .finalEof _ _ => False

variable {α : Type}

namespace Ring

/-- Node `i` has published a token that it made of this one. -/
def Answered (r : Ring α) (i : NodeId) (envelope : Envelope) : Prop :=
  (i, .control, envelope.messageId) ∈ r.net.answered

/-- Node `i` has published a token that it made of a message, and is going to accept that message
again: an end of the stream or a counting token. -/
def Open (r : Ring α) (i : NodeId) : Channel × MessageId → Prop
  | (.main, mid) => (i, .main, mid) ∈ r.net.answered ∧ mid ∉ (r.node i).seen .main
  | (.control, mid) =>
    ∃ before envelope, r.Pending i before envelope ∧ r.Answered i envelope ∧
      envelope.messageId = mid
  | (.side, _) => False

/-- Node `i` reports with the token what it has not published with it before. A flush of that many
messages is reported whenever it takes place. -/
def Reports (r : Ring α) (i : NodeId) (envelope : Envelope) (sends : ℕ) : Prop :=
  (envelope.token.ring.coordinatorId = none → ¬r.Answered i envelope ∧ (r.node i).Owes) ∧
    (envelope.token.ring.coordinatorId ≠ none → (r.node i).partialSent < (r.node i).sent + sends)

/-- A node with an open message neither processes data nor reports anything with another message,
and no node reports anything while a token is open. -/
def FinishesFirst (r : Ring α) : Label → Prop
  | .main i (.data mid) _ => mid ∉ (r.node i).seen .main → ∀ key, ¬r.Open i key
  | .main i (.eof mid _) _ => mid ∉ (r.node i).seen .main → (r.node i).Owes →
      ∀ key, r.Open i key → key = (.main, mid)
  | .token i sends _ => ∀ envelope rest, r.net.control i = envelope :: rest →
      envelope.messageId ∉ (r.node i).seen .control → r.Reports i envelope sends →
      (∀ key, ¬r.Open i key) ∧ ∀ j mid, ¬r.Open j (.control, mid)
  | .main _ (.token _) _ => True
  | .restart _ => True

/-- A token with the id is in the queue of node `i`, or was seen there. -/
def Arrived (r : Ring α) (i : NodeId) (mid : MessageId) : Prop :=
  mid ∈ (r.net.control i).map Envelope.messageId ∨ mid ∈ (r.node i).seen .control

/-- A coordinator has been designated. -/
def Flushing (r : Ring α) : Prop := ∃ p ∈ r.net.outputs, p.2.Coordinated

end Ring

variable {feed : Feed} {n : ℕ} {client : ClientId} {queryId : Option String} {i j : NodeId}
  {taken : Taken} {sends : ℕ} {outs : List (Output α)} {v : Observed Unit} {r : Ring α} {l : Label}
  {before : List Envelope} {envelope : Envelope} {mid : MessageId} {key : Channel × MessageId}

/-- The invariant of tokens that are published again. -/
structure Answering (feed : Feed) (n : ℕ) (client : ClientId) (r : Ring α) : Prop
    extends Traffic feed n client r where
  received : ∀ {i mid}, (i, .control, mid) ∈ r.net.answered → r.Arrived i mid
  start : startedWith client feed.eofNode r.net.outputs ≠ none →
    (feed.eofNode, .main, feed.eofId) ∈ r.net.answered
  unanswered : startedWith client feed.eofNode r.net.outputs = none →
    r.net.answered = [] ∧ ¬r.Flushing
  queued : r.net.Forall fun envelope ↦ envelope.token.ring.coordinatorId ≠ none → r.Flushing
  /-- A token that is open is at the head of its queue, and would be answered as it was before. -/
  repeated : ∀ {i before envelope}, r.Pending i before envelope → r.Answered i envelope →
    before = [] ∧
      r.Arrived ((i + 1) % n)
        (countToken ⟨i, n⟩ client (r.node i) envelope.token).messageId ∧
      ((countToken ⟨i, n⟩ client (r.node i) envelope.token).ring.coordinatorId ≠ none → r.Flushing)
  loose : ∀ {i j before before' envelope envelope'}, r.Pending i before envelope →
    r.Pending j before' envelope' → ¬r.Answered i envelope → ¬r.Answered j envelope' →
    i = j ∧ envelope.messageId = envelope'.messageId
  flushing : r.Flushing → ∀ {i before envelope}, r.Pending i before envelope → r.Answered i envelope

/-! ## Steps that change what a node holds -/

theorem Observed.count_ne (v : Observed Unit) (mid : MessageId) (sends : ℕ) :
    v.count mid sends ≠ v := by
  intro heq
  have := congrArg Observed.processed heq
  simp [Observed.count] at this

theorem Observed.see_ne {v v' : Observed Unit} {ch : Channel} (h : mid ∉ v.seen ch) :
    v'.see ch mid ≠ v := by
  rintro rfl
  exact h (by rw [see_self]; exact Finset.mem_insert_self _ _)

/-! ## What was published -/

namespace Ring

theorem Arrived.react (h : r.Arrived j mid)
    (hreaction : Reaction ⟨i, n⟩ client queryId (r.node i) taken sends outs v)
    (hmarks : (r.node i).Marked) : (r.react i taken outs v).Arrived j mid := by
  have hpre : r.net.control j <+: (r.react i taken outs v).net.control j :=
    Network.control_handled_prefix j
  exact h.imp (fun hmem ↦ (hpre.map Envelope.messageId).subset hmem) fun hseen ↦
    seen_react (grows_of_reaction hreaction hmarks).seen j .control hseen

theorem Arrived.pop {head : Envelope} {rest : List Envelope}
    (hhead : r.net.control i = head :: rest) (hseen : head.messageId ∈ (r.node i).seen .control)
    (h : r.Arrived j mid) : ({ r with net := r.net.pop i } : Ring α).Arrived j mid := by
  rcases h with hmem | hmem
  · by_cases hj : j = i
    · subst hj
      rw [hhead, List.map_cons, List.mem_cons] at hmem
      rcases hmem with rfl | hmem
      · exact Or.inr hseen
      · refine Or.inl ?_
        rw [Network.control_pop_self hhead]
        exact hmem
    · refine Or.inl ?_
      rw [Network.control_pop_of_ne hj]
      exact hmem
  · exact Or.inr hmem

theorem open_token (hpending : r.Pending i before envelope) (hanswered : r.Answered i envelope) :
    r.Open i (.control, envelope.messageId) := ⟨_, _, hpending, hanswered, rfl⟩

theorem Open.of_pop {head : Envelope} {rest : List Envelope}
    (hhead : r.net.control i = head :: rest) (hseen : head.messageId ∈ (r.node i).seen .control)
    (h : ({ r with net := r.net.pop i } : Ring α).Open j key) : r.Open j key := by
  obtain ⟨ch, mid⟩ := key
  cases ch with
  | main => exact h
  | control =>
    obtain ⟨before, envelope, hpending, hanswered, rfl⟩ := h
    exact open_token (pending_of_pop hhead hseen hpending) hanswered
  | side => exact h

/-- Nothing is open when everything that was answered is recorded. -/
theorem not_open (h : ∀ p ∈ r.net.answered, p.2.2 ∈ (r.node p.1).seen p.2.1) : ¬r.Open i key := by
  obtain ⟨ch, mid⟩ := key
  cases ch with
  | main => exact fun ⟨hanswered, hunseen⟩ ↦ hunseen (h _ hanswered)
  | control =>
    rintro ⟨before, envelope, hpending, hanswered, rfl⟩
    exact hpending.2.unseen (h _ hanswered)
  | side => exact fun hopen ↦ hopen

theorem flushing_react :
    (r.react i taken outs v).Flushing ↔ r.Flushing ∨ ∃ o ∈ outs, o.Coordinated := by
  simp only [Flushing, Traffic.outputs_react, List.mem_append, List.mem_map]
  constructor
  · rintro ⟨p, hp | ⟨o, ho, rfl⟩, hcoordinated⟩
    · exact Or.inl ⟨p, hp, hcoordinated⟩
    · exact Or.inr ⟨o, ho, hcoordinated⟩
  · rintro (⟨p, hp, hcoordinated⟩ | ⟨o, ho, hcoordinated⟩)
    · exact ⟨p, Or.inl hp, hcoordinated⟩
    · exact ⟨(i, o), Or.inr ⟨o, ho, rfl⟩, hcoordinated⟩

theorem exists_ring_of_coordinated (h : ∃ o ∈ outs, o.Coordinated) :
    ∃ node token, .ring node token ∈ outs ∧ token.ring.coordinatorId ≠ none := by
  obtain ⟨o, ho, hcoordinated⟩ := h
  cases o with
  | data m => exact hcoordinated.elim
  | ring node token => exact ⟨node, token, ho, hcoordinated⟩
  | finalEof messageId eof => exact hcoordinated.elim

theorem answered_react {p : NodeId × Channel × MessageId} :
    p ∈ (r.react i taken outs v).net.answered ↔
      p ∈ r.net.answered ∨ p = (i, taken.key) ∧ ∃ node token, .ring node token ∈ outs :=
  Network.mem_answered_handled

end Ring

/-! ## What every reaction keeps -/

namespace Answering

theorem init {inbox : NodeId → List Taken} (hinbox : ∀ i, ∀ taken ∈ inbox i, feed.Allows i taken) :
    Answering feed n client (Ring.init inbox : Ring α) where
  toTraffic := Traffic.init hinbox
  received h := absurd h List.not_mem_nil
  start h := absurd rfl h
  unanswered _ := by simp [Ring.init, Network.empty, Ring.Flushing]
  queued := Network.forall_empty _
  repeated h := absurd h.mem List.not_mem_nil
  loose h := absurd h.mem List.not_mem_nil
  flushing _ {_ _ _} h := absurd h.mem List.not_mem_nil

/-- Only a message that has a token at the head of its queue, or the end of the stream, is
answered. -/
theorem received_react (h : Answering feed n client r) (htakes : r.Takes l i taken sends)
    (hreaction : Reaction ⟨i, n⟩ client queryId (r.node i) taken sends outs v)
    (hmem : (j, .control, mid) ∈ (r.react i taken outs v).net.answered) :
    (r.react i taken outs v).Arrived j mid := by
  refine Ring.Arrived.react ?_ hreaction (h.marks i)
  rcases Ring.answered_react.mp hmem with hold | ⟨heq, -⟩
  · exact h.received hold
  · obtain ⟨rfl, hkey⟩ := Prod.mk.inj heq
    cases taken with
    | data mid' => exact absurd hkey (by simp [Taken.key])
    | eof mid' marker => exact absurd hkey (by simp [Taken.key])
    | token envelope =>
      obtain rfl : mid = envelope.messageId := (Prod.mk.inj hkey).2
      exact Or.inl (List.mem_map_of_mem (htakes.mem h.toTraffic))

theorem start_react (h : Answering feed n client r) (htakes : r.Takes l i taken sends)
    (hreaction : Reaction ⟨i, n⟩ client queryId (r.node i) taken sends outs v)
    (hstarted : startedWith client feed.eofNode (r.react i taken outs v).net.outputs ≠ none) :
    (feed.eofNode, .main, feed.eofId) ∈ (r.react i taken outs v).net.answered := by
  rw [Ring.answered_react]
  by_cases hbefore : startedWith client feed.eofNode r.net.outputs = none
  · rw [Traffic.outputs_react, startedWith_append, hbefore, Option.none_or] at hstarted
    obtain ⟨mid, marker, rfl, -, -, rfl⟩ := (startedWith_reaction hreaction
      (h.allows_of_takes htakes) feed.eofNode).resolve_left hstarted
    obtain ⟨rfl, rfl, -⟩ := (h.allows_of_takes htakes).resolve_right (by simp)
    exact Or.inr ⟨rfl, _, _, List.mem_singleton_self _⟩
  · exact Or.inl (h.start hbefore)

/-- A ring that was not started takes no token, and sends none but the first. -/
theorem started_of_sent (h : Answering feed n client r) (htakes : r.Takes l i taken sends)
    (hreaction : Reaction ⟨i, n⟩ client queryId (r.node i) taken sends outs v)
    {node : NodeId} {token : Token} (hmem : .ring node token ∈ outs) :
    startedWith client feed.eofNode (r.react i taken outs v).net.outputs ≠ none := by
  intro hnone
  rw [Traffic.outputs_react, startedWith_append, Option.or_eq_none_iff] at hnone
  obtain ⟨hbefore, houts⟩ := hnone
  obtain ⟨-, hempty⟩ := h.unstarted hbefore
  obtain ⟨-, ⟨mid, marker, rfl, rfl⟩ | ⟨envelope, rfl, -⟩ | ⟨envelope, _, rfl, -⟩⟩ :=
    ring_mem_of_reaction hreaction hmem
  · obtain ⟨rfl, -, rfl⟩ := (h.allows_of_takes htakes).resolve_right (by simp)
    have hfirst := List.findSome?_eq_none_iff.mp houts _ (List.mem_map_of_mem hmem)
    simp [startTotal, startToken, feed.expected_ne] at hfirst
  · exact absurd (htakes.mem h.toTraffic) (by simp [hempty])
  · exact absurd (htakes.mem h.toTraffic) (by simp [hempty])

theorem unanswered_react (h : Answering feed n client r) (htakes : r.Takes l i taken sends)
    (hreaction : Reaction ⟨i, n⟩ client queryId (r.node i) taken sends outs v)
    (hnone : startedWith client feed.eofNode (r.react i taken outs v).net.outputs = none) :
    (r.react i taken outs v).net.answered = [] ∧ ¬(r.react i taken outs v).Flushing := by
  have hsent : ¬∃ node token, .ring node token ∈ outs := fun ⟨_, _, hmem⟩ ↦
    h.started_of_sent htakes hreaction hmem hnone
  rw [Traffic.outputs_react, startedWith_append, Option.or_eq_none_iff] at hnone
  obtain ⟨hanswered, hflushing⟩ := h.unanswered hnone.1
  constructor
  · refine List.eq_nil_iff_forall_not_mem.mpr fun p hp ↦ ?_
    rcases Ring.answered_react.mp hp with hp | ⟨-, hring⟩
    · exact absurd hp (by simp [hanswered])
    · exact hsent hring
  · rw [Ring.flushing_react, not_or]
    refine ⟨hflushing, fun hcoordinated ↦ hsent ?_⟩
    obtain ⟨node, token, hmem, -⟩ := Ring.exists_ring_of_coordinated hcoordinated
    exact ⟨node, token, hmem⟩

theorem queued_react (h : Answering feed n client r) :
    (r.react i taken outs v).net.Forall fun envelope ↦
      envelope.token.ring.coordinatorId ≠ none → (r.react i taken outs v).Flushing := by
  have hold : r.net.Forall fun envelope ↦
      envelope.token.ring.coordinatorId ≠ none → (r.react i taken outs v).Flushing :=
    fun i' envelope hmem hsome ↦ Ring.flushing_react.mpr (Or.inl (h.queued i' envelope hmem hsome))
  exact hold.handled fun node token hmem hsome ↦
    Ring.flushing_react.mpr (Or.inr ⟨_, hmem, hsome⟩)

/-! ## The token that is new -/

/-- A counting token that a node takes and has not seen is pending. -/
theorem pending_taken (h : Answering feed n client r) {origin : Envelope}
    (htakes : r.Takes l i (.token origin) sends) (hcoord : origin.token.ring.coordinatorId = none)
    (hfresh : origin.messageId ∉ (r.node i).seen .control) : r.Pending i [] origin := by
  obtain ⟨rest, hhead⟩ := htakes.head h.toTraffic
  exact pending_head hhead ⟨hcoord, h.quiet i origin (htakes.mem h.toTraffic)⟩ hfresh

/-- A token that will be accepted was in its queue before, or is a first token, or was made of a
token that was not answered before. -/
theorem pending_react (h : Answering feed n client r) (htakes : r.Takes l i taken sends)
    (hreaction : Reaction ⟨i, n⟩ client queryId (r.node i) taken sends outs v)
    (hpending : (r.react i taken outs v).Pending j before envelope) :
    r.Pending j before envelope ∨
      ¬r.Arrived j envelope.messageId ∧ ∃ token, .ring j token ∈ outs ∧
        envelope = taken.origin.pass i token ∧
        (startedWith client feed.eofNode r.net.outputs = none ∧
            (∃ mid marker, taken = .eof mid marker) ∨
          ∃ origin, taken = .token origin ∧ r.Pending i [] origin ∧ ¬r.Answered i origin) := by
  rcases Ring.pending_of_react hreaction (h.marks i) hpending with hold |
    ⟨token, hmem, rfl, rfl, hunseen, hfirst⟩
  · exact Or.inl hold
  · have hnew : ¬r.Arrived j (taken.origin.pass i token).messageId := not_or.mpr ⟨hfirst, hunseen⟩
    refine Or.inr ⟨hnew, token, hmem, rfl, ?_⟩
    have hreaction' := hreaction
    cases hreaction with
    | nothing outs hleaves => exact (hleaves _ hmem).elim
    | data msgs _ => exact (leaves_map_data msgs _ hmem).elim
    | @start mid marker _ _ hfresh hv =>
      obtain ⟨rfl, rfl⟩ := Output.ring.inj (List.mem_singleton.mp hmem)
      obtain ⟨rfl, rfl, rfl⟩ := (h.allows_of_takes htakes).resolve_right (by simp)
      refine Or.inl ⟨?_, _, _, rfl⟩
      by_contra hstarted
      obtain ⟨m, hm⟩ := Option.ne_none_iff_exists'.mp hstarted
      have hid : (Envelope.blank.pass feed.eofNode
          (startToken client (r.node feed.eofNode) ⟨feed.expected⟩)).messageId
            = ringId client ringPhaseCount 0 := by
        simp [Envelope.pass, Envelope.messageId, startToken, feed.expected_ne]
      rw [Taken.origin, hid] at hnew
      exact hnew (h.started m hm)
    | @count origin _ _ hfresh hcoord hv =>
      obtain ⟨rfl, rfl⟩ := Output.ring.inj (List.mem_singleton.mp hmem)
      have horigin := h.pending_taken htakes hcoord hfresh
      -- otherwise the token was in the queue of its receiver already
      exact Or.inr ⟨origin, rfl, horigin, fun hanswered ↦ hnew (h.repeated horigin hanswered).2.1⟩
    | flush msgs hfresh hcoord hv =>
      obtain ⟨-, ⟨_, _, heq, -⟩ | ⟨_, heq, hnone, -⟩ | ⟨_, sent, heq, hsome, -, rfl⟩⟩ :=
        ring_mem_of_reaction hreaction' hmem
      · exact absurd heq (by simp)
      · obtain rfl := Taken.token.inj heq
        exact absurd (hcoord.symm.trans hnone) (by simp)
      · obtain rfl := Taken.token.inj heq
        exact absurd hpending.1.1 hsome

/-- A new token is not answered. -/
theorem not_answered_of_new (h : Answering feed n client r) (htakes : r.Takes l i taken sends)
    (hnew : ¬r.Arrived j envelope.messageId) :
    ¬(r.react i taken outs v).Answered j envelope := by
  intro hanswered
  rcases Ring.answered_react.mp hanswered with hold | ⟨heq, -⟩
  · exact hnew (h.received hold)
  · obtain ⟨rfl, hkey⟩ := Prod.mk.inj heq
    cases taken with
    | data mid' => exact absurd hkey (by simp [Taken.key])
    | eof mid' marker => exact absurd hkey (by simp [Taken.key])
    | token origin =>
      have hid : envelope.messageId = origin.messageId := (Prod.mk.inj hkey).2
      exact hnew (hid ▸ Or.inl (List.mem_map_of_mem (htakes.mem h.toTraffic)))

/-- A token that is answered now was answered before, or is the one that is taken. -/
theorem answered_or_taken (h : Answering feed n client r) (htakes : r.Takes l i taken sends)
    (hpending : r.Pending j before envelope)
    (hanswered : (r.react i taken outs v).Answered j envelope) :
    r.Answered j envelope ∨
      j = i ∧ before = [] ∧ taken = .token envelope ∧ ∃ node token, .ring node token ∈ outs := by
  rcases Ring.answered_react.mp hanswered with hold | ⟨heq, hring⟩
  · exact Or.inl hold
  · obtain ⟨rfl, hkey⟩ := Prod.mk.inj heq
    cases taken with
    | data mid' => exact absurd hkey (by simp [Taken.key])
    | eof mid' marker => exact absurd hkey (by simp [Taken.key])
    | token origin =>
      obtain ⟨rest, hhead⟩ := htakes.head h.toTraffic
      obtain ⟨rfl, rfl⟩ := hpending.eq_head hhead (Prod.mk.inj hkey).2
      exact Or.inr ⟨rfl, rfl, rfl, hring⟩

/-- Of the tokens that a reaction sends, those of one receiver are the same. -/
theorem sent_unique (hreaction : Reaction ⟨i, n⟩ client queryId (r.node i) taken sends outs v)
    {node node' : NodeId} {token token' : Token} (hmem : .ring node token ∈ outs)
    (hmem' : .ring node' token' ∈ outs) : node = node' ∧ token = token' := by
  cases hreaction with
  | nothing outs hleaves => exact (hleaves _ hmem).elim
  | data msgs _ => exact (leaves_map_data msgs _ hmem).elim
  | start _ _ =>
    exact Output.ring.inj ((List.mem_singleton.mp hmem).trans (List.mem_singleton.mp hmem').symm)
  | count _ _ _ =>
    exact Output.ring.inj ((List.mem_singleton.mp hmem).trans (List.mem_singleton.mp hmem').symm)
  | flush msgs _ _ _ =>
    have hlast : ∀ {node : NodeId} {token : Token} {o : Output α},
        .ring node token ∈ msgs.map .data ++ [o] → .ring node token = o := by
      intro node token o hmem
      rcases List.mem_append.mp hmem with hmem | hmem
      · exact (leaves_map_data msgs _ hmem).elim
      · exact List.mem_singleton.mp hmem
    exact Output.ring.inj ((hlast hmem).trans (hlast hmem').symm)

/-! ## One step -/

/-- When a token is new, every other one that will be accepted is answered. -/
theorem answered_of_new (h : Answering feed n client r)
    (hnew : startedWith client feed.eofNode r.net.outputs = none ∧
        (∃ mid marker, taken = .eof mid marker) ∨
      ∃ origin, taken = .token origin ∧ r.Pending i [] origin ∧ ¬r.Answered i origin)
    (hring : ∃ node token, .ring node token ∈ outs) (hpending : r.Pending j before envelope) :
    (r.react i taken outs v).Answered j envelope := by
  rcases hnew with ⟨hnone, -⟩ | ⟨origin, rfl, horigin, hloose⟩
  · obtain ⟨-, hempty⟩ := h.unstarted hnone
    exact absurd hpending.mem (by simp [hempty])
  · by_contra hnot
    have hbefore : ¬r.Answered j envelope := fun hanswered ↦
      hnot (Ring.answered_react.mpr (Or.inl hanswered))
    obtain ⟨rfl, hid⟩ := h.loose hpending horigin hbefore hloose
    exact hnot (Ring.answered_react.mpr (Or.inr ⟨by rw [hid, Taken.key], hring⟩))

theorem loose_react (h : Answering feed n client r) (htakes : r.Takes l i taken sends)
    (hreaction : Reaction ⟨i, n⟩ client queryId (r.node i) taken sends outs v)
    {j j' : NodeId} {before before' : List Envelope} {envelope envelope' : Envelope}
    (hpending : (r.react i taken outs v).Pending j before envelope)
    (hpending' : (r.react i taken outs v).Pending j' before' envelope')
    (hloose : ¬(r.react i taken outs v).Answered j envelope)
    (hloose' : ¬(r.react i taken outs v).Answered j' envelope') :
    j = j' ∧ envelope.messageId = envelope'.messageId := by
  have hbefore : ∀ {j envelope}, ¬(r.react i taken outs v).Answered j envelope →
      ¬r.Answered j envelope := fun hnot hanswered ↦
    hnot (Ring.answered_react.mpr (Or.inl hanswered))
  rcases h.pending_react htakes hreaction hpending with hold | ⟨-, token, hmem, rfl, hnew⟩
  · rcases h.pending_react htakes hreaction hpending' with hold' | ⟨-, token', hmem', -, hnew'⟩
    · exact h.loose hold hold' (hbefore hloose) (hbefore hloose')
    · exact absurd (h.answered_of_new hnew' ⟨_, _, hmem'⟩ hold) hloose
  · rcases h.pending_react htakes hreaction hpending' with hold' | ⟨-, token', hmem', rfl, -⟩
    · exact absurd (h.answered_of_new hnew ⟨_, _, hmem⟩ hold') hloose'
    · obtain ⟨rfl, rfl⟩ := sent_unique hreaction hmem hmem'
      exact ⟨rfl, rfl⟩

theorem flushing_react (h : Answering feed n client r) (htakes : r.Takes l i taken sends)
    (hreaction : Reaction ⟨i, n⟩ client queryId (r.node i) taken sends outs v)
    (hflushing : (r.react i taken outs v).Flushing)
    (hpending : (r.react i taken outs v).Pending j before envelope) :
    (r.react i taken outs v).Answered j envelope := by
  rcases h.pending_react htakes hreaction hpending with hold | ⟨-, token, hmem, rfl, hnew⟩
  · rcases Ring.flushing_react.mp hflushing with hbefore | hcoordinated
    · exact Ring.answered_react.mpr (Or.inl (h.flushing hbefore hold))
    · obtain ⟨node, token, hmem, hsome⟩ := Ring.exists_ring_of_coordinated hcoordinated
      obtain ⟨-, ⟨mid, marker, rfl, rfl⟩ | ⟨origin, rfl, hnone, rfl⟩ |
          ⟨origin, _, rfl, hcoord, -⟩⟩ :=
        ring_mem_of_reaction hreaction hmem
      · exact absurd rfl hsome
      · have hfresh : origin.messageId ∉ (r.node i).seen .control := by
          cases hreaction with
          | nothing outs hleaves => exact (hleaves _ hmem).elim
          | count hfresh _ _ => exact hfresh
          | flush _ hfresh _ _ => exact hfresh
        have horigin := h.pending_taken htakes hnone hfresh
        by_cases hanswered : r.Answered i origin
        · have hbefore := (h.repeated horigin hanswered).2.2 hsome
          exact Ring.answered_react.mpr (Or.inl (h.flushing hbefore hold))
        · exact h.answered_of_new (Or.inr ⟨origin, rfl, horigin, hanswered⟩) ⟨_, _, hmem⟩ hold
      · have hbefore := h.queued i origin (htakes.mem h.toTraffic) hcoord
        exact Ring.answered_react.mpr (Or.inl (h.flushing hbefore hold))
  · -- a new token is a counting one, and the only one that was sent
    exfalso
    rcases Ring.flushing_react.mp hflushing with hbefore | hcoordinated
    · rcases hnew with ⟨hnone, -⟩ | ⟨origin, -, horigin, hloose⟩
      · exact (h.unanswered hnone).2 hbefore
      · exact hloose (h.flushing hbefore horigin)
    · obtain ⟨node, token', hmem', hsome⟩ := Ring.exists_ring_of_coordinated hcoordinated
      obtain ⟨-, rfl⟩ := sent_unique hreaction hmem hmem'
      exact hsome hpending.1.1

/-- The id of a token that is passed on, and its coordinator, depend on what its sender owes. -/
theorem countToken_congr (cfg : NodeConfig) (client : ClientId) (token : Token)
    {v v' : Observed Unit}
    (h : v'.processed - v'.partialProcessed = v.processed - v.partialProcessed) :
    (countToken cfg client v' token).messageId = (countToken cfg client v token).messageId ∧
      (countToken cfg client v' token).ring.coordinatorId
        = (countToken cfg client v token).ring.coordinatorId := by
  have htotal : token.ring.totalProcessedCount + v'.processed - v'.partialProcessed
      = token.ring.totalProcessedCount + v.processed - v.partialProcessed := by omega
  simp only [countToken, htotal, and_self]

/-- What a node owes does not change while one of its tokens is open. -/
theorem owes_react (h : Answering feed n client r)
    (hcond : (v ≠ r.node i ∨ ∃ node token, .ring node token ∈ outs) → r.FinishesFirst l)
    (htakes : r.Takes l i taken sends)
    (hreaction : Reaction ⟨i, n⟩ client queryId (r.node i) taken sends outs v)
    (hpending : r.Pending i before envelope) (hanswered : r.Answered i envelope)
    (hunseen : envelope.messageId ∉ v.seen .control) :
    v.processed - v.partialProcessed = (r.node i).processed - (r.node i).partialProcessed := by
  have hopen := Ring.open_token hpending hanswered
  cases hreaction with
  | nothing outs _ => rfl
  | @data mid _ msgs hfresh =>
    cases htakes with
    | main hmem => exact absurd hopen (hcond (Or.inl (Observed.count_ne _ _ _)) hfresh _)
  | @start mid marker _ _ hfresh hv =>
    have hreport : (r.node i).report.processed - (r.node i).report.partialProcessed
        = (r.node i).processed - (r.node i).partialProcessed := by
      by_cases howes : (r.node i).Owes
      · cases htakes with
        | main hmem =>
          have hkey := hcond (Or.inr ⟨_, _, List.mem_singleton_self _⟩) hfresh howes _ hopen
          exact absurd hkey (by simp)
      · obtain ⟨hle, -⟩ := not_or.mp howes
        have hmarks := (h.marks i).partialProcessed_le
        simp only [Observed.report]
        omega
    rcases hv with rfl | rfl | rfl
    · rfl
    · exact hreport
    · exact hreport
  | @count origin _ _ hfresh hcoord hv =>
    rcases hv with rfl | rfl
    · rfl
    · obtain ⟨rest, hhead⟩ := htakes.head h.toTraffic
      obtain ⟨rfl, -⟩ := h.repeated hpending hanswered
      have hpre := hpending.2.isPrefix
      rw [hhead] at hpre
      obtain ⟨rfl, -⟩ := List.cons_prefix_cons.mp hpre
      exact absurd (by rw [see_self]; exact Finset.mem_insert_self _ _) hunseen
  | flush msgs hfresh hcoord hv =>
    rcases hv with rfl | rfl
    · rfl
    · rfl

theorem repeated_react (h : Answering feed n client r)
    (hcond : (v ≠ r.node i ∨ ∃ node token, .ring node token ∈ outs) → r.FinishesFirst l)
    (htakes : r.Takes l i taken sends)
    (hreaction : Reaction ⟨i, n⟩ client queryId (r.node i) taken sends outs v)
    (hpending : (r.react i taken outs v).Pending j before envelope)
    (hanswered : (r.react i taken outs v).Answered j envelope) :
    before = [] ∧
      (r.react i taken outs v).Arrived ((j + 1) % n)
        (countToken ⟨j, n⟩ client ((r.react i taken outs v).node j) envelope.token).messageId ∧
      ((countToken ⟨j, n⟩ client ((r.react i taken outs v).node j)
        envelope.token).ring.coordinatorId ≠ none → (r.react i taken outs v).Flushing) := by
  have hold := (h.pending_react htakes hreaction hpending).resolve_right
    fun hnew ↦ h.not_answered_of_new htakes hnew.1 hanswered
  rcases h.answered_or_taken htakes hold hanswered with hbefore | ⟨rfl, rfl, rfl, hring⟩
  · obtain ⟨hfirst, harrived, hflushing⟩ := h.repeated hold hbefore
    have howes : ((r.react i taken outs v).node j).processed
        - ((r.react i taken outs v).node j).partialProcessed
        = (r.node j).processed - (r.node j).partialProcessed := by
      by_cases hj : j = i
      · subst hj
        have hunseen := hpending.2.unseen
        rw [Ring.node_react_self] at hunseen ⊢
        exact h.owes_react hcond htakes hreaction hold hbefore hunseen
      · rw [Ring.node_react_of_ne hj]
    obtain ⟨hid, hcoord⟩ :=
      countToken_congr ⟨j, n⟩ client envelope.token howes
    rw [hid, hcoord]
    exact ⟨hfirst, harrived.react hreaction (h.marks i),
      fun hsome ↦ Ring.flushing_react.mpr (Or.inl (hflushing hsome))⟩
  · -- the token is answered now, and not recorded
    have hunseen := hpending.2.unseen
    rw [Ring.node_react_self] at hunseen ⊢
    refine ⟨rfl, ?_⟩
    cases hreaction with
    | nothing outs hleaves =>
      obtain ⟨_, _, hmem⟩ := hring
      exact (hleaves _ hmem).elim
    | count hfresh hcoord hv =>
      rcases hv with rfl | rfl
      · constructor
        · left
          have hcontrol : (r.net.handled j (r.node j) (.token envelope)
              ([] ++ [.ring ((j + 1) % n) (countToken ⟨j, n⟩ client (r.node j) envelope.token)]
                : List (Output α))).control = _ := Network.control_handled_ring leaves_nil _ _
          rw [List.nil_append] at hcontrol
          simp only [Ring.react, NodeConfig.getNextNodeId]
          rw [hcontrol, Function.update_self, List.map_append]
          exact List.mem_append_right _ (List.mem_singleton_self _)
        · exact fun hsome ↦
            Ring.flushing_react.mpr (Or.inr ⟨_, List.mem_singleton_self _, hsome⟩)
      · exact absurd (by rw [see_self]; exact Finset.mem_insert_self _ _) hunseen
    | flush msgs hfresh hcoord hv => exact absurd (hcoord.symm.trans hpending.1.1) (by simp)

theorem react (h : Answering feed n client r)
    (hcond : (v ≠ r.node i ∨ ∃ node token, .ring node token ∈ outs) → r.FinishesFirst l)
    (hi : i < n) (htakes : r.Takes l i taken sends)
    (hreaction : Reaction ⟨i, n⟩ client queryId (r.node i) taken sends outs v) :
    Answering feed n client (r.react i taken outs v) where
  toTraffic := h.toTraffic.react hi htakes hreaction
  received hmem := h.received_react htakes hreaction hmem
  start hstarted := h.start_react htakes hreaction hstarted
  unanswered hnone := h.unanswered_react htakes hreaction hnone
  queued := h.queued_react
  repeated hpending hanswered := h.repeated_react hcond htakes hreaction hpending hanswered
  loose hpending hpending' hloose hloose' :=
    h.loose_react htakes hreaction hpending hpending' hloose hloose'
  flushing hflushing {_ _ _} hpending := h.flushing_react htakes hreaction hflushing hpending

theorem ack (h : Answering feed n client r) {messages : List Taken} (hsub : messages ⊆ r.inbox i) :
    Answering feed n client { r with inbox := Function.update r.inbox i messages } :=
  { h with toTraffic := h.toTraffic.ack hsub }

theorem pop (h : Answering feed n client r) {head : Envelope} {rest : List Envelope}
    (hhead : r.net.control i = head :: rest)
    (hseen : head.messageId ∈ (r.node i).seen .control) :
    Answering feed n client { r with net := r.net.pop i } where
  toTraffic := h.toTraffic.pop hhead hseen
  received hmem := (h.received hmem).pop hhead hseen
  start := h.start
  unanswered := h.unanswered
  queued := h.queued.pop i
  repeated := by
    intro j before envelope hpending hanswered
    obtain ⟨hfirst, harrived, hflushing⟩ :=
      h.repeated (Ring.pending_of_pop hhead hseen hpending) hanswered
    refine ⟨?_, harrived.pop hhead hseen, hflushing⟩
    split at hfirst
    · exact absurd hfirst (List.cons_ne_nil _ _)
    · exact hfirst
  loose hpending hpending' :=
    h.loose (Ring.pending_of_pop hhead hseen hpending) (Ring.pending_of_pop hhead hseen hpending')
  flushing hflushing {_ _ _} hpending :=
    h.flushing hflushing (Ring.pending_of_pop hhead hseen hpending)

end Answering

end MoneyLaundering
