import MoneyLaundering.Collections.EventRuns
import Mathlib.Logic.Function.Basic
import Mathlib.Data.List.Basic

/-!
# The sessions with a peer

A watchdog has one `PeerHandler` (`watchdog/internal/peer_handler.py`) for each other watchdog. A
session is a connection with two threads: the sender takes what is to be sent from a queue, and the
receiver, when the connection is lost, puts a stop sentinel in that queue and returns. The queue
belongs to the handler, not to the session, and the sentinels do not say for whom they are.

So a sender can take the sentinel of another session: of one that still runs, or of one whose own
sender stopped at a failed write and left its sentinel behind (`stale_sentinel`). If a session
starts only when the sentinels of all earlier ones have been taken, this does not happen:
`senders_survive`.
-/

namespace MoneyLaundering

open EventRuns

/-- What is in the send queue. A sentinel is the same value for all sessions; whose it is, is on
record here only. -/
inductive SendItem (D : Type)
  | data (data : D)
  | stop (session : ℕ)
  deriving DecidableEq, Repr

/-- Where a sender is in `_sender_loop`. -/
inductive Sender (D : Type)
  | waiting
  | sending (data : D)
  /-- It has returned, because of a sentinel or of a failed write. -/
  | stopped (sentinel : Option ℕ)
  deriving DecidableEq, Repr

/-- Where a receiver is in `_receiver_loop`. -/
inductive Receiver
  | running
  /-- The connection is lost, the sentinel is not in the queue yet. -/
  | lost
  | ended
  deriving DecidableEq, Repr

structure PeerSession (D : Type) where
  sender : Sender D
  receiver : Receiver
  /-- Whether the socket can be used. -/
  usable : Bool
  deriving DecidableEq, Repr

/-- What the event loop of the watchdog is told. -/
inductive PeerEvent (M : Type)
  | message (message : M)
  | disconnect
  deriving DecidableEq, Repr

/-- A handler and its sessions, in the order in which they started. -/
structure PeerHandler (D M : Type) where
  sendQueue : List (SendItem D)
  events : List (PeerEvent M)
  count : ℕ
  sessions : ℕ → PeerSession D

namespace PeerHandler

/-- The steps of the threads. -/
inductive Step (D M : Type)
  /-- `send`. -/
  | send (data : D)
  /-- `_run_session` starts, after `connect` or `accept`. -/
  | start
  /-- A sender takes what is first in the queue. -/
  | dequeue (i : ℕ)
  | written (i : ℕ)
  | writeFails (i : ℕ)
  | received (i : ℕ) (message : M)
  | readFails (i : ℕ)
  | enqueueStop (i : ℕ)
  /-- The socket is closed, or the connection breaks. -/
  | breaks (i : ℕ)
  deriving DecidableEq, Repr

variable {D M : Type}

def init (D M : Type) : PeerHandler D M where
  sendQueue := []
  events := []
  count := 0
  sessions := fun _ ↦ ⟨.stopped none, .ended, false⟩

/-- Session `i` is changed. -/
def update (s : PeerHandler D M) (i : ℕ) (session : PeerSession D) : PeerHandler D M :=
  { s with sessions := Function.update s.sessions i session }

def step (s : PeerHandler D M) : Step D M → PeerHandler D M
  | .send data => { s with sendQueue := s.sendQueue ++ [.data data] }
  | .start => { s.update s.count ⟨.waiting, .running, true⟩ with count := s.count + 1 }
  | .dequeue i =>
    match s.sendQueue with
    | [] => s
    | .data data :: queue =>
      { s.update i { s.sessions i with sender := .sending data } with sendQueue := queue }
    | .stop j :: queue =>
      { s.update i { s.sessions i with sender := .stopped (some j) } with sendQueue := queue }
  | .written i => s.update i { s.sessions i with sender := .waiting }
  | .writeFails i => s.update i { s.sessions i with sender := .stopped none, usable := false }
  | .received _ message => { s with events := s.events ++ [.message message] }
  | .readFails i =>
    { s.update i { s.sessions i with receiver := .lost } with events := s.events ++ [.disconnect] }
  | .enqueueStop i =>
    { s.update i { s.sessions i with receiver := .ended } with
      sendQueue := s.sendQueue ++ [.stop i] }
  | .breaks i => s.update i { s.sessions i with usable := false }

/-- Where the threads have to be. -/
def Enabled (s : PeerHandler D M) : Step D M → Prop
  | .send _ | .start => True
  | .dequeue i => i < s.count ∧ (s.sessions i).sender = .waiting ∧ s.sendQueue ≠ []
  | .written i | .writeFails i => i < s.count ∧ ∃ data, (s.sessions i).sender = .sending data
  | .received i _ | .readFails i => i < s.count ∧ (s.sessions i).receiver = .running
  | .enqueueStop i => i < s.count ∧ (s.sessions i).receiver = .lost
  | .breaks i => i < s.count

/-- A session starts when each earlier one has put its sentinel in the queue and no sentinel is
there any more. -/
def Separate (s : PeerHandler D M) : Step D M → Prop
  | .start => (∀ i < s.count, (s.sessions i).receiver = .ended) ∧ ∀ j, .stop j ∉ s.sendQueue
  | .send _ | .dequeue _ | .written _ | .writeFails _ | .received _ _ | .readFails _
  | .enqueueStop _ | .breaks _ => True

/-- No sender stopped because of the sentinel of another session. While a session receives on a
socket that can be used, its sender is there, and is the only one that takes from the queue. -/
structure Survives (s : PeerHandler D M) : Prop where
  own : ∀ i < s.count, ∀ j, (s.sessions i).sender = .stopped (some j) → j = i
  sends : ∀ i < s.count, (s.sessions i).receiver = .running → (s.sessions i).usable = true →
    ∀ sentinel, (s.sessions i).sender ≠ .stopped sentinel
  alone : ∀ i < s.count, (s.sessions i).receiver = .running → (s.sessions i).usable = true →
    ∀ j < s.count, j ≠ i → ∃ sentinel, (s.sessions j).sender = .stopped sentinel

variable {s : PeerHandler D M}

@[simp] theorem sessions_update_self (i : ℕ) (session : PeerSession D) :
    (s.update i session).sessions i = session :=
  Function.update_self _ _ _

theorem sessions_update_of_ne {i j : ℕ} (h : j ≠ i) (session : PeerSession D) :
    (s.update i session).sessions j = s.sessions j :=
  Function.update_of_ne h _ _

/-- What holds of a session when sessions are separate. -/
structure SessionHolds (queue : List (SendItem D)) (count i : ℕ) (session : PeerSession D) :
    Prop where
  earlier : i + 1 ≠ count → session.receiver = .ended ∧ ∃ sentinel, session.sender
    = .stopped sentinel
  own : ∀ j, session.sender = .stopped (some j) → j = i ∧ session.receiver = .ended
  unusable : session.sender = .stopped none → session.usable = false
  taken : i + 1 = count → session.receiver = .ended →
    .stop i ∈ queue ∨ ∃ sentinel, session.sender = .stopped sentinel

/-- The invariant when sessions are separate: all but the last one are over, and a sentinel in the
queue is the one of the last. -/
structure Holds (s : PeerHandler D M) : Prop where
  session : ∀ i < s.count, SessionHolds s.sendQueue s.count i (s.sessions i)
  sentinel : ∀ j, .stop j ∈ s.sendQueue → j + 1 = s.count ∧ (s.sessions j).receiver = .ended

theorem holds_init : Holds (init D M) where
  session _ h := absurd h (Nat.not_lt_zero _)
  sentinel _ h := absurd h List.not_mem_nil

theorem Holds.survives (h : Holds s) : Survives s where
  own i hi j hj := ((h.session i hi).own j hj).1
  sends i hi hrunning husable sentinel hstopped := by
    match sentinel with
    | none => exact absurd (((h.session i hi).unusable hstopped).symm.trans husable) (by simp)
    | some j => exact absurd (hrunning.symm.trans ((h.session i hi).own j hstopped).2) (by simp)
  alone i hi hrunning _ j hj hne := by
    by_cases hlast : i + 1 = s.count
    · exact ((h.session j hj).earlier (by omega)).2
    · exact absurd (hrunning.symm.trans ((h.session i hi).earlier hlast).1) (by simp)

/-- A session whose threads have not both returned is the last one. -/
theorem Holds.last_of_sender (h : Holds s) {i : ℕ} (hi : i < s.count)
    (hsender : ∀ sentinel, (s.sessions i).sender ≠ .stopped sentinel) : i + 1 = s.count := by
  by_contra hlast
  obtain ⟨-, sentinel, hstopped⟩ := (h.session i hi).earlier hlast
  exact hsender sentinel hstopped

theorem Holds.last_of_receiver (h : Holds s) {i : ℕ} (hi : i < s.count)
    (hreceiver : (s.sessions i).receiver ≠ .ended) : i + 1 = s.count := by
  by_contra hlast
  exact hreceiver ((h.session i hi).earlier hlast).1

/-- A change of the last session, and of the queue. -/
theorem Holds.update_last (h : Holds s) {i : ℕ} (hlast : i + 1 = s.count)
    (queue : List (SendItem D)) (session : PeerSession D) (events : List (PeerEvent M))
    (hsession : SessionHolds queue s.count i session)
    (hqueue : ∀ j, .stop j ∈ queue → .stop j ∈ s.sendQueue ∨ j = i)
    (hended : ∀ j, .stop j ∈ queue → session.receiver = .ended) :
    Holds { s.update i session with sendQueue := queue, events } where
  session j hj := by
    by_cases hji : j = i
    · subst hji
      have hself := sessions_update_self (s := s) j session
      exact hself.symm ▸ hsession
    · have hold := h.session j hj
      have hnot : j + 1 ≠ s.count := by omega
      refine sessions_update_of_ne (s := s) hji session ▸
        ⟨hold.earlier, hold.own, hold.unusable, fun hlast' ↦ absurd hlast' hnot⟩
  sentinel j hj := by
    have hji : j = i := by
      rcases hqueue j hj with hold | rfl
      · have := (h.sentinel j hold).1
        omega
      · rfl
    subst hji
    exact ⟨hlast, (congrArg PeerSession.receiver (sessions_update_self j session)).trans
      (hended j hj)⟩

/-- **One step.** -/
theorem Holds.step (h : Holds s) {st : Step D M} (henabled : s.Enabled st)
    (hseparate : s.Separate st) : Holds (s.step st) := by
  match st with
  | .send data =>
    refine ⟨fun i hi ↦ ?_, fun j hj ↦ ?_⟩
    · have hold := h.session i hi
      refine ⟨hold.earlier, hold.own, hold.unusable, fun hlast hended ↦ ?_⟩
      exact (hold.taken hlast hended).imp_left (List.mem_append_left _)
    · exact h.sentinel j (by simpa [PeerHandler.step] using hj)
  | .start =>
    obtain ⟨hended, hqueue⟩ := hseparate
    refine ⟨fun i hi ↦ ?_, fun j hj ↦ absurd hj (hqueue j)⟩
    by_cases hnew : i = s.count
    · subst hnew
      refine sessions_update_self (s := s) s.count ⟨.waiting, .running, true⟩ ▸ ?_
      exact ⟨fun hne ↦ absurd rfl hne, by simp, by simp, by simp⟩
    · have hi' : i < s.count := by
        have : i < s.count + 1 := hi
        omega
      have hold := h.session i hi'
      refine sessions_update_of_ne (s := s) hnew ⟨.waiting, .running, true⟩ ▸
        ⟨fun _ ↦ ⟨hended i hi', ?_⟩, hold.own, hold.unusable, fun hlast ↦ ?_⟩
      · -- the sentinel of an earlier session was taken by its own sender
        by_cases hlast : i + 1 = s.count
        · exact (hold.taken hlast (hended i hi')).resolve_left (hqueue i)
        · exact (hold.earlier hlast).2
      · have : i + 1 = s.count + 1 := hlast
        omega
  | .dequeue i =>
    obtain ⟨hi, hwaiting, hne⟩ := henabled
    have hlast := h.last_of_sender hi (by simp [hwaiting])
    have hold := h.session i hi
    rw [PeerHandler.step]
    match hqueue : s.sendQueue with
    | [] => exact absurd hqueue hne
    | .data data :: queue =>
      refine h.update_last hlast queue { s.sessions i with sender := .sending data } s.events
        ⟨fun hnot ↦ absurd hlast hnot, by simp, by simp, fun _ hended ↦ ?_⟩
        (fun j hj ↦ Or.inl (hqueue ▸ List.mem_cons_of_mem _ hj)) (fun j hj ↦ ?_)
      · have htaken := hold.taken hlast hended
        rw [hqueue, hwaiting] at htaken
        exact Or.inl (by simpa using htaken)
      · obtain ⟨hj', hended⟩ := h.sentinel j (hqueue ▸ List.mem_cons_of_mem _ hj)
        obtain rfl : j = i := by omega
        exact hended
    | .stop j :: queue =>
      -- a sentinel in the queue is that of the last session, which is the one that takes it
      obtain ⟨hj, hended⟩ := h.sentinel j (hqueue ▸ List.mem_cons_self)
      obtain rfl : j = i := by omega
      refine h.update_last hlast queue { s.sessions j with sender := .stopped (some j) } s.events
        ⟨fun hnot ↦ absurd hlast hnot, fun k hk ↦ ?_, by simp, fun _ _ ↦ ?_⟩
        (fun k hk ↦ Or.inl (hqueue ▸ List.mem_cons_of_mem _ hk)) (fun _ _ ↦ hended)
      · injection hk with hk
        injection hk with hk
        exact ⟨hk.symm, hended⟩
      · exact Or.inr ⟨_, rfl⟩
  | .written i =>
    obtain ⟨hi, data, hsending⟩ := henabled
    have hlast := h.last_of_sender hi (by simp [hsending])
    have hold := h.session i hi
    refine h.update_last hlast s.sendQueue { s.sessions i with sender := .waiting } s.events
      ⟨fun hnot ↦ absurd hlast hnot, by simp, by simp, fun _ hended ↦ ?_⟩
      (fun _ hj ↦ Or.inl hj) (fun j hj ↦ ?_)
    · have htaken := hold.taken hlast hended
      rw [hsending] at htaken
      exact Or.inl (by simpa using htaken)
    · obtain ⟨hj', hended⟩ := h.sentinel j hj
      obtain rfl : j = i := by omega
      exact hended
  | .writeFails i =>
    obtain ⟨hi, data, hsending⟩ := henabled
    have hlast := h.last_of_sender hi (by simp [hsending])
    refine h.update_last hlast s.sendQueue
      { s.sessions i with sender := .stopped none, usable := false } s.events
      ⟨fun hnot ↦ absurd hlast hnot, by simp, fun _ ↦ rfl, fun _ _ ↦ ?_⟩
      (fun _ hj ↦ Or.inl hj) (fun j hj ↦ ?_)
    · exact Or.inr ⟨_, rfl⟩
    · obtain ⟨hj', hended⟩ := h.sentinel j hj
      obtain rfl : j = i := by omega
      exact hended
  | .received i message => exact ⟨h.session, h.sentinel⟩
  | .readFails i =>
    obtain ⟨hi, hrunning⟩ := henabled
    have hlast := h.last_of_receiver hi (by simp [hrunning])
    have hold := h.session i hi
    refine h.update_last hlast s.sendQueue { s.sessions i with receiver := .lost } _
      ⟨fun hnot ↦ absurd hlast hnot, fun j hj ↦ ?_, hold.unusable, by simp⟩
      (fun _ hj ↦ Or.inl hj) (fun j hj ↦ ?_)
    · -- a sender stops at its own sentinel only after its receiver has ended
      exact absurd (hrunning.symm.trans (hold.own j hj).2) (by simp)
    · obtain ⟨hj', hended⟩ := h.sentinel j hj
      obtain rfl : j = i := by omega
      exact absurd (hrunning.symm.trans hended) (by simp)
  | .enqueueStop i =>
    obtain ⟨hi, hlost⟩ := henabled
    have hlast := h.last_of_receiver hi (by simp [hlost])
    have hold := h.session i hi
    refine h.update_last hlast (s.sendQueue ++ [.stop i]) { s.sessions i with receiver := .ended }
      s.events ⟨fun hnot ↦ absurd hlast hnot, fun j hj ↦ ?_, hold.unusable,
      fun _ _ ↦ Or.inl (by simp)⟩ (fun j hj ↦ ?_) (fun _ _ ↦ rfl)
    · exact absurd (hlost.symm.trans (hold.own j hj).2) (by simp)
    · simpa using hj
  | .breaks i =>
    refine ⟨fun j hj ↦ ?_, fun j hj ↦ ?_⟩
    · by_cases hji : j = i
      · subst hji
        have hold := h.session j hj
        have hself := sessions_update_self (s := s) j { s.sessions j with usable := false }
        exact hself.symm ▸ ⟨hold.earlier, hold.own, fun _ ↦ rfl, hold.taken⟩
      · exact sessions_update_of_ne (s := s) hji _ ▸ h.session j hj
    · obtain ⟨hlast, hended⟩ := h.sentinel j hj
      refine ⟨hlast, ?_⟩
      by_cases hji : j = i
      · subst hji
        exact (congrArg PeerSession.receiver (sessions_update_self (s := s) j _)).trans hended
      · exact (congrArg PeerSession.receiver (sessions_update_of_ne (s := s) hji _)).trans hended

/-- **A sender survives the sessions before it.** In every run in which a session starts only when
the sentinels of all earlier ones have been taken, no sender stops because of the sentinel of
another session, and the sender of a session that receives on a usable socket is there and the only
one. -/
theorem senders_survive {steps : List (Step D M)}
    (hruns : Runs step (fun s st ↦ s.Enabled st ∧ s.Separate st) (init D M) steps) :
    Throughout step Survives (init D M) steps :=
  throughout_of_invariant (fun _ h ↦ h.survives) (fun _ _ h hcond ↦ h.step hcond.1 hcond.2)
    holds_init hruns

/-- A session that sends something and ends, and the next one. -/
theorem senders_survive_reconnect :
    Throughout step Survives (init String String)
      [.start, .send "election", .dequeue 0, .written 0, .readFails 0, .enqueueStop 0, .dequeue 0,
        .start] := by
  refine senders_survive ⟨⟨trivial, ?_, ?_⟩, ⟨trivial, trivial⟩, ⟨?_, trivial⟩, ⟨?_, trivial⟩,
    ⟨?_, trivial⟩, ⟨?_, trivial⟩, ⟨?_, trivial⟩, ⟨trivial, ?_, ?_⟩, trivial⟩
  · exact fun i hi ↦ absurd hi (Nat.not_lt_zero i)
  · exact fun j ↦ List.not_mem_nil
  · exact ⟨Nat.zero_lt_one, rfl, List.cons_ne_nil _ _⟩
  · exact ⟨Nat.zero_lt_one, "election", rfl⟩
  · exact ⟨Nat.zero_lt_one, rfl⟩
  · exact ⟨Nat.zero_lt_one, rfl⟩
  · exact ⟨Nat.zero_lt_one, rfl, List.cons_ne_nil _ _⟩
  · intro i hi
    obtain rfl : i = 0 := Nat.lt_one_iff.mp hi
    rfl
  · exact fun j ↦ List.not_mem_nil

/-- The write of the first session fails, so its sentinel stays in the queue, and stops the sender
of the second one. -/
theorem stale_sentinel : ∃ steps : List (Step String String),
    Runs step Enabled (init String String) steps ∧
      ¬Throughout step Survives (init String String) steps := by
  refine ⟨[.send "election", .start, .dequeue 0, .writeFails 0, .readFails 0,
    .enqueueStop 0, .start,
    .dequeue 1], ?_, fun h ↦ ?_⟩
  · refine ⟨trivial, trivial, ⟨Nat.zero_lt_one, rfl, List.cons_ne_nil _ _⟩,
      ⟨Nat.zero_lt_one, "election", rfl⟩, ⟨Nat.zero_lt_one, rfl⟩, ⟨Nat.zero_lt_one, rfl⟩, trivial,
      ⟨Nat.one_lt_two, rfl, List.cons_ne_nil _ _⟩, trivial⟩
  · have hown := h.2.2.2.2.2.2.2.2.own 1 Nat.one_lt_two 0 rfl
    exact absurd hown Nat.zero_ne_one

end PeerHandler

end MoneyLaundering
