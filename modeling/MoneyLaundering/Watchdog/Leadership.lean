import MoneyLaundering.Watchdog.Bully

/-!
# Who leads, and who is followed

However the messages of the watchdogs are delivered, and however many of them believe for a while
that they lead, a node other than the highest one leads only as long as its announcement, or the one
of the highest node, is in flight between the two. So when nothing is in flight, only the highest
node leads: `unique_leader`.

The followers need not know it. A node follows any higher one that announces itself, also one that
has been deposed by a node it already follows (`stale_leader`). If no such announcement is delivered
to a node that follows the highest one, all of them do in the end: `leader_followed`.
-/

namespace MoneyLaundering

open Watchdog EventRuns

namespace Watchdogs

/-- The node with the highest id. -/
structure Highest (ids : List ℕ) (h : ℕ) : Prop where
  mem : h ∈ ids
  le : ∀ j ∈ ids, j ≤ h

theorem exists_highest {ids : List ℕ} (hne : ids ≠ []) : ∃ h, Highest ids h := by
  induction ids with
  | nil => exact absurd rfl hne
  | cons i ids ih =>
    by_cases hnil : ids = []
    · subst hnil
      exact ⟨i, List.mem_cons_self, by simp⟩
    · obtain ⟨h, hmem, hle⟩ := ih hnil
      rcases Nat.le_total h i with hi | hi
      · exact ⟨i, List.mem_cons_self, List.forall_mem_cons.mpr
          ⟨Nat.le_refl i, fun j hj ↦ Nat.le_trans (hle j hj) hi⟩⟩
      · exact ⟨h, List.mem_cons_of_mem i hmem, List.forall_mem_cons.mpr ⟨hi, hle⟩⟩

/-- `COORDINATOR` of node `i` to node `j`. -/
def announcement (i j : ℕ) : Packet := ⟨i, j, ⟨.coordinator, i⟩⟩

/-- The invariant of the roles. -/
structure Led (ids : List ℕ) (h : ℕ) (s : Watchdogs) : Prop where
  live : ∀ i, (s.nodes i).closed = false
  signed : ∀ p ∈ s.net, p.src ∈ ids ∧ p.dst ≠ p.src ∧ p.message.nodeId = p.src
  highest : s.started h = true → (s.nodes h).role = .leader
  announced : ∀ i ∈ ids, i ≠ h → (s.nodes i).role = .leader →
    announcement i h ∈ s.net ∨ announcement h i ∈ s.net

variable {ids : List ℕ} {h : ℕ} {s s' : Watchdogs} {i : ℕ} {event : Event}

theorem led_init (ids : List ℕ) (h : ℕ) : Led ids h init where
  live _ := rfl
  signed _ hp := absurd hp List.not_mem_nil
  highest hstarted := absurd hstarted (by simp [init])
  announced _ _ _ hrole := absurd hrole (by simp [init, Watchdog.init])

/-- The sender of a message that may be taken. -/
theorem Led.sender (hled : Led ids h s) (henabled : s.Enabled i event) {peerId : ℕ}
    {message : Watchdog.Message} (hevent : event = .message peerId message) :
    peerId ∈ ids ∧ i ≠ peerId ∧ message.nodeId = peerId := by
  subst hevent
  exact hled.signed _ henabled.2

theorem Led.outcome (hled : Led ids h s) (i : ℕ) (event : Event) :
    Outcome ⟨i, ids⟩ (s.nodes i) event (handle ⟨i, ids⟩ (s.nodes i) event).1
      (handle ⟨i, ids⟩ (s.nodes i) event).2 :=
  outcome_handle (hled.live i) event

/-- A broadcast reaches all others. -/
theorem announcement_mem_turn {j : ℕ} (hj : j ∈ ids) (hne : j ≠ i)
    (hannounces : Announces ⟨i, ids⟩ (handle ⟨i, ids⟩ (s.nodes i) event).2) :
    announcement i j ∈ (s.turn ids i event).net := by
  have hpeer : j ∈ Config.peerHandlers ⟨i, ids⟩ := List.mem_filter.mpr ⟨hj, by simpa using hne⟩
  exact List.mem_append_right _ (mem_packets.mpr ⟨rfl, hannounces j hpeer⟩)

/-- **The highest node leads, and says so when it is asked or told otherwise.** -/
theorem Led.highest_turn (hh : Highest ids h) (hled : Led ids h s) (henabled : s.Enabled h event) :
    (handle ⟨h, ids⟩ (s.nodes h) event).1.role = .leader ∧
      ((∃ peerId message, event = .message peerId message ∧ message.msgType ≠ .answer) →
        Announces ⟨h, ids⟩ (handle ⟨h, ids⟩ (s.nodes h) event).2) := by
  rcases hled.outcome h event with ⟨-, hhigher, -, -⟩ | ⟨hrole, hannounces, -⟩ |
    ⟨peerId, k, hevent, hle, -, -⟩ | ⟨hrole, -, hstart, hanswer⟩
  · refine absurd (List.filter_eq_nil_iff.mpr fun k hk ↦ ?_) hhigher
    simpa using hh.le k hk
  · exact ⟨hrole, fun _ ↦ hannounces⟩
  · obtain ⟨hpeer, hne, hk⟩ := hled.sender henabled hevent
    subst hk
    exact absurd (Nat.le_antisymm hle (hh.le _ hpeer)) hne
  · refine ⟨hrole.trans (hled.highest (henabled.started hstart)), ?_⟩
    rintro ⟨peerId, message, hevent, hne⟩
    exact absurd (hanswer peerId message hevent) hne

/-- A message to another node stays in flight. -/
theorem mem_turn {p : Packet} (hp : p ∈ s.net) (hdst : p.dst ≠ i) :
    p ∈ (s.turn ids i event).net := by
  refine List.mem_append_left _ (mem_taken hp ?_)
  rintro peerId message - rfl
  exact hdst rfl

/-- What node `i` needs of the highest one stays in flight, or is answered by an announcement. -/
theorem Led.asked_turn (hh : Highest ids h) (hled : Led ids h s) (henabled : s.Enabled i event)
    {j : ℕ} (hj : j ∈ ids) (hne : j ≠ h) {message : Watchdog.Message}
    (htype : message.msgType ≠ .answer)
    (hp : ⟨j, h, message⟩ ∈ s.net) :
    ⟨j, h, message⟩ ∈ (s.turn ids i event).net ∨ announcement h j ∈ (s.turn ids i event).net := by
  by_cases htaken : i = h ∧ event = .message j message
  · obtain ⟨rfl, rfl⟩ := htaken
    exact Or.inr (announcement_mem_turn hj hne
      ((hled.highest_turn hh henabled).2 ⟨j, message, rfl, htype⟩))
  · refine Or.inl (List.mem_append_left _ (mem_taken hp ?_))
    rintro peerId message' rfl heq
    obtain ⟨rfl, rfl, rfl⟩ := Packet.mk.inj heq
    exact htaken ⟨rfl, rfl⟩

theorem Led.turn (hh : Highest ids h) (hled : Led ids h s) (hi : i ∈ ids)
    (henabled : s.Enabled i event) : Led ids h (s.turn ids i event) where
  live j := by
    by_cases hj : j = i
    · subst hj
      rw [nodes_turn_self, closed_handle]
      exact hled.live j
    · rw [nodes_turn_of_ne hj]
      exact hled.live j
  signed p hp := by
    rcases List.mem_append.mp hp with hp | hp
    · exact hled.signed p (mem_of_mem_taken hp)
    · obtain ⟨hsrc, hsend⟩ := mem_packets.mp hp
      have hsigned : Signed ⟨i, ids⟩ (handle ⟨i, ids⟩ (s.nodes i) event).2 := by
        refine signed_handle fun peerId message hevent ↦ ?_
        obtain ⟨hpeer, hne, -⟩ := hled.sender henabled hevent
        exact List.mem_filter.mpr ⟨hpeer, by simpa using hne.symm⟩
      obtain ⟨hdst, hnode⟩ := hsigned _ _ hsend
      refine ⟨hsrc ▸ hi, ?_, hnode.trans hsrc.symm⟩
      have hne := (List.mem_filter.mp hdst).2
      rw [hsrc]
      simpa using hne
  highest hstarted := by
    by_cases hhi : h = i
    · subst hhi
      rw [nodes_turn_self]
      exact (hled.highest_turn hh henabled).1
    · rw [started_turn_of_ne hhi] at hstarted
      rw [nodes_turn_of_ne hhi]
      exact hled.highest hstarted
  announced j hj hjh hrole := by
    by_cases hji : j = i
    · subst hji
      rw [nodes_turn_self] at hrole
      -- an old announcement is still in flight, unless it has deposed the node
      have hkept (hold : (s.nodes j).role = .leader)
          (hlower : event ≠ .message h ⟨.coordinator, h⟩) :
          announcement j h ∈ (s.turn ids j event).net ∨ announcement h j
            ∈ (s.turn ids j event).net := by
        rcases hled.announced j hj hjh hold with hp | hp
        · exact Or.inl (mem_turn hp (Ne.symm hjh))
        · refine Or.inr (List.mem_append_left _ (mem_taken hp ?_))
          rintro peerId message rfl heq
          obtain ⟨rfl, -, rfl⟩ := Packet.mk.inj heq
          exact hlower rfl
      rcases hled.outcome j event with ⟨hsame, -, -, hlower⟩ | ⟨-, hannounces, -⟩ |
        ⟨_, _, -, -, hfollower, -⟩ | ⟨hsame, -, -, hanswer⟩
      · refine hkept (hsame ▸ hrole) fun hevent ↦ ?_
        exact absurd (hlower h h hevent) (Nat.not_lt_of_le (hh.le j hj))
      · exact Or.inl (announcement_mem_turn hh.mem (Ne.symm hjh) hannounces)
      · exact absurd (hfollower.symm.trans hrole) (by simp)
      · refine hkept (hsame ▸ hrole) fun hevent ↦ ?_
        exact absurd (hanswer _ _ hevent) (by simp)
    · rw [nodes_turn_of_ne hji] at hrole
      rcases hled.announced j hj hjh hrole with hp | hp
      · exact hled.asked_turn hh henabled hj hjh (by simp) hp
      · exact Or.inr (mem_turn hp hji)

theorem Reachable.led (hh : Highest ids h) (hreach : Reachable ids s) : Led ids h s := by
  induction hreach with
  | refl => exact led_init ids h
  | tail _ hstep ih =>
    obtain ⟨i, event, hi, henabled⟩ := hstep
    exact ih.turn hh hi henabled

/-- **One leader.** In every state that can be reached, if all nodes have started and nothing is in
flight, the node with the highest id leads and no other does. -/
theorem unique_leader (hne : ids ≠ []) (hreach : Reachable ids s)
    (hstarted : ∀ i ∈ ids, s.started i = true) (hnet : s.net = []) :
    ∃ h ∈ ids, (∀ i ∈ ids, i ≤ h) ∧ ∀ i ∈ ids, (s.nodes i).role = .leader ↔ i = h := by
  obtain ⟨h, hh⟩ := exists_highest hne
  have hled := hreach.led hh
  refine ⟨h, hh.mem, hh.le, fun i hi ↦ ⟨fun hrole ↦ ?_, ?_⟩⟩
  · by_contra hih
    have hannounced := hled.announced i hi hih hrole
    simp [hnet] at hannounced
  · rintro rfl
    exact hled.highest (hstarted i hi)

/-- Two nodes, of which the lower one starts first and believes to lead until the other one starts
and is heard. -/
def lateStart : List (ℕ × Event) :=
  [(1, .start), (1, .timeout), (2, .start), (2, .message 1 ⟨.election, 1⟩),
    (2, .message 1 ⟨.coordinator, 1⟩), (1, .message 2 ⟨.coordinator, 2⟩),
    (1, .message 2 ⟨.answer, 2⟩), (1, .message 2 ⟨.coordinator, 2⟩),
    (1, .message 2 ⟨.coordinator, 2⟩)]

theorem unique_leader_lateStart : ∃ s, Reachable [1, 2] s ∧
    ∃ h ∈ [1, 2], (∀ i ∈ [1, 2], i ≤ h) ∧ ∀ i ∈ [1, 2], (s.nodes i).role = .leader ↔ i = h := by
  have hruns : Runs (happen [1, 2]) (MayHappen [1, 2]) init lateStart := by decide
  exact ⟨_, reachable_run hruns,
    unique_leader (by simp) (reachable_run hruns) (by decide) (by decide)⟩

/-! ## Following the leader -/

/-- A node that follows the highest one is not told that another one is above it. -/
def Timely (ids : List ℕ) (s : Watchdogs) (i : ℕ) : Event → Prop
  | .message _ ⟨.coordinator, k⟩ =>
    i < k → ∀ h ∈ ids, (∀ j ∈ ids, j ≤ h) → (s.nodes i).leaderId = some h → k = h
  | .message _ ⟨.election, _⟩ | .message _ ⟨.answer, _⟩ | .start | .timeout | .disconnect _ => True

instance (ids : List ℕ) (s : Watchdogs) (i : ℕ) : DecidablePred (Timely ids s i)
  | .message _ ⟨.coordinator, k⟩ =>
    inferInstanceAs (Decidable (i < k → ∀ h ∈ ids, (∀ j ∈ ids, j ≤ h) →
      (s.nodes i).leaderId = some h → k = h))
  | .message _ ⟨.election, _⟩ | .message _ ⟨.answer, _⟩ | .start | .timeout | .disconnect _ =>
    inferInstanceAs (Decidable True)

/-- A step in which no late announcement is delivered. -/
inductive TimelyStep (ids : List ℕ) (s : Watchdogs) : Watchdogs → Prop
  | turn (i : ℕ) (event : Event) (hi : i ∈ ids) (henabled : s.Enabled i event)
      (htimely : Timely ids s i event) : TimelyStep ids s (s.turn ids i event)

/-- `ELECTION` of node `i` to node `j`. -/
def question (i j : ℕ) : Packet := ⟨i, j, ⟨.election, i⟩⟩

/-- The invariant of the followers. -/
structure Followed (ids : List ℕ) (h : ℕ) (s : Watchdogs) : Prop extends Led ids h s where
  known : ∀ i ∈ ids, i ≠ h → s.started i = true →
    (s.nodes i).leaderId = some h ∨ announcement h i ∈ s.net ∨ question i h ∈ s.net ∨
      announcement i h ∈ s.net

theorem followed_init (ids : List ℕ) (h : ℕ) : Followed ids h init where
  toLed := led_init ids h
  known _ _ _ hstarted := absurd hstarted (by simp [init])

/-- What another node does not undo. -/
theorem Followed.known_of_ne (hh : Highest ids h) (hfollowed : Followed ids h s)
    (henabled : s.Enabled i event) {j : ℕ} (hj : j ∈ ids) (hjh : j ≠ h) (hji : j ≠ i)
    (hstarted : s.started j = true) :
    (s.nodes j).leaderId = some h ∨ announcement h j ∈ (s.turn ids i event).net ∨
      question j h ∈ (s.turn ids i event).net ∨ announcement j h ∈ (s.turn ids i event).net := by
  rcases hfollowed.known j hj hjh hstarted with hleader | hp | hp | hp
  · exact Or.inl hleader
  · exact Or.inr (Or.inl (mem_turn hp hji))
  · rcases hfollowed.asked_turn hh henabled hj hjh (by simp) hp with hp | hp
    · exact Or.inr (Or.inr (Or.inl hp))
    · exact Or.inr (Or.inl hp)
  · rcases hfollowed.asked_turn hh henabled hj hjh (by simp) hp with hp | hp
    · exact Or.inr (Or.inr (Or.inr hp))
    · exact Or.inr (Or.inl hp)

/-- What a node does not undo itself, if it is not told of another leader. -/
theorem Followed.known_self (hfollowed : Followed ids h s) (hi : i ∈ ids) (hih : i ≠ h)
    (hstarted : s.started i = true) (hleader : (s.nodes i).leaderId ≠ some h)
    (hother : event ≠ .message h ⟨.coordinator, h⟩) :
    announcement h i ∈ (s.turn ids i event).net ∨ question i h ∈ (s.turn ids i event).net ∨
      announcement i h ∈ (s.turn ids i event).net := by
  rcases hfollowed.known i hi hih hstarted with hleader' | hp | hp | hp
  · exact absurd hleader' hleader
  · refine Or.inl (List.mem_append_left _ (mem_taken hp ?_))
    rintro peerId message rfl heq
    obtain ⟨rfl, -, rfl⟩ := Packet.mk.inj heq
    exact hother rfl
  · exact Or.inr (Or.inl (mem_turn hp hih.symm))
  · exact Or.inr (Or.inr (mem_turn hp hih.symm))

theorem Followed.turn (hh : Highest ids h) (hfollowed : Followed ids h s) (hi : i ∈ ids)
    (henabled : s.Enabled i event) (htimely : Timely ids s i event) :
    Followed ids h (s.turn ids i event) where
  toLed := hfollowed.toLed.turn hh hi henabled
  known j hj hjh hstarted := by
    by_cases hji : j = i
    · subst hji
      rw [nodes_turn_self]
      rcases hfollowed.outcome j event with ⟨-, -, hasks, -⟩ | ⟨-, hannounces, -⟩ |
        ⟨peerId, k, hevent, hle, -, hleader⟩ | ⟨-, hleader, hstart, hanswer⟩
      · have hlt : j < h := Nat.lt_of_le_of_ne (hh.le j hj) hjh
        have hhigher : h ∈ Config.higherPeerIds ⟨j, ids⟩ :=
          List.mem_filter.mpr ⟨hh.mem, decide_eq_true hlt⟩
        exact Or.inr (Or.inr (Or.inl (List.mem_append_right _
          (mem_packets.mpr ⟨rfl, hasks h hhigher⟩))))
      · exact Or.inr (Or.inr (Or.inr (announcement_mem_turn hh.mem hjh.symm hannounces)))
      · by_cases hk : k = h
        · exact Or.inl (hk ▸ hleader)
        · -- the node did not follow the highest one before
          obtain ⟨hpeer, hne, hnode⟩ := hfollowed.sender henabled hevent
          subst hevent
          have hlt : j < k := Nat.lt_of_le_of_ne hle fun heq ↦ hne (heq.trans hnode)
          refine Or.inr (hfollowed.known_self hj hjh henabled.1 ?_ ?_)
          · exact fun hleader' ↦ hk (htimely hlt h hh.mem hh.le hleader')
          · rintro ⟨⟩
            exact hk rfl
      · rw [hleader]
        by_cases hleader' : (s.nodes j).leaderId = some h
        · exact Or.inl hleader'
        · refine Or.inr (hfollowed.known_self hj hjh (henabled.started hstart) hleader' ?_)
          exact fun hevent ↦ absurd (hanswer _ _ hevent) (by simp)
    · rw [started_turn_of_ne hji] at hstarted
      rw [nodes_turn_of_ne hji]
      exact hfollowed.known_of_ne hh henabled hj hjh hji hstarted

/-- The loss of its leader makes a node start an election. -/
theorem handleDisconnect_leader {cfg : Config} {w : Watchdog} (hleader : w.leaderId = some h) :
    handleDisconnect cfg w h = startElection cfg w :=
  if_pos hleader.symm

/-- **The followers know the leader.** In every state of a run without late announcements, if all
nodes have started and nothing is in flight, one node leads, all others follow it, and start an
election when it is lost. -/
theorem leader_followed (hne : ids ≠ []) (hrun : Relation.ReflTransGen (TimelyStep ids) init s)
    (hstarted : ∀ i ∈ ids, s.started i = true) (hnet : s.net = []) :
    ∃ h ∈ ids, (∀ i ∈ ids, (s.nodes i).role = .leader ↔ i = h) ∧
      ∀ i ∈ ids, (s.nodes i).role = .follower → (s.nodes i).leaderId = some h ∧
        handleDisconnect ⟨i, ids⟩ (s.nodes i) h = startElection ⟨i, ids⟩ (s.nodes i) := by
  obtain ⟨h, hh⟩ := exists_highest hne
  have hfollowed : Followed ids h s := by
    clear hstarted hnet
    induction hrun with
    | refl => exact followed_init ids h
    | tail _ hstep ih =>
      obtain ⟨i, event, hi, henabled, htimely⟩ := hstep
      exact ih.turn hh hi henabled htimely
  refine ⟨h, hh.mem, fun i hi ↦ ⟨fun hrole ↦ ?_, ?_⟩, fun i hi hrole ↦ ?_⟩
  · by_contra hih
    have hannounced := hfollowed.announced i hi hih hrole
    simp [hnet] at hannounced
  · rintro rfl
    exact hfollowed.highest (hstarted i hi)
  · have hih : i ≠ h := by
      rintro rfl
      exact absurd (hrole.symm.trans (hfollowed.highest (hstarted i hi))) (by simp)
    have hleader : (s.nodes i).leaderId = some h := by
      simpa [hnet] using hfollowed.known i hi hih (hstarted i hi)
    exact ⟨hleader, handleDisconnect_leader hleader⟩

/-- Two nodes, of which the higher one starts first. -/
def promptStart : List (ℕ × Event) :=
  [(2, .start), (1, .start), (1, .message 2 ⟨.coordinator, 2⟩), (2, .message 1 ⟨.election, 1⟩),
    (1, .message 2 ⟨.answer, 2⟩), (1, .message 2 ⟨.coordinator, 2⟩)]

theorem leader_followed_promptStart : ∃ s,
    Relation.ReflTransGen (TimelyStep [1, 2]) init s ∧ ∃ h ∈ [1, 2],
      (∀ i ∈ [1, 2], (s.nodes i).role = .leader ↔ i = h) ∧
        ∀ i ∈ [1, 2], (s.nodes i).role = .follower → (s.nodes i).leaderId = some h ∧
          handleDisconnect ⟨i, [1, 2]⟩ (s.nodes i) h = startElection ⟨i, [1, 2]⟩ (s.nodes i) := by
  have hrun : Relation.ReflTransGen (TimelyStep [1, 2]) init
      (run (happen [1, 2]) init promptStart) :=
    .head (.turn 2 .start (by decide) (by decide) trivial) <|
    .head (.turn 1 .start (by decide) (by decide) trivial) <|
    .head (.turn 1 (.message 2 ⟨.coordinator, 2⟩) (by decide) (by decide) (by decide)) <|
    .head (.turn 2 (.message 1 ⟨.election, 1⟩) (by decide) (by decide) trivial) <|
    .head (.turn 1 (.message 2 ⟨.answer, 2⟩) (by decide) (by decide) trivial) <|
    .single (.turn 1 (.message 2 ⟨.coordinator, 2⟩) (by decide) (by decide) (by decide))
  exact ⟨_, hrun, leader_followed (by simp) hrun (by decide) (by decide)⟩

/-- Node 2 believes to lead, as the answer of node 3 does not come in time. Its announcement to
node 1 is delivered when node 3 has deposed it and node 1 has followed node 3. -/
def lateAnnouncement : List (ℕ × Event) :=
  [(3, .start), (2, .start), (1, .start), (2, .message 1 ⟨.election, 1⟩), (2, .timeout),
    (1, .message 2 ⟨.answer, 2⟩),
    (3, .message 2 ⟨.election, 2⟩), (3, .message 2 ⟨.election, 2⟩),
    (3, .message 2 ⟨.coordinator, 2⟩), (3, .message 1 ⟨.election, 1⟩),
    (2, .message 3 ⟨.coordinator, 3⟩), (2, .message 3 ⟨.answer, 3⟩),
    (2, .message 3 ⟨.coordinator, 3⟩), (2, .message 3 ⟨.answer, 3⟩),
    (2, .message 3 ⟨.coordinator, 3⟩), (2, .message 3 ⟨.coordinator, 3⟩),
    (2, .message 3 ⟨.coordinator, 3⟩),
    (1, .message 3 ⟨.coordinator, 3⟩), (1, .message 3 ⟨.coordinator, 3⟩),
    (1, .message 3 ⟨.coordinator, 3⟩), (1, .message 3 ⟨.coordinator, 3⟩),
    (1, .message 3 ⟨.answer, 3⟩), (1, .message 3 ⟨.coordinator, 3⟩),
    (1, .message 2 ⟨.coordinator, 2⟩)]

/-- Nothing is in flight and no node waits, node 3 leads, and node 1 follows node 2. -/
theorem stale_leader : ∃ s, Reachable [1, 2, 3] s ∧ (∀ i ∈ [1, 2, 3], s.started i = true) ∧
    s.net = [] ∧ (∀ i ∈ [1, 2, 3], (s.nodes i).phase = .idle) ∧ (s.nodes 3).role = .leader ∧
    (s.nodes 1).role = .follower ∧ (s.nodes 1).leaderId = some 2 := by
  have hruns : Runs (happen [1, 2, 3]) (MayHappen [1, 2, 3]) init lateAnnouncement := by decide
  exact ⟨_, reachable_run hruns, by decide, by decide, by decide, by decide, by decide, by decide⟩

end Watchdogs

end MoneyLaundering
