import MoneyLaundering.Collections.EventRuns
import Mathlib.Data.List.Basic
import Mathlib.Logic.Function.Basic

/-!
# The election of the watchdogs

The watchdogs elect the one that pings the nodes with the bully algorithm (`watchdog/main.py`): a
node asks all nodes with a higher id, and becomes the leader if none of them answers in time.

This file gives the handlers of one node, and the system of all of them: the messages in flight are
delivered in any order, and the time for an answer may be over at any moment, also when an answer is
on its way. The deadline itself is left out.
-/

namespace MoneyLaundering

/-! ## One node -/

namespace Watchdog

inductive Role
  | follower
  | leader
  deriving DecidableEq, Repr

inductive Phase
  | idle
  | awaitingAnswer
  | awaitingCoordinator
  deriving DecidableEq, Repr

inductive MsgType
  | election
  | answer
  | coordinator
  deriving DecidableEq, Repr

/-- What `election.deserialize_msg` returns. -/
structure Message where
  msgType : MsgType
  nodeId : ℕ
  deriving DecidableEq, Repr

structure Config where
  watchdogId : ℕ
  /-- The ids of all watchdogs, its own one included. -/
  peers : List ℕ
  deriving DecidableEq, Repr

/-- What a handler does beside changing its node. -/
inductive Action
  | send (peerId : ℕ) (message : Message)
  | startMonitor
  | stopMonitor
  | startResponder
  | stopResponder
  deriving DecidableEq, Repr

end Watchdog

open Watchdog EventRuns

/-- The fields of a node that the event loop uses. -/
structure Watchdog where
  closed : Bool
  role : Role
  leaderId : Option ℕ
  phase : Phase
  deriving DecidableEq, Repr

namespace Watchdog

namespace Config

variable (cfg : Config)

/-- The keys of `_peer_handlers`. -/
def peerHandlers : List ℕ := cfg.peers.filter (· ≠ cfg.watchdogId)

def higherPeerIds : List ℕ := cfg.peers.filter (cfg.watchdogId < ·)

def electionMessage : Message := ⟨.election, cfg.watchdogId⟩

def answerMessage : Message := ⟨.answer, cfg.watchdogId⟩

def coordinatorMessage : Message := ⟨.coordinator, cfg.watchdogId⟩

end Config

def init : Watchdog where
  closed := false
  role := .follower
  leaderId := none
  phase := .idle

variable (cfg : Config) (w : Watchdog)

def sendToPeers (peerIds : List ℕ) (message : Message) : List Action :=
  peerIds.map (Action.send · message)

def broadcastCoordinator : List Action := sendToPeers cfg.peerHandlers cfg.coordinatorMessage

def becomeRole (newRole : Role) (leaderId : Option ℕ) : Watchdog × List Action :=
  ({ w with role := newRole, leaderId := some (leaderId.getD cfg.watchdogId), phase := .idle },
    match newRole with
    | .leader => broadcastCoordinator cfg ++ [.startMonitor, .stopResponder]
    | .follower => [.stopMonitor, .startResponder])

def startElection : Watchdog × List Action :=
  if w.closed then (w, [])
  else
    let w := { w with leaderId := none }
    if cfg.higherPeerIds = [] then becomeRole cfg w .leader none
    else
      ({ w with phase := .awaitingAnswer }, sendToPeers cfg.higherPeerIds cfg.electionMessage)

def handleElectionTimeout : Watchdog × List Action :=
  match w.phase with
  | .awaitingAnswer => becomeRole cfg w .leader none
  | .awaitingCoordinator => startElection cfg w
  | .idle => (w, [])

def handleElectionMessage (peerId : ℕ) : Watchdog × List Action :=
  let answer := Action.send peerId cfg.answerMessage
  match w.role with
  | .leader => (w, answer :: broadcastCoordinator cfg)
  | .follower => ((startElection cfg w).1, answer :: (startElection cfg w).2)

def handleCoordinatorMessage (leaderId : ℕ) : Watchdog × List Action :=
  if leaderId < cfg.watchdogId then startElection cfg w
  else becomeRole cfg w .follower (some leaderId)

def handleMessage (peerId : ℕ) (message : Message) : Watchdog × List Action :=
  match message.msgType with
  | .election => handleElectionMessage cfg w peerId
  | .answer =>
    if w.phase = .awaitingAnswer then ({ w with phase := .awaitingCoordinator }, []) else (w, [])
  | .coordinator => handleCoordinatorMessage cfg w message.nodeId

def handleDisconnect (peerId : ℕ) : Watchdog × List Action :=
  if some peerId = w.leaderId then startElection cfg w else (w, [])

/-- What the event loop of a node turns to. -/
inductive Event
  | start
  | timeout
  | message (peerId : ℕ) (message : Message)
  | disconnect (peerId : ℕ)
  deriving DecidableEq, Repr

/-- One turn of `_event_loop`. -/
def handle : Event → Watchdog × List Action
  | .start => startElection cfg w
  | .timeout => handleElectionTimeout cfg w
  | .message peerId message => handleMessage cfg w peerId message
  | .disconnect peerId => handleDisconnect cfg w peerId

/-! ## What a handler does -/

variable {cfg w}

/-- The node asks all nodes with a higher id. -/
def Asks (cfg : Config) (actions : List Action) : Prop :=
  ∀ k ∈ cfg.higherPeerIds, Action.send k cfg.electionMessage ∈ actions

/-- The node tells all others that it is the leader. -/
def Announces (cfg : Config) (actions : List Action) : Prop :=
  ∀ k ∈ cfg.peerHandlers, Action.send k cfg.coordinatorMessage ∈ actions

theorem announces_broadcast (cfg : Config) : Announces cfg (broadcastCoordinator cfg) :=
  fun _ hk ↦ List.mem_map_of_mem hk

theorem announces_becomeRole (leaderId : Option ℕ) :
    Announces cfg (becomeRole cfg w .leader leaderId).2 :=
  fun k hk ↦ List.mem_append_left _ (announces_broadcast cfg k hk)

/-- What a turn of a node comes to. -/
inductive Outcome (cfg : Config) (w : Watchdog) (event : Event) (w' : Watchdog)
    (actions : List Action) : Prop
  /-- It asks the higher nodes and keeps its role. -/
  | asks (hrole : w'.role = w.role) (hhigher : cfg.higherPeerIds ≠ []) (hasks : Asks cfg actions)
      (hlower : ∀ peerId k, event = .message peerId ⟨.coordinator, k⟩ → k < cfg.watchdogId)
  /-- It is the leader, and says so. -/
  | leads (hrole : w'.role = .leader) (hannounces : Announces cfg actions)
      (hlower : ∀ peerId k, event = .message peerId ⟨.coordinator, k⟩ → k < cfg.watchdogId)
  /-- It follows the node that has announced itself. -/
  | follows (peerId leaderId : ℕ) (hevent : event = .message peerId ⟨.coordinator, leaderId⟩)
      (hle : cfg.watchdogId ≤ leaderId) (hrole : w'.role = .follower)
      (hleader : w'.leaderId = some leaderId)
  /-- It was not asked and goes on as it was. -/
  | keeps (hrole : w'.role = w.role) (hleader : w'.leaderId = w.leaderId) (hstart : event ≠ .start)
      (hanswer : ∀ peerId message, event = .message peerId message → message.msgType = .answer)

variable {event : Event}

theorem outcome_startElection (hlive : w.closed = false)
    (hlower : ∀ peerId k, event = .message peerId ⟨.coordinator, k⟩ → k < cfg.watchdogId) :
    Outcome cfg w event (startElection cfg w).1 (startElection cfg w).2 := by
  rw [startElection, if_neg (by simp [hlive])]
  by_cases hhigher : cfg.higherPeerIds = []
  · simp only [if_pos hhigher]
    exact .leads rfl (announces_becomeRole none) hlower
  · simp only [if_neg hhigher]
    exact .asks rfl hhigher (fun k hk ↦ List.mem_map_of_mem hk) hlower

/-- Another message beside. -/
theorem Outcome.cons {w' : Watchdog} {actions : List Action} (h : Outcome cfg w event w' actions)
    (action : Action) : Outcome cfg w event w' (action :: actions) := by
  cases h with
  | asks hrole hhigher hasks hlower =>
    exact .asks hrole hhigher (fun k hk ↦ List.mem_cons_of_mem _ (hasks k hk)) hlower
  | leads hrole hannounces hlower =>
    exact .leads hrole (fun k hk ↦ List.mem_cons_of_mem _ (hannounces k hk)) hlower
  | follows peerId leaderId hevent hle hrole hleader =>
    exact .follows peerId leaderId hevent hle hrole hleader
  | keeps hrole hleader hstart hanswer => exact .keeps hrole hleader hstart hanswer

theorem outcome_electionMessage (hlive : w.closed = false) (peerId : ℕ)
    (hlower : ∀ peerId k, event = .message peerId ⟨.coordinator, k⟩ → k < cfg.watchdogId) :
    Outcome cfg w event (handleElectionMessage cfg w peerId).1
      (handleElectionMessage cfg w peerId).2 := by
  rw [handleElectionMessage]
  match hrole : w.role with
  | .leader =>
    exact .leads hrole (fun k hk ↦ List.mem_cons_of_mem _ (announces_broadcast cfg k hk)) hlower
  | .follower => exact (outcome_startElection hlive hlower).cons _

theorem outcome_message (hlive : w.closed = false) (peerId : ℕ) (message : Message) :
    Outcome cfg w (.message peerId message) (handleMessage cfg w peerId message).1
      (handleMessage cfg w peerId message).2 := by
  obtain ⟨msgType, nodeId⟩ := message
  match msgType with
  | .election =>
    refine outcome_electionMessage hlive peerId fun _ k hk ↦ ?_
    injection hk with _ hmessage
    injection hmessage with htype
    exact MsgType.noConfusion htype
  | .answer =>
    have hanswer : ∀ peerId' message, Event.message peerId ⟨.answer, nodeId⟩
        = .message peerId' message →
        message.msgType = .answer := by
      rintro _ _ ⟨⟩
      rfl
    rw [handleMessage]
    simp only
    split
    · exact .keeps rfl rfl (by simp) hanswer
    · exact .keeps rfl rfl (by simp) hanswer
  | .coordinator =>
    rw [handleMessage]
    simp only [handleCoordinatorMessage]
    split
    · rename_i hlt
      refine outcome_startElection hlive ?_
      rintro _ _ ⟨⟩
      exact hlt
    · rename_i hle
      exact .follows peerId nodeId rfl (Nat.le_of_not_lt hle) rfl rfl

/-- **What a turn of a live node comes to.** -/
theorem outcome_handle (hlive : w.closed = false) (event : Event) :
    Outcome cfg w event (handle cfg w event).1 (handle cfg w event).2 := by
  match event with
  | .start => exact outcome_startElection hlive (by simp)
  | .timeout =>
    rw [handle, handleElectionTimeout]
    match w.phase with
    | .awaitingAnswer => exact .leads rfl (announces_becomeRole none) (by simp)
    | .awaitingCoordinator => exact outcome_startElection hlive (by simp)
    | .idle => exact .keeps rfl rfl (by simp) (by simp)
  | .message peerId message => exact outcome_message hlive peerId message
  | .disconnect peerId =>
    rw [handle, handleDisconnect]
    split
    · exact outcome_startElection hlive (by simp)
    · exact .keeps rfl rfl (by simp) (by simp)

theorem closed_startElection : (startElection cfg w).1.closed = w.closed := by
  rw [startElection]
  split
  · rfl
  · simp only
    split <;> rfl

theorem closed_handle (event : Event) : (handle cfg w event).1.closed = w.closed := by
  match event with
  | .start => exact closed_startElection
  | .timeout =>
    rw [handle, handleElectionTimeout]
    split
    · rfl
    · exact closed_startElection
    · rfl
  | .message peerId ⟨.election, _⟩ =>
    rw [handle, handleMessage]
    simp only [handleElectionMessage]
    split
    · rfl
    · exact closed_startElection
  | .message peerId ⟨.answer, _⟩ =>
    rw [handle, handleMessage]
    simp only
    split <;> rfl
  | .message peerId ⟨.coordinator, _⟩ =>
    rw [handle, handleMessage]
    simp only [handleCoordinatorMessage]
    split
    · exact closed_startElection
    · rfl
  | .disconnect peerId =>
    rw [handle, handleDisconnect]
    split
    · exact closed_startElection
    · rfl

/-- What is sent goes to other nodes and names the sender. -/
def Signed (cfg : Config) (actions : List Action) : Prop :=
  ∀ peerId message, Action.send peerId message ∈ actions →
    peerId ∈ cfg.peerHandlers ∧ message.nodeId = cfg.watchdogId

theorem signed_nil : Signed cfg [] := fun _ _ h ↦ absurd h List.not_mem_nil

theorem signed_sendToPeers {peerIds : List ℕ} (hpeers : ∀ k ∈ peerIds, k ∈ cfg.peerHandlers)
    {message : Message} (hmessage : message.nodeId = cfg.watchdogId) :
    Signed cfg (sendToPeers peerIds message) := by
  intro peerId message' hsend
  obtain ⟨k, hk, heq⟩ := List.mem_map.mp hsend
  injection heq with hpeer hmessage'
  exact ⟨hpeer ▸ hpeers k hk, hmessage' ▸ hmessage⟩

theorem signed_broadcast (cfg : Config) : Signed cfg (broadcastCoordinator cfg) :=
  signed_sendToPeers (fun _ hk ↦ hk) rfl

theorem mem_peerHandlers_of_higher {k : ℕ} (hk : k ∈ cfg.higherPeerIds) : k ∈ cfg.peerHandlers := by
  obtain ⟨hmem, hlt⟩ := List.mem_filter.mp hk
  exact List.mem_filter.mpr ⟨hmem, by simpa using (Nat.ne_of_gt (of_decide_eq_true hlt))⟩

theorem signed_becomeRole (newRole : Role) (leaderId : Option ℕ) :
    Signed cfg (becomeRole cfg w newRole leaderId).2 := by
  match newRole with
  | .leader =>
    intro peerId message hsend
    rcases List.mem_append.mp hsend with hsend | hsend
    · exact signed_broadcast cfg peerId message hsend
    · simp at hsend
  | .follower =>
    intro peerId message hsend
    simp [becomeRole] at hsend

theorem signed_startElection : Signed cfg (startElection cfg w).2 := by
  rw [startElection]
  split
  · exact signed_nil
  · simp only
    split
    · exact signed_becomeRole _ _
    · exact signed_sendToPeers (fun _ hk ↦ mem_peerHandlers_of_higher hk) rfl

theorem signed_cons {actions : List Action} (h : Signed cfg actions) {peerId : ℕ}
    (hpeer : peerId ∈ cfg.peerHandlers) :
    Signed cfg (.send peerId cfg.answerMessage :: actions) := by
  intro k message hsend
  rcases List.mem_cons.mp hsend with heq | hsend
  · injection heq with hk hmessage
    exact ⟨hk ▸ hpeer, hmessage ▸ rfl⟩
  · exact h k message hsend

theorem signed_handle (hevent : ∀ peerId message, event = .message peerId message →
    peerId ∈ cfg.peerHandlers) : Signed cfg (handle cfg w event).2 := by
  match event with
  | .start => exact signed_startElection
  | .timeout =>
    rw [handle, handleElectionTimeout]
    split
    · exact signed_becomeRole _ _
    · exact signed_startElection
    · exact signed_nil
  | .message peerId ⟨.election, _⟩ =>
    rw [handle, handleMessage]
    simp only [handleElectionMessage]
    split
    · exact signed_cons (signed_broadcast cfg) (hevent _ _ rfl)
    · exact signed_cons signed_startElection (hevent _ _ rfl)
  | .message _ ⟨.answer, _⟩ =>
    rw [handle, handleMessage]
    simp only
    split <;> exact signed_nil
  | .message _ ⟨.coordinator, _⟩ =>
    rw [handle, handleMessage]
    simp only [handleCoordinatorMessage]
    split
    · exact signed_startElection
    · exact signed_becomeRole _ _
  | .disconnect _ =>
    rw [handle, handleDisconnect]
    split
    · exact signed_startElection
    · exact signed_nil

end Watchdog

/-! ## All nodes -/

/-- A message in flight. -/
structure Packet where
  src : ℕ
  dst : ℕ
  message : Watchdog.Message
  deriving DecidableEq, Repr

/-- The nodes, which of them have started their event loop, and the messages that were sent and have
not been taken from the event queue of their receiver. -/
structure Watchdogs where
  nodes : ℕ → Watchdog
  started : ℕ → Bool
  net : List Packet

namespace Watchdogs

def init : Watchdogs where
  nodes := fun _ ↦ Watchdog.init
  started := fun _ ↦ false
  net := []

/-- The messages that a node sends. -/
def packets (i : ℕ) (actions : List Action) : List Packet :=
  actions.filterMap fun action ↦
    match action with
    | .send peerId message => some ⟨i, peerId, message⟩
    | .startMonitor | .stopMonitor | .startResponder | .stopResponder => none

/-- What is left in flight when an event is taken. -/
def taken (net : List Packet) (i : ℕ) : Event → List Packet
  | .message peerId message => net.erase ⟨peerId, i, message⟩
  | .start | .timeout | .disconnect _ => net

/-- Whether an event may happen at a node. -/
def Enabled (s : Watchdogs) (i : ℕ) : Event → Prop
  | .start => s.started i = false
  | .timeout => s.started i = true ∧ (s.nodes i).phase ≠ .idle
  | .message peerId message => s.started i = true ∧ ⟨peerId, i, message⟩ ∈ s.net
  | .disconnect _ => s.started i = true

instance (s : Watchdogs) (i : ℕ) : DecidablePred (s.Enabled i)
  | .start => inferInstanceAs (Decidable (s.started i = false))
  | .timeout => inferInstanceAs (Decidable (s.started i = true ∧ (s.nodes i).phase ≠ .idle))
  | .message peerId message =>
    inferInstanceAs (Decidable (s.started i = true ∧ ⟨peerId, i, message⟩ ∈ s.net))
  | .disconnect _ => inferInstanceAs (Decidable (s.started i = true))

variable (ids : List ℕ)

/-- An event is handled at node `i`. -/
def turn (s : Watchdogs) (i : ℕ) (event : Event) : Watchdogs where
  nodes := Function.update s.nodes i (handle ⟨i, ids⟩ (s.nodes i) event).1
  started := Function.update s.started i true
  net := taken s.net i event ++ packets i (handle ⟨i, ids⟩ (s.nodes i) event).2

/-- An event of one of the nodes. -/
inductive Step (s : Watchdogs) : Watchdogs → Prop
  | turn (i : ℕ) (event : Event) (hi : i ∈ ids) (henabled : s.Enabled i event) :
      Step s (s.turn ids i event)

def Reachable (s : Watchdogs) : Prop := Relation.ReflTransGen (Step ids) init s

variable {ids} {s : Watchdogs} {i : ℕ} {event : Event}

theorem Enabled.started (h : s.Enabled i event) (hstart : event ≠ .start) : s.started i = true := by
  match event with
  | .start => exact absurd rfl hstart
  | .timeout | .message _ _ => exact h.1
  | .disconnect _ => exact h

theorem nodes_turn_self :
    (s.turn ids i event).nodes i = (handle ⟨i, ids⟩ (s.nodes i) event).1 :=
  Function.update_self _ _ _

theorem nodes_turn_of_ne {j : ℕ} (hne : j ≠ i) : (s.turn ids i event).nodes j = s.nodes j :=
  Function.update_of_ne hne _ _

theorem started_turn_of_ne {j : ℕ} (hne : j ≠ i) : (s.turn ids i event).started j = s.started j :=
  Function.update_of_ne hne _ _

theorem mem_packets {actions : List Action} {p : Packet} :
    p ∈ packets i actions ↔ p.src = i ∧ Action.send p.dst p.message ∈ actions := by
  rw [packets, List.mem_filterMap]
  constructor
  · rintro ⟨action, hmem, heq⟩
    match action with
    | .send peerId message =>
      obtain rfl := Option.some.inj heq
      exact ⟨rfl, hmem⟩
    | .startMonitor | .stopMonitor | .startResponder | .stopResponder => exact absurd heq (by simp)
  · rintro ⟨rfl, hmem⟩
    exact ⟨_, hmem, rfl⟩

/-- A message is in flight until it is taken. -/
theorem mem_taken {p : Packet} (hp : p ∈ s.net)
    (hne : ∀ peerId message, event = .message peerId message → p ≠ ⟨peerId, i, message⟩) :
    p ∈ taken s.net i event := by
  match event with
  | .message peerId message => exact (List.mem_erase_of_ne (hne peerId message rfl)).mpr hp
  | .start | .timeout | .disconnect _ => exact hp

theorem mem_of_mem_taken {p : Packet} (hp : p ∈ taken s.net i event) : p ∈ s.net := by
  match event with
  | .message _ _ => exact List.mem_of_mem_erase hp
  | .start | .timeout | .disconnect _ => exact hp

/-! ## Given runs -/

/-- An event of a node, as a step of the system. -/
def happen (ids : List ℕ) (s : Watchdogs) (e : ℕ × Event) : Watchdogs := s.turn ids e.1 e.2

/-- Whether it may happen. -/
def MayHappen (ids : List ℕ) (s : Watchdogs) (e : ℕ × Event) : Prop := e.1 ∈ ids ∧ s.Enabled e.1 e.2

instance (ids : List ℕ) (s : Watchdogs) : DecidablePred (MayHappen ids s) :=
  fun e ↦ inferInstanceAs (Decidable (e.1 ∈ ids ∧ s.Enabled e.1 e.2))

theorem reachable_run {events : List (ℕ × Event)}
    (h : Runs (happen ids) (MayHappen ids) init events) :
    Reachable ids (run (happen ids) init events) :=
  h.reflTransGen fun _ e he ↦ .turn e.1 e.2 he.1 he.2

end Watchdogs

end MoneyLaundering
