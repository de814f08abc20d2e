import MoneyLaundering.Logging.Visible
import MoneyLaundering.Ring.Stage

/-!
# The counters of a ring

What a ring computes depends on the counters and the seen sets of its nodes only. `Ring` is a stage
without business states and logs: a node is what can be observed of it, and a handler is a `Plan`, a
list of messages it sends and observations it goes through. A crash cuts a plan off somewhere.

A stage refines its ring. When every step completes this is so without further ado
(`ring_step_of_complete`). With crashes the log must agree with the memory, which every handler
preserves except the one that drops a client (`ring_step`).
-/

namespace MoneyLaundering

open WriteAhead Visible StatefulWorker

namespace Observed

/-- Nothing is held. -/
def zero : Observed Unit := ⟨fun _ ↦ ∅, 0, 0, 0, 0, ()⟩

/-- A data message was processed, and messages were sent on. -/
def count (v : Observed Unit) (mid : MessageId) (sends : ℕ) : Observed Unit :=
  { v.see .main mid with processed := v.processed + 1, sent := v.sent + sends }

end Observed

/-- What a node with the counters `v` does with a message. The number of messages sent is that of a
flush. -/
inductive Plan {α : Type} (cfg : NodeConfig) (client : ClientId) (queryId : Option String)
    (v : Observed Unit) : Taken → ℕ → List (Visible (Observed Unit) (Output α)) → Prop
  | duplicate {taken : Taken} {sends : ℕ} (h : ¬taken.Fresh v) :
      Plan cfg client queryId v taken sends []
  | data {mid : MessageId} {sends : ℕ} (msgs : List (Message α)) (h : mid ∉ v.seen .main) :
      Plan cfg client queryId v (.data mid) sends
        ((msgs.map Output.data).map .send ++ [.become (v.count mid msgs.length)])
  | eof {mid : MessageId} {marker : EOF} {sends : ℕ} (h : mid ∉ v.seen .main) :
      Plan cfg client queryId v (.eof mid marker) sends
        [.send (.ring cfg.getNextNodeId (startToken client v marker)), .become v.report,
          .become (v.report.see .main mid)]
  | count {envelope : Envelope} {sends : ℕ} (h : envelope.messageId ∉ v.seen .control)
      (hcoord : envelope.token.ring.coordinatorId = none) :
      Plan cfg client queryId v (.token envelope) sends
        [.send (.ring cfg.getNextNodeId (countToken cfg client v envelope.token)),
          .become (v.report.see .control envelope.messageId)]
  | flush {envelope : Envelope} {coordinatorId : NodeId} (msgs : List (Message α))
      (h : envelope.messageId ∉ v.seen .control)
      (hcoord : envelope.token.ring.coordinatorId = some coordinatorId)
      (hexp : envelope.token.ring.expectedCount ≠ cleanupExpectedCount) :
      Plan cfg client queryId v (.token envelope) msgs.length
        ((msgs.map Output.data ++ [flushOutput cfg client queryId
            (v.sent + msgs.length - v.partialSent) envelope.token coordinatorId]).map .send ++
          [.become ((flushed v msgs.length).see .control envelope.messageId)])
  | cleanup {envelope : Envelope} {coordinatorId : NodeId} {sends : ℕ}
      (h : envelope.messageId ∉ v.seen .control)
      (hcoord : envelope.token.ring.coordinatorId = some coordinatorId)
      (hexp : envelope.token.ring.expectedCount = cleanupExpectedCount) :
      Plan cfg client queryId v (.token envelope) sends
        [.send (cleanupOutput cfg client queryId envelope.token coordinatorId), .become .zero]

/-- A stage as far as its ring is concerned. -/
structure Ring (α : Type) where
  node : NodeId → Observed Unit
  inbox : NodeId → List Taken
  net : Network α

namespace Ring

variable {α : Type} (n : ℕ) (client : ClientId) (queryId : Option String)

def init (inbox : NodeId → List Taken) : Ring α := ⟨fun _ ↦ .zero, inbox, Network.empty⟩

/-- The step published a token or changed what a node holds. -/
def Acts (r r' : Ring α) : Prop := r'.node ≠ r.node ∨ r'.net.answered ≠ r.net.answered

inductive Step : Ring α → Label → Ring α → Prop
  | main {r : Ring α} {i : NodeId} {before after : List Taken} {taken : Taken} {sends : ℕ}
      {plan seen : List (Visible (Observed Unit) (Output α))} {done : Bool} (hi : i < n)
      (hinbox : r.inbox i = before ++ taken :: after)
      (hplan : Plan ⟨i, n⟩ client queryId (r.node i) taken sends plan) (hseen : seen <+: plan)
      (hdone : done = true → seen = plan) :
      Step r (.main i taken done)
        { node := Function.update r.node i (settle (r.node i) seen)
          inbox := if done then Function.update r.inbox i (before ++ after) else r.inbox
          net := r.net.handled i (r.node i) taken (sent seen) }
  | token {r : Ring α} {i : NodeId} {envelope : Envelope} {rest : List Envelope} {sends : ℕ}
      {plan seen : List (Visible (Observed Unit) (Output α))} {done : Bool} (hi : i < n)
      (hhead : r.net.control i = envelope :: rest)
      (hplan : Plan ⟨i, n⟩ client queryId (r.node i) (.token envelope) sends plan)
      (hseen : seen <+: plan) (hdone : done = true → seen = plan) :
      Step r (.token i sends done)
        { node := Function.update r.node i (settle (r.node i) seen)
          inbox := r.inbox
          net :=
            let net := r.net.handled i (r.node i) (.token envelope) (sent seen)
            if done then net.pop i else net }
  | restart {r : Ring α} {i : NodeId} (hi : i < n) : Step r (.restart i) r

end Ring

/-! ## Handlers as plans -/

namespace StatefulWorker

variable {w : StatefulWorker} (cfg : NodeConfig) (client : ClientId) {flow flow' : Flow w.State}
  {es : List (Eff w)}

theorem Sound.settle_visible {V : Type} {ν : View w.discipline V} (h : Sound ν flow flow' es) :
    ν.view flow' = settle (ν.view flow) (ν.visible (ν.view flow) es) := by
  rw [View.settle_visible]
  exact h.final

theorem plan_of_handleMessage {message : MainMessage w} (sends : ℕ)
    (h : handleMessage cfg client flow message = some (flow', es)) :
    Sound w.counters flow flow' es ∧ Plan cfg client w.queryId flow.observe.forget message.taken
      sends (w.counters.visible flow.observe.forget es) := by
  by_cases hseen : message.messageId ∈ flow.observe.seen .main
  · obtain ⟨rfl, rfl⟩ := Prod.ext_iff.mp
      (Option.some.inj ((handleMessage_seen cfg client hseen).symm.trans h))
    refine ⟨(sound_duplicate flow .main).counters, .duplicate ?_⟩
    cases message <;> exact not_not_intro hseen
  · cases message with
    | data mid payload =>
      obtain ⟨state, msgs, delta, hdata, rfl, hobs, hkeys⟩ := handleMessage_data cfg client hseen h
      refine ⟨(sound_data _ hobs hkeys).counters, ?_⟩
      have hcount : flow.observe.forget.count mid msgs.length
          = w.counters.apply (.message mid (some delta) false) flow.observe.forget := by
        obtain ⟨-, hsent⟩ := w.handle_eq hdata
        rw [Observed.count, ← hsent]
        rfl
      rw [View.visible_map_publish, View.visible, View.visible, View.visible]
      rw [show (MainMessage.data mid payload).messageId = mid from rfl, ← hcount]
      exact .data msgs hseen
    | eof mid marker =>
      obtain ⟨flow₁, flow₂, heq, h₁, h₂, hkeys₁, hkeys₂⟩ :=
        handleMessage_eof cfg client marker hseen
      obtain ⟨rfl, rfl⟩ := Prod.ext_iff.mp (Option.some.inj (heq.symm.trans h))
      exact ⟨(sound_eof h₁ h₂ hkeys₁ hkeys₂).counters, .eof hseen⟩

theorem plan_of_handleControlMessage {envelope : Envelope} {msgs : List (Message w.Item)}
    (h : handleControlMessage cfg client msgs flow envelope.token = (flow', es))
    (hquiet : envelope.token.ring.expectedCount ≠ cleanupExpectedCount ∨
      envelope.token.ring.coordinatorId = none) :
    Sound w.counters flow flow' es ∧ Plan cfg client w.queryId flow.observe.forget
      (.token envelope) msgs.length (w.counters.visible flow.observe.forget es) := by
  by_cases hseen : envelope.messageId ∈ flow.observe.seen .control
  · obtain ⟨rfl, rfl⟩ :=
      Prod.ext_iff.mp ((handleControlMessage_seen cfg client hseen msgs).symm.trans h)
    exact ⟨(sound_duplicate flow .control).counters, .duplicate (not_not_intro hseen)⟩
  · cases hcoord : envelope.token.ring.coordinatorId with
    | none =>
      obtain ⟨flow₁, heq, hobs, hkeys⟩ := handleControlMessage_count cfg client hseen hcoord msgs
      obtain ⟨rfl, rfl⟩ := Prod.ext_iff.mp (heq.symm.trans h)
      exact ⟨(sound_count hobs hkeys).counters, .count hseen hcoord⟩
    | some coordinatorId =>
      have hexp := hquiet.resolve_right (by rw [hcoord]; exact Option.some_ne_none _)
      obtain ⟨flow₁, heq, hobs, hkeys⟩ :=
        handleControlMessage_flush cfg client hseen hcoord hexp msgs
      obtain ⟨rfl, rfl⟩ := Prod.ext_iff.mp (heq.symm.trans h)
      refine ⟨sound_flush _ hobs hkeys, ?_⟩
      rw [View.visible_map_publish, View.visible, View.visible, View.visible]
      exact .flush msgs hseen hcoord hexp

/-- A token handled to the end, cleanups included. -/
theorem plan_of_complete {envelope : Envelope} {msgs : List (Message w.Item)}
    (h : handleControlMessage cfg client msgs flow envelope.token = (flow', es)) :
    ∃ plan, Plan cfg client w.queryId flow.observe.forget (.token envelope) msgs.length plan ∧
      publishes es = sent plan ∧ flow'.observe.forget = settle flow.observe.forget plan := by
  by_cases hquiet : envelope.token.ring.expectedCount ≠ cleanupExpectedCount ∨
      envelope.token.ring.coordinatorId = none
  · obtain ⟨hsound, hplan⟩ := plan_of_handleControlMessage cfg client h hquiet
    exact ⟨_, hplan, (View.sent_visible _ _ _).symm, hsound.settle_visible⟩
  · rw [not_or, not_not] at hquiet
    obtain ⟨hexp, hcoord⟩ := hquiet
    obtain ⟨coordinatorId, hcoord⟩ := Option.ne_none_iff_exists'.mp hcoord
    by_cases hseen : envelope.messageId ∈ flow.observe.seen .control
    · obtain ⟨rfl, rfl⟩ :=
        Prod.ext_iff.mp ((handleControlMessage_seen cfg client hseen msgs).symm.trans h)
      refine ⟨[], .duplicate (not_not_intro hseen), rfl, ?_⟩
      exact congrArg Observed.forget (flow.observe_setdefault .control)
    · obtain ⟨rfl, rfl⟩ := Prod.ext_iff.mp
        ((handleControlMessage_cleanup cfg client hseen hcoord hexp msgs).symm.trans h)
      exact ⟨_, .cleanup hseen hcoord hexp, rfl, rfl⟩

/-- Wherever a sound handler is cut off, an observer has seen the first few of its visible effects,
and all of them when it completes. -/
theorem Sound.outcome_visible {V : Type} {ν : View w.discipline V} {st st' : w.WorkerStore}
    {client : ClientId} {es : List (Eff w)} {point : Option ℕ} {outs : List (Output w.Item)}
    {b : Bool} (h : Sound ν (st.mem client) flow es)
    (hrun : w.discipline.Outcome st client flow es point outs st' b)
    (hsync : ν.Synced st client) :
    ∃ seen, seen <+: ν.visible (ν.view (st.mem client)) es ∧
      (point = none → seen = ν.visible (ν.view (st.mem client)) es) ∧ outs = sent seen ∧
      ν.Synced st' client ∧ ν.view (st'.mem client) = settle (ν.view (st.mem client)) seen :=
  ν.outcome_visible w.settled_replayRecord hrun hsync h.consistent h.final h.settled

end StatefulWorker

/-! ## A stage refines its ring -/

namespace Stage

variable {w : StatefulWorker} {n : ℕ} {client : ClientId}

def ring (client : ClientId) (s : Stage w) : Ring w.Item where
  node := s.node client
  inbox i := (s.inbox i).map MainMessage.taken
  net := s.net

/-- Every node's log agrees with its memory. -/
def Synced (client : ClientId) (s : Stage w) : Prop := ∀ i, w.counters.Synced (s.store i) client

theorem ring_update (s : Stage w) (i : NodeId) (store : w.WorkerStore)
    (inbox : NodeId → List (MainMessage w)) (net : Network w.Item) :
    ring client ⟨Function.update s.store i store, inbox, net⟩
      = ⟨Function.update (s.node client) i (store.mem client).observe.forget,
        fun j ↦ (inbox j).map MainMessage.taken, net⟩ := by
  have hnode : (⟨Function.update s.store i store, inbox, net⟩ : Stage w).node client
      = Function.update (s.node client) i (store.mem client).observe.forget := by
    funext j
    by_cases h : j = i
    · subst h
      simp [node]
    · simp [node, Function.update_of_ne h]
  rw [ring, hnode]

theorem inbox_update (client : ClientId) (s : Stage w) (i : NodeId) (done : Bool)
    (messages : List (MainMessage w)) :
    (fun j ↦ ((if done then Function.update s.inbox i messages else s.inbox) j).map
        MainMessage.taken)
      = if done then Function.update (s.ring client).inbox i (messages.map MainMessage.taken)
        else (s.ring client).inbox := by
  cases done
  · rfl
  · funext j
    by_cases h : j = i
    · subst h
      simp
    · simp [Function.update_of_ne h, ring]

theorem Synced.update {s : Stage w} (hsync : s.Synced client) {i : NodeId} {store : w.WorkerStore}
    (h : w.counters.Synced store client) (inbox) (net) :
    (⟨Function.update s.store i store, inbox, net⟩ : Stage w).Synced client := by
  intro j
  by_cases hj : j = i
  · subst hj
    simpa using h
  · simpa [Function.update_of_ne hj] using hsync j

theorem ring_main {s : Stage w} {i : NodeId} {before after : List (MainMessage w)}
    {message : MainMessage w} {store : w.WorkerStore} {done : Bool} {outs : List (Output w.Item)}
    {plan seen : List (Visible (Observed Unit) (Output w.Item))} (hi : i < n)
    (hinbox : s.inbox i = before ++ message :: after)
    (hplan : Plan ⟨i, n⟩ client w.queryId (s.node client i) message.taken 0 plan)
    (hseen : seen <+: plan) (hdone : done = true → seen = plan) (houts : outs = sent seen)
    (hview : (store.mem client).observe.forget = settle (s.node client i) seen) :
    Ring.Step n client w.queryId (s.ring client) (.main i message.taken done)
      (ring client
        { store := Function.update s.store i store
          inbox := if done then Function.update s.inbox i (before ++ after) else s.inbox
          net := s.net.handled i (s.node client i) message.taken outs }) := by
  subst houts
  rw [ring_update, inbox_update client, hview, List.map_append]
  exact .main hi (by simp [ring, hinbox]) hplan hseen hdone

theorem ring_token {s : Stage w} {i : NodeId} {envelope : Envelope} {rest : List Envelope}
    {sends : ℕ} {store : w.WorkerStore} {done : Bool} {outs : List (Output w.Item)}
    {plan seen : List (Visible (Observed Unit) (Output w.Item))} (hi : i < n)
    (hhead : s.net.control i = envelope :: rest)
    (hplan : Plan ⟨i, n⟩ client w.queryId (s.node client i) (.token envelope) sends plan)
    (hseen : seen <+: plan) (hdone : done = true → seen = plan) (houts : outs = sent seen)
    (hview : (store.mem client).observe.forget = settle (s.node client i) seen) :
    Ring.Step n client w.queryId (s.ring client) (.token i sends done)
      (ring client
        { store := Function.update s.store i store
          inbox := s.inbox
          net :=
            let net := s.net.handled i (s.node client i) (.token envelope) outs
            if done then net.pop i else net }) := by
  subst houts
  rw [ring_update, hview]
  exact .token hi hhead hplan hseen hdone

/-- **A stage refines its ring**, crashes included, as long as no cleanup is under way. -/
theorem ring_step {s s' : Stage w} {l : Label} (hsync : s.Synced client)
    (hquiet : ∀ i, ∀ envelope ∈ s.net.control i,
      envelope.token.ring.expectedCount ≠ cleanupExpectedCount) (hstep : Step n client s l s') :
    s'.Synced client ∧ Ring.Step n client w.queryId (s.ring client) l (s'.ring client) := by
  cases hstep with
  | @main i before after message flow es point outs store compacted hi hinbox hhandles hrun =>
    obtain ⟨hsound, hplan⟩ := plan_of_handleMessage ⟨i, n⟩ client 0 hhandles
    obtain ⟨seen, hseen, hdone, houts, hsync', hview⟩ :=
      hsound.outcome_visible hrun (hsync i)
    refine ⟨hsync.update hsync' _ _, ring_main hi hinbox hplan hseen ?_ houts hview⟩
    exact fun h ↦ hdone (Option.isNone_iff_eq_none.mp h)
  | @token i envelope rest msgs flow es point outs store compacted hi hhead hflush hhandles
      hrun =>
    obtain ⟨hsound, hplan⟩ := plan_of_handleControlMessage ⟨i, n⟩ client hhandles
      (Or.inl (hquiet i envelope (by rw [hhead]; exact List.mem_cons_self)))
    obtain ⟨seen, hseen, hdone, houts, hsync', hview⟩ :=
      hsound.outcome_visible hrun (hsync i)
    refine ⟨hsync.update hsync' _ _, ring_token hi hhead hplan hseen ?_ houts hview⟩
    exact fun h ↦ hdone (Option.isNone_iff_eq_none.mp h)
  | @restart i store hi hrestart =>
    obtain ⟨hview, hsync'⟩ := w.counters.synced_of_restarts w.settled_replayRecord hrestart client
    refine ⟨hsync.update hsync' _ _, ?_⟩
    have hnode : (store.mem client).observe.forget = s.node client i :=
      hview.trans (hsync i).1.symm
    rw [ring_update, hnode, Function.update_eq_self]
    exact .restart hi

end Stage

/-- The step is a handler that runs to its end. -/
def Label.Complete : Label → Prop
  | .main _ _ done => done = true
  | .token _ _ done => done = true
  | .restart _ => False

namespace Stage

variable {w : StatefulWorker} {n : ℕ} {client : ClientId}

/-- **A stage refines its ring** when its handlers run to their end, cleanups included. -/
theorem ring_step_of_complete {s s' : Stage w} {l : Label} (hcomplete : l.Complete)
    (hstep : Step n client s l s') :
    Ring.Step n client w.queryId (s.ring client) l (s'.ring client) := by
  cases hstep with
  | @main i before after message flow es point outs store compacted hi hinbox hhandles hrun =>
    obtain ⟨hsound, hplan⟩ := plan_of_handleMessage ⟨i, n⟩ client 0 hhandles
    obtain rfl := Option.isNone_iff_eq_none.mp hcomplete
    cases hrun with
    | complete hex =>
      refine ring_main hi hinbox hplan (List.prefix_refl _) (fun _ ↦ rfl) ?_ ?_
      · rw [hex.outs_eq, View.sent_visible]
      · simp only [Function.update_self]
        exact hsound.settle_visible
  | @token i envelope rest msgs flow es point outs store compacted hi hhead hflush hhandles
      hrun =>
    obtain ⟨plan, hplan, hsent, hfinal⟩ := plan_of_complete ⟨i, n⟩ client hhandles
    obtain rfl := Option.isNone_iff_eq_none.mp hcomplete
    cases hrun with
    | complete hex =>
      refine ring_token hi hhead hplan (List.prefix_refl _) (fun _ ↦ rfl) ?_ ?_
      · rw [hex.outs_eq, hsent]
      · simp only [Function.update_self]
        exact hfinal
  | restart hi hrestart => exact hcomplete.elim

/-- What holds of the ring of a stage at the start, and is kept by every step of the ring that meets
a condition if it acts, holds throughout a run whose steps meet it if they act. -/
theorem invariant_of_reachable {Inv : Ring w.Item → Prop} {condition : Ring w.Item → Label → Prop}
    {inbox : NodeId → List (MainMessage w)} {s : Stage w}
    (hinit : Inv (Ring.init fun i ↦ (inbox i).map MainMessage.taken))
    (hquiet : ∀ r, Inv r → ∀ i, ∀ envelope ∈ r.net.control i,
      envelope.token.ring.expectedCount ≠ cleanupExpectedCount)
    (hstep : ∀ {r r' : Ring w.Item} {l}, Inv r → (r.Acts r' → condition r l) →
      Ring.Step n client w.queryId r l r' → Inv r')
    (hreach : ReachableActing n client (fun s l ↦ condition (s.ring client) l) (init inbox) s) :
    s.Synced client ∧ Inv (s.ring client) := by
  induction hreach with
  | refl => exact ⟨fun _ ↦ ⟨rfl, Discipline.settled_empty⟩, hinit⟩
  | tail _ hlast ih =>
    obtain ⟨l, hcondition, hlast⟩ := hlast
    obtain ⟨hsync, hring⟩ := ring_step ih.1 (hquiet _ ih.2) hlast
    exact ⟨hsync, hstep ih.2 hcondition hring⟩

/-- The same for runs without crashes. -/
theorem invariant_of_complete {Inv : Ring w.Item → Prop} {inbox : NodeId → List (MainMessage w)}
    {s : Stage w} (hinit : Inv (Ring.init fun i ↦ (inbox i).map MainMessage.taken))
    (hstep : ∀ {r r' : Ring w.Item} {l}, Inv r → l.Complete →
      Ring.Step n client w.queryId r l r' → Inv r')
    (hreach : Reachable n client (fun _ l ↦ l.Complete) (init inbox) s) : Inv (s.ring client) := by
  induction hreach with
  | refl => exact hinit
  | tail _ hlast ih =>
    obtain ⟨l, hcomplete, hlast⟩ := hlast
    exact hstep ih hcomplete (ring_step_of_complete hcomplete hlast)

end Stage

end MoneyLaundering
