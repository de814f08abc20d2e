import Mathlib.Logic.Relation

/-!
# Runs given by their events

A machine with a step function, and the runs that a list of events makes of it. `Runs` says that a
condition holds before each event, `Throughout` that a property holds in each state. The rule that
connects the two is `throughout_of_invariant`; the other direction, that a property fails where the
condition does, is `runs_of_throughout`.
-/

namespace EventRuns

variable {σ ε : Type*} (step : σ → ε → σ)

/-- The state after some events. -/
def run (s : σ) : List ε → σ
  | [] => s
  | e :: events => run (step s e) events

/-- Each event meets a condition on it and the state before it. -/
def Runs (cond : σ → ε → Prop) (s : σ) : List ε → Prop
  | [] => True
  | e :: events => cond s e ∧ Runs cond (step s e) events

/-- Each state has a property, the first and the last one included. -/
def Throughout (P : σ → Prop) (s : σ) : List ε → Prop
  | [] => P s
  | e :: events => P s ∧ Throughout P (step s e) events

instance decidableRuns (cond : σ → ε → Prop) [∀ s, DecidablePred (cond s)] (s : σ) :
    (events : List ε) → Decidable (Runs step cond s events)
  | [] => inferInstanceAs (Decidable True)
  | e :: events =>
    have := decidableRuns cond (step s e) events
    inferInstanceAs (Decidable (cond s e ∧ Runs step cond (step s e) events))

variable {step} {cond cond' : σ → ε → Prop} {P Inv : σ → Prop} {s : σ} {events : List ε}

theorem Throughout.head (h : Throughout step P s events) : P s := by
  match events with
  | [] => exact h
  | _ :: _ => exact h.1

/-- **The invariant rule.** -/
theorem throughout_of_invariant (hP : ∀ s, Inv s → P s)
    (hstep : ∀ s e, Inv s → cond s e → Inv (step s e)) (hinit : Inv s)
    (hruns : Runs step cond s events) : Throughout step P s events := by
  induction events generalizing s with
  | nil => exact hP s hinit
  | cons e events ih => exact ⟨hP s hinit, ih (hstep s e hinit hruns.1) hruns.2⟩

/-- The rule for a step that keeps the invariant under every event. -/
theorem run_of_invariant (hstep : ∀ s e, Inv s → Inv (step s e)) (hinit : Inv s) :
    Inv (run step s events) := by
  induction events generalizing s with
  | nil => exact hinit
  | cons e events ih => exact ih (hstep s e hinit)

/-- The invariant rule, for the state that the run leads to. -/
theorem Runs.run_of_invariant (hstep : ∀ s e, Inv s → cond s e → Inv (step s e)) (hinit : Inv s)
    (hruns : Runs step cond s events) : Inv (run step s events) := by
  induction events generalizing s with
  | nil => exact hinit
  | cons e events ih => exact ih (hstep s e hinit hruns.1) hruns.2

/-- A condition without which the property fails in the next state. -/
theorem runs_of_throughout (hstep : ∀ s e, cond s e → P (step s e) → cond' s e)
    (hruns : Runs step cond s events) (h : Throughout step P s events) :
    Runs step cond' s events := by
  induction events generalizing s with
  | nil => trivial
  | cons e events ih => exact ⟨hstep s e hruns.1 h.2.head, ih hruns.2 h.2⟩

theorem Runs.and (h : Runs step cond s events) (h' : Runs step cond' s events) :
    Runs step (fun s e ↦ cond s e ∧ cond' s e) s events := by
  induction events generalizing s with
  | nil => trivial
  | cons e events ih => exact ⟨⟨h.1, h'.1⟩, ih h.2 h'.2⟩

theorem runs_append {more : List ε} :
    Runs step cond s (events ++ more)
      ↔ Runs step cond s events ∧ Runs step cond (run step s events) more := by
  induction events generalizing s with
  | nil => simp [Runs, run]
  | cons e events ih => simp only [List.cons_append, Runs, run, ih, and_assoc]

theorem run_append {more : List ε} :
    run step s (events ++ more) = run step (run step s events) more := by
  induction events generalizing s with
  | nil => rfl
  | cons e events ih => exact ih

/-- Each event of a run, with the state that the events before it lead to. -/
theorem runs_iff : Runs step cond s events
    ↔ ∀ past e rest, events = past ++ e :: rest → cond (run step s past) e := by
  constructor
  · rintro hruns past e rest rfl
    exact (runs_append.mp hruns).2.1
  · intro h
    induction events generalizing s with
    | nil => trivial
    | cons e events ih =>
      refine ⟨h [] e events rfl, ih fun past e' rest heq ↦ ?_⟩
      exact h (e :: past) e' rest (congrArg (e :: ·) heq)

/-- Events that meet the condition in every state. -/
theorem runs_of_forall (h : ∀ e ∈ events, ∀ s, cond s e) : Runs step cond s events := by
  induction events generalizing s with
  | nil => trivial
  | cons e events ih =>
    obtain ⟨hhead, htail⟩ := List.forall_mem_cons.mp h
    exact ⟨hhead s, ih htail⟩

/-- A list of events as a sequence of steps. -/
theorem Runs.reflTransGen {R : σ → σ → Prop} (h : Runs step cond s events)
    (hstep : ∀ s e, cond s e → R s (step s e)) :
    Relation.ReflTransGen R s (run step s events) := by
  induction events generalizing s with
  | nil => exact .refl
  | cons e events ih => exact .head (hstep s e h.1) (ih h.2)

end EventRuns
