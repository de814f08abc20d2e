import MoneyLaundering.Logging.Visible

/-!
# Observing less

What a view shows can be observed through a function that forgets part of it. If records act on what
is left, then so do handlers, and an observer of the coarser view sees the images of what an
observer of the finer one sees.
-/

namespace WriteAhead

variable {S R O V W : Type*} {D : Discipline S R}

namespace Visible

/-- What is seen through a function. -/
def map (f : V → W) : Visible V O → Visible W O
  | .send o => .send o
  | .become v => .become (f v)

theorem send_mem_of_mem_sent {o : O} {es : List (Visible V O)} (h : o ∈ sent es) :
    .send o ∈ es := by
  induction es with
  | nil => exact absurd h List.not_mem_nil
  | cons e es ih =>
    match e with
    | .send o' =>
      rcases List.mem_cons.mp h with rfl | h
      · exact List.mem_cons_self
      · exact List.mem_cons_of_mem _ (ih h)
    | .become _ => exact List.mem_cons_of_mem _ (ih h)

/-- The observation at the end is the one at the start, or one that was gone through. -/
theorem settle_mem (v : V) (es : List (Visible V O)) :
    settle v es = v ∨ .become (settle v es) ∈ es := by
  induction es generalizing v with
  | nil => exact Or.inl rfl
  | cons e es ih =>
    match e with
    | .send _ => exact (ih v).imp_right (List.mem_cons_of_mem _)
    | .become v' =>
      rcases ih v' with h | h
      · refine Or.inr ?_
        rw [settle_become, h]
        exact List.mem_cons_self
      · exact Or.inr (List.mem_cons_of_mem _ h)

end Visible

namespace View

/-- `ω` shows what `f` leaves of what `ν` shows. -/
structure Coarser (ν : View D V) (ω : View D W) (f : V → W) : Prop where
  view : ∀ s, ω.view s = f (ν.view s)
  apply : ∀ r v, ω.apply r (f v) = f (ν.apply r v)

namespace Coarser

variable {ν : View D V} {ω : View D W} {f : V → W}

theorem applyAll (h : ν.Coarser ω f) (rs : List R) (v : V) :
    ω.applyAll rs (f v) = f (ν.applyAll rs v) := by
  induction rs generalizing v with
  | nil => rfl
  | cons r rs ih => rw [applyAll_cons, applyAll_cons, h.apply, ih]

theorem consistent (h : ν.Coarser ω f) {v : V} {es : List (Effect S R O)}
    (hes : ν.Consistent v es) : ω.Consistent (f v) es := by
  induction es generalizing v with
  | nil => exact trivial
  | cons e es ih =>
    match e with
    | .publish _ => exact ih hes
    | .append r =>
      rw [Consistent, h.apply]
      exact ih hes
    | .checkpoint s => exact ⟨(h.view s).trans (congrArg f hes.1), hes.2.1, ih hes.2.2⟩

theorem visible (h : ν.Coarser ω f) (v : V) (es : List (Effect S R O)) :
    ω.visible (f v) es = (ν.visible v es).map (Visible.map f) := by
  induction es generalizing v with
  | nil => rfl
  | cons e es ih =>
    match e with
    | .publish o => exact congrArg (Visible.send o :: ·) (ih v)
    | .append r =>
      have hcons : ω.visible (f v) (.append r :: es)
          = .become (ω.apply r (f v)) :: ω.visible (ω.apply r (f v)) es := rfl
      rw [hcons, h.apply, ih]
      rfl
    | .checkpoint _ => exact ih v

end Coarser

end View

end WriteAhead
