import Mathlib.Algebra.BigOperators.Group.Finset.Piecewise
import Mathlib.Algebra.BigOperators.Group.Finset.Sigma
import Mathlib.Tactic.Abel

/-!
# Families changed at one place

The nodes of a system are a function of their index, and a step changes it at one index. Sums over
all nodes then change by the difference at that index, and a property of all nodes has to be shown
of that node only.
-/

namespace Family

variable {ι β M : Type*} [DecidableEq ι] {s : Finset ι} {i : ι}

theorem sum_update [AddCommGroup M] (hi : i ∈ s) (f : ι → β) (b : β) (g : β → M) :
    ∑ j ∈ s, g (Function.update f i b j) = ∑ j ∈ s, g (f j) + (g b - g (f i)) := by
  have hcomp : ∀ j, g (Function.update f i b j) = Function.update (fun j ↦ g (f j)) i (g b) j := by
    intro j
    by_cases h : j = i
    · subst h
      simp
    · simp [Function.update_of_ne h]
  simp only [hcomp]
  rw [Finset.sum_update_of_mem hi, Finset.sum_eq_add_sum_sdiff_singleton_of_mem hi fun j ↦ g (f j)]
  abel

/-- The same without subtraction. -/
theorem sum_update_add [AddCommMonoid M] (hi : i ∈ s) (f : ι → β) (b : β) (g : β → M) :
    ∑ j ∈ s, g (Function.update f i b j) + g (f i) = ∑ j ∈ s, g (f j) + g b := by
  rw [← Finset.add_sum_erase s _ hi, ← Finset.add_sum_erase s (fun j ↦ g (f j)) hi,
    Function.update_self]
  have hrest : ∑ j ∈ s.erase i, g (Function.update f i b j) = ∑ j ∈ s.erase i, g (f j) :=
    Finset.sum_congr rfl fun j hj ↦ by rw [Function.update_of_ne (Finset.ne_of_mem_erase hj)]
  rw [hrest]
  abel

theorem forall_update {f : ι → β} {b : β} {P : ι → β → Prop} (h : ∀ j, P j (f j)) (hb : P i b)
    (j : ι) : P j (Function.update f i b j) := by
  by_cases hj : j = i
  · subst hj
    rwa [Function.update_self]
  · rw [Function.update_of_ne hj]
    exact h j

end Family
