import Mathlib

/-!
# Paths of length two

In a finite directed graph, given by its edges, the vertices in the middle of the paths of length
two between two ends are common neighbours of them. So if there are at least `k` such paths, at
least `k` edges leave the first end and at least `k` enter the second: pruning ends with fewer edges
loses no pair that has enough paths (`le_card_filter_mids_iff`).
-/

namespace TwoSteps

variable {V : Type*} [DecidableEq V] (edges : Finset (V × V)) (k : ℕ)

/-- The vertices an edge from `v` leads to. -/
def next (v : V) : Finset V := (edges.filter fun e ↦ e.1 = v).image Prod.snd

/-- The vertices with an edge to `v`. -/
def prev (v : V) : Finset V := (edges.filter fun e ↦ e.2 = v).image Prod.fst

/-- The vertices in the middle of the paths from `s` to `d`. -/
def mids (s d : V) : Finset V := next edges s ∩ prev edges d

/-- The ends of the pairs of different vertices that are joined by at least `k` paths. -/
def Reported (v : V) : Prop :=
  ∃ s d, s ≠ d ∧ k ≤ (mids edges s d).card ∧ (v = s ∨ v = d)

variable {edges k}

@[simp] theorem mem_next {v w : V} : w ∈ next edges v ↔ (v, w) ∈ edges := by simp [next]

@[simp] theorem mem_prev {v w : V} : w ∈ prev edges v ↔ (w, v) ∈ edges := by simp [prev]

theorem mem_mids {s d m : V} : m ∈ mids edges s d ↔ (s, m) ∈ edges ∧ (m, d) ∈ edges := by
  rw [mids, Finset.mem_inter, mem_next, mem_prev]

theorem card_mids_le_next (s d : V) : (mids edges s d).card ≤ (next edges s).card :=
  Finset.card_le_card Finset.inter_subset_left

theorem card_mids_le_prev (s d : V) : (mids edges s d).card ≤ (prev edges d).card :=
  Finset.card_le_card Finset.inter_subset_right

/-- **Pruning loses no pair with enough paths**, when it only drops the paths between ends of which
one has too few edges. -/
theorem le_card_filter_mids_iff {s d : V} {q : Prop} [Decidable q]
    (hq : k ≤ (next edges s).card → k ≤ (prev edges d).card → q) :
    k ≤ ((mids edges s d).filter fun _ ↦ q).card ↔ k ≤ (mids edges s d).card := by
  refine ⟨fun h ↦ h.trans (Finset.card_le_card (Finset.filter_subset _ _)), fun h ↦ ?_⟩
  have hbusy : q := hq (h.trans (card_mids_le_next s d)) (h.trans (card_mids_le_prev s d))
  rw [Finset.filter_true_of_mem fun _ _ ↦ hbusy]
  exact h

end TwoSteps
