import Mathlib.Algebra.BigOperators.Group.Finset.Basic
import Mathlib.Data.Nat.ModEq

/-!
# Once around a cycle

Starting anywhere in a cycle of `n` places, `n` steps come to every place once.
-/

namespace Around

variable {n : ℕ}

theorem injOn (n i : ℕ) : Set.InjOn (fun k ↦ (i + k) % n) (Finset.range n) := by
  intro k hk k' hk' heq
  rw [Finset.mem_coe, Finset.mem_range] at hk hk'
  exact (Nat.ModEq.add_left_cancel' i heq).eq_of_lt_of_lt hk hk'

theorem image_range (n i : ℕ) : (Finset.range n).image (fun k ↦ (i + k) % n) = Finset.range n := by
  refine Finset.eq_of_subset_of_card_le (fun j hj ↦ ?_) ?_
  · obtain ⟨k, hk, rfl⟩ := Finset.mem_image.mp hj
    exact Finset.mem_range.mpr (Nat.mod_lt _ (Nat.zero_lt_of_lt (Finset.mem_range.mp hk)))
  · rw [Finset.card_image_of_injOn (injOn n i)]

/-- Every place is reached. -/
theorem exists_step {i j : ℕ} (hj : j < n) : ∃ k < n, (i + k) % n = j := by
  have hmem : j ∈ (Finset.range n).image (fun k ↦ (i + k) % n) := by
    rw [image_range]
    exact Finset.mem_range.mpr hj
  obtain ⟨k, hk, hkj⟩ := Finset.mem_image.mp hmem
  exact ⟨k, Finset.mem_range.mp hk, hkj⟩

theorem sum_range {M : Type*} [AddCommMonoid M] (n i : ℕ) (f : ℕ → M) :
    ∑ k ∈ Finset.range n, f ((i + k) % n) = ∑ j ∈ Finset.range n, f j := by
  rw [← Finset.sum_image (injOn n i), image_range]

/-- It takes `n` steps to come back. -/
theorem eq_of_return {b k : ℕ} (hb : b < n) (hk : k < n) (h : (b + 1 + k) % n = b) : k + 1 = n := by
  have hmod : b + (1 + k) ≡ b + 0 [MOD n] := by
    rw [← Nat.add_assoc, Nat.ModEq, h, Nat.add_zero, Nat.mod_eq_of_lt hb]
  have hdvd : n ∣ 1 + k := Nat.modEq_zero_iff_dvd.mp (Nat.ModEq.add_left_cancel' b hmod)
  have hle := Nat.le_of_dvd (by omega) hdvd
  omega

theorem nodup_map {k : ℕ} (hk : k ≤ n) (i : ℕ) :
    ((List.range k).map fun m ↦ (i + m) % n).Nodup := by
  refine List.Nodup.map_on (fun m hm m' hm' heq ↦ ?_) List.nodup_range
  rw [List.mem_range] at hm hm'
  exact injOn n i (by simp; omega) (by simp; omega) heq

/-- The lap that starts after a place ends there. -/
theorem getLast?_map {b : ℕ} (hb : b < n) :
    ((List.range n).map fun m ↦ (b + 1 + m) % n).getLast? = some b := by
  obtain ⟨m, rfl⟩ := Nat.exists_eq_succ_of_ne_zero (Nat.ne_zero_of_lt hb)
  rw [List.range_succ, List.map_append, List.map_singleton, List.getLast?_concat, Nat.add_assoc,
    Nat.add_comm 1 m, Nat.add_mod_right, Nat.mod_eq_of_lt hb]

theorem next_step (n i k : ℕ) : (i + (k + 1)) % n = ((i + k) % n + 1) % n := by
  rw [Nat.mod_add_mod, Nat.add_assoc]

end Around
