import MoneyLaundering.Collections.Dict

/-!
# Sums by key

A dictionary that adds up what is entered under each key. It is read as a function from keys to a
commutative monoid, which is zero where nothing was entered; there what has been entered is a sum of
functions, so that neither the order of the entries nor the way they are grouped matters.
-/

namespace KeyedSums

variable {K M : Type*} [DecidableEq K] [AddCommMonoid M]

/-! ## The sums of some entries -/

/-- What is entered under each key. -/
def sums (entries : List (K × M)) : K → M := (entries.map fun p ↦ Pi.single p.1 p.2).sum

@[simp] theorem sums_nil : sums ([] : List (K × M)) = 0 := rfl

@[simp] theorem sums_cons (p : K × M) (entries : List (K × M)) :
    sums (p :: entries) = Pi.single p.1 p.2 + sums entries := List.sum_cons

@[simp] theorem sums_append (entries entries' : List (K × M)) :
    sums (entries ++ entries') = sums entries + sums entries' := by
  rw [sums, List.map_append, List.sum_append]
  rfl

/-- The order of the entries does not matter. -/
theorem sums_perm {entries entries' : List (K × M)} (h : entries.Perm entries') :
    sums entries = sums entries' := (h.map _).sum_eq

theorem sums_flatMap {α : Type*} (f : α → List (K × M)) (l : List α) :
    sums (l.flatMap f) = (l.map fun a ↦ sums (f a)).sum := by
  induction l with
  | nil => rfl
  | cons a l ih => rw [List.flatMap_cons, sums_append, ih, List.map_cons, List.sum_cons]

/-- The sum of one key. -/
theorem sums_apply (entries : List (K × M)) (k : K) :
    sums entries k = ((entries.filter fun p ↦ p.1 = k).map Prod.snd).sum := by
  induction entries with
  | nil => rfl
  | cons p entries ih =>
    rw [sums_cons, Pi.add_apply, ih]
    by_cases hp : p.1 = k
    · rw [List.filter_cons_of_pos (by simpa using hp), List.map_cons, List.sum_cons, hp,
        Pi.single_eq_same]
    · rw [List.filter_cons_of_neg (by simpa using hp), Pi.single_eq_of_ne (Ne.symm hp), zero_add]

/-- The sums of the entries with some keys. -/
theorem sums_filter (q : K → Prop) [DecidablePred q] (entries : List (K × M)) (k : K) :
    sums (entries.filter fun p ↦ q p.1) k = if q k then sums entries k else 0 := by
  rw [sums_apply, List.filter_filter]
  split
  · next hk =>
    rw [sums_apply]
    refine congrArg (fun l ↦ (List.map Prod.snd l).sum) (List.filter_congr fun p _ ↦ ?_)
    by_cases hp : p.1 = k
    · simp [hp, hk]
    · simp [hp]
  · next hk =>
    have hnone : entries.filter (fun p ↦ decide (p.1 = k) && decide (q p.1)) = [] :=
      List.filter_eq_nil_iff.mpr fun p _ ↦ by
        by_cases hp : p.1 = k
        · simp [hp, hk]
        · simp [hp]
    rw [hnone]
    rfl

/-- Entries under different keys keep their values. -/
theorem sums_of_mem {entries : List (K × M)} (hnd : (entries.map Prod.fst).Nodup) {p : K × M}
    (hp : p ∈ entries) : sums entries p.1 = p.2 := by
  induction entries with
  | nil => exact absurd hp List.not_mem_nil
  | cons e entries ih =>
    obtain ⟨he, hnd⟩ := List.nodup_cons.mp hnd
    rw [sums_cons, Pi.add_apply]
    rcases List.mem_cons.mp hp with rfl | hp
    · have hzero : sums entries p.1 = 0 := by
        rw [sums_apply, List.filter_eq_nil_iff.mpr fun p' hp' ↦ by
          simpa using fun heq : p'.1 = p.1 ↦ he (heq ▸ List.mem_map_of_mem hp')]
        rfl
      rw [Pi.single_eq_same, hzero, add_zero]
    · have hne : p.1 ≠ e.1 := fun heq ↦ he (heq ▸ List.mem_map_of_mem hp)
      rw [Pi.single_eq_of_ne hne, zero_add, ih hnd hp]

/-! ## Dictionaries of sums -/

/-- What a dictionary holds. -/
def value (d : Dict K M) (k : K) : M := (d.get k).getD 0

/-- Add `v` to what is held under `k`. -/
def addTo (d : Dict K M) (k : K) (v : M) : Dict K M := d.upsert k 0 (· + v)

@[simp] theorem value_empty : value (Dict.empty : Dict K M) = 0 := rfl

@[simp] theorem value_addTo (d : Dict K M) (k : K) (v : M) :
    value (addTo d k v) = value d + Pi.single k v := by
  ext k'
  rw [value, addTo, Dict.get_upsert, Pi.add_apply]
  by_cases hk : k = k'
  · subst hk
    rw [if_pos rfl, Pi.single_eq_same]
    rfl
  · rw [if_neg hk, Pi.single_eq_of_ne (Ne.symm hk), add_zero]
    rfl

/-- Entering one entry after the other adds their sums. -/
theorem value_foldl_addTo (entries : List (K × M)) (d : Dict K M) :
    value (entries.foldl (fun d p ↦ addTo d p.1 p.2) d) = value d + sums entries := by
  induction entries generalizing d with
  | nil => exact (add_zero _).symm
  | cons p entries ih => rw [List.foldl_cons, ih, value_addTo, sums_cons, add_assoc]

/-- The entries of a dictionary add up to it. -/
theorem sums_items (d : Dict K M) : sums d.items = value d := by
  ext k
  by_cases hk : k ∈ d.items.map Prod.fst
  · obtain ⟨p, hp, rfl⟩ := List.mem_map.mp hk
    rw [sums_of_mem d.nodup hp, value, Dict.get_eq_some.mpr hp, Option.getD_some]
  · rw [sums_apply, List.filter_eq_nil_iff.mpr fun p hp ↦ by
      simpa using fun heq : p.1 = k ↦ hk (heq ▸ List.mem_map_of_mem hp), value]
    cases hget : d.get k with
    | none => rfl
    | some v => exact absurd (List.mem_map_of_mem (f := Prod.fst) (Dict.get_eq_some.mp hget)) hk

end KeyedSums
