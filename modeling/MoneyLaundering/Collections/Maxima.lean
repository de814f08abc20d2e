import MoneyLaundering.Collections.Dict

/-!
# Maxima by key

A dictionary that keeps, for each key, the largest of the values offered to it. What it holds is
read as a function from keys to `WithBot V`; there the largest values of a collection of items are a
supremum, so that neither the order of the items nor the way they are grouped nor repetitions
matter.
-/

namespace Maxima

variable {K V W : Type*} [DecidableEq K] [LinearOrder V]

/-! ## The maxima of some items -/

/-- The maxima of one item. -/
def single (p : K × V) : K → WithBot V := Function.update ⊥ p.1 p.2

/-- The largest value of each key. -/
def maxima (items : List (K × V)) : K → WithBot V := (items.map single).foldr (· ⊔ ·) ⊥

@[simp] theorem maxima_nil : maxima ([] : List (K × V)) = ⊥ := rfl

@[simp] theorem maxima_cons (p : K × V) (items : List (K × V)) :
    maxima (p :: items) = single p ⊔ maxima items := rfl

@[simp] theorem maxima_append (items items' : List (K × V)) :
    maxima (items ++ items') = maxima items ⊔ maxima items' := by
  induction items with
  | nil => simp
  | cons p items ih => rw [List.cons_append, maxima_cons, maxima_cons, ih, sup_assoc]

theorem single_le_iff {p : K × V} {f : K → WithBot V} :
    single p ≤ f ↔ (p.2 : WithBot V) ≤ f p.1 := by
  rw [single, update_le_iff]
  exact ⟨fun h ↦ h.1, fun h ↦ ⟨h, fun _ _ ↦ bot_le⟩⟩

theorem maxima_le_iff {items : List (K × V)} {f : K → WithBot V} :
    maxima items ≤ f ↔ ∀ p ∈ items, (p.2 : WithBot V) ≤ f p.1 := by
  induction items with
  | nil => simp
  | cons p items ih => simp [ih, single_le_iff]

/-- Items with the same members have the same maxima. -/
theorem maxima_congr {items items' : List (K × V)} (h : ∀ p, p ∈ items ↔ p ∈ items') :
    maxima items = maxima items' := by
  refine eq_of_forall_ge_iff fun f ↦ ?_
  simp only [maxima_le_iff, h]

theorem maxima_flatMap {α : Type*} (f : α → List (K × V)) (l : List α) :
    maxima (l.flatMap f) = (l.map fun a ↦ maxima (f a)).foldr (· ⊔ ·) ⊥ := by
  induction l with
  | nil => rfl
  | cons a l ih => rw [List.flatMap_cons, maxima_append, ih, List.map_cons, List.foldr_cons]

theorem le_maxima {items : List (K × V)} {p : K × V} (h : p ∈ items) :
    (p.2 : WithBot V) ≤ maxima items p.1 := maxima_le_iff.mp le_rfl p h

theorem mem_of_maxima_eq {items : List (K × V)} {k : K} {v : V} (h : maxima items k = v) :
    (k, v) ∈ items := by
  induction items with
  | nil => exact absurd h WithBot.bot_ne_coe
  | cons p items ih =>
    rw [maxima_cons, Pi.sup_apply, single] at h
    rcases le_total (Function.update (⊥ : K → WithBot V) p.1 p.2 k) (maxima items k) with hle | hle
    · rw [sup_eq_right.mpr hle] at h
      exact List.mem_cons_of_mem _ (ih h)
    · rw [sup_eq_left.mpr hle] at h
      by_cases hk : k = p.1
      · subst hk
        rw [Function.update_self] at h
        rw [← WithBot.coe_inj.mp h]
        exact List.mem_cons_self
      · rw [Function.update_of_ne hk] at h
        exact absurd h WithBot.bot_ne_coe

/-- **The maximum of a key is one of its values, and none is larger.** -/
theorem maxima_eq_coe_iff {items : List (K × V)} {k : K} {v : V} :
    maxima items k = v ↔ (k, v) ∈ items ∧ ∀ p ∈ items, p.1 = k → p.2 ≤ v := by
  constructor
  · intro h
    refine ⟨mem_of_maxima_eq h, ?_⟩
    rintro p hp rfl
    exact WithBot.coe_le_coe.mp (h ▸ le_maxima hp)
  · rintro ⟨hmem, hle⟩
    refine le_antisymm ?_ (le_maxima (p := (k, v)) hmem)
    by_cases hbot : maxima items k = ⊥
    · rw [hbot]
      exact bot_le
    · obtain ⟨u, hu⟩ := WithBot.ne_bot_iff_exists.mp hbot
      rw [← hu]
      exact WithBot.coe_le_coe.mpr (hle _ (mem_of_maxima_eq hu.symm) rfl)

/-- The maxima of the items with some keys. -/
theorem maxima_filter (q : K → Prop) [DecidablePred q] (items : List (K × V)) (k : K) :
    maxima (items.filter fun p ↦ q p.1) k = if q k then maxima items k else ⊥ := by
  induction items with
  | nil => simp
  | cons p items ih =>
    by_cases hp : q p.1
    · rw [List.filter_cons_of_pos (by simpa using hp), maxima_cons, maxima_cons, Pi.sup_apply,
        Pi.sup_apply, ih]
      by_cases hk : q k
      · rw [if_pos hk, if_pos hk]
      · have hne : k ≠ p.1 := fun he ↦ hk (he ▸ hp)
        rw [if_neg hk, if_neg hk, single, Function.update_of_ne hne]
        exact sup_bot_eq _
    · rw [List.filter_cons_of_neg (by simpa using hp), ih, maxima_cons, Pi.sup_apply]
      by_cases hk : q k
      · have hne : k ≠ p.1 := fun he ↦ hp (he ▸ hk)
        rw [if_pos hk, if_pos hk, single, Function.update_of_ne hne]
        exact (bot_sup_eq _).symm
      · rw [if_neg hk, if_neg hk]

/-! ## Dictionaries of maxima -/

/-- What a dictionary holds, under a reading of its entries as values. -/
def readout (value : W → V) (d : Dict K W) (k : K) : WithBot V := (d.get k).map value

/-- Enter `w` under `k` unless the value of the present entry is as large. -/
def keep (value : W → V) (d : Dict K W) (k : K) (w : W) : Dict K W :=
  match d.get k with
  | none => d.set k w
  | some current => if value current < value w then d.set k w else d

variable (value : W → V)

omit [LinearOrder V] in
@[simp] theorem readout_empty : readout value (Dict.empty : Dict K W) = ⊥ := rfl

omit [LinearOrder V] in
theorem readout_set (d : Dict K W) (k : K) (w : W) :
    readout value (d.set k w) = Function.update (readout value d) k (value w) := by
  funext k'
  by_cases hk : k' = k
  · subst hk
    rw [Function.update_self, readout, Dict.get_set, if_pos rfl]
    rfl
  · rw [Function.update_of_ne hk, readout, Dict.get_set, if_neg (Ne.symm hk)]
    rfl

theorem update_eq_sup_single {f : K → WithBot V} {k : K} {v : V} (h : f k ≤ v) :
    Function.update f k (v : WithBot V) = f ⊔ single (k, v) := by
  funext k'
  by_cases hk : k' = k
  · subst hk
    rw [Function.update_self, Pi.sup_apply, single, Function.update_self, sup_eq_right.mpr h]
  · rw [Function.update_of_ne hk, Pi.sup_apply, single, Function.update_of_ne hk]
    exact (sup_bot_eq _).symm

/-- **Offering an entry takes the supremum with it.** -/
theorem readout_keep (d : Dict K W) (k : K) (w : W) :
    readout value (keep value d k w) = readout value d ⊔ single (k, value w) := by
  unfold keep
  cases hget : d.get k with
  | none =>
    have hbot : readout value d k = ⊥ := by
      rw [readout, hget]
      rfl
    exact (readout_set value d k w).trans (update_eq_sup_single (hbot ▸ bot_le))
  | some current =>
    have hcur : readout value d k = value current := by
      rw [readout, hget]
      rfl
    simp only
    split
    · next hlt =>
      rw [readout_set]
      exact update_eq_sup_single (hcur ▸ WithBot.coe_le_coe.mpr hlt.le)
    · next hlt =>
      refine (sup_eq_left.mpr ?_).symm
      rw [single_le_iff, hcur]
      exact WithBot.coe_le_coe.mpr (not_lt.mp hlt)

theorem readout_foldl_keep {α : Type*} (key : α → K) (entry : α → W) (l : List α) (d : Dict K W) :
    readout value (l.foldl (fun d a ↦ keep value d (key a) (entry a)) d)
      = readout value d ⊔ maxima (l.map fun a ↦ (key a, value (entry a))) := by
  induction l generalizing d with
  | nil => simp
  | cons a l ih => rw [List.foldl_cons, ih, readout_keep, List.map_cons, maxima_cons, sup_assoc]

/-- A dictionary holds the maxima of its own items. -/
theorem maxima_items (d : Dict K W) :
    maxima (d.items.map fun p ↦ (p.1, value p.2)) = readout value d := by
  refine eq_of_forall_ge_iff fun f ↦ ?_
  rw [maxima_le_iff, List.forall_mem_map, Pi.le_def]
  constructor
  · intro h k
    cases hget : d.get k with
    | none =>
      rw [readout, hget]
      exact bot_le
    | some w =>
      rw [readout, hget]
      exact h (k, w) (Dict.get_eq_some.mp hget)
  · intro h p hp
    have hget := Dict.get_eq_some.mpr (show (p.1, p.2) ∈ d.items from hp)
    have hk := h p.1
    rw [readout, hget] at hk
    exact hk

end Maxima
