import MoneyLaundering.Collections.Dict

/-!
# Dictionaries of sets

A dictionary that collects a set of values under each key, and one that does so under two keys.
`Collects` says which values; a key is there when it has one.
-/

namespace Dict

variable {K L V : Type*} [DecidableEq K] [DecidableEq L] [DecidableEq V]

/-- `d[k].add(v)` over a `defaultdict(set)`; a set is a list without repetitions. -/
def addToSet (d : Dict K (List V)) (k : K) (v : V) : Dict K (List V) :=
  d.upsert k [] fun set ↦ set.insert v

/-- The dictionary has the sets of the values related to each key. -/
structure Collects (d : Dict K (List V)) (related : K → V → Prop) : Prop where
  nodup : ∀ {k set}, d.get k = some set → set.Nodup
  mem_iff : ∀ k v, (∃ set, d.get k = some set ∧ v ∈ set) ↔ related k v

omit [DecidableEq V] in
theorem collects_empty : Collects (Dict.empty : Dict K (List V)) fun _ _ ↦ False where
  nodup h := by simp at h
  mem_iff k v := by simp

theorem Collects.add {d : Dict K (List V)} {related : K → V → Prop} (h : Collects d related) (k : K)
    (v : V) : Collects (addToSet d k v) fun k' v' ↦ related k' v' ∨ (k', v') = (k, v) where
  nodup := by
    intro k' set hget
    rw [addToSet, Dict.get_upsert] at hget
    split at hget
    · obtain rfl := Option.some.inj hget
      refine List.Nodup.insert ?_
      cases hold : d.get k with
      | none => exact List.nodup_nil
      | some old => exact h.nodup hold
    · exact h.nodup hget
  mem_iff k' v' := by
    rw [← h.mem_iff, addToSet]
    simp only [Dict.get_upsert]
    by_cases hk : k = k'
    · subst hk
      simp only [if_true, Option.some_inj, exists_eq_left', List.mem_insert_iff, Prod.mk.injEq,
        true_and]
      cases d.get k <;> simp [or_comm]
    · simp [hk, Ne.symm hk]

theorem Collects.foldl {d : Dict K (List V)} {related : K → V → Prop} (h : Collects d related)
    (pairs : List (K × V)) : Collects (pairs.foldl (fun d p ↦ addToSet d p.1 p.2) d) fun k v ↦
      related k v ∨ (k, v) ∈ pairs := by
  induction pairs generalizing d related with
  | nil => simpa using h
  | cons p pairs ih =>
    have hrest := ih (h.add p.1 p.2)
    simpa only [List.foldl_cons, List.mem_cons, or_assoc] using hrest

omit [DecidableEq V] in
theorem Collects.congr {d : Dict K (List V)} {related related' : K → V → Prop}
    (h : Collects d related) (heq : ∀ k v, related k v ↔ related' k v) : Collects d related' where
  nodup := h.nodup
  mem_iff k v := (h.mem_iff k v).trans (heq k v)

/-- **What a loop that adds values to sets collects.** -/
theorem collects_foldl (pairs : List (K × V)) :
    Collects (pairs.foldl (fun d p ↦ addToSet d p.1 p.2) Dict.empty) fun k v ↦ (k, v) ∈ pairs :=
  (collects_empty.foldl pairs).congr fun _ _ ↦ by rw [false_or]

/-- The set of a key has the related values, each once. -/
theorem Collects.length_eq_card {d : Dict K (List V)} {related : K → V → Prop}
    (h : Collects d related)
    {k : K} {set : List V} (hget : d.get k = some set) {values : Finset V}
    (hvalues : ∀ v, v ∈ values ↔ related k v) : set.length = values.card := by
  have hset : set.toFinset = values := by
    ext v
    rw [List.mem_toFinset, hvalues, ← h.mem_iff]
    exact ⟨fun hv ↦ ⟨set, hget, hv⟩, fun ⟨set', hget', hv⟩ ↦ by
      rwa [Option.some.inj (hget.symm.trans hget')]⟩
  rw [← hset, List.toFinset_card_of_nodup (h.nodup hget)]

/-! ## Two keys -/

/-- **What a loop that adds values to sets under two keys collects.** -/
theorem collects_foldl_two (triples : List (K × L × V)) (k : K) :
    Collects (((triples.foldl (fun d t ↦ d.upsert t.1 Dict.empty fun g ↦ addToSet g t.2.1 t.2.2)
      Dict.empty).get k).getD Dict.empty) fun l v ↦ (k, l, v) ∈ triples := by
  suffices h : ∀ (d : Dict K (Dict L (List V))) (related : L → V → Prop),
      Collects ((d.get k).getD Dict.empty) related →
      Collects (((triples.foldl (fun d t ↦ d.upsert t.1 Dict.empty fun g ↦ addToSet g t.2.1 t.2.2)
        d).get k).getD Dict.empty) fun l v ↦ related l v ∨ (k, l, v) ∈ triples by
    exact (h Dict.empty (fun _ _ ↦ False) collects_empty).congr fun _ _ ↦ by rw [false_or]
  induction triples with
  | nil => exact fun d related h ↦ h.congr fun _ _ ↦ by simp
  | cons t triples ih =>
    intro d related h
    obtain ⟨k', l', v'⟩ := t
    rw [List.foldl_cons]
    by_cases hk : k' = k
    · subst hk
      refine (ih _ (fun l v ↦ related l v ∨ (l, v) = (l', v')) ?_).congr fun l v ↦ ?_
      · rw [get_upsert, if_pos rfl, Option.getD_some]
        exact h.add l' v'
      · rw [List.mem_cons, or_assoc, Prod.mk.injEq k', and_iff_right rfl]
    · refine (ih _ related ?_).congr fun l v ↦ ?_
      · rw [get_upsert, if_neg hk]
        exact h
      · rw [List.mem_cons, Prod.mk.injEq]
        simp [Ne.symm hk]

end Dict
