import Mathlib

/-!
# Insertion-ordered dictionaries

The dictionaries of the source language: a list of items with distinct keys, in the order in which
the keys were first assigned. Assigning to a key that is there keeps its place, assigning to a new
key appends it. Loops over a dictionary are folds over `Dict.items`.

Two uses recur. `groupBy` collects a list under computed keys, and `get_groupBy` says that a group
is a filter of the list. A dictionary of collections that grow one element at a time can be written
out as a flat list and built again from it: `foldl_upsert_flatMap`.

Sets have no order that a program may rely on. A loop over one runs through *some* list of its
members, `Enumerates`.
-/

/-- A dictionary, as the list of its items in insertion order. -/
@[ext] structure Dict (K V : Type*) where
  items : List (K × V)
  nodup : (items.map Prod.fst).Nodup

namespace Dict

variable {K V α : Type*} [DecidableEq K]

/-! ## Looking up and assigning -/

/-- The value of the first item with key `k`. -/
def getItem (k : K) : List (K × V) → Option V
  | [] => none
  | p :: l => if p.1 = k then some p.2 else getItem k l

/-- Replace the value of the first item with key `k`, or append an item. -/
def setItem (k : K) (v : V) : List (K × V) → List (K × V)
  | [] => [(k, v)]
  | p :: l => if p.1 = k then (k, v) :: l else p :: setItem k v l

theorem getItem_eq_none {k : K} {l : List (K × V)} (h : k ∉ l.map Prod.fst) :
    getItem k l = none := by
  induction l with
  | nil => rfl
  | cons p l ih =>
    rw [List.map_cons, List.mem_cons, not_or] at h
    rw [getItem, if_neg (Ne.symm h.1), ih h.2]

theorem getItem_eq_some {k : K} {v : V} {l : List (K × V)} (hl : (l.map Prod.fst).Nodup) :
    getItem k l = some v ↔ (k, v) ∈ l := by
  induction l with
  | nil => simp [getItem]
  | cons p l ih =>
    rw [List.map_cons, List.nodup_cons] at hl
    rw [getItem, List.mem_cons]
    by_cases hp : p.1 = k
    · rw [if_pos hp]
      have hnot : (k, v) ∉ l := fun hmem ↦
        hl.1 (List.mem_map.mpr ⟨(k, v), hmem, hp.symm⟩)
      constructor
      · intro h
        exact Or.inl (Prod.ext hp.symm (Option.some.inj h).symm)
      · rintro (h | h)
        · rw [← h]
        · exact absurd h hnot
    · rw [if_neg hp, ih hl.2]
      exact ⟨Or.inr, fun h ↦ h.resolve_left fun he ↦ hp (he ▸ rfl)⟩

theorem setItem_of_notMem {k : K} {v : V} {l : List (K × V)} (h : k ∉ l.map Prod.fst) :
    setItem k v l = l ++ [(k, v)] := by
  induction l with
  | nil => rfl
  | cons p l ih =>
    rw [List.map_cons, List.mem_cons, not_or] at h
    rw [setItem, if_neg (Ne.symm h.1), ih h.2, List.cons_append]

theorem setItem_append_singleton {k : K} (v v' : V) {l : List (K × V)} (h : k ∉ l.map Prod.fst) :
    setItem k v (l ++ [(k, v')]) = l ++ [(k, v)] := by
  induction l with
  | nil => simp [setItem]
  | cons p l ih =>
    rw [List.map_cons, List.mem_cons, not_or] at h
    rw [List.cons_append, setItem, if_neg (Ne.symm h.1), ih h.2, List.cons_append]

theorem map_fst_setItem (k : K) (v : V) (l : List (K × V)) :
    (setItem k v l).map Prod.fst
      = if k ∈ l.map Prod.fst then l.map Prod.fst else l.map Prod.fst ++ [k] := by
  induction l with
  | nil => rfl
  | cons p l ih =>
    rw [setItem]
    by_cases hp : p.1 = k
    · simp [hp]
    · rw [if_neg hp, List.map_cons, List.map_cons, ih]
      simp only [List.mem_cons, Ne.symm hp, false_or]
      split <;> rfl

theorem nodup_setItem {k : K} {v : V} {l : List (K × V)} (h : (l.map Prod.fst).Nodup) :
    ((setItem k v l).map Prod.fst).Nodup := by
  rw [map_fst_setItem]
  split
  · exact h
  · next hk => exact List.nodup_append.mpr ⟨h, List.nodup_singleton k, by
      rintro a ha b hb rfl
      exact hk (List.mem_singleton.mp hb ▸ ha)⟩

theorem getItem_setItem (k k' : K) (v : V) (l : List (K × V)) :
    getItem k' (setItem k v l) = if k = k' then some v else getItem k' l := by
  induction l with
  | nil => rfl
  | cons p l ih =>
    rw [setItem]
    by_cases hp : p.1 = k
    · rw [if_pos hp, getItem, getItem]
      by_cases hk : k = k'
      · rw [if_pos hk, if_pos hk]
      · rw [if_neg hk, if_neg hk, if_neg (hp ▸ hk)]
    · rw [if_neg hp, getItem, getItem, ih]
      by_cases hk : k = k'
      · rw [if_pos hk, if_neg (hk ▸ hp), if_pos hk]
      · rw [if_neg hk, if_neg hk]

def empty : Dict K V := ⟨[], List.nodup_nil⟩

def get (d : Dict K V) (k : K) : Option V := getItem k d.items

def set (d : Dict K V) (k : K) (v : V) : Dict K V :=
  ⟨setItem k v d.items, nodup_setItem d.nodup⟩

/-- Assign to `k` what `f` makes of its value, or of `init` when it has none. -/
def upsert (d : Dict K V) (k : K) (init : V) (f : V → V) : Dict K V :=
  d.set k (f ((d.get k).getD init))

/-- `d.pop(k, None)`. -/
def erase (d : Dict K V) (k : K) : Dict K V :=
  ⟨d.items.filter fun p ↦ p.1 ≠ k, d.nodup.sublist (List.filter_sublist.map _)⟩

def values (d : Dict K V) : List V := d.items.map Prod.snd

omit [DecidableEq K] in
@[simp] theorem items_empty : (empty : Dict K V).items = [] := rfl

@[simp] theorem get_empty (k : K) : (empty : Dict K V).get k = none := rfl

@[simp] theorem get_set (d : Dict K V) (k k' : K) (v : V) :
    (d.set k v).get k' = if k = k' then some v else d.get k' := getItem_setItem k k' v d.items

@[simp] theorem get_upsert (d : Dict K V) (k k' : K) (init : V) (f : V → V) :
    (d.upsert k init f).get k'
      = if k = k' then some (f ((d.get k).getD init)) else d.get k' := get_set ..

theorem get_eq_some {d : Dict K V} {k : K} {v : V} : d.get k = some v ↔ (k, v) ∈ d.items :=
  getItem_eq_some d.nodup

@[simp] theorem get_erase (d : Dict K V) (k k' : K) :
    (d.erase k).get k' = if k = k' then none else d.get k' := by
  refine Option.ext fun v ↦ ?_
  rw [get_eq_some, erase, List.mem_filter, decide_eq_true_iff, ← get_eq_some]
  split
  · next heq => simp [heq]
  · next hne => simp [Ne.symm hne]


theorem mem_items_set {d : Dict K V} {k : K} {v : V} {p : K × V} (hp : p ∈ (d.set k v).items) :
    p = (k, v) ∨ p ∈ d.items := by
  have h := get_eq_some.mpr (show (p.1, p.2) ∈ (d.set k v).items from hp)
  rw [get_set] at h
  split at h
  · next hk => exact Or.inl (Prod.ext hk.symm (Option.some.inj h).symm)
  · exact Or.inr (get_eq_some.mp h)

theorem items_set (d : Dict K V) (k : K) (v : V) : (d.set k v).items = setItem k v d.items := rfl

theorem items_set_of_notMem {d : Dict K V} {k : K} (h : k ∉ d.items.map Prod.fst) (v : V) :
    (d.set k v).items = d.items ++ [(k, v)] := setItem_of_notMem h

/-- The items with one key. -/
theorem filter_items (d : Dict K V) (k : K) :
    d.items.filter (fun p ↦ p.1 = k) = ((d.get k).map fun v ↦ (k, v)).toList := by
  obtain ⟨items, hnd⟩ := d
  rw [get]
  induction items with
  | nil => rfl
  | cons p l ih =>
    rw [List.map_cons, List.nodup_cons] at hnd
    rw [getItem]
    by_cases hp : p.1 = k
    · have hrest : l.filter (fun q ↦ q.1 = k) = [] := by
        refine List.filter_eq_nil_iff.mpr fun q hq hk ↦ hnd.1 ?_
        rw [hp, ← of_decide_eq_true hk]
        exact List.mem_map_of_mem hq
      rw [List.filter_cons_of_pos (by simpa using hp), if_pos hp, hrest, Option.map_some,
        Option.toList_some, ← hp]
    · rw [List.filter_cons_of_neg (by simpa using hp), if_neg hp]
      exact ih hnd.2

/-! ## Grouping -/

/-- Collect the elements of a list under their keys: the loop
`for x in xs: groups[key(x)].append(x)` over a `defaultdict(list)`. -/
def groupBy (key : α → K) (xs : List α) : Dict K (List α) :=
  xs.foldl (fun d x ↦ d.upsert (key x) [] (· ++ [x])) empty

theorem get_foldl_group (key : α → K) (xs : List α) (d : Dict K (List α)) (k : K) :
    (xs.foldl (fun d x ↦ d.upsert (key x) [] (· ++ [x])) d).get k
      = if xs.filter (fun x ↦ key x = k) = [] then d.get k
        else some ((d.get k).getD [] ++ xs.filter fun x ↦ key x = k) := by
  induction xs generalizing d with
  | nil => simp
  | cons x xs ih =>
    rw [List.foldl_cons, ih, get_upsert]
    by_cases hk : key x = k
    · subst hk
      by_cases hxs : xs.filter (fun y ↦ key y = key x) = [] <;> simp [hxs]
    · simp [hk]

/-- **A group is a filter of the list.** -/
theorem get_groupBy (key : α → K) (xs : List α) (k : K) :
    (groupBy key xs).get k
      = if xs.filter (fun x ↦ key x = k) = [] then none
        else some (xs.filter fun x ↦ key x = k) := by
  rw [groupBy, get_foldl_group]
  simp

theorem mem_items_groupBy {key : α → K} {xs : List α} {k : K} {group : List α} :
    (k, group) ∈ (groupBy key xs).items
      ↔ group = xs.filter (fun x ↦ key x = k) ∧ ∃ x ∈ xs, key x = k := by
  rw [← get_eq_some, get_groupBy]
  have hne : xs.filter (fun x ↦ key x = k) = [] ↔ ¬∃ x ∈ xs, key x = k := by
    simp [List.filter_eq_nil_iff]
  by_cases hf : xs.filter (fun x ↦ key x = k) = []
  · rw [if_pos hf]
    simp [hne.mp hf]
  · rw [if_neg hf, Option.some.injEq]
    exact ⟨fun h ↦ ⟨h.symm, not_not.mp fun hn ↦ hf (hne.mpr hn)⟩, fun h ↦ h.1.symm⟩

theorem items_groupBy (key : α → K) (xs : List α) :
    (groupBy key xs).items
      = ((groupBy key xs).items.map Prod.fst).map fun k ↦ (k, xs.filter fun x ↦ key x = k) := by
  rw [List.map_map]
  refine (List.map_id _).symm.trans (List.map_congr_left fun p hp ↦ ?_)
  exact Prod.ext rfl (mem_items_groupBy.mp (show (p.1, p.2) ∈ _ from hp)).1

theorem mem_keys_groupBy {key : α → K} {xs : List α} {k : K} :
    k ∈ (groupBy key xs).items.map Prod.fst ↔ ∃ x ∈ xs, key x = k := by
  rw [List.mem_map]
  constructor
  · rintro ⟨p, hp, rfl⟩
    exact (mem_items_groupBy.mp (show (p.1, p.2) ∈ _ from hp)).2
  · intro h
    exact ⟨(k, _), mem_items_groupBy.mpr ⟨rfl, h⟩, rfl⟩

/-- Grouping a permuted list gives the same groups up to their order and the order inside each. -/
theorem flatMap_groupBy_perm {β : Type*} (key : α → K) {f : K × List α → List β}
    (hf : ∀ k l l', l.Perm l' → (f (k, l)).Perm (f (k, l'))) {xs ys : List α} (h : xs.Perm ys) :
    ((groupBy key xs).items.flatMap f).Perm ((groupBy key ys).items.flatMap f) := by
  have hkeys : ((groupBy key xs).items.map Prod.fst).Perm
      ((groupBy key ys).items.map Prod.fst) := by
    rw [List.perm_ext_iff_of_nodup (groupBy key xs).nodup (groupBy key ys).nodup]
    intro k
    simp only [mem_keys_groupBy, h.mem_iff]
  rw [items_groupBy key xs, items_groupBy key ys]
  generalize (groupBy key xs).items.map Prod.fst = ks at hkeys
  generalize (groupBy key ys).items.map Prod.fst = ks' at hkeys
  rw [List.flatMap_map, List.flatMap_map]
  refine (List.Perm.flatMap_right _ hkeys).trans (List.Perm.flatMap_left _ fun k _ ↦ ?_)
  exact hf k _ _ (h.filter _)

/-- The parts of a list with each of some keys are the list, when no other key occurs. -/
theorem flatMap_filter {key : α → K} {ks : List K} {xs : List α} (hnd : ks.Nodup)
    (hmem : ∀ x ∈ xs, key x ∈ ks) : (ks.flatMap fun k ↦ xs.filter fun x ↦ key x = k).Perm xs := by
  induction ks generalizing xs with
  | nil =>
    cases xs with
    | nil => rfl
    | cons x xs => exact absurd (hmem x List.mem_cons_self) List.not_mem_nil
  | cons k ks ih =>
    obtain ⟨hk, hnd⟩ := List.nodup_cons.mp hnd
    rw [List.flatMap_cons]
    have hrest : (ks.flatMap fun k' ↦ xs.filter fun x ↦ key x = k')
        = ks.flatMap fun k' ↦ (xs.filter fun x ↦ ¬key x = k).filter fun x ↦ key x = k' := by
      refine List.flatMap_congr fun k' hk' ↦ ?_
      rw [List.filter_filter]
      refine List.filter_congr fun x _ ↦ ?_
      by_cases hx : key x = k'
      · have hne : ¬key x = k := fun he ↦ hk (he ▸ hx ▸ hk')
        simp [hx, hx ▸ hne]
      · simp [hx]
    have ih' : (ks.flatMap fun k' ↦ (xs.filter fun x ↦ ¬key x = k).filter
        fun x ↦ key x = k').Perm (xs.filter fun x ↦ ¬key x = k) := by
      refine ih hnd fun x hx ↦ ?_
      obtain ⟨hx, hne⟩ := List.mem_filter.mp hx
      exact (List.mem_cons.mp (hmem x hx)).resolve_left (by simpa using hne)
    rw [hrest]
    refine (List.Perm.append_left _ ih').trans ?_
    simpa using List.filter_append_perm (fun x ↦ decide (key x = k)) xs

/-- The groups of a list, put together, are the list. -/
theorem flatMap_snd_groupBy (key : α → K) (xs : List α) :
    ((groupBy key xs).items.flatMap Prod.snd).Perm xs := by
  rw [items_groupBy, List.flatMap_map]
  exact flatMap_filter (groupBy key xs).nodup fun x hx ↦ mem_keys_groupBy.mpr ⟨x, hx, rfl⟩

omit [DecidableEq K] in
/-- The items of a dictionary have keys that do not occur before them. -/
theorem fst_notMem_of_append {d : Dict K V} {l l' : List (K × V)} {p : K × V}
    (h : l' ++ p :: l = d.items) : p.1 ∉ l'.map Prod.fst := by
  have hnd := d.nodup
  rw [← h, List.map_append, List.map_cons] at hnd
  exact fun hmem ↦ (List.nodup_append.mp hnd).2.2 _ hmem _ List.mem_cons_self rfl

/-! ## Collections that grow one element at a time -/

theorem foldl_upsert_append (init : V) (add : α → V → V) (d : Dict K V) {k : K}
    (hk : k ∉ d.items.map Prod.fst) (v : V) (xs : List α) :
    (xs.foldl (fun d x ↦ d.upsert k init (add x)) (d.set k v))
      = d.set k (xs.foldl (fun v x ↦ add x v) v) := by
  induction xs generalizing v with
  | nil => rfl
  | cons x xs ih =>
    have hstep : (d.set k v).upsert k init (add x) = d.set k (add x v) := by
      ext1
      rw [upsert, get_set, if_pos rfl, Option.getD_some, items_set, items_set_of_notMem hk,
        items_set_of_notMem hk, setItem_append_singleton _ _ hk]
    rw [List.foldl_cons, hstep, ih, List.foldl_cons]

/-- **Writing a dictionary of collections out and building it again gives it back**, when every
value is rebuilt from its elements and none is the empty collection. -/
theorem foldl_upsert_flatMap (init : V) (add : α → V → V) (dump : K × V → List α) (d : Dict K V)
    (hdump : ∀ p ∈ d.items, (dump p).foldl (fun v x ↦ add x v) init = p.2)
    (hne : ∀ p ∈ d.items, p.2 ≠ init) :
    (d.items.flatMap fun p ↦ (dump p).map fun x ↦ (p.1, x)).foldl
      (fun d q ↦ d.upsert q.1 init (add q.2)) empty = d := by
  suffices h : ∀ (l l' : List (K × V)) (acc : Dict K V), acc.items = l' → l' ++ l = d.items →
      (l.flatMap fun p ↦ (dump p).map fun x ↦ (p.1, x)).foldl
        (fun d q ↦ d.upsert q.1 init (add q.2)) acc = d from
    h d.items [] empty rfl (List.nil_append _)
  intro l
  induction l with
  | nil =>
    intro l' acc hacc hl
    ext1
    rw [List.flatMap_nil, List.foldl_nil, hacc, ← hl, List.append_nil]
  | cons p l ih =>
    intro l' acc hacc hl
    have hp : p ∈ d.items := by rw [← hl]; simp
    have hnot : p.1 ∉ acc.items.map Prod.fst := hacc ▸ fst_notMem_of_append hl
    rw [List.flatMap_cons, List.foldl_append, List.foldl_map]
    have hvalue : (dump p).foldl (fun d x ↦ d.upsert p.1 init (add x)) acc = acc.set p.1 p.2 := by
      cases hd : dump p with
      | nil =>
        have hval := hdump p hp
        rw [hd] at hval
        exact absurd hval.symm (hne p hp)
      | cons x xs =>
        have hfirst : acc.upsert p.1 init (add x) = acc.set p.1 (add x init) := by
          rw [upsert, show acc.get p.1 = none from getItem_eq_none hnot, Option.getD_none]
        rw [List.foldl_cons, hfirst, foldl_upsert_append init add acc hnot, ← hdump p hp, hd,
          List.foldl_cons]
    rw [hvalue]
    refine ih (l' ++ [p]) _ ?_ (by rw [List.append_assoc]; exact hl)
    rw [items_set_of_notMem hnot, hacc]

/-- **Rebuilding a dictionary item by item gives it back**, when a key that is not there yet is
simply assigned. -/
theorem foldl_items (f : Dict K V → K × V → Dict K V) (d : Dict K V)
    (hf : ∀ acc, ∀ p ∈ d.items, acc.get p.1 = none → f acc p = acc.set p.1 p.2) :
    d.items.foldl f empty = d := by
  suffices h : ∀ (l l' : List (K × V)) (acc : Dict K V), acc.items = l' → l' ++ l = d.items →
      l.foldl f acc = d from h d.items [] empty rfl (List.nil_append _)
  intro l
  induction l with
  | nil =>
    intro l' acc hacc hl
    ext1
    rw [List.foldl_nil, hacc, ← hl, List.append_nil]
  | cons p l ih =>
    intro l' acc hacc hl
    have hnot : p.1 ∉ acc.items.map Prod.fst := hacc ▸ fst_notMem_of_append hl
    rw [List.foldl_cons, hf acc p (by rw [← hl]; simp) (getItem_eq_none hnot)]
    refine ih (l' ++ [p]) _ ?_ (by rw [List.append_assoc]; exact hl)
    rw [items_set_of_notMem hnot, hacc]

/-- Assigning some entries that all agree with `f`, in any order and any of them more than once. -/
theorem get_foldl_set {f : K → Option V} {l : List (K × V)} (hl : ∀ p ∈ l, f p.1 = some p.2)
    (d : Dict K V) (k : K) :
    (l.foldl (fun d p ↦ d.set p.1 p.2) d).get k = if k ∈ l.map Prod.fst then f k else d.get k := by
  induction l generalizing d with
  | nil => rfl
  | cons p l ih =>
    rw [List.foldl_cons, ih (fun p' hp' ↦ hl p' (List.mem_cons_of_mem _ hp')), get_set,
      List.map_cons]
    by_cases hk : k ∈ l.map Prod.fst
    · rw [if_pos hk, if_pos (List.mem_cons_of_mem _ hk)]
    · by_cases hp : p.1 = k
      · rw [if_neg hk, if_pos hp, if_pos (hp ▸ List.mem_cons_self), ← hp, hl p List.mem_cons_self]
      · have hnot : k ∉ p.1 :: l.map Prod.fst := fun hmem ↦
          (List.mem_cons.mp hmem).elim (fun heq ↦ hp heq.symm) hk
        rw [if_neg hk, if_neg hp, if_neg hnot]

end Dict

/-! ## Sets -/

/-- `l` runs through the members of `s`, each once. -/
def Enumerates {α : Type*} (l : List α) (s : Finset α) : Prop := (l : Multiset α) = s.val

namespace Enumerates

variable {α : Type*} {l l' : List α} {s : Finset α}

theorem mem_iff (h : Enumerates l s) (a : α) : a ∈ l ↔ a ∈ s := by
  rw [← Finset.mem_val, ← h, Multiset.mem_coe]

theorem perm (h : Enumerates l s) (h' : Enumerates l' s) : l.Perm l' :=
  Multiset.coe_eq_coe.mp (h.trans h'.symm)

theorem foldl_insert [DecidableEq α] (h : Enumerates l s) :
    l.foldl (fun t a ↦ insert a t) ∅ = s := by
  suffices hfold : ∀ (l : List α) (t : Finset α) (a : α),
      a ∈ l.foldl (fun t a ↦ insert a t) t ↔ a ∈ t ∨ a ∈ l by
    ext a
    rw [hfold, h.mem_iff]
    simp
  intro l
  induction l with
  | nil => simp
  | cons b l ih =>
    intro t a
    rw [List.foldl_cons, ih, Finset.mem_insert, List.mem_cons]
    tauto

end Enumerates
