import Mathlib

/-!
# Logs of keyed records

A log is a list of records, each of which belongs to one key and acts on the state of that key
alone. Replaying it from the beginning yields a state for every key. Since records of different
keys commute, the state of one key after replay depends only on that key's own records, in their
order: `replay_apply`. This is what lets a file shared by many flows be analysed one flow at a
time.
-/

namespace KeyedLog

variable {K S R : Type*} [DecidableEq K]

/-- Apply the records of a log in order, each to the state of its key. -/
def replay (apply : R → S → S) (m : K → S) (log : List (K × R)) : K → S :=
  log.foldl (fun m r ↦ Function.update m r.1 (apply r.2 (m r.1))) m

/-- The records of one key, in order. -/
def ofKey (k : K) (log : List (K × R)) : List R :=
  log.filterMap fun r ↦ if r.1 = k then some r.2 else none

@[simp] theorem ofKey_nil (k : K) : ofKey k ([] : List (K × R)) = [] := rfl

theorem ofKey_cons (k : K) (r : K × R) (log : List (K × R)) :
    ofKey k (r :: log) = if r.1 = k then r.2 :: ofKey k log else ofKey k log := by
  rw [ofKey, List.filterMap_cons]
  by_cases h : r.1 = k
  · simp only [h, if_true]
    rfl
  · simp only [h, if_false]
    rfl

theorem ofKey_append (k : K) (log log' : List (K × R)) :
    ofKey k (log ++ log') = ofKey k log ++ ofKey k log' := List.filterMap_append

@[simp] theorem ofKey_singleton_self (k : K) (r : R) : ofKey k [(k, r)] = [r] := by
  simp [ofKey_cons]

theorem ofKey_singleton_of_ne {k k' : K} (h : k' ≠ k) (r : R) : ofKey k [(k', r)] = [] := by
  simp [ofKey_cons, h]

@[simp] theorem ofKey_map_mk (k : K) (rs : List R) : ofKey k (rs.map (Prod.mk k)) = rs := by
  induction rs with
  | nil => rfl
  | cons r rs ih => rw [List.map_cons, ofKey_cons, if_pos rfl, ih]

/-- **Replay works key by key.** -/
theorem replay_apply (apply : R → S → S) (m : K → S) (log : List (K × R)) (k : K) :
    replay apply m log k = (ofKey k log).foldl (fun s r ↦ apply r s) (m k) := by
  induction log generalizing m with
  | nil => rfl
  | cons r log ih =>
    have hstep : replay apply m (r :: log)
        = replay apply (Function.update m r.1 (apply r.2 (m r.1))) log := rfl
    rw [hstep, ih, ofKey_cons]
    by_cases h : r.1 = k
    · subst h
      rw [if_pos rfl, Function.update_self, List.foldl_cons]
    · rw [if_neg h, Function.update_of_ne (Ne.symm h)]

/-- A log that holds one record for each key of a list without repetitions, as a compaction
writes it, holds at most one record for a given key. -/
theorem ofKey_of_forall₂ (P : K → R → Prop) {order : List K} {log : List (K × R)}
    (hnd : order.Nodup) (h : List.Forall₂ (fun k r ↦ r.1 = k ∧ P k r.2) order log) (k : K) :
    if k ∈ order then ∃ r, P k r ∧ ofKey k log = [r] else ofKey k log = [] := by
  induction h with
  | nil => simp
  | @cons k' r order log hr _ ih =>
    obtain ⟨rfl, hP⟩ := hr
    obtain ⟨hnot, hnd'⟩ := List.nodup_cons.mp hnd
    specialize ih hnd'
    by_cases hk : r.1 = k
    · subst hk
      rw [if_neg hnot] at ih
      rw [if_pos List.mem_cons_self]
      exact ⟨r.2, hP, by rw [ofKey_cons, if_pos rfl, ih]⟩
    · have hmem : k ∈ r.1 :: order ↔ k ∈ order := by simp [Ne.symm hk]
      simp only [hmem, ofKey_cons, if_neg hk]
      exact ih

end KeyedLog
