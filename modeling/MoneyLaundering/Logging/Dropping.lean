import MoneyLaundering.Logging.WriteAhead

/-!
# Dropping a key

A key is dropped by a record that replays to the empty state. From then on compactions leave the key
out, and the records that other keys append do not concern it, so the records of the key that are
still in the log are those that were appended since the last compaction: `Others.ofKey_log`.

A handler that appends one more record for the key after the one that drops it leaves that record
behind. `recovered_eq_empty_iff_compacted` says that a restart then finds the key again, unless the
log has been compacted since.
-/

namespace WriteAhead

open KeyedLog

variable {K S R O : Type*} [DecidableEq K] {D : Discipline S R}

/-- Handler runs for keys other than `k`, none of them cut off, and whether the log was compacted in
the course of them. -/
inductive Others (D : Discipline S R) (O : Type*) (k : K) :
    Store K S R → Bool → Store K S R → Prop
  | refl (st) : Others D O k st false st
  | step {st b st' k' s b' st''} {es : List (Effect S R O)} {outs : List O}
      (h : Others D O k st b st') (hk : k' ≠ k) (hrun : D.Outcome st' k' s es none outs st'' b') :
      Others D O k st (b || b') st''

/-- The process is restarted, idle or because it died while it handled a message for a key other
than `k`; and whether it had compacted the log in the course of that. -/
inductive Restarted (D : Discipline S R) (O : Type*) (k : K) :
    Store K S R → Bool → Store K S R → Prop
  | idle {st st'} (hrestart : D.Restarts st.log st') : Restarted D O k st false st'
  | cut {st k' log b st'} {es : List (Effect S R O)} {outs : List O} (n : ℕ) (hk : k' ≠ k)
      (hexec : D.Exec st.mem k' (es.take n) st.log log outs b) (hrestart : D.Restarts log st') :
      Restarted D O k st b st'

/-- What is left of the records of an untracked key after a handler run. -/
theorem ofKey_exec {mem : K → S} {k k' : K} {es : List (Effect S R O)} {log log' : List (K × R)}
    {outs : List O} {b : Bool} (h : D.Exec mem k es log log' outs b) (hk : k ≠ k')
    (huntracked : ¬D.tracked (mem k')) :
    ofKey k' log' = if b then [] else ofKey k' log := by
  induction h with
  | nil => rfl
  | publish o _ ih => exact ih
  | append r _ ih => rw [ih, ofKey_append, ofKey_singleton_of_ne hk, List.append_nil]
  | keep s _ ih => exact ih
  | @compact es log mid log' outs b s hc _ ih =>
    obtain ⟨order, hnd, horder, hall⟩ := hc
    have hmem : Function.update mem k s k' = mem k' := Function.update_of_ne hk.symm s mem
    have hmid := ofKey_of_forall₂ (fun k₁ r ↦ D.Snap (Function.update mem k s k₁) r) hnd hall k'
    rw [if_neg (by rw [horder, hmem]; exact huntracked)] at hmid
    rw [ih, hmid]
    cases b <;> rfl

theorem Others.ofKey_log {k : K} {st st' : Store K S R} {b : Bool} (h : Others D O k st b st')
    (huntracked : ¬D.tracked (st.mem k)) :
    st'.mem k = st.mem k ∧ ofKey k st'.log = if b then [] else ofKey k st.log := by
  induction h with
  | refl => exact ⟨rfl, rfl⟩
  | @step b st' k' s b' st'' es outs _ hk hrun ih =>
    obtain ⟨hmem, hlog⟩ := ih
    cases hrun with
    | complete hex =>
      refine ⟨(Function.update_of_ne hk.symm s st'.mem).trans hmem, ?_⟩
      rw [ofKey_exec hex hk (by rw [hmem]; exact huntracked), hlog]
      cases b <;> cases b' <;> rfl

theorem Restarted.mem_eq {k : K} {st st' : Store K S R} {b : Bool} (h : Restarted D O k st b st')
    (huntracked : ¬D.tracked (st.mem k)) :
    st'.mem k = (if b then [] else ofKey k st.log).foldl (fun s r ↦ D.apply r s) D.empty := by
  cases h with
  | idle hrestart => rw [hrestart.1, Discipline.recovered, replay_apply, if_neg Bool.false_ne_true]
  | cut n hk hexec hrestart =>
    rw [hrestart.1, Discipline.recovered, replay_apply, ofKey_exec hexec hk huntracked]

/-- **A key is gone after a restart exactly if the log was compacted** between the handler that
dropped it, and appended another record of its own, and the crash. -/
theorem recovered_eq_empty_iff_compacted {k : K} {st st₁ st₂ st₃ : Store K S R} {drop own : R}
    (os : List O) {o : O} {outs : List O} {b₁ b₂ b₃ : Bool} (hdrop : ∀ s, D.apply drop s = D.empty)
    (hown : D.apply own D.empty ≠ D.empty) (huntracked : ¬D.tracked D.empty)
    (hhandler : D.Outcome st k D.empty (os.map .publish ++
      [.append drop, .publish o, .append own, .checkpoint D.empty]) none outs st₁ b₁)
    (hothers : Others D O k st₁ b₂ st₂) (hrestart : Restarted D O k st₂ b₃ st₃) :
    (st₃.mem k = if b₁ || b₂ || b₃ then D.empty else D.apply own D.empty) ∧
      (st₃.mem k = D.empty ↔ (b₁ || b₂ || b₃) = true) := by
  have hvalue : st₃.mem k = if b₁ || b₂ || b₃ then D.empty else D.apply own D.empty := by
    cases hhandler with
    | complete hex =>
      have hmem : Function.update st.mem k D.empty k = D.empty :=
        Function.update_self k D.empty st.mem
      obtain ⟨hmem₂, hlog⟩ := hothers.ofKey_log (by simp only [hmem]; exact huntracked)
      rw [hrestart.mem_eq (by rw [hmem₂]; simp only [hmem]; exact huntracked), hlog]
      obtain ⟨_, hex'⟩ := hex.of_map_publish
      clear hex
      rcases hex' with _ | _ | ⟨_, _ | ⟨_, _ | _ | ⟨_, hex⟩⟩⟩
      cases hex with
      | keep _ hex =>
        cases hex
        cases b₂ <;> cases b₃
        · simp only [ofKey_append, ofKey_singleton_self, List.foldl_append, List.foldl_cons,
            List.foldl_nil, hdrop, Bool.or_self, Bool.false_eq_true, if_false]
        all_goals rfl
      | compact _ hc hex =>
        cases hex
        obtain ⟨order, hnd, horder, hall⟩ := hc
        have hmid := ofKey_of_forall₂
          (fun k' r ↦ D.Snap (Function.update st.mem k D.empty k') r) hnd hall k
        rw [if_neg (by rw [horder, hmem]; exact huntracked)] at hmid
        simp only [hmid]
        cases b₂ <;> cases b₃ <;> rfl
  refine ⟨hvalue, ?_⟩
  rw [hvalue]
  cases b₁ || b₂ || b₃
  · simpa using hown
  · simp

end WriteAhead
