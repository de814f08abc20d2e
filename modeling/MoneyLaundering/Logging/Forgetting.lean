import MoneyLaundering.Logging.WriteAhead

/-!
# What memory and log hold

A handler that empties the memory of a key without a record leaves the log behind: the two then hold
different things for the key, and views cannot be `Synced`. What becomes of such a difference is
decided by compactions, which write the log from memory, and by crashes, which rebuild memory from
the log. `Mark` lists what happens to a key in this respect, and `View.held_run_of_ne`,
`View.held_run` and `View.held_run_drop` say which marks a handler run leaves.
-/

namespace WriteAhead

open KeyedLog

/-- What memory and log hold for a key, as far as a view shows. -/
@[ext] structure Held (V : Type*) where
  memory : V
  log : V

/-- What may happen to a key. -/
inductive Mark
  /-- The log is written from memory. -/
  | compacted
  /-- Memory is rebuilt from the log. -/
  | crashed
  /-- Memory is emptied, and the log is not. -/
  | emptied
  /-- Both are emptied. -/
  | dropped
  deriving DecidableEq, Repr

namespace Held

variable {V W : Type*}

def after (empty : V) (held : Held V) : Mark → Held V
  | .compacted => ⟨held.memory, held.memory⟩
  | .crashed => ⟨held.log, held.log⟩
  | .emptied => ⟨empty, held.log⟩
  | .dropped => ⟨empty, empty⟩

def afterAll (empty : V) (held : Held V) (marks : List Mark) : Held V :=
  marks.foldl (after empty) held

theorem afterAll_append (empty : V) (held : Held V) (marks marks' : List Mark) :
    held.afterAll empty (marks ++ marks') = (held.afterAll empty marks).afterAll empty marks' :=
  List.foldl_append

def map (f : V → W) (held : Held V) : Held W := ⟨f held.memory, f held.log⟩

/-- Marks move values around, whatever these are. -/
theorem map_afterAll (f : V → W) (empty : V) (held : Held V) (marks : List Mark) :
    (held.map f).afterAll (f empty) marks = (held.afterAll empty marks).map f := by
  induction marks generalizing held with
  | nil => rfl
  | cons mark marks ih =>
    have hmark : (held.map f).after (f empty) mark = (held.after empty mark).map f := by
      match mark with
      | .compacted | .crashed | .emptied | .dropped => rfl
    exact (congrArg (fun h : Held W ↦ h.afterAll (f empty) marks) hmark).trans (ih _)

/-- Whether memory and log still hold what was in the log when the memory was emptied. -/
def remaining (marks : List Mark) : Held Bool := afterAll false ⟨false, true⟩ marks

theorem afterAll_eq_remaining (empty before : V) (marks : List Mark) :
    afterAll empty ⟨empty, before⟩ marks
      = (remaining marks).map fun holds ↦ if holds then before else empty :=
  map_afterAll (fun holds ↦ if holds then before else empty) false ⟨false, true⟩ marks

end Held

variable {K S R O V : Type*} [DecidableEq K]

/-- What a handler run does apart from its effects: it may compact, and it may crash. -/
def runMarks (compacted : Bool) (point : Option ℕ) : List Mark :=
  (if compacted then [.compacted] else []) ++ if point = none then [] else [.crashed]

/-- A handler run, and whether the log was compacted in the course of it. -/
inductive Discipline.Run (D : Discipline S R) (st : Store K S R) (k : K) (s : S)
    (es : List (Effect S R O)) : Option ℕ → Bool → Store K S R → Prop
  | complete {log' outs b} (h : D.Exec st.mem k es st.log log' outs b) :
      Run D st k s es none b ⟨Function.update st.mem k s, log'⟩
  | crash {log' outs b st'} (n : ℕ) (h : D.Exec st.mem k (es.take n) st.log log' outs b)
      (hr : D.Restarts log' st') : Run D st k s es (some n) b st'

namespace View

variable {D : Discipline S R} (ν : View D V)

/-- What memory and log hold for a key. -/
def held (st : Store K S R) (k : K) : Held V := ⟨ν.view (st.mem k), ν.durable st.log k⟩

/-- The log of a key that a handler of another key leaves. -/
theorem durable_exec_of_ne' {mem : K → S} {k k' : K} {es : List (Effect S R O)}
    {log log' : List (K × R)} {outs : List O} {b : Bool} (h : D.Exec mem k es log log' outs b)
    (hk : k ≠ k') (hs : D.Settled (mem k')) :
    ν.durable log' k' = if b then ν.view (mem k') else ν.durable log k' := by
  induction h with
  | nil => rfl
  | publish o _ ih => exact ih
  | append r _ ih => rw [ih, durable_append_of_ne ν hk]
  | keep s _ ih => exact ih
  | @compact es log mid log' outs b s hcomp _ ih =>
    have hmem : Function.update mem k s k' = mem k' := Function.update_of_ne hk.symm s mem
    have hmid := ν.durable_of_compacts hcomp k' (by rw [hmem]; exact hs)
    rw [ih, hmid, hmem]
    cases b <;> rfl

/-- The log that a handler leaves of its own key, when its records show nothing in the view. -/
theorem durable_exec_of_silent {mem : K → S} {k : K} {es : List (Effect S R O)}
    {log log' : List (K × R)} {outs : List O} {b : Bool} (h : D.Exec mem k es log log' outs b)
    (hsilent : ∀ r ∈ appends es, ∀ v, ν.apply r v = v) {v : V}
    (hcheckpoints : ∀ s, .checkpoint s ∈ es → ν.view s = v ∧ D.Settled s) :
    ν.durable log' k = if b then v else ν.durable log k := by
  induction h with
  | nil => rfl
  | publish o _ ih => exact ih hsilent fun s hs ↦ hcheckpoints s (List.mem_cons_of_mem _ hs)
  | append r _ ih =>
    rw [ih (fun r' hr' ↦ hsilent r' (List.mem_cons_of_mem _ hr'))
      fun s hs ↦ hcheckpoints s (List.mem_cons_of_mem _ hs), durable_append_self,
      hsilent r List.mem_cons_self]
  | keep s _ ih => exact ih hsilent fun s hs ↦ hcheckpoints s (List.mem_cons_of_mem _ hs)
  | @compact es log mid log' outs b s hcomp _ ih =>
    obtain ⟨hview, hset⟩ := hcheckpoints s List.mem_cons_self
    have hmid := ν.durable_of_compacts hcomp k (by rw [Function.update_self]; exact hset)
    rw [Function.update_self, hview] at hmid
    rw [ih hsilent fun s hs ↦ hcheckpoints s (List.mem_cons_of_mem _ hs), hmid]
    cases b <;> rfl

/-- A restart makes memory and log agree. -/
theorem held_restarts (happly : ∀ r s, D.Settled (D.apply r s)) {log : List (K × R)}
    {st : Store K S R} (h : D.Restarts log st) (k : K) :
    ν.held st k = ⟨ν.durable log k, ν.durable log k⟩ ∧ D.Settled (st.mem k) := by
  obtain ⟨hmem, hsync, hset⟩ := ν.synced_of_restarts happly h k
  exact ⟨Held.ext hmem (hsync.symm.trans hmem), hset⟩

variable {ν} {st st' : Store K S R} {k k' : K} {s : S} {es : List (Effect S R O)} {point : Option ℕ}
  {b : Bool}

/-- What a handler run for another key does. -/
theorem held_run_of_ne (empty : V) (happly : ∀ r s, D.Settled (D.apply r s))
    (h : D.Run st k s es point b st') (hk : k ≠ k') (hs : D.Settled (st.mem k')) :
    ν.held st' k' = (ν.held st k').afterAll empty (runMarks b point) ∧ D.Settled (st'.mem k') := by
  cases h with
  | complete hex =>
    have hlog := ν.durable_exec_of_ne' hex hk hs
    have hmem : Function.update st.mem k s k' = st.mem k' :=
      Function.update_of_ne hk.symm s st.mem
    refine ⟨?_, by simp only [hmem]; exact hs⟩
    simp only [held, hmem, hlog]
    cases b <;> rfl
  | crash n hex hr =>
    have hlog := ν.durable_exec_of_ne' hex hk hs
    obtain ⟨hheld, hset⟩ := ν.held_restarts happly hr k'
    refine ⟨?_, hset⟩
    rw [hheld, hlog]
    cases b <;> rfl

/-- What a handler run does to its own key when its records show nothing, and its checkpoints and
its final memory show `v`. -/
theorem held_run (empty : V) (happly : ∀ r s, D.Settled (D.apply r s))
    (h : D.Run st k s es point b st') (hsilent : ∀ r ∈ appends es, ∀ v, ν.apply r v = v) {v : V}
    (hcheckpoints : ∀ s, .checkpoint s ∈ es → ν.view s = v ∧ D.Settled s) (hview : ν.view s = v)
    (hset : D.Settled s) :
    ν.held st' k = Held.afterAll empty ⟨v, (ν.held st k).log⟩ (runMarks b point) ∧
      D.Settled (st'.mem k) := by
  cases h with
  | complete hex =>
    have hlog := ν.durable_exec_of_silent hex hsilent hcheckpoints
    refine ⟨?_, by simp only [Function.update_self]; exact hset⟩
    simp only [held, Function.update_self, hview, hlog]
    cases b <;> rfl
  | crash n hex hr =>
    have hlog := ν.durable_exec_of_silent hex
      (fun r hr ↦ hsilent r ((appends_upTo (some n) es).subset hr))
      fun s hs ↦ hcheckpoints s (List.mem_of_mem_take hs)
    obtain ⟨hheld, hset⟩ := ν.held_restarts happly hr k
    refine ⟨?_, hset⟩
    rw [hheld, hlog, held]
    cases b <;> rfl

/-- What a handler run does to its own key when it first appends a record that empties the log, and
then does as above with an empty memory. It may crash before that. -/
theorem held_run_drop {empty : V} {drop : R} (happly : ∀ r s, D.Settled (D.apply r s))
    (h : D.Run st k s (.append drop :: es) point b st') (hdrop : ∀ v, ν.apply drop v = empty)
    (hsilent : ∀ r ∈ appends es, ∀ v, ν.apply r v = v)
    (hcheckpoints : ∀ s, .checkpoint s ∈ es → ν.view s = empty ∧ D.Settled s)
    (hview : ν.view s = empty) (hset : D.Settled s) :
    ν.held st' k = (ν.held st k).afterAll empty
        ((if point = some 0 then [] else [.dropped]) ++ runMarks b point) ∧
      D.Settled (st'.mem k) := by
  have hdropped : ν.durable (st.log ++ [(k, drop)]) k = empty := by
    rw [durable_append_self, hdrop]
  cases h with
  | complete hex =>
    cases hex with
    | append _ hex =>
      have hlog := ν.durable_exec_of_silent hex hsilent hcheckpoints
      refine ⟨?_, by simp only [Function.update_self]; exact hset⟩
      simp only [held, Function.update_self, hview, hlog, hdropped]
      cases b <;> rfl
  | crash n hex hr =>
    obtain ⟨hheld, hset⟩ := ν.held_restarts happly hr k
    refine ⟨?_, hset⟩
    rw [hheld]
    cases n with
    | zero =>
      cases hex
      rfl
    | succ n =>
      cases hex with
      | append _ hex =>
        have hlog := ν.durable_exec_of_silent hex
          (fun r hr ↦ hsilent r ((appends_upTo (some n) es).subset hr))
          fun s hs ↦ hcheckpoints s (List.mem_of_mem_take hs)
        rw [hlog, hdropped]
        cases b <;> rfl

end View

end WriteAhead
