import MoneyLaundering.Logging.KeyedLog

/-!
# Write-ahead logging with snapshots and crashes

A handler works on the in-memory state of one key. What it leaves behind is a list of *effects*, in
the order in which they reach the outside world: messages it publishes, records it appends to the
log, and checkpoints — points at which the log may be compacted into one snapshot record for each
tracked key. A crash keeps a prefix of the effects and loses the memory, which is then rebuilt by
replaying the log (and the log is compacted).

## Views

Replay need not rebuild a state exactly: a key with a counter at zero and a key with no counter may
be different states that no reader tells apart. A `View` is an observation of states that records
act on and snapshots restore. For a view, `outcome_view` says all there is to say about a handler
run: whether it completes or crashes after any number of effects, the view of the key afterwards —
in memory and on disk — is the fold of the records that were appended, and nothing else changes.
-/

namespace WriteAhead

open KeyedLog

variable {K S R O V : Type*} [DecidableEq K]

/-- How the state of a key is logged. -/
structure Discipline (S R : Type*) where
  /-- The state of a key nothing has been recorded for. -/
  empty : S
  /-- Replaying one record. -/
  apply : R → S → S
  /-- The states a compaction writes out. -/
  tracked : S → Prop
  /-- The records that may stand for a state after a compaction. -/
  Snap : S → R → Prop

/-- What a handler does that outlives it, in order. -/
inductive Effect (S R O : Type*)
  | publish (o : O)
  | append (r : R)
  /-- A point where the log may be compacted, with the memory of the handler's key there. -/
  | checkpoint (s : S)

def publishes : List (Effect S R O) → List O
  | [] => []
  | .publish o :: es => o :: publishes es
  | .append _ :: es => publishes es
  | .checkpoint _ :: es => publishes es

def appends : List (Effect S R O) → List R
  | [] => []
  | .publish _ :: es => appends es
  | .append r :: es => r :: appends es
  | .checkpoint _ :: es => appends es

theorem publishes_append (es es' : List (Effect S R O)) :
    publishes (es ++ es') = publishes es ++ publishes es' := by
  induction es with
  | nil => rfl
  | cons e es ih => cases e <;> simp [publishes, ih]

theorem appends_append (es es' : List (Effect S R O)) :
    appends (es ++ es') = appends es ++ appends es' := by
  induction es with
  | nil => rfl
  | cons e es ih => cases e <;> simp [appends, ih]

@[simp] theorem publishes_map_publish (os : List O) (es : List (Effect S R O)) :
    publishes (os.map .publish ++ es) = os ++ publishes es := by
  induction os with
  | nil => rfl
  | cons o os ih => simp [publishes, ih]

@[simp] theorem appends_map_publish (os : List O) (es : List (Effect S R O)) :
    appends (os.map .publish ++ es) = appends es := by
  induction os with
  | nil => rfl
  | cons o os ih => simp [appends, ih]

/-- The effects that happen before a crash after `n` of them, or all when there is no crash. -/
def upTo (point : Option ℕ) (es : List (Effect S R O)) : List (Effect S R O) :=
  match point with
  | none => es
  | some n => es.take n

/-- A handler that has appended nothing when it crashes has only published. -/
theorem take_eq_map_publish {os : List O} {r : R} {es : List (Effect S R O)} {n : ℕ}
    (h : appends ((os.map Effect.publish ++ Effect.append r :: es).take n) = []) :
    (os.map Effect.publish ++ Effect.append r :: es).take n = (os.take n).map Effect.publish := by
  induction os generalizing n with
  | nil =>
    cases n with
    | zero => rfl
    | succ n => exact absurd h (List.cons_ne_nil r _)
  | cons o os ih =>
    cases n with
    | zero => rfl
    | succ n => exact congrArg (Effect.publish o :: ·) (ih h)

/-- What is appended before a crash is the first of what would be appended. -/
theorem appends_upTo (point : Option ℕ) (es : List (Effect S R O)) :
    appends (upTo point es) <+: appends es := by
  cases point with
  | none => exact List.prefix_refl _
  | some n =>
    rw [upTo]
    induction es generalizing n with
    | nil => rw [List.take_nil]
    | cons e es ih =>
      cases n with
      | zero => exact List.nil_prefix
      | succ n =>
        rw [List.take_succ_cons]
        cases e with
        | publish o => exact ih n
        | append r => exact List.cons_prefix_cons.mpr ⟨rfl, ih n⟩
        | checkpoint s => exact ih n

/-! ## Running a handler's effects -/

/-- The memory of a process and its log file. -/
structure Store (K S R : Type*) where
  mem : K → S
  log : List (K × R)

namespace Discipline

variable (D : Discipline S R)

/-- The memory that replaying a log rebuilds. -/
def recovered (log : List (K × R)) : K → S := replay D.apply (fun _ ↦ D.empty) log

/-- `log` is a compaction of the memory `mem`: one snapshot for each tracked key, in any order. -/
def Compacts (mem : K → S) (log : List (K × R)) : Prop :=
  ∃ order : List K, order.Nodup ∧ (∀ k, k ∈ order ↔ D.tracked (mem k)) ∧
    List.Forall₂ (fun k r ↦ r.1 = k ∧ D.Snap (mem k) r.2) order log

/-- Carrying out effects for key `k` of a process whose memory is `mem`: the log before and after,
what was published, and whether the log was compacted on the way. Whether a checkpoint compacts is
not determined. -/
inductive Exec (mem : K → S) (k : K) :
    List (Effect S R O) → List (K × R) → List (K × R) → List O → Bool → Prop
  | nil (log) : Exec mem k [] log log [] false
  | publish {es log log' outs b} (o : O) (h : Exec mem k es log log' outs b) :
      Exec mem k (.publish o :: es) log log' (o :: outs) b
  | append {es log log' outs b} (r : R) (h : Exec mem k es (log ++ [(k, r)]) log' outs b) :
      Exec mem k (.append r :: es) log log' outs b
  | keep {es log log' outs b} (s : S) (h : Exec mem k es log log' outs b) :
      Exec mem k (.checkpoint s :: es) log log' outs b
  | compact {es log mid log' outs b} (s : S) (hc : D.Compacts (Function.update mem k s) mid)
      (h : Exec mem k es mid log' outs b) :
      Exec mem k (.checkpoint s :: es) log log' outs true

/-- Restarting from a log file: replay it, then compact it. -/
def Restarts (log : List (K × R)) (st : Store K S R) : Prop :=
  st.mem = D.recovered log ∧ D.Compacts st.mem st.log

/-- How a handler run for key `k` can end that would leave the memory `s` after the effects `es`:
it completes, or the process crashes after `n` effects and restarts. The last argument is whether
the log was compacted. -/
inductive Outcome (st : Store K S R) (k : K) (s : S) (es : List (Effect S R O)) :
    Option ℕ → List O → Store K S R → Bool → Prop
  | complete {log' outs b} (h : D.Exec st.mem k es st.log log' outs b) :
      Outcome st k s es none outs ⟨Function.update st.mem k s, log'⟩ b
  | crash {log' outs b st'} (n : ℕ) (h : D.Exec st.mem k (es.take n) st.log log' outs b)
      (hr : D.Restarts log' st') : Outcome st k s es (some n) outs st' true

variable {D}

theorem Exec.outs_eq {mem : K → S} {k : K} {es : List (Effect S R O)} {log log' : List (K × R)}
    {outs : List O} {b : Bool} (h : D.Exec mem k es log log' outs b) : outs = publishes es := by
  induction h with
  | nil => rfl
  | publish o _ ih => rw [publishes, ih]
  | append r _ ih => rw [publishes, ih]
  | keep s _ ih => rw [publishes, ih]
  | compact s _ _ ih => rw [publishes, ih]

/-- A handler that has only published so far has not touched the log. -/
theorem Exec.log_eq_of_publishes {mem : K → S} {k : K} {os : List O} {log log' : List (K × R)}
    {outs : List O} {b : Bool} (h : D.Exec mem k (os.map .publish) log log' outs b) :
    log' = log := by
  induction os generalizing outs with
  | nil =>
    cases h
    rfl
  | cons o os ih =>
    cases h with
    | publish _ h => exact ih h

/-- What a handler does after it has published something. -/
theorem Exec.of_map_publish {mem : K → S} {k : K} {os : List O} {es : List (Effect S R O)}
    {log log' : List (K × R)} {outs : List O} {b : Bool}
    (h : D.Exec mem k (os.map .publish ++ es) log log' outs b) :
    ∃ outs', D.Exec mem k es log log' outs' b := by
  induction os generalizing outs with
  | nil => exact ⟨outs, h⟩
  | cons o os ih =>
    cases h with
    | publish _ h => exact ih h

/-- Every list of effects can be carried out without compacting. -/
theorem exec_keep (mem : K → S) (k : K) (es : List (Effect S R O)) (log : List (K × R)) :
    D.Exec mem k es log (log ++ (appends es).map fun r ↦ (k, r)) (publishes es) false := by
  induction es generalizing log with
  | nil => simpa [appends, publishes] using Exec.nil log
  | cons e es ih =>
    cases e with
    | publish o => exact .publish o (ih log)
    | append r => exact .append r (by simpa [appends, publishes] using ih (log ++ [(k, r)]))
    | checkpoint s => exact .keep s (ih log)

/-- A memory with finitely many tracked keys can be compacted. -/
theorem exists_compacts (hsnap : ∀ s, D.tracked s → ∃ r, D.Snap s r) (mem : K → S) (keys : List K)
    (hkeys : ∀ k, D.tracked (mem k) → k ∈ keys) : ∃ log, D.Compacts mem log := by
  classical
  let order := keys.dedup.filter fun k ↦ D.tracked (mem k)
  have horder : ∀ k, k ∈ order ↔ D.tracked (mem k) := fun k ↦ by
    simp only [order, List.mem_filter, List.mem_dedup, decide_eq_true_eq]
    exact ⟨And.right, fun h ↦ ⟨hkeys k h, h⟩⟩
  have hlog : ∀ l : List K, (∀ k ∈ l, D.tracked (mem k)) →
      ∃ log : List (K × R), List.Forall₂ (fun k r ↦ r.1 = k ∧ D.Snap (mem k) r.2) l log := by
    intro l hl
    induction l with
    | nil => exact ⟨[], .nil⟩
    | cons k l ih =>
      obtain ⟨log, hlog⟩ := ih fun k' hk' ↦ hl k' (List.mem_cons_of_mem k hk')
      obtain ⟨r, hr⟩ := hsnap _ (hl k List.mem_cons_self)
      exact ⟨(k, r) :: log, .cons ⟨rfl, hr⟩ hlog⟩
  obtain ⟨log, hlog⟩ := hlog order fun k hk ↦ (horder k).mp hk
  exact ⟨log, order, keys.nodup_dedup.filter _, horder, hlog⟩

theorem recovered_of_notMem {log : List (K × R)} {k : K} (h : k ∉ log.map Prod.fst) :
    D.recovered log k = D.empty := by
  have hnil : ofKey k log = [] := by
    refine List.filterMap_eq_nil_iff.mpr fun r hr ↦ if_neg fun hk ↦ ?_
    exact h (List.mem_map.mpr ⟨r, hr, hk⟩)
  rw [recovered, replay_apply, hnil, List.foldl_nil]

/-- Restarting is possible from any log. -/
theorem exists_restarts (hsnap : ∀ s, D.tracked s → ∃ r, D.Snap s r) (hempty : ¬D.tracked D.empty)
    (log : List (K × R)) : ∃ st, D.Restarts log st := by
  obtain ⟨log', hlog'⟩ := exists_compacts hsnap (D.recovered log) (log.map Prod.fst)
    fun k hk ↦ by
      by_contra hnot
      rw [recovered_of_notMem hnot] at hk
      exact hempty hk
  exact ⟨⟨D.recovered log, log'⟩, rfl, hlog'⟩

/-- The state of a key that a compaction either writes out or has nothing to write for. -/
def Settled (D : Discipline S R) (s : S) : Prop := D.tracked s ∨ s = D.empty

theorem settled_empty : D.Settled D.empty := Or.inr rfl

theorem settled_recovered (happly : ∀ r s, D.Settled (D.apply r s)) (log : List (K × R)) (k : K) :
    D.Settled (D.recovered log k) := by
  rw [recovered, replay_apply]
  rcases List.eq_nil_or_concat (ofKey k log) with h | ⟨rs, r, h⟩
  · rw [h]
    exact settled_empty
  · rw [h, List.concat_eq_append, List.foldl_append]
    exact happly r _

end Discipline

/-! ## Views -/

/-- An observation of states that records act on and that snapshots restore. -/
structure View (D : Discipline S R) (V : Type*) where
  view : S → V
  apply : R → V → V
  view_apply : ∀ r s, view (D.apply r s) = apply r (view s)
  view_snap : ∀ {s r}, D.Snap s r → apply r (view D.empty) = view s

namespace View

variable {D : Discipline S R} (ν : View D V)

/-- What the log says about a key. -/
def durable (log : List (K × R)) (k : K) : V := ν.view (D.recovered log k)

/-- The effect of a list of records on an observation. -/
def applyAll (rs : List R) (v : V) : V := rs.foldl (fun v r ↦ ν.apply r v) v

theorem applyAll_append (rs rs' : List R) (v : V) :
    ν.applyAll (rs ++ rs') v = ν.applyAll rs' (ν.applyAll rs v) := List.foldl_append

@[simp] theorem applyAll_nil (v : V) : ν.applyAll [] v = v := rfl

@[simp] theorem applyAll_cons (r : R) (rs : List R) (v : V) :
    ν.applyAll (r :: rs) v = ν.applyAll rs (ν.apply r v) := rfl

theorem view_foldl (rs : List R) (s : S) :
    ν.view (rs.foldl (fun s r ↦ D.apply r s) s) = ν.applyAll rs (ν.view s) := by
  induction rs generalizing s with
  | nil => rfl
  | cons r rs ih => rw [List.foldl_cons, ih, ν.view_apply, applyAll_cons]

theorem durable_eq (log : List (K × R)) (k : K) :
    ν.durable log k = ν.applyAll (ofKey k log) (ν.view D.empty) := by
  rw [durable, Discipline.recovered, replay_apply, view_foldl]

theorem durable_append_self (log : List (K × R)) (k : K) (r : R) :
    ν.durable (log ++ [(k, r)]) k = ν.apply r (ν.durable log k) := by
  rw [durable_eq, durable_eq, ofKey_append, ofKey_singleton_self, applyAll_append]
  rfl

theorem durable_append_records (log : List (K × R)) (k : K) (rs : List R) :
    ν.durable (log ++ rs.map (Prod.mk k)) k = ν.applyAll rs (ν.durable log k) := by
  rw [durable_eq, durable_eq, ofKey_append, ofKey_map_mk, applyAll_append]

theorem durable_append_of_ne {k k' : K} (h : k' ≠ k) (log : List (K × R)) (r : R) :
    ν.durable (log ++ [(k', r)]) k = ν.durable log k := by
  rw [durable_eq, durable_eq, ofKey_append, ofKey_singleton_of_ne h, List.append_nil]

/-- **A compaction keeps what is known about every settled key.** -/
theorem durable_of_compacts {mem : K → S} {log : List (K × R)} (h : D.Compacts mem log) (k : K)
    (hs : D.Settled (mem k)) : ν.durable log k = ν.view (mem k) := by
  obtain ⟨order, hnd, horder, hall⟩ := h
  have hk := ofKey_of_forall₂ (fun k r ↦ D.Snap (mem k) r) hnd hall k
  rw [durable_eq]
  by_cases hmem : k ∈ order
  · rw [if_pos hmem] at hk
    obtain ⟨r, hr, hlog⟩ := hk
    rw [hlog, applyAll_cons, applyAll_nil, ν.view_snap hr]
  · rw [if_neg hmem] at hk
    have hempty : mem k = D.empty := hs.resolve_left fun ht ↦ hmem ((horder k).mpr ht)
    rw [hk, applyAll_nil, hempty]

/-- The checkpoints of a handler see the memory that its earlier records describe. -/
def Consistent : V → List (Effect S R O) → Prop
  | _, [] => True
  | v, .publish _ :: es => Consistent v es
  | v, .append r :: es => Consistent (ν.apply r v) es
  | v, .checkpoint s :: es => ν.view s = v ∧ D.Settled s ∧ Consistent v es

theorem consistent_map_publish (v : V) (os : List O) (es : List (Effect S R O)) :
    ν.Consistent v (os.map .publish ++ es) ↔ ν.Consistent v es := by
  induction os with
  | nil => rfl
  | cons o os ih => exact ih

theorem Consistent.take {v : V} {es : List (Effect S R O)} (h : ν.Consistent v es) (n : ℕ) :
    ν.Consistent v (es.take n) := by
  induction es generalizing v n with
  | nil => rw [List.take_nil]; exact h
  | cons e es ih =>
    cases n with
    | zero => exact trivial
    | succ n =>
      rw [List.take_succ_cons]
      cases e with
      | publish o => exact ih h n
      | append r => exact ih h n
      | checkpoint s => exact ⟨h.1, h.2.1, ih h.2.2 n⟩

/-- The records a handler appends are what it makes durable, wherever it compacts. -/
theorem durable_exec {mem : K → S} {k : K} {es : List (Effect S R O)} {log log' : List (K × R)}
    {outs : List O} {b : Bool} (h : D.Exec mem k es log log' outs b)
    (hc : ν.Consistent (ν.durable log k) es) :
    ν.durable log' k = ν.applyAll (appends es) (ν.durable log k) := by
  induction h with
  | nil => rfl
  | publish o _ ih => exact ih hc
  | append r _ ih =>
    rw [appends, applyAll_cons, ← durable_append_self]
    exact ih (by rw [durable_append_self]; exact hc)
  | keep s _ ih => exact ih hc.2.2
  | compact s hcomp _ ih =>
    have hmid := ν.durable_of_compacts hcomp k (by rw [Function.update_self]; exact hc.2.1)
    rw [Function.update_self, hc.1] at hmid
    rw [ih (by rw [hmid]; exact hc.2.2), hmid]
    rfl

/-- A handler leaves what is known about the other keys alone. -/
theorem durable_exec_of_ne {mem : K → S} {k k' : K} {es : List (Effect S R O)}
    {log log' : List (K × R)} {outs : List O} {b : Bool}
    (h : D.Exec mem k es log log' outs b) (hk : k ≠ k')
    (hsync : ν.view (mem k') = ν.durable log k') (hs : D.Settled (mem k')) :
    ν.durable log' k' = ν.durable log k' := by
  induction h with
  | nil => rfl
  | publish o _ ih => exact ih hsync
  | append r _ ih =>
    rw [ih (by rw [hsync, durable_append_of_ne ν hk]), durable_append_of_ne ν hk]
  | keep s _ ih => exact ih hsync
  | compact s hcomp _ ih =>
    have hmem : Function.update mem k s k' = mem k' := Function.update_of_ne hk.symm s mem
    have hmid := ν.durable_of_compacts hcomp k' (by rw [hmem]; exact hs)
    rw [hmem, hsync] at hmid
    rw [ih (by rw [hsync, hmid]), hmid]

/-! ## Handler runs -/

/-- Memory and log agree on key `k`. -/
def Synced (st : Store K S R) (k : K) : Prop :=
  ν.view (st.mem k) = ν.durable st.log k ∧ D.Settled (st.mem k)

theorem synced_of_restarts (happly : ∀ r s, D.Settled (D.apply r s)) {log : List (K × R)}
    {st : Store K S R} (h : D.Restarts log st) (k : K) :
    ν.view (st.mem k) = ν.durable log k ∧ ν.Synced st k := by
  obtain ⟨hmem, hcomp⟩ := h
  have hs : D.Settled (st.mem k) := by
    rw [hmem]
    exact Discipline.settled_recovered happly log k
  refine ⟨by rw [hmem, durable], ?_, hs⟩
  exact (ν.durable_of_compacts hcomp k hs).symm

/-- **What a handler run does to its own key**: the records it got to append decide the new view,
in memory and on disk. -/
theorem outcome_view (happly : ∀ r s, D.Settled (D.apply r s)) {st st' : Store K S R} {k : K}
    {s : S} {es : List (Effect S R O)} {point : Option ℕ} {outs : List O}
    {b : Bool} (h : D.Outcome st k s es point outs st' b) (hsync : ν.Synced st k)
    (hc : ν.Consistent (ν.view (st.mem k)) es)
    (hfinal : ν.view s = ν.applyAll (appends es) (ν.view (st.mem k))) (hset : D.Settled s) :
    outs = publishes (upTo point es) ∧ ν.Synced st' k ∧
      ν.view (st'.mem k) = ν.applyAll (appends (upTo point es)) (ν.view (st.mem k)) := by
  rw [hsync.1] at hc
  cases h with
  | complete hex =>
    have hlog := ν.durable_exec hex hc
    rw [← hsync.1] at hlog
    refine ⟨hex.outs_eq, ?_, ?_⟩
    · refine ⟨?_, ?_⟩ <;> simp only [Function.update_self]
      · rw [hfinal, hlog]
      · exact hset
    · simp only [Function.update_self]
      exact hfinal
  | crash n hex hr =>
    have hlog := ν.durable_exec hex (Consistent.take ν hc n)
    obtain ⟨hmem, hsynced⟩ := ν.synced_of_restarts happly hr k
    exact ⟨hex.outs_eq, hsynced, by rw [hmem, hlog, hsync.1]; rfl⟩

/-- **What a handler run does to the other keys**: nothing. -/
theorem outcome_view_of_ne (happly : ∀ r s, D.Settled (D.apply r s)) {st st' : Store K S R}
    {k k' : K} {s : S} {es : List (Effect S R O)} {point : Option ℕ} {outs : List O}
    {b : Bool} (h : D.Outcome st k s es point outs st' b) (hk : k ≠ k') (hsync : ν.Synced st k') :
    ν.Synced st' k' ∧ ν.view (st'.mem k') = ν.view (st.mem k') := by
  cases h with
  | complete hex =>
    have hlog := ν.durable_exec_of_ne hex hk hsync.1 hsync.2
    have hmem : Function.update st.mem k s k' = st.mem k' :=
      Function.update_of_ne hk.symm s st.mem
    refine ⟨⟨?_, ?_⟩, ?_⟩ <;> simp only [hmem]
    · rw [hlog, hsync.1]
    · exact hsync.2
  | crash n hex hr =>
    have hlog := ν.durable_exec_of_ne hex hk hsync.1 hsync.2
    obtain ⟨hmem, hsynced⟩ := ν.synced_of_restarts happly hr k'
    exact ⟨hsynced, by rw [hmem, hlog, hsync.1]⟩

end View

end WriteAhead
