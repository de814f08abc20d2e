import MoneyLaundering.Storage.Lines
import MoneyLaundering.Text.JsonScan

/-!
# The file of spilled batches

A worker that joins its batches with a side input keeps the batches that come too early in a file,
one line of JSON each (`BatchSpill`, `common/worker/utils/spill.py`), and reads them back when the
side input is there. As with the state log, a crash may leave any part of the line that is being
written. Unlike the state log, the file is opened again for appending as it is: the next batch is
written behind the torn one, on the same line.

A drain reads back exactly the batches whose writes were completed if and only if no torn write left
anything in the file (`drain_iff`). What is torn inside its entry makes the drain raise, and what
reached the file as a whole is emitted although it was never written to the end.
-/

namespace MoneyLaundering

/-- What `serialize` and `deserialize` make of the batches of a worker: the object of the message
id and the items, as `json` writes it and reads it back. The text is ASCII, one byte a character. -/
structure EntryFormat (B : Type) where
  serialize : B → List Char
  /-- Nothing when it raises. -/
  deserialize : List Char → Option B
  deserialize_serialize : ∀ b, deserialize (serialize b) = some b
  newline_notMem : ∀ b, '\n' ∉ serialize b
  opening : ∀ b, ∃ rest, serialize b = '{' :: '"' :: 'm' :: rest
  closing : ∀ b, (serialize b).getLast? = some '}'
  /-- A text that begins with a brace is read as an object, or not at all. -/
  scan_of_deserialize : ∀ {text b}, text.head? = some '{' → deserialize text = some b →
    (Scan.outside 0).run text = .complete

namespace EntryFormat

variable {B : Type} (F : EntryFormat B) (b : B)

/-- What `write` writes. -/
def line : List Char := F.serialize b ++ ['\n']

theorem head?_serialize : (F.serialize b).head? = some '{' := by
  obtain ⟨rest, hrest⟩ := F.opening b
  rw [hrest]
  rfl

theorem serialize_ne_nil : F.serialize b ≠ [] := by
  obtain ⟨rest, hrest⟩ := F.opening b
  rw [hrest]
  exact List.cons_ne_nil _ _

theorem line_ne_nil : F.line b ≠ [] := List.append_ne_nil_of_left_ne_nil (F.serialize_ne_nil b) _

theorem objectText : ObjectText (F.serialize b) where
  opening := by
    obtain ⟨rest, hrest⟩ := F.opening b
    exact ⟨'m', rest, hrest, by decide, by decide⟩
  closing := F.closing b
  scan := F.scan_of_deserialize (F.head?_serialize b) (F.deserialize_serialize b)

theorem strip_line : strip (F.line b) = F.serialize b := by
  obtain ⟨rest, hrest⟩ := F.opening b
  have hlast := F.closing b
  rw [hrest] at hlast
  rw [line, hrest]
  exact strip_append_of_ends (by decide) (by decide) hlast (by simp; decide)

theorem strip_serialize : strip (F.serialize b) = F.serialize b := by
  obtain ⟨rest, hrest⟩ := F.opening b
  have hlast := F.closing b
  rw [hrest] at hlast
  have hnil : ∀ c ∈ ([] : List Char), isBlank c = true := by simp
  have hstrip := strip_append_of_ends (by decide) (by decide) hlast hnil
  rwa [List.append_nil, ← hrest] at hstrip

variable {F}

/-- An object that is not complete is not read, nor is what begins with more than one. -/
theorem deserialize_eq_none {text : List Char} (hhead : text.head? = some '{')
    (hopen : ((Scan.outside 0).run text).Open) {newline : List Char} (hnewline : '}' ∉ newline) :
    F.deserialize (strip (text ++ newline)) = none := by
  obtain ⟨text, rfl⟩ := List.head?_eq_some_iff.mp hhead
  refine Option.eq_none_iff_forall_ne_some.mpr fun b hb ↦ ?_
  have hbrace : isBlank '{' = false := by decide
  obtain ⟨blanks, hblanks, hsplit⟩ := exists_strip_append hbrace (text ++ newline)
  have hscan := F.scan_of_deserialize (head?_strip hbrace (text ++ newline)) hb
  refine Scan.run_ne_complete hopen.ne_complete hnewline ?_
  rw [← Scan.run_append, List.cons_append, hsplit, Scan.run_append, hscan, Scan.run_blanks hblanks]

end EntryFormat

/-- The files of the flows, if they exist, and which of them are open for appending. -/
structure BatchSpill (K : Type) where
  opened : K → Bool
  files : K → Option (List Char)

namespace BatchSpill

variable {K B : Type} [DecidableEq K] (F : EntryFormat B)

/-- Nothing has been spilled. -/
def init (K : Type) : BatchSpill K where
  opened := fun _ ↦ false
  files := fun _ ↦ none

/-- `write` after some characters have reached the file. -/
def writeChars (s : BatchSpill K) (key : K) (chars : List Char) : BatchSpill K where
  opened := Function.update s.opened key true
  files := Function.update s.files key (some ((s.files key).getD [] ++ chars))

def write (s : BatchSpill K) (key : K) (batch : B) : BatchSpill K :=
  s.writeChars key (F.line batch)

def close (s : BatchSpill K) (key : K) : BatchSpill K :=
  { s with opened := Function.update s.opened key false }

/-- The process is gone; the files stay. -/
def restart (s : BatchSpill K) : BatchSpill K :=
  { s with opened := fun _ ↦ false }

/-- What a `drain` has emitted, and whether it raised. -/
structure Drained (B : Type) where
  emitted : List B
  raised : Bool
  deriving DecidableEq, Repr

/-- The loop of `drain`. -/
def drainLines : List (List Char) → Drained B
  | [] => ⟨[], false⟩
  | raw :: lines =>
    let line := strip raw
    if line = [] then drainLines lines
    else
      match F.deserialize line with
      | none => ⟨[], true⟩
      | some batch =>
        let drained := drainLines lines
        { drained with emitted := batch :: drained.emitted }

/-- The file is removed at the end, if it is reached. -/
def drain (s : BatchSpill K) (key : K) : Drained B × BatchSpill K :=
  let s := s.close key
  match s.files key with
  | none => (⟨[], false⟩, s)
  | some text =>
    let drained := drainLines F (rawLines '\n' text)
    (drained,
      if drained.raised then s else { s with files := Function.update s.files key none })

end BatchSpill

/-- A call of `write`, and one that is cut short by a crash after some characters, upon which the
process is started again. -/
inductive SpillWrite (K B : Type)
  | done (key : K) (batch : B)
  | torn (key : K) (batch : B) (chars : ℕ)
  deriving DecidableEq, Repr

namespace SpillWrite

variable {K B : Type} (F : EntryFormat B)

def key : SpillWrite K B → K
  | done key _ | torn key _ _ => key

def batch : SpillWrite K B → B
  | done _ batch | torn _ batch _ => batch

/-- The batch of a write that came to its end. -/
def completed : SpillWrite K B → Option B
  | done _ batch => some batch
  | torn _ _ _ => none

/-- What it leaves in the file. -/
def left : SpillWrite K B → List Char
  | done _ batch => F.line batch
  | torn _ batch chars => (F.line batch).take chars

variable {F} in
/-- A torn write leaves nothing, or the beginning of its entry, or the whole line. -/
theorem left_cases (w : SpillWrite K B) :
    w.left F = [] ∨ w.left F = F.line w.batch ∨
      (w.left F ≠ [] ∧ w.left F <+: F.serialize w.batch) := by
  match w with
  | done _ _ => exact Or.inr (Or.inl rfl)
  | torn _ batch chars =>
    by_cases hall : (F.line batch).length ≤ chars
    · exact Or.inr (Or.inl (List.take_of_length_le hall))
    · by_cases hnil : (F.line batch).take chars = []
      · exact Or.inl hnil
      · have hlength : chars ≤ (F.serialize batch).length := by
          rw [EntryFormat.line, List.length_append, List.length_singleton] at hall
          omega
        refine Or.inr (Or.inr ⟨hnil, ?_⟩)
        change (F.line batch).take chars <+: F.serialize batch
        rw [EntryFormat.line, List.take_append_of_le_length hlength]
        exact List.take_prefix chars _

variable [DecidableEq K]

def perform (s : BatchSpill K) : SpillWrite K B → BatchSpill K
  | done key batch => s.write F key batch
  | torn key batch chars => (s.writeChars key ((F.line batch).take chars)).restart

/-- Some writes, beginning with no files. -/
def performAll (writes : List (SpillWrite K B)) : BatchSpill K :=
  writes.foldl (perform F) (BatchSpill.init K)

variable {F}

theorem files_perform (s : BatchSpill K) (w : SpillWrite K B) :
    (w.perform F s).files
      = Function.update s.files w.key (some ((s.files w.key).getD [] ++ w.left F)) := by
  match w with
  | done _ _ | torn _ _ _ => rfl

/-- **The file of a flow has what its own writes left, one behind the other.** -/
theorem files_performAll (writes : List (SpillWrite K B)) (key : K) :
    ((performAll F writes).files key).getD []
      = (writes.filter fun w ↦ w.key = key).flatMap (left F) := by
  induction writes using List.reverseRecOn with
  | nil => rfl
  | append_singleton writes w ih =>
    rw [performAll, List.foldl_append, List.foldl_cons, List.foldl_nil, ← performAll,
      files_perform, List.filter_append, List.flatMap_append, ← ih]
    by_cases hkey : w.key = key
    · subst hkey
      simp
    · simp [hkey, Function.update_of_ne (Ne.symm hkey)]

end SpillWrite

/-! ## Reading the file back -/

section

variable {K B : Type} {F : EntryFormat B}

open BatchSpill SpillWrite

theorem rawLines_line (batch : B) (rest : List Char) :
    rawLines '\n' (F.line batch ++ rest) = F.line batch :: rawLines '\n' rest := by
  rw [EntryFormat.line, List.append_assoc, List.singleton_append,
    rawLines_line_append (F.newline_notMem batch)]

/-- A whole line is emitted. -/
theorem drainLines_line (batch : B) (rest : List Char) :
    drainLines F (rawLines '\n' (F.line batch ++ rest))
      = { drainLines F (rawLines '\n' rest) with
          emitted := batch :: (drainLines F (rawLines '\n' rest)).emitted } := by
  rw [rawLines_line, drainLines]
  simp only [F.strip_line, F.serialize_ne_nil, if_false, F.deserialize_serialize]

theorem drainLines_raised {raw : List Char} (lines : List (List Char)) (hnil : strip raw ≠ [])
    (hnone : F.deserialize (strip raw) = none) : (drainLines F (raw :: lines)).raised = true := by
  rw [drainLines]
  simp only [hnil, if_false, hnone]

/-- The text of a line that is not the entry of one batch. -/
structure Spoilt (F : EntryFormat B) (text : List Char) : Prop where
  head : text.head? = some '{'
  newline_notMem : '\n' ∉ text
  isOpen : ((Scan.outside 0).run text).Open

theorem Spoilt.raised_line {text : List Char} (h : Spoilt F text) (rest : List Char) :
    (drainLines F (rawLines '\n' (text ++ '\n' :: rest))).raised = true := by
  rw [rawLines_line_append h.newline_notMem]
  exact drainLines_raised _ (strip_ne_nil h.head (by decide) _)
    (EntryFormat.deserialize_eq_none h.head h.isOpen (by decide))

theorem Spoilt.raised_end {text : List Char} (h : Spoilt F text) :
    (drainLines F (rawLines '\n' text)).raised = true := by
  have htext : text ≠ [] := by
    rintro rfl
    exact absurd h.head (by simp)
  rw [rawLines_of_notMem h.newline_notMem htext, ← List.append_nil text]
  exact drainLines_raised [] (strip_ne_nil h.head (by decide) [])
    (EntryFormat.deserialize_eq_none h.head h.isOpen List.not_mem_nil)

/-- What is written behind a spoilt text, or behind an entry without a newline. -/
theorem spoilt_append {text part : List Char} (hhead : text.head? = some '{')
    (hnewline : '\n' ∉ text) {batch : B} (hbegins : part <+: F.serialize batch)
    (hopen : ((Scan.outside 0).run (text ++ part)).Open) : Spoilt F (text ++ part) where
  head := by
    rw [List.head?_append, hhead]
    rfl
  newline_notMem hmem :=
    (List.mem_append.mp hmem).elim hnewline fun hpart ↦
      F.newline_notMem batch (hbegins.subset hpart)
  isOpen := hopen

theorem Spoilt.append {text part : List Char} (h : Spoilt F text) {batch : B}
    (hbegins : part <+: F.serialize batch) (hpart : part ≠ []) : Spoilt F (text ++ part) :=
  spoilt_append h.head h.newline_notMem hbegins <| by
    rw [Scan.run_append]
    exact (F.objectText batch).open_run h.isOpen hbegins hpart

theorem spoilt_serialize_append (first : B) {part : List Char} {batch : B}
    (hbegins : part <+: F.serialize batch) (hpart : part ≠ []) :
    Spoilt F (F.serialize first ++ part) :=
  spoilt_append (F.head?_serialize first) (F.newline_notMem first) hbegins <| by
    rw [Scan.run_append, (F.objectText first).scan]
    exact (F.objectText batch).open_run_complete hbegins hpart

theorem spoilt_of_torn {part : List Char} {batch : B} (hbegins : part <+: F.serialize batch)
    (hpart : part ≠ []) (hne : part ≠ F.serialize batch) : Spoilt F part := by
  obtain ⟨rest, hrest⟩ := hbegins
  have hrestne : rest ≠ [] := by
    rintro rfl
    exact hne (by rw [← hrest, List.append_nil])
  refine ⟨?_, fun hmem ↦ ?_, (F.objectText batch).open_of_torn hrest.symm hpart hrestne⟩
  · have hhead := F.head?_serialize batch
    rwa [← hrest, List.head?_append_of_ne_nil _ hpart] at hhead
  · exact F.newline_notMem batch (hrest ▸ List.mem_append_left rest hmem)

/-- **A line that begins with a torn entry raises, whatever was written behind it.** -/
theorem Spoilt.raised (writes : List (SpillWrite K B)) {text : List Char} (h : Spoilt F text) :
    (drainLines F (rawLines '\n' (text ++ writes.flatMap (left F)))).raised = true := by
  induction writes generalizing text with
  | nil =>
    rw [List.flatMap_nil, List.append_nil]
    exact h.raised_end
  | cons w writes ih =>
    rw [List.flatMap_cons, ← List.append_assoc]
    rcases w.left_cases (F := F) with hnil | hline | ⟨hnil, hbegins⟩
    · rw [hnil, List.append_nil]
      exact ih h
    · -- the line ends here, with a whole entry at its end
      have hspoilt := h.append List.prefix_rfl (F.serialize_ne_nil w.batch)
      have hraised := hspoilt.raised_line (writes.flatMap (left F))
      rwa [hline, EntryFormat.line, ← List.append_assoc text, List.append_assoc _ ['\n']]
    · exact ih (h.append hbegins hnil)

/-- An entry without its newline raises as soon as something is written behind it. -/
theorem raised_of_serialize (writes : List (SpillWrite K B)) (batch : B)
    (h : ¬∀ w ∈ writes, w.left F = []) :
    (drainLines F (rawLines '\n' (F.serialize batch ++ writes.flatMap (left F)))).raised
      = true := by
  induction writes with
  | nil => exact absurd (fun w hw ↦ absurd hw List.not_mem_nil) h
  | cons w writes ih =>
    rw [List.flatMap_cons, ← List.append_assoc]
    rcases w.left_cases (F := F) with hnil | hline | ⟨hnil, hbegins⟩
    · rw [hnil, List.append_nil]
      exact ih fun hall ↦ h (List.forall_mem_cons.mpr ⟨hnil, hall⟩)
    · have hspoilt := spoilt_serialize_append batch List.prefix_rfl (F.serialize_ne_nil w.batch)
      have hraised := hspoilt.raised_line (writes.flatMap (left F))
      rwa [hline, EntryFormat.line, ← List.append_assoc _ (F.serialize w.batch),
        List.append_assoc _ ['\n']]
    · exact (spoilt_serialize_append batch hbegins hnil).raised writes

theorem drainLines_serialize (batch : B) :
    drainLines F (rawLines '\n' (F.serialize batch)) = ⟨[batch], false⟩ := by
  rw [rawLines_of_notMem (F.newline_notMem batch) (F.serialize_ne_nil batch), drainLines]
  simp [F.strip_serialize, F.serialize_ne_nil, F.deserialize_serialize, drainLines]

/-- **What a drain that does not raise has emitted**: the batches of the writes that left something
in the file, completed or not. -/
theorem emitted_of_not_raised {writes : List (SpillWrite K B)}
    (h : (drainLines F (rawLines '\n' (writes.flatMap (left F)))).raised = false) :
    (drainLines F (rawLines '\n' (writes.flatMap (left F)))).emitted
      = (writes.filter fun w ↦ w.left F ≠ []).map SpillWrite.batch := by
  induction writes with
  | nil => rfl
  | cons w writes ih =>
    rw [List.flatMap_cons] at h ⊢
    rcases w.left_cases (F := F) with hnil | hline | ⟨hnil, hbegins⟩
    · rw [hnil, List.nil_append] at h ⊢
      rw [List.filter_cons_of_neg (by simpa using hnil)]
      exact ih h
    · have hne : w.left F ≠ [] := hline ▸ F.line_ne_nil w.batch
      rw [hline, drainLines_line] at h ⊢
      rw [List.filter_cons_of_pos (by simpa using hne), List.map_cons, ← ih h]
    · rw [List.filter_cons_of_pos (by simpa using hnil), List.map_cons]
      by_cases hall : w.left F = F.serialize w.batch
      · -- the entry lacks its newline, so that nothing can be behind it
        rw [hall] at h ⊢
        have hrest : ∀ w' ∈ writes, w'.left F = [] := by
          by_contra hsome
          exact absurd (raised_of_serialize writes w.batch hsome) (by simp [h])
        have hfilter : (writes.filter fun w' ↦ w'.left F ≠ []) = [] :=
          List.filter_eq_nil_iff.mpr fun w' hw' ↦ by simp [hrest w' hw']
        rw [List.flatMap_eq_nil_iff.mpr hrest, List.append_nil, drainLines_serialize, hfilter]
        rfl
      · exact absurd ((spoilt_of_torn hbegins hnil hall).raised writes) (by simp [h])

/-- When no torn write left anything, the lines are those of the completed writes. -/
theorem drainLines_completed {writes : List (SpillWrite K B)}
    (h : ∀ w ∈ writes, w.completed = none → w.left F = []) :
    drainLines F (rawLines '\n' (writes.flatMap (left F)))
      = ⟨writes.filterMap SpillWrite.completed, false⟩ := by
  induction writes with
  | nil => rfl
  | cons w writes ih =>
    obtain ⟨hw, hwrites⟩ := List.forall_mem_cons.mp h
    rw [List.flatMap_cons]
    match w with
    | .done key batch =>
      rw [show left F (.done key batch : SpillWrite K B) = F.line batch from rfl, drainLines_line,
        ih hwrites]
      rfl
    | .torn key batch chars =>
      rw [hw rfl, List.nil_append, ih hwrites]
      rfl

/-- A write that came to its end left its line. -/
theorem left_ne_nil_of_completed {w : SpillWrite K B} (h : w.completed ≠ none) : w.left F ≠ [] := by
  match w with
  | .done _ batch => exact F.line_ne_nil batch
  | .torn _ _ _ => exact absurd rfl h

/-- If no more is emitted than was completed, no torn write left anything. -/
theorem untorn_of_emitted {writes : List (SpillWrite K B)}
    (h : (writes.filter fun w ↦ w.left F ≠ []).map SpillWrite.batch
      = writes.filterMap SpillWrite.completed) :
    ∀ w ∈ writes, w.completed = none → w.left F = [] := by
  have hfilter : (writes.filter fun w ↦ w.left F ≠ []).filterMap SpillWrite.completed
      = writes.filterMap SpillWrite.completed := by
    rw [List.filterMap_filter]
    refine List.filterMap_congr fun w _ ↦ ?_
    by_cases hcompleted : w.completed = none
    · simp [hcompleted]
    · simp [left_ne_nil_of_completed (F := F) hcompleted]
  intro w hw hcompleted
  by_contra hleft
  have hmem : w ∈ writes.filter fun w ↦ w.left F ≠ [] :=
    List.mem_filter.mpr ⟨hw, by simpa using hleft⟩
  have hlt := List.length_filterMap_lt_length_iff_exists.mpr ⟨w, hmem, hcompleted⟩
  rw [hfilter, ← h, List.length_map] at hlt
  exact lt_irrefl _ hlt

/-! ## Draining -/

variable [DecidableEq K]

/-- What a drain of a flow has to do after some writes: not to raise, to emit exactly the batches
whose writes were completed, in order and each once, and to remove the file. -/
structure DrainedExactly (F : EntryFormat B) (writes : List (SpillWrite K B)) (key : K) : Prop where
  not_raised : ((performAll F writes).drain F key).1.raised = false
  emitted : ((performAll F writes).drain F key).1.emitted
    = (writes.filter fun w ↦ w.key = key).filterMap SpillWrite.completed
  removed : ((performAll F writes).drain F key).2.files key = none

/-- A drain reads what the writes of its flow left. -/
theorem drain_performAll (F : EntryFormat B) (writes : List (SpillWrite K B)) (key : K) :
    ((performAll F writes).drain F key).1
      = drainLines F (rawLines '\n' ((writes.filter fun w ↦ w.key = key).flatMap (left F))) := by
  have hfiles := files_performAll (F := F) writes key
  rw [drain]
  simp only [BatchSpill.close]
  match hfile : (performAll F writes).files key with
  | none =>
    rw [hfile] at hfiles
    rw [← hfiles]
    rfl
  | some text =>
    rw [hfile, Option.getD_some] at hfiles
    rw [hfiles]

theorem files_drain_of_not_raised {s : BatchSpill K} {key : K}
    (h : (s.drain F key).1.raised = false) : (s.drain F key).2.files key = none := by
  rw [drain] at h ⊢
  simp only [BatchSpill.close] at h ⊢
  match hfile : s.files key with
  | none => exact hfile
  | some text =>
    simp only [hfile] at h
    simp [h]

/-- What it means for the writes of a flow that no torn one left anything. -/
theorem untorn_iff {writes : List (SpillWrite K B)} {key : K} :
    (∀ w ∈ writes.filter fun w ↦ w.key = key, w.completed = none → w.left F = []) ↔
      ∀ batch chars, .torn key batch chars ∈ writes → chars = 0 := by
  have hleft : ∀ batch chars, left F (.torn key batch chars : SpillWrite K B) = [] ↔ chars = 0 :=
    fun batch chars ↦ List.take_eq_nil_iff.trans (or_iff_left (F.line_ne_nil batch))
  simp only [List.mem_filter, decide_eq_true_eq, and_imp]
  constructor
  · intro h batch chars hmem
    exact (hleft batch chars).mp (h _ hmem rfl rfl)
  · intro h w hmem hkey hcompleted
    match w with
    | .done _ _ => exact absurd hcompleted (Option.some_ne_none _)
    | .torn key' batch chars =>
      obtain rfl : key' = key := hkey
      exact (hleft batch chars).mpr (h batch chars hmem)

/-- **A drain does what it should exactly when no torn write of its flow left anything.** It does
not raise, emits the completed batches, each once, and no others, and removes the file, if and only
if every write of the flow that was cut short was so before its first character reached the file. -/
theorem drain_iff (F : EntryFormat B) (writes : List (SpillWrite K B)) (key : K) :
    DrainedExactly F writes key ↔
      ∀ batch chars, .torn key batch chars ∈ writes → chars = 0 := by
  have hdrain := drain_performAll F writes key
  rw [← untorn_iff (F := F)]
  constructor
  · intro h
    have hraised := h.not_raised
    have hemitted := h.emitted
    rw [hdrain] at hraised hemitted
    exact untorn_of_emitted ((emitted_of_not_raised hraised).symm.trans hemitted)
  · intro h
    have hdrained := hdrain.trans (drainLines_completed h)
    have hraised : ((performAll F writes).drain F key).1.raised = false := by rw [hdrained]
    exact ⟨hraised, by rw [hdrained], files_drain_of_not_raised hraised⟩

end

/-- The entry of message `m` with no items. -/
def emptyEntry : List Char := "\x7b\"mid\": \"m\", \"items\": []\x7d".toList

/-- That entry only. -/
def emptyEntryFormat : EntryFormat Unit where
  serialize _ := emptyEntry
  deserialize text := if text = emptyEntry then some () else none
  deserialize_serialize := by decide
  newline_notMem := by decide
  opening _ := ⟨emptyEntry.drop 3, by decide⟩
  closing := by decide
  scan_of_deserialize _ htext := by
    split at htext
    · rename_i heq
      subst heq
      decide
    · exact absurd htext (by simp)

/-- The first character of a batch reaches the file, the batch is redelivered and written whole, and
the drain raises. -/
theorem drain_torn : ¬DrainedExactly emptyEntryFormat [.torn () () 1, .done () ()] () :=
  fun h ↦ absurd h.not_raised (by decide +kernel)

end MoneyLaundering
