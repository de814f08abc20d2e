import Mathlib.Data.List.Basic

/-!
# Files of lines

A file is a list of symbols, and `rawLines` is what iterating over it yields: the lines, each with
its newline, and at the end a line without one if the file does not end with a newline. A line that
was written with its newline is found again whatever follows it (`rawLines_line_append`).
-/

namespace MoneyLaundering

variable {α : Type*} [DecidableEq α]

/-- The lines of a file, each with its newline if it has one. -/
def rawLines (newline : α) : List α → List (List α)
  | [] => []
  | c :: cs =>
    if c = newline then [c] :: rawLines newline cs
    else
      match rawLines newline cs with
      | [] => [[c]]
      | line :: lines => (c :: line) :: lines

variable {newline : α}

@[simp] theorem rawLines_nil : rawLines newline [] = [] := rfl

/-- A whole line is read whatever follows. -/
theorem rawLines_line_append {line : List α} (h : newline ∉ line) (rest : List α) :
    rawLines newline (line ++ newline :: rest) = (line ++ [newline]) :: rawLines newline rest := by
  induction line with
  | nil => simp [rawLines]
  | cons c line ih =>
    have hc : c ≠ newline := fun heq ↦ h (heq ▸ List.mem_cons_self)
    rw [List.cons_append, rawLines, if_neg hc, ih fun hmem ↦ h (List.mem_cons_of_mem c hmem)]
    rfl

/-- What has no newline is one line. -/
theorem rawLines_of_notMem {tail : List α} (h : newline ∉ tail) (hne : tail ≠ []) :
    rawLines newline tail = [tail] := by
  induction tail with
  | nil => exact absurd rfl hne
  | cons c tail ih =>
    have hc : c ≠ newline := fun heq ↦ h (heq ▸ List.mem_cons_self)
    rw [rawLines, if_neg hc]
    by_cases htail : tail = []
    · rw [htail]
      rfl
    · rw [ih (fun hmem ↦ h (List.mem_cons_of_mem c hmem)) htail]

end MoneyLaundering
