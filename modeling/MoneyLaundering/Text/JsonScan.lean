import MoneyLaundering.Text.PythonInt

/-!
# Scanning the text of an object

The texts that `json.loads` reads as an object are described here by two facts about JSON that a
single pass over the characters can check: outside of strings, the last brace closes the first one,
and what follows a string is a separator, a closing bracket or a blank. A text that is not
`complete` in this sense is not an object, whatever else it is.

The pass is used to show that an object does not begin with another, and that objects, whole or
torn, do not make an object when one is written behind the other (`Torn.append`).
-/

namespace MoneyLaundering

/-- The characters `str.strip` drops on both sides. -/
def isBlank (c : Char) : Bool :=
  PythonInt.isSpace c || (0x1c ≤ c.toNat ∧ c.toNat ≤ 0x1f)

/-- `line.strip()`. -/
def strip (line : List Char) : List Char :=
  ((line.dropWhile isBlank).reverse.dropWhile isBlank).reverse

theorem dropWhile_eq_self {p : Char → Bool} {c : Char} {l : List Char} (h : p c = false) :
    (c :: l).dropWhile p = c :: l := by
  simp [h]

/-- Only blanks behind a text that does not begin with one are dropped. -/
theorem exists_strip_append {c : Char} (hc : isBlank c = false) (l : List Char) :
    ∃ blanks, (∀ b ∈ blanks, isBlank b = true) ∧ c :: l = strip (c :: l) ++ blanks := by
  refine ⟨((c :: l).reverse.takeWhile isBlank).reverse, ?_, ?_⟩
  · intro b hb
    exact List.mem_takeWhile_imp (List.mem_reverse.mp hb)
  · have hsplit := List.takeWhile_append_dropWhile (p := isBlank) (l := (c :: l).reverse)
    rw [strip, dropWhile_eq_self hc, ← List.reverse_append, hsplit, List.reverse_reverse]

theorem head?_strip {c : Char} (hc : isBlank c = false) (l : List Char) :
    (strip (c :: l)).head? = some c := by
  obtain ⟨blanks, hblanks, hsplit⟩ := exists_strip_append hc l
  match hstrip : strip (c :: l) with
  | [] =>
    rw [hstrip, List.nil_append] at hsplit
    have hblank := hblanks c (hsplit ▸ List.mem_cons_self)
    exact absurd hblank (Bool.eq_false_iff.mp hc)
  | d :: _ =>
    rw [hstrip] at hsplit
    rw [(List.cons.inj hsplit).1]
    rfl

theorem strip_ne_nil {c : Char} {l : List Char} (hhead : l.head? = some c)
    (hc : isBlank c = false) (l' : List Char) : strip (l ++ l') ≠ [] := by
  obtain ⟨l, rfl⟩ := List.head?_eq_some_iff.mp hhead
  intro hnil
  have hstrip := head?_strip hc (l ++ l')
  rw [← List.cons_append, hnil] at hstrip
  exact absurd hstrip (by simp)

/-- A text without blanks at its ends is left as it is, and so is its newline dropped. -/
theorem strip_append_of_ends {c d : Char} {line : List Char} (hc : isBlank c = false)
    (hd : isBlank d = false) (hlast : (c :: line).getLast? = some d) {blanks : List Char}
    (hblanks : ∀ b ∈ blanks, isBlank b = true) :
    strip ((c :: line) ++ blanks) = c :: line := by
  have hrev : (c :: line).reverse = d :: (c :: line).dropLast.reverse := by
    have hsplit := List.dropLast_append_getLast? d hlast
    rw [← hsplit, List.reverse_append, List.reverse_singleton, List.singleton_append,
      List.dropLast_concat]
  have hdrop : (blanks.reverse ++ (c :: line).reverse).dropWhile isBlank = (c :: line).reverse := by
    rw [List.dropWhile_append_of_pos fun b hb ↦ hblanks b (List.mem_reverse.mp hb), hrev,
      dropWhile_eq_self hd]
  rw [strip, List.cons_append, dropWhile_eq_self hc, ← List.cons_append, List.reverse_append, hdrop,
    List.reverse_reverse]

/-- Where in a text the pass is: outside of strings, in one, behind a backslash in one, or right
behind one, `depth` braces being open; or past the brace that closes the first one. -/
inductive Scan
  | outside (depth : ℕ)
  | inString (depth : ℕ)
  | escaped (depth : ℕ)
  | afterString (depth : ℕ)
  | complete
  | rejected
  deriving DecidableEq, Repr

namespace Scan

/-- One character outside of strings. -/
def between (depth : ℕ) (c : Char) : Scan :=
  if c = '"' then inString depth
  else if c = '{' then outside (depth + 1)
  else if c = '}' then
    match depth with
    | 0 => rejected
    | 1 => complete
    | d + 1 => outside d
  else outside depth

def step : Scan → Char → Scan
  | outside depth, c => between depth c
  | inString depth, c =>
    if c = '"' then afterString depth else if c = '\\' then escaped depth else inString depth
  | escaped depth, c =>
    if c ∈ ['"', '\\', '/', 'b', 'f', 'n', 'r', 't', 'u'] then inString depth else rejected
  | afterString depth, c =>
    if c ∈ [',', ':', '}', ']'] ∨ isBlank c then between depth c else rejected
  | complete, c => if isBlank c then complete else rejected
  | rejected, _ => rejected

def run (s : Scan) (text : List Char) : Scan := text.foldl step s

variable {s : Scan} {text text' : List Char}

@[simp] theorem run_nil : s.run [] = s := rfl

@[simp] theorem run_cons (c : Char) : s.run (c :: text) = (s.step c).run text := rfl

theorem run_append : s.run (text ++ text') = (s.run text).run text' := List.foldl_append

theorem run_rejected (text : List Char) : rejected.run text = rejected := by
  induction text with
  | nil => rfl
  | cons c text ih => rw [run_cons, step, ih]

theorem run_blanks (h : ∀ b ∈ text, isBlank b = true) : complete.run text = complete := by
  induction text with
  | nil => rfl
  | cons c text ih =>
    rw [run_cons, step, if_pos (h c List.mem_cons_self)]
    exact ih fun b hb ↦ h b (List.mem_cons_of_mem c hb)

/-- Behind the closing brace there is nothing but blanks. -/
theorem run_complete (text : List Char) :
    complete.run text = complete ∨ complete.run text = rejected := by
  induction text with
  | nil => exact Or.inl rfl
  | cons c text ih =>
    rw [run_cons, step]
    split
    · exact ih
    · exact Or.inr (run_rejected text)

/-- The pass has not come to the closing brace, and never will where it was rejected. -/
def Open : Scan → Prop
  | outside depth | inString depth | escaped depth | afterString depth => 1 ≤ depth
  | complete => False
  | rejected => True

theorem open_rejected : rejected.Open := trivial

theorem Open.ne_complete (h : s.Open) : s ≠ complete := by
  rintro rfl
  exact h

theorem between_ne_complete {depth : ℕ} {c : Char} (hc : c ≠ '}') :
    between depth c ≠ complete := by
  unfold between
  rw [if_neg hc]
  split
  · simp
  · split <;> simp

/-- Only a brace closes the first one. -/
theorem step_ne_complete (h : s ≠ complete) {c : Char} (hc : c ≠ '}') : s.step c ≠ complete := by
  match s with
  | outside _ => exact between_ne_complete hc
  | inString _ =>
    rw [step]
    split
    · simp
    · split <;> simp
  | escaped _ =>
    rw [step]
    split <;> simp
  | afterString _ =>
    rw [step]
    split
    · exact between_ne_complete hc
    · simp
  | complete => exact absurd rfl h
  | rejected => simp [step]

theorem run_ne_complete (h : s ≠ complete) (hc : '}' ∉ text) : s.run text ≠ complete := by
  induction text generalizing s with
  | nil => exact h
  | cons c text ih =>
    obtain ⟨hne, hmem⟩ := List.ne_and_not_mem_of_not_mem_cons hc
    exact ih (step_ne_complete h hne.symm) hmem

theorem between_open {depth : ℕ} (hdepth : 1 ≤ depth) (c : Char) :
    (between depth c).Open ∨ between depth c = complete := by
  unfold between
  split
  · exact Or.inl hdepth
  · split
    · exact Or.inl (Nat.le_add_left 1 depth)
    · split
      · rcases depth with - | - | depth
        · exact Or.inl trivial
        · exact Or.inr rfl
        · exact Or.inl (Nat.le_add_left 1 depth)
      · exact Or.inl hdepth

theorem Open.step (h : s.Open) (c : Char) : (s.step c).Open ∨ s.step c = complete := by
  match s with
  | outside _ => exact between_open h c
  | inString _ =>
    rw [Scan.step]
    split
    · exact Or.inl h
    · split <;> exact Or.inl h
  | escaped _ =>
    rw [Scan.step]
    split
    · exact Or.inl h
    · exact Or.inl open_rejected
  | afterString _ =>
    rw [Scan.step]
    split
    · exact between_open h c
    · exact Or.inl open_rejected
  | complete => exact absurd h id
  | rejected => exact Or.inl open_rejected

/-- Once open, a pass stays open or comes to the closing brace. -/
theorem Open.run (h : s.Open ∨ s = complete) (text : List Char) :
    (s.run text).Open ∨ s.run text = complete := by
  induction text generalizing s with
  | nil => exact h
  | cons c text ih =>
    refine ih ?_
    rcases h with hopen | rfl
    · exact hopen.step c
    · rcases run_complete [c] with hrun | hrun
      · exact Or.inr hrun
      · have hstep : complete.step c = rejected := hrun
        exact Or.inl (hstep ▸ open_rejected)

/-- A pass that began under `d` open braces, up to the closing brace. -/
def above (d : ℕ) : Scan → Scan
  | outside depth => outside (d + depth)
  | inString depth => inString (d + depth)
  | escaped depth => escaped (d + depth)
  | afterString depth => afterString (d + depth)
  | complete => outside d
  | rejected => rejected

theorem between_above {d depth : ℕ} (hd : 1 ≤ d) (hdepth : 1 ≤ depth) (c : Char) :
    between (d + depth) c = (between depth c).above d := by
  unfold between
  split
  · rfl
  · split
    · rfl
    · split
      · obtain ⟨n, rfl⟩ := Nat.exists_eq_add_of_le' hd
        rcases depth with - | - | m
        · exact absurd hdepth (Nat.not_succ_le_zero 0)
        · rfl
        · rfl
      · rfl

theorem step_above {d : ℕ} (hd : 1 ≤ d) (h : s.Open) (c : Char) :
    (s.above d).step c = (s.step c).above d := by
  match s with
  | outside _ => exact between_above hd h c
  | inString _ =>
    simp only [above, step]
    split
    · rfl
    · split <;> rfl
  | escaped _ =>
    simp only [above, step]
    split <;> rfl
  | afterString _ =>
    simp only [above, step]
    split
    · exact between_above hd h c
    · rfl
  | complete => exact absurd h id
  | rejected => rfl

/-- A pass that is open until the end of the text goes the same way under open braces. -/
theorem run_above {d : ℕ} (hd : 1 ≤ d)
    (h : ∀ text₁ text₂, text = text₁ ++ text₂ → text₂ ≠ [] → (s.run text₁).Open) :
    (s.above d).run text = (s.run text).above d := by
  induction text generalizing s with
  | nil => rfl
  | cons c text ih =>
    have hs : s.Open := h [] (c :: text) rfl (List.cons_ne_nil c text)
    rw [run_cons, run_cons, step_above hd hs]
    refine ih fun text₁ text₂ htext hne ↦ ?_
    exact h (c :: text₁) text₂ (congrArg (c :: ·) htext) hne

end Scan

/-! ## Texts of objects -/

/-- The text of an object whose first key begins with a letter. -/
structure ObjectText (text : List Char) : Prop where
  opening : ∃ c rest, text = '{' :: '"' :: c :: rest ∧ isBlank c = false ∧
    c ∉ [',', ':', '}', ']']
  closing : text.getLast? = some '}'
  scan : (Scan.outside 0).run text = .complete

namespace ObjectText

open Scan

variable {text : List Char}

/-- **An object is not complete before its end.** -/
theorem open_of_torn (h : ObjectText text) {part rest : List Char} (htext : text = part ++ rest)
    (hpart : part ≠ []) (hrest : rest ≠ []) : ((outside 0).run part).Open := by
  obtain ⟨c, part, rfl⟩ := List.exists_cons_of_ne_nil hpart
  obtain ⟨_, _, hopening, -⟩ := h.opening
  obtain ⟨rfl, -⟩ := List.cons.inj (htext.symm.trans hopening)
  have hopen : Open (outside 1) ∨ outside 1 = complete := Or.inl (Nat.le_refl 1)
  refine (Open.run hopen part).resolve_right fun hcomplete ↦ ?_
  -- past the closing brace there are only blanks, but the text ends with a brace
  have hscan : complete.run rest = complete := by
    have happend := h.scan
    rwa [htext, run_append, show (outside 0).run ('{' :: part) = complete from hcomplete] at happend
  have hlast : rest.getLast? = some '}' := by
    rw [← h.closing, htext, List.getLast?_append_of_ne_nil _ hrest]
  obtain ⟨init, rfl⟩ := List.getLast?_eq_some_iff.mp hlast
  rw [run_append] at hscan
  rcases run_complete init with hinit | hinit <;>
  · rw [hinit] at hscan
    exact absurd hscan (by decide)

/-- The beginning of an object, behind a pass that is open. -/
theorem open_run (h : ObjectText text) {s : Scan} (hs : s.Open) {part : List Char}
    (hbegins : part <+: text) (hpart : part ≠ []) : (s.run part).Open := by
  obtain ⟨c, part, rfl⟩ := List.exists_cons_of_ne_nil hpart
  obtain ⟨rest, hrest⟩ := hbegins
  obtain ⟨letter, tail, hopening, hblank, hmem⟩ := h.opening
  obtain ⟨rfl, hpart'⟩ := List.cons.inj (hrest.trans hopening)
  match s with
  | outside d =>
    -- the object is inside of another one
    have habove : ((outside 1).above d).run part = ((outside 1).run part).above d := by
      refine run_above hs fun text₁ text₂ htext hne ↦ ?_
      have hne' : text₂ ++ rest ≠ [] := by simp [hne]
      refine h.open_of_torn ?_ (List.cons_ne_nil '{' text₁) hne'
      rw [← hrest, htext]
      simp
    change (((outside 1).above d).run part).Open
    rw [habove]
    have hopen : Open (outside 1) ∨ outside 1 = complete := Or.inl (Nat.le_refl 1)
    rcases Open.run hopen part with hrun | hrun
    · match hstate : (outside 1).run part with
      | outside _ | inString _ | escaped _ | afterString _ =>
        exact Nat.le_trans hs (Nat.le_add_right d _)
      | complete => exact absurd hstate hrun.ne_complete
      | rejected => trivial
    · rw [hrun]
      exact hs
  | inString d =>
    -- its first quote ends the string, and a letter follows
    match part, hpart' with
    | [], _ => exact hs
    | [_], hpart' =>
      obtain ⟨rfl, -⟩ := List.cons.inj hpart'
      exact hs
    | _ :: c :: part, hpart' =>
      obtain ⟨rfl, htail⟩ := List.cons.inj hpart'
      obtain ⟨hc, -⟩ := List.cons.inj htail
      have hstep : (afterString d).step c = rejected := if_neg (by simp [hc, hmem, hblank])
      change (((afterString d).step c).run part).Open
      rw [hstep, run_rejected]
      exact open_rejected
  | escaped d | afterString d | rejected =>
    change (rejected.run part).Open
    rw [run_rejected]
    exact open_rejected
  | complete => exact absurd hs id

/-- Something of an object behind a complete one. -/
theorem open_run_complete (h : ObjectText text) {part : List Char} (hbegins : part <+: text)
    (hpart : part ≠ []) : (complete.run part).Open := by
  obtain ⟨c, part, rfl⟩ := List.exists_cons_of_ne_nil hpart
  obtain ⟨rest, hrest⟩ := hbegins
  obtain ⟨_, _, hopening, -⟩ := h.opening
  obtain ⟨rfl, -⟩ := List.cons.inj (hrest.trans hopening)
  change (rejected.run part).Open
  rw [run_rejected]
  exact open_rejected

end ObjectText

end MoneyLaundering
