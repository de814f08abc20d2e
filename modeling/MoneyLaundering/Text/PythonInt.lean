import Mathlib

/-!
# Python's `int` and `str` on integers

Bank ids, ring sequence numbers and shard numbers travel as text and are turned back into integers
with `int(...)`. This file gives that conversion for a `str` argument in base ten, as CPython 3.11
performs it:

* surrounding whitespace is dropped — ASCII `\t … \r` and the blank, plus the Unicode spaces;
* one optional sign;
* a nonempty run of decimal digits of *any* script, where single underscores may separate digits.

The ceiling of 4300 digits that CPython puts on the conversion is left out: it only removes inputs.

The one fact the development needs is that `int` reads back what `str` writes, `pyInt_toString`.
-/

namespace PythonInt

/-- The code points `c` such that `c, …, c + 9` are the digits `0 … 9` of one script
(Unicode 14, general category `Nd`). -/
def digitZeros : List ℕ := [
  0x30, 0x660, 0x6f0, 0x7c0, 0x966, 0x9e6, 0xa66, 0xae6, 0xb66, 0xbe6, 0xc66, 0xce6, 0xd66,
  0xde6, 0xe50, 0xed0, 0xf20, 0x1040, 0x1090, 0x17e0, 0x1810, 0x1946, 0x19d0, 0x1a80, 0x1a90,
  0x1b50, 0x1bb0, 0x1c40, 0x1c50, 0xa620, 0xa8d0, 0xa900, 0xa9d0, 0xa9f0, 0xaa50, 0xabf0,
  0xff10, 0x104a0, 0x10d30, 0x11066, 0x110f0, 0x11136, 0x111d0, 0x112f0, 0x11450, 0x114d0,
  0x11650, 0x116c0, 0x11730, 0x118e0, 0x11950, 0x11c50, 0x11d50, 0x11da0, 0x16a60, 0x16ac0,
  0x16b50, 0x1d7ce, 0x1d7d8, 0x1d7e2, 0x1d7ec, 0x1d7f6, 0x1e140, 0x1e2f0, 0x1e950, 0x1fbf0]

/-- The decimal value of a digit character. -/
def digitValue (c : Char) : Option ℕ :=
  (digitZeros.find? fun z ↦ z ≤ c.toNat ∧ c.toNat < z + 10).map (c.toNat - ·)

/-- The characters `int` strips on both sides. -/
def isSpace (c : Char) : Bool :=
  (0x09 ≤ c.toNat ∧ c.toNat ≤ 0x0d) || (0x2000 ≤ c.toNat ∧ c.toNat ≤ 0x200a) ||
    [0x20, 0x85, 0xa0, 0x1680, 0x2028, 0x2029, 0x202f, 0x205f, 0x3000].contains c.toNat

/-- `l.strip()` for the characters of `isSpace`. -/
def strip (l : List Char) : List Char :=
  ((l.dropWhile isSpace).reverse.dropWhile isSpace).reverse

/-- The digits after the first one, `acc` being the value read so far. -/
def digitsFrom (acc : ℕ) : List Char → Option ℕ
  | [] => some acc
  | '_' :: c :: cs => (digitValue c).bind fun d ↦ digitsFrom (10 * acc + d) cs
  | c :: cs => (digitValue c).bind fun d ↦ digitsFrom (10 * acc + d) cs

/-- A nonempty run of digits. -/
def digits : List Char → Option ℕ
  | [] => none
  | c :: cs => (digitValue c).bind fun d ↦ digitsFrom d cs

/-- `int(s)`; `none` is the `ValueError`. -/
def pyInt (s : String) : Option ℤ :=
  match strip s.toList with
  | '+' :: ds => (digits ds).map fun n : ℕ ↦ (n : ℤ)
  | '-' :: ds => (digits ds).map fun n : ℕ ↦ -(n : ℤ)
  | ds => (digits ds).map fun n : ℕ ↦ (n : ℤ)

example : pyInt " 0011\n" = some 11 := by decide
example : pyInt "1__2" = none := by decide

/-! ## Reading back what `str` writes -/

theorem digitValue_of_isDigit {c : Char} (h : c.isDigit) : digitValue c = some (c.toNat - 48) := by
  have hc : 48 ≤ c.toNat ∧ c.toNat < 58 := by
    simp only [Char.isDigit, Bool.and_eq_true, decide_eq_true_eq, ge_iff_le] at h
    obtain ⟨h1, h2⟩ := h
    exact ⟨UInt32.le_iff_toNat_le.mp h1, Nat.lt_succ_of_le (UInt32.le_iff_toNat_le.mp h2)⟩
  rw [digitValue, digitZeros, List.find?_cons_of_pos (by simpa using hc)]
  rfl

theorem digitsFrom_cons {c : Char} (hc : c ≠ '_') (acc : ℕ) (cs : List Char) :
    digitsFrom acc (c :: cs) = (digitValue c).bind fun d ↦ digitsFrom (10 * acc + d) cs := by
  rw [digitsFrom.eq_3 acc c cs (by rintro c' cs' rfl; exact absurd rfl hc)]

theorem digitsFrom_of_isDigit {cs : List Char} (h : ∀ c ∈ cs, c.isDigit) (acc : ℕ) :
    digitsFrom acc cs = some (Nat.ofDigitChars 10 cs acc) := by
  induction cs generalizing acc with
  | nil => simp [digitsFrom]
  | cons c cs ih =>
    have hc : c.isDigit := h c List.mem_cons_self
    have hne : c ≠ '_' := by rintro rfl; exact absurd hc (by decide)
    rw [digitsFrom_cons hne, digitValue_of_isDigit hc, Option.bind_some,
      ih (fun d hd ↦ h d (List.mem_cons_of_mem _ hd)), Nat.ofDigitChars_cons]
    rfl

theorem digits_of_isDigit {cs : List Char} (hne : cs ≠ []) (h : ∀ c ∈ cs, c.isDigit) :
    digits cs = some (Nat.ofDigitChars 10 cs 0) := by
  cases cs with
  | nil => exact absurd rfl hne
  | cons c cs =>
    rw [digits, digitValue_of_isDigit (h c List.mem_cons_self), Option.bind_some,
      digitsFrom_of_isDigit (fun d hd ↦ h d (List.mem_cons_of_mem _ hd)), Nat.ofDigitChars_cons]
    simp

theorem isSpace_of_isDigit {c : Char} (h : c.isDigit) : isSpace c = false := by
  have hc : 48 ≤ c.toNat ∧ c.toNat < 58 := by
    simp only [Char.isDigit, Bool.and_eq_true, decide_eq_true_eq, ge_iff_le] at h
    obtain ⟨h1, h2⟩ := h
    exact ⟨UInt32.le_iff_toNat_le.mp h1, Nat.lt_succ_of_le (UInt32.le_iff_toNat_le.mp h2)⟩
  simp only [isSpace, List.contains_eq_mem, List.mem_cons, List.not_mem_nil, or_false,
    Bool.or_eq_false_iff, decide_eq_false_iff_not]
  omega

theorem strip_eq_self {l : List Char} (hne : l ≠ []) (h0 : isSpace (l.head hne) = false)
    (h1 : isSpace (l.getLast hne) = false) : strip l = l := by
  obtain ⟨c, cs, rfl⟩ := List.exists_cons_of_ne_nil hne
  rw [List.head_cons] at h0
  rw [strip, List.dropWhile_cons_of_neg (by simp [h0])]
  have hrev : (c :: cs).reverse ≠ [] := by simp
  obtain ⟨d, ds, hd⟩ := List.exists_cons_of_ne_nil hrev
  have hlast : (c :: cs).getLast hne = d := by
    rw [← List.head_reverse hrev]
    simp [hd]
  rw [hd, List.dropWhile_cons_of_neg (by simp [← hlast, h1]), ← hd, List.reverse_reverse]

theorem isDigit_of_mem_repr {n : ℕ} {c : Char} (h : c ∈ n.repr.toList) : c.isDigit := by
  rw [Nat.toList_repr] at h
  exact Nat.isDigit_of_mem_toDigits (by decide) (by decide) h

theorem digits_repr (n : ℕ) : digits n.repr.toList = some n := by
  rw [digits_of_isDigit (by rw [Nat.toList_repr]; exact Nat.toDigits_ne_nil)
    (fun c hc ↦ isDigit_of_mem_repr hc), Nat.toList_repr,
    Nat.ofDigitChars_toDigits (by decide) (by decide)]

/-- `int` reads back the decimal rendering of a natural number. -/
theorem pyInt_repr (n : ℕ) : pyInt n.repr = some (n : ℤ) := by
  have hne : n.repr.toList ≠ [] := by rw [Nat.toList_repr]; exact Nat.toDigits_ne_nil
  have hdig : ∀ c ∈ n.repr.toList, c.isDigit := fun c hc ↦ isDigit_of_mem_repr hc
  have hs : strip n.repr.toList = n.repr.toList :=
    strip_eq_self hne (isSpace_of_isDigit (hdig _ (List.head_mem _)))
      (isSpace_of_isDigit (hdig _ (List.getLast_mem _)))
  rw [pyInt, hs]
  split
  · rename_i ds heq
    exact absurd (hdig '+' (by rw [heq]; exact List.mem_cons_self)) (by decide)
  · rename_i ds heq
    exact absurd (hdig '-' (by rw [heq]; exact List.mem_cons_self)) (by decide)
  · rw [digits_repr, Option.map_some]

/-- **`int` inverts `str`.** -/
theorem pyInt_toString (z : ℤ) : pyInt (toString z) = some z := by
  cases z with
  | ofNat n => exact pyInt_repr n
  | negSucc n =>
    have hs : toString (Int.negSucc n) = "-" ++ (n + 1).repr := rfl
    have hl : ("-" ++ (n + 1).repr).toList = '-' :: (n + 1).repr.toList := by
      rw [String.toList_append]; rfl
    have hne : (n + 1).repr.toList ≠ [] := by rw [Nat.toList_repr]; exact Nat.toDigits_ne_nil
    have hlast : ('-' :: (n + 1).repr.toList).getLast (by simp) = (n + 1).repr.toList.getLast hne :=
      List.getLast_cons hne
    rw [hs, pyInt, hl, strip_eq_self (by simp) (by rw [List.head_cons]; decide)
      (by rw [hlast]; exact isSpace_of_isDigit (isDigit_of_mem_repr (List.getLast_mem _)))]
    simp only [digits_repr, Option.map_some]
    rw [Int.negSucc_eq]
    push_cast
    rfl

/-- The rendering of an integer has no separator in it. -/
theorem colon_notMem_toString (z : ℤ) : ':' ∉ (toString z).toList := by
  have hd : ∀ n : ℕ, ':' ∉ n.repr.toList := fun n h ↦
    absurd (isDigit_of_mem_repr h) (by decide)
  cases z with
  | ofNat n => exact hd n
  | negSucc n =>
    have hs : toString (Int.negSucc n) = "-" ++ (n + 1).repr := rfl
    rw [hs, String.toList_append, List.mem_append, not_or]
    exact ⟨by decide, hd _⟩

end PythonInt
