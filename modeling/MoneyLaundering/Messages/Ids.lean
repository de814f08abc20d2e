import MoneyLaundering.Text.PythonInt

/-!
# Message ids

Every message carries an id that is computed from what the message is, never drawn at random, so
that a message sent again after a crash is recognised. Five builders join their parts with a colon
(`common/idempotency/ids.py`). The sequence number of a ring token is read back out of its id.

Of two ids of one builder and one client, the varying parts can be recovered: `ringId_injective`,
`flushId_injective`, `rootId_injective`.
-/

namespace MoneyLaundering

open PythonInt

abbrev ClientId := String
abbrev MessageId := String
abbrev NodeId := ℕ

/-- The `message_count` and `expected_count` of a cleanup. -/
def cleanupExpectedCount : ℤ := -1

/-- An end-of-stream marker announcing how many data messages were sent. -/
structure EOF where
  messageCount : ℤ
  deriving DecidableEq, Repr

def isCleanupEof (eof : EOF) : Bool := eof.messageCount = cleanupExpectedCount

def separator : String := ":"
def ringPhaseCount : String := "count"
def ringPhaseFlush : String := "flush"
def ringPhaseCleanup : String := "cleanup"
def eofCleanupDisc : String := "cleanup"

/-- Gateway root id for the `n`-th batch of a client stream. -/
def rootId (client : ClientId) (batchIndex : String) : MessageId :=
  separator.intercalate [client, batchIndex]

/-- Id of a flushed batch: producing replica and bucket. The destination shard is not part of it;
it is in the routing key. -/
def flushId (origin : NodeId) (client : ClientId) (nBatch : ℕ) : MessageId :=
  separator.intercalate [client, toString origin, toString nBatch]

/-- Id of a ring token: phase and per-hop sequence number. -/
def ringId (client : ClientId) (phase : String) (seq : ℤ) : MessageId :=
  separator.intercalate [client, phase, toString seq]

/-- The sequence number in a ring id, or `-1` if the id has none. -/
def ringSeqOf (messageId : MessageId) : ℤ :=
  let parts := messageId.toList.splitOn ':'
  if parts.length < 3 then -1
  else (pyInt (String.ofList (parts.getLast?.getD []))).getD (-1)

def eofId (client : ClientId) (disc : Option String) : MessageId :=
  separator.intercalate ([client, "eof"] ++ disc.toList)

def finalEofId (client : ClientId) (eof : EOF) (disc : Option String) : MessageId :=
  eofId client <|
    if isCleanupEof eof then
      match disc with
      | none => some eofCleanupDisc
      | some d => some (d ++ separator ++ eofCleanupDisc)
    else disc

theorem finalEofId_eq {client : ClientId} {eof : EOF} (h : isCleanupEof eof = false)
    (disc : Option String) : finalEofId client eof disc = eofId client disc := by
  unfold finalEofId
  rw [h]
  rfl

example : ringSeqOf (ringId "ab" ringPhaseCount 12) = 12 := by decide
example : ringSeqOf (rootId "ab" "3") = -1 := by decide

/-! ## Reading ids back -/

theorem toList_intercalate_three (a b c : String) :
    (separator.intercalate [a, b, c]).toList = a.toList ++ ':'
      :: (b.toList ++ ':' :: c.toList) := by
  rw [String.intercalate_cons_cons, String.intercalate_cons_cons, String.intercalate_singleton]
  simp [separator]

/-- What follows the last of the separators is the third part, when that part has none itself. -/
theorem splitOn_intercalate_three (a b : String) {c : String} (hc : ':' ∉ c.toList) :
    (separator.intercalate [a, b, c]).toList.splitOn ':'
      = a.toList.splitOn ':' ++ b.toList.splitOn ':' ++ [c.toList] := by
  rw [toList_intercalate_three, List.splitOn_append_cons_self, List.splitOn_append_cons_self,
    List.splitOn_eq_singleton hc, List.append_assoc]

@[simp] theorem ringSeqOf_ringId (client : ClientId) (phase : String) (seq : ℤ) :
    ringSeqOf (ringId client phase seq) = seq := by
  have hlen : ∀ s : String, 1 ≤ (s.toList.splitOn ':').length := fun s ↦
    List.length_pos_of_ne_nil (List.splitOn_ne_nil _ _)
  have h1 := hlen client
  have h2 := hlen phase
  simp only [ringSeqOf, ringId, splitOn_intercalate_three client phase (colon_notMem_toString seq)]
  rw [if_neg (by simp only [List.length_append, List.length_singleton]; omega)]
  rw [List.getLast?_append_of_ne_nil _ (by simp), List.getLast?_singleton, Option.getD_some,
    String.ofList_toList, pyInt_toString, Option.getD_some]

/-- Two three-part ids with the same first part and separator-free other parts have the same
parts. -/
theorem intercalate_three_injective {a b b' c c' : String} (hb : ':' ∉ b.toList)
    (hb' : ':' ∉ b'.toList) (hc : ':' ∉ c.toList) (hc' : ':' ∉ c'.toList)
    (h : separator.intercalate [a, b, c] = separator.intercalate [a, b', c']) :
    b = b' ∧ c = c' := by
  have hs := congrArg (fun s : String ↦ s.toList.splitOn ':') h
  simp only [splitOn_intercalate_three a b hc, splitOn_intercalate_three a b' hc',
    List.splitOn_eq_singleton hb, List.splitOn_eq_singleton hb', List.append_assoc] at hs
  have hs' := List.append_cancel_left hs
  simp only [List.singleton_append, List.cons.injEq, and_true] at hs'
  exact ⟨String.toList_inj.mp hs'.1, String.toList_inj.mp hs'.2⟩

theorem colon_notMem_natToString (n : ℕ) : ':' ∉ (toString n).toList :=
  colon_notMem_toString (n : ℤ)

theorem natToString_injective {m n : ℕ} (h : toString m = toString n) : m = n :=
  Nat.repr_injective h

theorem flushId_injective {origin origin' : NodeId} {client : ClientId} {n n' : ℕ}
    (h : flushId origin client n = flushId origin' client n') : origin = origin' ∧ n = n' := by
  obtain ⟨h1, h2⟩ := intercalate_three_injective (colon_notMem_natToString _)
    (colon_notMem_natToString _) (colon_notMem_natToString _) (colon_notMem_natToString _) h
  exact ⟨natToString_injective h1, natToString_injective h2⟩

/-- The end of a stream is told by a letter, behind the client. -/
theorem exists_toList_eofId (client : ClientId) (disc : Option String) :
    ∃ rest, (eofId client disc).toList = client.toList ++ ':' :: 'e' :: rest := by
  cases disc with
  | none => exact ⟨"of".toList, by simp [eofId, separator]⟩
  | some d => exact ⟨"of".toList ++ ':' :: d.toList, by simp [eofId, separator]⟩

theorem letter_ne_head_natToString {rest rest' : List Char} (n : ℕ) (h : rest' = [] ∨ ∃ cs,
    rest' = ':' :: cs) : 'e' :: rest ≠ (toString n).toList ++ rest' := by
  intro heq
  cases hdigits : (toString n).toList with
  | nil =>
    rw [hdigits, List.nil_append] at heq
    rcases h with rfl | ⟨cs, rfl⟩
    · exact absurd heq (List.cons_ne_nil _ _)
    · exact absurd (List.cons.inj heq).1 (by decide)
  | cons c cs =>
    rw [hdigits, List.cons_append] at heq
    have hmem : 'e' ∈ (toString n).toList := by
      rw [hdigits, (List.cons.inj heq).1]
      exact List.mem_cons_self
    exact absurd (isDigit_of_mem_repr hmem) (by decide)

/-- The end of a stream does not carry the id of a flushed batch. -/
theorem eofId_ne_flushId {disc : Option String} (origin : NodeId) (client : ClientId) (n : ℕ) :
    eofId client disc ≠ flushId origin client n := by
  intro h
  obtain ⟨rest, hrest⟩ := exists_toList_eofId client disc
  have hlist := congrArg String.toList h
  rw [hrest, flushId, toList_intercalate_three] at hlist
  exact letter_ne_head_natToString origin (Or.inr ⟨_, rfl⟩)
    (List.cons.inj (List.append_cancel_left hlist)).2

/-- Nor that of a batch of the gateway. -/
theorem eofId_ne_rootId {disc : Option String} (client : ClientId) (n : ℕ) :
    eofId client disc ≠ rootId client (toString n) := by
  intro h
  obtain ⟨rest, hrest⟩ := exists_toList_eofId client disc
  have hlist := congrArg String.toList h
  have hroot : (rootId client (toString n)).toList
      = client.toList ++ ':' :: ((toString n).toList ++ []) := by
    simp [rootId, separator]
  rw [hrest, hroot] at hlist
  exact letter_ne_head_natToString n (Or.inl rfl) (List.cons.inj (List.append_cancel_left hlist)).2

/-- An id that the client remembers, and no end of a stream has. -/
structure IsDataId (client : ClientId) (messageId : MessageId) : Prop where
  ne_empty : messageId ≠ ""
  ne_eofId : ∀ disc, messageId ≠ eofId client disc

theorem ne_empty_of_colon_mem {messageId : MessageId} (h : ':' ∈ messageId.toList) :
    messageId ≠ "" := by
  rintro rfl
  exact absurd h List.not_mem_nil

theorem isDataId_rootId (client : ClientId) (n : ℕ) :
    IsDataId client (rootId client (toString n)) where
  ne_empty := ne_empty_of_colon_mem (by simp [rootId, separator])
  ne_eofId _ := (eofId_ne_rootId client n).symm

theorem isDataId_flushId (origin : NodeId) (client : ClientId) (n : ℕ) :
    IsDataId client (flushId origin client n) where
  ne_empty := ne_empty_of_colon_mem (by rw [flushId, toList_intercalate_three]; simp)
  ne_eofId _ := (eofId_ne_flushId origin client n).symm

/-- The end of a session has another id than the end of a stream. -/
theorem finalEofId_ne_eofId (client : ClientId) {eof : EOF} (h : isCleanupEof eof = true)
    (disc : Option String) : finalEofId client eof disc ≠ eofId client disc := by
  unfold finalEofId
  rw [if_pos h]
  intro heq
  have hlength := congrArg String.length heq
  cases disc with
  | none =>
    have hcleanup : "eof".length ≠ "eof:cleanup".length := by decide
    exact hcleanup (by simpa [eofId, separator, eofCleanupDisc] using hlength.symm)
  | some d =>
    have hcolon : 0 < ":".length := by decide
    simp [eofId, separator, eofCleanupDisc] at hlength
    omega

/-- The id of an end is that of a cleanup exactly if the end is. -/
theorem isCleanupEof_eq_of_finalEofId_eq {client : ClientId} {eof eof' : EOF} {disc : Option String}
    (h : finalEofId client eof disc = finalEofId client eof' disc) :
    isCleanupEof eof = isCleanupEof eof' := by
  cases heof : isCleanupEof eof <;> cases heof' : isCleanupEof eof'
  · rfl
  · rw [finalEofId_eq heof] at h
    exact absurd h.symm (finalEofId_ne_eofId client heof' disc)
  · rw [finalEofId_eq heof'] at h
    exact absurd h (finalEofId_ne_eofId client heof disc)
  · rfl

theorem ringId_seq_injective {client : ClientId} {phase phase' : String} {seq seq' : ℤ}
    (h : ringId client phase seq = ringId client phase' seq') : seq = seq' := by
  have hs := congrArg ringSeqOf h
  rwa [ringSeqOf_ringId, ringSeqOf_ringId] at hs

theorem ringId_injective {client : ClientId} {phase phase' : String} {seq seq' : ℤ}
    (hp : ':' ∉ phase.toList) (hp' : ':' ∉ phase'.toList)
    (h : ringId client phase seq = ringId client phase' seq') : phase = phase' ∧ seq = seq' :=
  ⟨(intercalate_three_injective hp hp' (colon_notMem_toString _) (colon_notMem_toString _) h).1,
    ringId_seq_injective h⟩

theorem rootId_injective {client : ClientId} {i j : String}
    (h : rootId client i = rootId client j) : i = j := by
  have hl := congrArg String.toList h
  simp only [rootId, String.intercalate_cons_cons, String.intercalate_singleton,
    String.toList_append, List.append_assoc] at hl
  exact String.toList_inj.mp (List.append_cancel_left (List.append_cancel_left hl))

theorem ringId_count_ne_flush (client : ClientId) (seq seq' : ℤ) :
    ringId client ringPhaseCount seq ≠ ringId client ringPhaseFlush seq' := fun h ↦
  absurd (ringId_injective (by decide) (by decide) h).1 (by decide)

end MoneyLaundering
