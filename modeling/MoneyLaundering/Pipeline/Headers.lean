import MoneyLaundering.Worker.Stateless

/-!
# Messages by their headers

What becomes of the ids of messages does not depend on what is in them, but on where they are
published and on whether they are ends of streams. Here a message of a client is its header and its
address.

The queues of a group of consumers are a `Route`. What they are sent together, each message as often
as there are queues that accept it, is `sum_routed`. The queues are clean (`CleanQueues`) if none of
them is sent two messages with one id, cleanups apart, and all of them together at most one end of
stream.
-/

namespace MoneyLaundering

/-- The id of a message and, if it is an end of stream, the end. -/
structure Header where
  messageId : MessageId
  eof : Option EOF
  deriving DecidableEq

namespace Header

def dataId (m : Header) : Option MessageId :=
  match m.eof with
  | none => some m.messageId
  | some _ => none

/-- An end of stream, and not of a session. -/
def isEnd (m : Header) : Bool :=
  match m.eof with
  | none => false
  | some eof => !isCleanupEof eof

def isCleanup (m : Header) : Bool :=
  match m.eof with
  | none => false
  | some eof => isCleanupEof eof

/-- The ids of the data messages. -/
def ids (l : List Header) : Multiset MessageId := (l.filterMap dataId : List MessageId)

/-- How many ends of the stream there are. -/
def ends (l : List Header) : ℕ := l.countP isEnd

/-- Two messages have different ids, unless both belong to cleanups. -/
def Differ (m m' : Header) : Prop :=
  (m.isCleanup = true ∧ m'.isCleanup = true) ∨ m.messageId ≠ m'.messageId

@[simp] theorem ids_nil : ids [] = 0 := rfl

@[simp] theorem ends_nil : ends [] = 0 := rfl

theorem ids_append (l l' : List Header) : ids (l ++ l') = ids l + ids l' := by
  rw [ids, List.filterMap_append]
  rfl

theorem ends_append (l l' : List Header) : ends (l ++ l') = ends l + ends l' := List.countP_append

theorem ids_perm {l l' : List Header} (h : l.Perm l') : ids l = ids l' :=
  Multiset.coe_eq_coe.mpr (h.filterMap _)

theorem ends_perm {l l' : List Header} (h : l.Perm l') : ends l = ends l' := h.countP_eq _

theorem ids_cons (m : Header) (l : List Header) : ids (m :: l) = ids [m] + ids l := ids_append [m] l

theorem ends_cons (m : Header) (l : List Header) : ends (m :: l) = ends [m] + ends l :=
  ends_append [m] l

theorem ids_eq_sum (l : List Header) : ids l = (l.map fun m ↦ ids [m]).sum := by
  induction l with
  | nil => rfl
  | cons m l ih => rw [ids_cons, ih, List.map_cons, List.sum_cons]

theorem ends_eq_sum (l : List Header) : ends l = (l.map fun m ↦ ends [m]).sum := by
  induction l with
  | nil => rfl
  | cons m l ih => rw [ends_cons, ih, List.map_cons, List.sum_cons]

/-- Only the id of a data message counts. -/
theorem ids_singleton_congr {m m' : Header} (heof : m'.eof = m.eof)
    (hid : m.eof = none → m'.messageId = m.messageId) : ids [m'] = ids [m] := by
  obtain ⟨mid, eof⟩ := m
  obtain ⟨mid', eof'⟩ := m'
  obtain rfl := heof
  cases eof' with
  | none =>
    obtain rfl := hid rfl
    rfl
  | some eof => rfl

theorem ends_singleton_congr {m m' : Header} (heof : m'.eof = m.eof) : ends [m'] = ends [m] := by
  rw [ends, ends, List.countP_singleton, List.countP_singleton, isEnd, isEnd, heof]

theorem ids_le {l l' : List Header} (h : l.Sublist l') : ids l ≤ ids l' :=
  Multiset.coe_le.mpr (h.filterMap _).subperm

theorem mem_ids {l : List Header} {messageId : MessageId} :
    messageId ∈ ids l ↔ (⟨messageId, none⟩ : Header) ∈ l := by
  rw [ids, Multiset.mem_coe, List.mem_filterMap]
  constructor
  · rintro ⟨⟨id, eof⟩, hm, hid⟩
    cases eof with
    | none =>
      obtain rfl := Option.some.inj hid
      exact hm
    | some eof => exact absurd hid (Option.some_ne_none _).symm
  · exact fun hm ↦ ⟨_, hm, rfl⟩

end Header

/-- A message of a client, with the address it is published to. -/
structure Posted where
  address : Address
  header : Header
  deriving DecidableEq

/-! ## What a group of consumers is sent -/

namespace Route

variable {r : Route}

/-- The message is put in this queue of the group. -/
def accepts (r : Route) (q : ℕ) (m : Posted) : Bool :=
  m.address.middleware == r.middleware &&
    ((r.queues[q]?).getD []).contains m.address.routingKey

theorem accepts_iff {q : ℕ} {m : Posted} : r.accepts q m = true ↔
    m.address.middleware = r.middleware ∧ m.address.routingKey ∈ (r.queues[q]?).getD [] := by
  rw [accepts, Bool.and_eq_true, beq_iff_eq, List.contains_iff_mem]

/-- What is put in a queue of the group. -/
def routed (r : Route) (l : List Posted) (q : ℕ) : List Header :=
  (l.filter (r.accepts q)).map Posted.header

theorem accepts_of_le {q : ℕ} (hq : r.queues.length ≤ q) (m : Posted) : r.accepts q m = false := by
  rw [accepts, List.getElem?_eq_none hq]
  simp

theorem routed_append (l l' : List Posted) (q : ℕ) :
    r.routed (l ++ l') q = r.routed l q ++ r.routed l' q := by
  rw [routed, List.filter_append, List.map_append]
  rfl

theorem sum_range_getD {β : Type} (l : List β) (b : β) (p : β → Bool) :
    (∑ q ∈ Finset.range l.length, if p ((l[q]?).getD b) then 1 else 0) = l.countP p := by
  induction l with
  | nil => rfl
  | cons b' l ih =>
    rw [List.length_cons, Finset.sum_range_succ', List.countP_cons, ← ih]
    rfl

/-- As many queues accept a message as it is copied to. -/
theorem sum_accepts (m : Posted) :
    (∑ q ∈ Finset.range r.queues.length, if r.accepts q m then 1 else 0) = r.copies m.address := by
  by_cases h : m.address.middleware = r.middleware
  · rw [copies_of_eq h, ← sum_range_getD r.queues [] fun keys ↦ m.address.routingKey ∈ keys]
    simp [accepts, h]
  · rw [copies_of_ne h]
    simp [accepts, h]

/-- What all queues of the group are sent together, weighed by any measure. -/
theorem sum_routed {M : Type} [AddCommMonoid M] (g : Header → M) (l : List Posted) :
    ∑ q ∈ Finset.range r.queues.length, ((r.routed l q).map g).sum
      = (l.map fun m ↦ r.copies m.address • g m.header).sum := by
  induction l with
  | nil => simp [routed]
  | cons m l ih =>
    have hcons : ∀ q, ((r.routed (m :: l) q).map g).sum
        = (if r.accepts q m then 1 else 0) • g m.header + ((r.routed l q).map g).sum := by
      intro q
      rw [routed, List.filter_cons]
      split <;> simp [routed]
    simp only [hcons]
    rw [Finset.sum_add_distrib, ih, ← Finset.sum_smul, sum_accepts, List.map_cons, List.sum_cons]

/-- A queue that the group does not have. -/
theorem routed_of_le {q : ℕ} (hq : r.queues.length ≤ q) (l : List Posted) : r.routed l q = [] := by
  rw [routed, List.filter_eq_nil_iff.mpr fun m _ ↦ by simp [accepts_of_le hq m], List.map_nil]

/-- The ids of the data messages that the group is sent. -/
theorem sum_ids_routed_le (l : List Posted) (count : ℕ) :
    ∑ q ∈ Finset.range count, Header.ids (r.routed l q)
      ≤ (l.map fun m ↦ r.copies m.address • Header.ids [m.header]).sum := by
  rw [← sum_routed fun m ↦ Header.ids [m]]
  simp only [← Header.ids_eq_sum]
  refine Finset.sum_le_sum_of_ne_zero fun q _ hq ↦ Finset.mem_range.mpr (not_le.mp fun hle ↦ hq ?_)
  rw [routed_of_le hle, Header.ids_nil]

/-- The number of ends that the group is sent. -/
theorem sum_ends_routed_le (l : List Posted) (count : ℕ) :
    ∑ q ∈ Finset.range count, Header.ends (r.routed l q)
      ≤ (l.map fun m ↦ r.copies m.address • Header.ends [m.header]).sum := by
  rw [← sum_routed fun m ↦ Header.ends [m]]
  simp only [← Header.ends_eq_sum]
  refine Finset.sum_le_sum_of_ne_zero fun q _ hq ↦ Finset.mem_range.mpr (not_le.mp fun hle ↦ hq ?_)
  rw [routed_of_le hle, Header.ends_nil]

end Route

/-! ## Queues without two messages of one id -/

/-- No queue is sent an id twice, and all of them together are sent one end of stream at most. What
`disc` is depends on who sends the ends. -/
structure CleanQueues (client : ClientId) (disc : Option String)
    (queues : ℕ → List Header) : Prop where
  ids : ∀ q, (Header.ids (queues q)).Nodup
  ends : ∀ count, ∑ q ∈ Finset.range count, Header.ends (queues q) ≤ 1
  data : ∀ q, ∀ m ∈ queues q, m.eof = none → IsDataId client m.messageId
  eofs : ∀ q, ∀ m ∈ queues q, ∀ eof, m.eof = some eof → m.messageId = finalEofId client eof disc

/-- All queues together are sent no id of a data message twice. -/
def Apart (queues : ℕ → List Header) : Prop :=
  ∀ count, (∑ q ∈ Finset.range count, Header.ids (queues q)).Nodup

theorem Apart.of_sublist {queues queues' : ℕ → List Header} (h : Apart queues)
    (hsub : ∀ q, (queues' q).Sublist (queues q)) : Apart queues' := fun count ↦
  Multiset.nodup_of_le (Finset.sum_le_sum fun q _ ↦ Header.ids_le (hsub q)) (h count)

theorem Apart.nodup {queues : ℕ → List Header} (h : Apart queues) (q : ℕ) :
    (Header.ids (queues q)).Nodup := by
  have hsum := h (q + 1)
  rw [Finset.sum_range_succ] at hsum
  exact Multiset.nodup_of_le (Multiset.le_add_left _ _) hsum

namespace CleanQueues

variable {client : ClientId} {disc : Option String} {queues queues' : ℕ → List Header}

theorem of_sublist (h : CleanQueues client disc queues)
    (hsub : ∀ q, (queues' q).Sublist (queues q)) :
    CleanQueues client disc queues' where
  ids q := Multiset.nodup_of_le (Header.ids_le (hsub q)) (h.ids q)
  ends count := le_trans (Finset.sum_le_sum fun q _ ↦ (hsub q).countP_le) (h.ends count)
  data q m hm := h.data q m ((hsub q).subset hm)
  eofs q m hm := h.eofs q m ((hsub q).subset hm)

theorem ends_le (h : CleanQueues client disc queues) (q : ℕ) : Header.ends (queues q) ≤ 1 := by
  have hsum := h.ends (q + 1)
  rw [Finset.sum_range_succ] at hsum
  omega

/-- Two ends of streams differ unless they end the same stream. -/
theorem differ_of_eofs {m m' : Header} {eof eof' : EOF} (heof : m.eof = some eof)
    (heof' : m'.eof = some eof') (hid : m.messageId = finalEofId client eof disc)
    (hid' : m'.messageId = finalEofId client eof' disc)
    (hends : m.isEnd = true → m'.isEnd = false) :
    m.Differ m' := by
  by_cases heq : m.messageId = m'.messageId
  · have hsame : isCleanupEof eof = isCleanupEof eof' :=
      isCleanupEof_eq_of_finalEofId_eq (hid.symm.trans (heq.trans hid'))
    simp only [Header.isEnd, heof, heof', ← hsame, Bool.not_eq_true', Bool.not_eq_false'] at hends
    have hcleanup : isCleanupEof eof = true := by
      by_contra hnot
      exact hnot (hends (Bool.eq_false_of_not_eq_true hnot))
    left
    simp only [Header.isCleanup, heof, heof', ← hsame, hcleanup, and_self]
  · exact Or.inr heq

/-- Two messages of one list differ, when its data messages do and one end follows at most. -/
theorem differ_of_ids {l : List Header} (hids : (Header.ids l).Nodup) (hends : Header.ends l ≤ 1)
    (hdata : ∀ m ∈ l, m.eof = none → IsDataId client m.messageId)
    (heofs : ∀ m ∈ l, ∀ eof, m.eof = some eof → m.messageId = finalEofId client eof disc) :
    l.Pairwise Header.Differ := by
  induction l with
  | nil => exact List.Pairwise.nil
  | cons m l ih =>
    rw [Header.ids_cons, Multiset.nodup_add] at hids
    rw [Header.ends_cons] at hends
    refine List.pairwise_cons.mpr ⟨fun m' hm' ↦ ?_, ih hids.2.1 (by omega)
      (fun m' hm' ↦ hdata m' (List.mem_cons_of_mem _ hm'))
      fun m' hm' ↦ heofs m' (List.mem_cons_of_mem _ hm')⟩
    have hid := heofs m List.mem_cons_self
    have hid' := heofs m' (List.mem_cons_of_mem _ hm')
    cases heof : m.eof with
    | none =>
      cases heof' : m'.eof with
      | none =>
        -- both would be among the data messages
        have hm : m.messageId ∈ Header.ids [m] :=
          Header.mem_ids.mpr (by rw [← heof]; exact List.mem_singleton_self m)
        have hl : m'.messageId ∈ Header.ids l :=
          Header.mem_ids.mpr (by rw [← heof']; exact hm')
        exact Or.inr fun heq ↦ Multiset.disjoint_left.mp hids.2.2 hm (heq ▸ hl)
      | some eof' =>
        exact Or.inr (hid' eof' heof' ▸ (hdata m List.mem_cons_self heof).ne_eofId _)
    | some eof =>
      cases heof' : m'.eof with
      | none =>
        exact Or.inr (hid eof heof ▸
          ((hdata m' (List.mem_cons_of_mem _ hm') heof').ne_eofId _).symm)
      | some eof' =>
        refine differ_of_eofs heof heof' (hid eof heof) (hid' eof' heof') fun hend ↦ ?_
        have hone : Header.ends [m] = 1 := by rw [Header.ends, List.countP_singleton, if_pos hend]
        have hrest : Header.ends l = 0 := by omega
        exact Bool.eq_false_of_not_eq_true (List.countP_eq_zero.mp hrest m' hm')

/-- **No queue is sent two messages with one id.** -/
theorem pairwise_differ (h : CleanQueues client disc queues) (q : ℕ) :
    (queues q).Pairwise Header.Differ :=
  differ_of_ids (h.ids q) (h.ends_le q) (h.data q) (h.eofs q)

/-- The same for messages that are no cleanups. -/
theorem nodup_messageId (h : CleanQueues client disc queues) (q : ℕ) :
    (((queues q).filter fun m ↦ !m.isCleanup).map Header.messageId).Nodup := by
  refine List.pairwise_map.mpr (List.Pairwise.imp_of_mem (fun hm _ hdiffer ↦ ?_)
    ((h.pairwise_differ q).filter _))
  refine hdiffer.resolve_left fun hcleanups ↦ ?_
  simpa [hcleanups.1] using (List.mem_filter.mp hm).2

end CleanQueues

end MoneyLaundering
