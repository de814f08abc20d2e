import Mathlib

/-!
# Frames on a stream

A message is sent on a TCP connection behind its length, as four bytes with the most significant one
first (`length_prefix.py`). The stream does not keep the frames: a read gets what has arrived, but
at least one byte, unless the other side has closed the connection. `SafeTCPSocket.recv`
(`socket/safe_socket.py`) reads until it has as many bytes as it was asked for.

However a stream is split, a frame is read whole (`recvFrame_frame`), and a frame that is cut off by
the end of the stream is an `IncompleteReadError` (`recvFrame_torn`).
-/

namespace Framing

/-! ## The length -/

/-- `serialize_uint32`; nothing when it raises `OverflowError`. -/
def serializeUint32 (n : ℕ) : Option (List UInt8) :=
  if n < 2 ^ 32 then
    some [UInt8.ofNat (n / 2 ^ 24), UInt8.ofNat (n / 2 ^ 16), UInt8.ofNat (n / 2 ^ 8),
      UInt8.ofNat n]
  else none

def deserializeUint32 (bytes : List UInt8) : ℕ :=
  bytes.foldl (fun n byte ↦ n * 256 + byte.toNat) 0

/-- **The length is read back.** -/
theorem exists_serializeUint32 {n : ℕ} (h : n < 2 ^ 32) :
    ∃ bytes, serializeUint32 n = some bytes ∧ bytes.length = 4 ∧ deserializeUint32 bytes = n := by
  refine ⟨_, if_pos h, rfl, ?_⟩
  simp only [deserializeUint32, List.foldl_cons, List.foldl_nil, UInt8.toNat_ofNat']
  omega

/-! ## The socket -/

inductive RecvError
  | incompleteRead (received : List UInt8) (expected : ℕ)
  /-- What was read is not a message. -/
  | malformed
  deriving DecidableEq, Repr

/-- The receiving side of a connection: the bytes that arrive until the other side closes it, and
how many of them have arrived at each of the next reads. -/
structure Socket where
  incoming : List UInt8
  splits : ℕ → ℕ

namespace Socket

/-- `recv_into` with a buffer of this size, which is not 0. -/
def recvInto (s : Socket) (room : ℕ) : List UInt8 × Socket :=
  let chunk := s.incoming.take (min room (max 1 (s.splits 0)))
  (chunk, ⟨s.incoming.drop chunk.length, fun n ↦ s.splits (n + 1)⟩)

variable {s : Socket} {room : ℕ}

theorem recvInto_append : (s.recvInto room).1 ++ (s.recvInto room).2.incoming = s.incoming :=
  List.prefix_iff_eq_append.mp (List.take_prefix _ _)

theorem length_recvInto_le : (s.recvInto room).1.length ≤ room :=
  Nat.le_trans (List.length_take_le _ _) (Nat.min_le_left _ _)

/-- A read gets nothing only at the end of the stream. -/
theorem recvInto_eq_nil (hroom : 0 < room) : (s.recvInto room).1 = [] ↔ s.incoming = [] := by
  rw [recvInto, List.take_eq_nil_iff]
  have hpos : min room (max 1 (s.splits 0)) ≠ 0 := by
    have hone : 1 ≤ max 1 (s.splits 0) := Nat.le_max_left _ _
    omega
  simp [hpos]

/-- The loop of `recv`. -/
def recvLoop (size : ℕ) (s : Socket) (buf : List UInt8) : Except RecvError (List UInt8 × Socket) :=
  if _h : size ≤ buf.length then .ok (buf, s)
  else
    if _hchunk : (s.recvInto (size - buf.length)).1 = [] then .error (.incompleteRead buf size)
    else recvLoop size (s.recvInto (size - buf.length)).2
      (buf ++ (s.recvInto (size - buf.length)).1)
termination_by size - buf.length
decreasing_by
  have hpos := List.length_pos_of_ne_nil _hchunk
  rw [List.length_append]
  omega

def recv (s : Socket) (size : ℕ) : Except RecvError (List UInt8 × Socket) := recvLoop size s []

/-- **What has been asked for is read**, in however many parts it arrives. -/
theorem recvLoop_ok {size : ℕ} {buf need rest : List UInt8}
    (hsize : buf.length + need.length = size)
    (hincoming : s.incoming = need ++ rest) :
    ∃ s', recvLoop size s buf = .ok (buf ++ need, s') ∧ s'.incoming = rest := by
  induction hlength : need.length using Nat.strongRecOn generalizing s buf need with
  | ind n ih =>
    rw [recvLoop]
    by_cases hneed : need = []
    · subst hneed
      rw [dif_pos (by simp at hsize; omega)]
      exact ⟨s, by rw [List.append_nil], hincoming⟩
    · have hpos := List.length_pos_of_ne_nil hneed
      have hroom : 0 < size - buf.length := by omega
      have hchunk : (s.recvInto (size - buf.length)).1 ≠ [] := fun hnil ↦ by
        have hempty := (recvInto_eq_nil hroom).mp hnil
        rw [hincoming] at hempty
        exact hneed (List.append_eq_nil_iff.mp hempty).1
      rw [dif_neg (by omega), dif_neg hchunk]
      -- the chunk is a part of what is needed
      have hsplit : (s.recvInto (size - buf.length)).1
          ++ (s.recvInto (size - buf.length)).2.incoming = s.incoming := recvInto_append
      have hle : (s.recvInto (size - buf.length)).1.length ≤ need.length := by
        have hle' : (s.recvInto (size - buf.length)).1.length ≤ size - buf.length :=
          length_recvInto_le
        omega
      generalize (s.recvInto (size - buf.length)).1 = chunk at hchunk hsplit hle ⊢
      generalize (s.recvInto (size - buf.length)).2 = s₁ at hsplit ⊢
      rw [hincoming] at hsplit
      obtain ⟨need', rfl⟩ : chunk <+: need := List.prefix_of_prefix_length_le
        ⟨_, hsplit⟩ (List.prefix_append need rest) hle
      have hchunkPos := List.length_pos_of_ne_nil hchunk
      rw [List.length_append] at hsize hlength
      obtain ⟨s', hok, hrest⟩ : ∃ s', recvLoop size s₁ (buf ++ chunk)
          = .ok (buf ++ chunk ++ need', s') ∧ s'.incoming = rest := ih need'.length (by omega)
        (by rw [List.length_append]; omega)
        (by rw [List.append_assoc] at hsplit; exact List.append_cancel_left hsplit) rfl
      exact ⟨s', by rw [hok, List.append_assoc], hrest⟩

/-- If the stream ends too early, nothing is returned. -/
theorem recvLoop_incomplete {size : ℕ} {buf : List UInt8}
    (hsize : buf.length + s.incoming.length < size) :
    recvLoop size s buf = .error (.incompleteRead (buf ++ s.incoming) size) := by
  induction hlength : s.incoming.length using Nat.strongRecOn generalizing s buf with
  | ind n ih =>
    rw [recvLoop, dif_neg (by omega)]
    have hroom : 0 < size - buf.length := by omega
    by_cases hchunk : (s.recvInto (size - buf.length)).1 = []
    · rw [dif_pos hchunk, (recvInto_eq_nil hroom).mp hchunk, List.append_nil]
    · rw [dif_neg hchunk]
      have hsplit : (s.recvInto (size - buf.length)).1
          ++ (s.recvInto (size - buf.length)).2.incoming = s.incoming := recvInto_append
      generalize (s.recvInto (size - buf.length)).1 = chunk at hchunk hsplit ⊢
      generalize (s.recvInto (size - buf.length)).2 = s₁ at hsplit ⊢
      have hpos := List.length_pos_of_ne_nil hchunk
      rw [← hsplit, List.length_append] at hsize hlength
      rw [ih s₁.incoming.length (by omega) (by rw [List.length_append]; omega) rfl, ← hsplit,
        List.append_assoc]

theorem recv_ok {need rest : List UInt8} (hincoming : s.incoming = need ++ rest) :
    ∃ s', s.recv need.length = .ok (need, s') ∧ s'.incoming = rest :=
  recvLoop_ok (by simp) hincoming

theorem recv_incomplete {size : ℕ} (hsize : s.incoming.length < size) :
    s.recv size = .error (.incompleteRead s.incoming size) :=
  recvLoop_incomplete (by simpa using hsize)

/-- The first part of `recv_msg`: the length, and as many bytes. -/
def recvFrame (s : Socket) : Except RecvError (List UInt8 × Socket) :=
  (s.recv 4).bind fun p ↦ p.2.recv (deserializeUint32 p.1)

end Socket

/-- What `send_msg` sends of some data. -/
def frame (data : List UInt8) : Option (List UInt8) :=
  (serializeUint32 data.length).map (· ++ data)

/-- A frame is its length and the data. -/
theorem exists_frame {data : List UInt8} (h : data.length < 2 ^ 32) :
    ∃ size, frame data = some (size ++ data) ∧ size.length = 4 ∧
      deserializeUint32 size = data.length := by
  obtain ⟨size, hsize, hlength, hread⟩ := exists_serializeUint32 h
  exact ⟨size, by rw [frame, hsize, Option.map_some], hlength, hread⟩

open Socket

/-- **A frame is read whole**, and what follows it stays in the stream. -/
theorem recvFrame_frame {s : Socket} {data bytes rest : List UInt8}
    (hframe : frame data = some bytes)
    (h : data.length < 2 ^ 32) (hincoming : s.incoming = bytes ++ rest) :
    ∃ s', s.recvFrame = .ok (data, s') ∧ s'.incoming = rest := by
  obtain ⟨size, hsize, hlength, hread⟩ := exists_frame h
  obtain rfl := Option.some.inj (hframe.symm.trans hsize)
  rw [List.append_assoc] at hincoming
  obtain ⟨s₁, hok₁, hincoming₁⟩ := recv_ok hincoming
  obtain ⟨s₂, hok₂, hincoming₂⟩ := recv_ok hincoming₁
  refine ⟨s₂, ?_, hincoming₂⟩
  rw [recvFrame, ← hlength, hok₁]
  change s₁.recv (deserializeUint32 size) = _
  rw [hread, hok₂]

/-- **A frame that is cut off is not returned.** -/
theorem recvFrame_torn {s : Socket} {data bytes : List UInt8} (hframe : frame data = some bytes)
    (h : data.length < 2 ^ 32) (hbegins : s.incoming <+: bytes) (hne : s.incoming ≠ bytes) :
    ∃ received expected, s.recvFrame = .error (.incompleteRead received expected) := by
  obtain ⟨size, hsize, hlength, hread⟩ := exists_frame h
  obtain rfl := Option.some.inj (hframe.symm.trans hsize)
  have hlt : s.incoming.length < (size ++ data).length :=
    Nat.lt_of_le_of_ne hbegins.length_le fun heq ↦ hne (hbegins.eq_of_length heq)
  by_cases hshort : s.incoming.length < 4
  · refine ⟨s.incoming, 4, ?_⟩
    rw [recvFrame, recv_incomplete hshort]
    rfl
  · -- the length has arrived, the data have not
    obtain ⟨part, hpart⟩ : size <+: s.incoming :=
      List.prefix_of_prefix_length_le (List.prefix_append size data) hbegins (by omega)
    obtain ⟨s₁, hok₁, hincoming₁⟩ := recv_ok hpart.symm
    have hpartLength : s₁.incoming.length < data.length := by
      rw [← hpart, List.length_append, List.length_append] at hlt
      rw [hincoming₁]
      omega
    refine ⟨s₁.incoming, data.length, ?_⟩
    rw [recvFrame, ← hlength, hok₁]
    change s₁.recv (deserializeUint32 size) = _
    rw [hread, recv_incomplete hpartLength]

end Framing
