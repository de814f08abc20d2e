import Mathlib

/-!
# The MD5 digest

Routing hashes a key with `hashlib.md5` and reads the sixteen digest bytes as one big-endian
number. This file computes that number on the bytes of a message, following the published
algorithm: pad to a multiple of 64 bytes, then fold a 64-round compression over the blocks, all
arithmetic being modulo `2 ^ 32`.

Nothing is proved about the digest. Every general result of the development holds for an arbitrary
hash; the definition is here so that a concrete routing decision can be evaluated.
-/

namespace Md5

/-- Words are numbers below `2 ^ 32`. -/
def word : ℕ := 2 ^ 32

/-- Rotation amounts, four for each of the four rounds. -/
def shifts : List ℕ := [7, 12, 17, 22, 5, 9, 14, 20, 4, 11, 16, 23, 6, 10, 15, 21]

/-- `⌊2 ^ 32 · |sin (i + 1)|⌋` for `i < 64`. -/
def sines : List ℕ := [
  0xd76aa478, 0xe8c7b756, 0x242070db, 0xc1bdceee, 0xf57c0faf, 0x4787c62a, 0xa8304613, 0xfd469501,
  0x698098d8, 0x8b44f7af, 0xffff5bb1, 0x895cd7be, 0x6b901122, 0xfd987193, 0xa679438e, 0x49b40821,
  0xf61e2562, 0xc040b340, 0x265e5a51, 0xe9b6c7aa, 0xd62f105d, 0x02441453, 0xd8a1e681, 0xe7d3fbc8,
  0x21e1cde6, 0xc33707d6, 0xf4d50d87, 0x455a14ed, 0xa9e3e905, 0xfcefa3f8, 0x676f02d9, 0x8d2a4c8a,
  0xfffa3942, 0x8771f681, 0x6d9d6122, 0xfde5380c, 0xa4beea44, 0x4bdecfa9, 0xf6bb4b60, 0xbebfbc70,
  0x289b7ec6, 0xeaa127fa, 0xd4ef3085, 0x04881d05, 0xd9d4d039, 0xe6db99e5, 0x1fa27cf8, 0xc4ac5665,
  0xf4292244, 0x432aff97, 0xab9423a7, 0xfc93a039, 0x655b59c3, 0x8f0ccc92, 0xffeff47d, 0x85845dd1,
  0x6fa87e4f, 0xfe2ce6e0, 0xa3014314, 0x4e0811a1, 0xf7537e82, 0xbd3af235, 0x2ad7d2bb, 0xeb86d391]

def rotateLeft (x s : ℕ) : ℕ := (x <<< s) % word ||| (x >>> (32 - s))

def complement (x : ℕ) : ℕ := word - 1 - x

/-- The number a list of bytes denotes, least significant byte first. -/
def littleEndian (bytes : List ℕ) : ℕ := bytes.foldr (fun b acc ↦ b + 256 * acc) 0

/-- The `k` low bytes of `n`, least significant first. -/
def toLittleEndian : ℕ → ℕ → List ℕ
  | 0, _ => []
  | k + 1, n => n % 256 :: toLittleEndian k (n / 256)

/-- The message with its `1` bit, its zeros and its length in bits. -/
def pad (msg : List ℕ) : List ℕ :=
  msg ++ 0x80 :: List.replicate ((119 - msg.length % 64) % 64) 0
    ++ toLittleEndian 8 (8 * msg.length)

/-- The first `m` chunks of length `k`. -/
def chunks (k : ℕ) : ℕ → List ℕ → List (List ℕ)
  | 0, _ => []
  | m + 1, l => l.take k :: chunks k m (l.drop k)

structure State where
  a : ℕ
  b : ℕ
  c : ℕ
  d : ℕ

/-- Round `i` on one block of sixteen words. -/
def round (block : List ℕ) (st : State) (i : ℕ) : State :=
  let f :=
    if i < 16 then (st.b &&& st.c) ||| (complement st.b &&& st.d)
    else if i < 32 then (st.d &&& st.b) ||| (complement st.d &&& st.c)
    else if i < 48 then st.b ^^^ st.c ^^^ st.d
    else st.c ^^^ (st.b ||| complement st.d)
  let g :=
    if i < 16 then i
    else if i < 32 then (5 * i + 1) % 16
    else if i < 48 then (3 * i + 5) % 16
    else (7 * i) % 16
  let sum := (f + st.a + sines.getD i 0 + block.getD g 0) % word
  ⟨st.d, (st.b + rotateLeft sum (shifts.getD (4 * (i / 16) + i % 4) 0)) % word, st.b, st.c⟩

def compress (st : State) (block : List ℕ) : State :=
  let r := (List.range 64).foldl (round block) st
  ⟨(st.a + r.a) % word, (st.b + r.b) % word, (st.c + r.c) % word, (st.d + r.d) % word⟩

/-- The sixteen bytes of the digest. -/
def digest (msg : List ℕ) : List ℕ :=
  let padded := pad msg
  let blocks := (chunks 64 (padded.length / 64) padded).map fun b ↦
    (chunks 4 16 b).map littleEndian
  let r := blocks.foldl compress ⟨0x67452301, 0xefcdab89, 0x98badcfe, 0x10325476⟩
  [r.a, r.b, r.c, r.d].flatMap (toLittleEndian 4)

/-- `int(hashlib.md5(s.encode()).hexdigest(), 16)`. -/
def hexdigestInt (s : String) : ℕ :=
  (digest (s.toUTF8.toList.map UInt8.toNat)).foldl (fun acc b ↦ 256 * acc + b) 0

example : hexdigestInt "1" = 0xc4ca4238a0b923820dcc509a6f75849b := by decide +kernel

end Md5
