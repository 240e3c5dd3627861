import Barqium.ForStd.Bits
import Mathlib.Data.Nat.NthRoot.Defs
import Mathlib.Data.Nat.Prime.Basic
import Mathlib.Order.Bounds.Basic

/-!
# SHA-256 and HMAC

The hash function of FIPS 180-4, over strings of bits and words of 32 bits, and the keyed hash of
RFC 2104 over any hash function.

## Key results

- `zeros_isLeast`: the number of zeros in the padding
- `length_pad`: a padded message is made of blocks.
- `schedule_of_lt`, `schedule_of_le`: the recursion of the message schedule
- `compress_congr`: a block counts by its sixteen words.
-/

namespace Sha256

abbrev Word := BitVec 32

/-! ## Functions on words -/

/-- Rotation to the right, for up to 32 positions. -/
def rotr (n : Nat) (x : Word) : Word := x >>> n ||| x <<< (32 - n)

def shr (n : Nat) (x : Word) : Word := x >>> n

def ch (x y z : Word) : Word := (x &&& y) ^^^ (~~~x &&& z)

def maj (x y z : Word) : Word := (x &&& y) ^^^ (x &&& z) ^^^ (y &&& z)

/-- Capital sigma zero. -/
def bigSigma0 (x : Word) : Word := rotr 2 x ^^^ rotr 13 x ^^^ rotr 22 x

def bigSigma1 (x : Word) : Word := rotr 6 x ^^^ rotr 11 x ^^^ rotr 25 x

def sigma0 (x : Word) : Word := rotr 7 x ^^^ rotr 18 x ^^^ shr 3 x

def sigma1 (x : Word) : Word := rotr 17 x ^^^ rotr 19 x ^^^ shr 10 x

/-! ## Constants -/

/-- The first sixty-four prime numbers. -/
def primes : List Nat := (List.range 312).filter fun n => n.Prime

/-- The first 32 bits of the fractional part of the `n`-th root of a number. -/
def rootBits (n p : Nat) : Word := BitVec.ofNat 32 (Nat.nthRoot n (p * 2 ^ (32 * n)))

/-- From the cube roots of the first sixty-four primes. -/
def constants : List Word := primes.map (rootBits 3)

def constant (t : Nat) : Word := constants.getD t 0

/-! ## Padding -/

/-- The number of zeros in the padding of a message of `l` bits. -/
def zeros (l : Nat) : Nat := (959 - l % 512) % 512

/-- It is the smallest one that leaves room for 64 bits in the last block. -/
theorem zeros_isLeast (l : Nat) : IsLeast { k | (l + 1 + k) % 512 = 448 } (zeros l) := by
  constructor
  · show (l + 1 + zeros l) % 512 = 448
    unfold zeros
    omega
  · intro k hk
    have hk : (l + 1 + k) % 512 = 448 := hk
    unfold zeros
    omega

/-- A one, zeros, and the length in 64 bits. -/
def padding (l : Nat) : List Bool :=
  true :: (List.replicate (zeros l) false ++ Bits.ofNat 64 l)

def pad (message : List Bool) : List Bool := message ++ padding message.length

/-- A padded message is made of blocks of 512 bits. -/
theorem length_pad (message : List Bool) : (pad message).length % 512 = 0 := by
  have hzeros : (message.length + 1 + zeros message.length) % 512 = 448 :=
    (zeros_isLeast message.length).1
  unfold pad padding
  rw [List.length_append, List.length_cons, List.length_append, List.length_replicate,
    Bits.length_ofNat]
  omega

/-- Word `j` of block `i`. -/
def blockWord (padded : List Bool) (i j : Nat) : Word :=
  BitVec.ofNat 32 (Bits.toNat ((padded.drop (512 * i + 32 * j)).take 32))

/-! ## The hash computation -/

/-- The eight working variables, and the eight words of a hash value. -/
structure Registers where
  a : Word
  b : Word
  c : Word
  d : Word
  e : Word
  f : Word
  g : Word
  h : Word
  deriving Repr, DecidableEq

namespace Registers

def words (r : Registers) : List Word := [r.a, r.b, r.c, r.d, r.e, r.f, r.g, r.h]

def add (r s : Registers) : Registers :=
  ⟨r.a + s.a, r.b + s.b, r.c + s.c, r.d + s.d, r.e + s.e, r.f + s.f, r.g + s.g, r.h + s.h⟩

end Registers

/-- The initial hash value, from the square roots of the first eight primes. -/
def initial : Registers :=
  ⟨rootBits 2 2, rootBits 2 3, rootBits 2 5, rootBits 2 7, rootBits 2 11, rootBits 2 13,
    rootBits 2 17, rootBits 2 19⟩

/-- The message schedule of a block. -/
def schedule (block : Nat → Word) (t : Nat) : Word :=
  if t < 16 then block t
  else
    sigma1 (schedule block (t - 2)) + schedule block (t - 7) + sigma0 (schedule block (t - 15)) +
      schedule block (t - 16)
termination_by t
decreasing_by all_goals omega

/-- The first sixteen words of the schedule are those of the block. -/
theorem schedule_of_lt (block : Nat → Word) {t : Nat} (h : t < 16) :
    schedule block t = block t := by
  rw [schedule, if_pos h]

/-- Every later word comes from four before it. -/
theorem schedule_of_le (block : Nat → Word) {t : Nat} (h : 16 ≤ t) :
    schedule block t =
      sigma1 (schedule block (t - 2)) + schedule block (t - 7) +
        sigma0 (schedule block (t - 15)) + schedule block (t - 16) := by
  rw [schedule, if_neg (Nat.not_lt.mpr h)]

/-- The schedule reads the sixteen words of the block. -/
theorem schedule_congr {block block' : Nat → Word} (h : ∀ j < 16, block j = block' j) (t : Nat) :
    schedule block t = schedule block' t := by
  induction t using Nat.strong_induction_on with
  | _ t ih =>
    by_cases ht : t < 16
    · rw [schedule_of_lt block ht, schedule_of_lt block' ht, h t ht]
    · have hle : 16 ≤ t := Nat.not_lt.mp ht
      rw [schedule_of_le block hle, schedule_of_le block' hle, ih (t - 2) (by omega),
        ih (t - 7) (by omega), ih (t - 15) (by omega), ih (t - 16) (by omega)]

/-- Round `t`. -/
def round (block : Nat → Word) (r : Registers) (t : Nat) : Registers :=
  let t₁ := r.h + bigSigma1 r.e + ch r.e r.f r.g + constant t + schedule block t
  let t₂ := bigSigma0 r.a + maj r.a r.b r.c
  ⟨t₁ + t₂, r.a, r.b, r.c, r.d + t₁, r.e, r.f, r.g⟩

/-- The hash value after one more block. -/
def compress (value : Registers) (block : Nat → Word) : Registers :=
  value.add ((List.range 64).foldl (round block) value)

/-- A block counts by its sixteen words. -/
theorem compress_congr {block block' : Nat → Word} (h : ∀ j < 16, block j = block' j)
    (value : Registers) : compress value block = compress value block' := by
  have hround : round block = round block' := by
    funext r t
    unfold round
    rw [schedule_congr h t]
  unfold compress
  rw [hround]

/-- The hash value of a padded message. -/
def hashBlocks (padded : List Bool) : Registers :=
  (List.range (padded.length / 512)).foldl (fun value i => compress value (blockWord padded i))
    initial

/-- The message digest. -/
def hash (message : List Bool) : List Bool :=
  (hashBlocks (pad message)).words.flatMap fun w => Bits.ofNat 32 w.toNat

/-- The hash function on bytes. -/
def digest (bytes : List UInt8) : List UInt8 := Bits.toBytes (hash (Bits.ofBytes bytes))

end Sha256

namespace Hmac

/-- The key that fills a block: a key that is longer than a block is hashed first. -/
def blockKey (blockSize : Nat) (hash : List UInt8 → List UInt8) (key : List UInt8) : List UInt8 :=
  let short := if key.length > blockSize then hash key else key
  short ++ List.replicate (blockSize - short.length) 0

/-- HMAC over a hash function with blocks of the given size. -/
def hmac (blockSize : Nat) (hash : List UInt8 → List UInt8) (key text : List UInt8) : List UInt8 :=
  let k := blockKey blockSize hash key
  hash (k.map (· ^^^ 0x5c) ++ hash (k.map (· ^^^ 0x36) ++ text))

end Hmac
