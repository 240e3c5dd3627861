import Barqium.ForStd.Bits
import Barqium.ForStd.Digits
import Barqium.ForStd.Text

/-!
# Signatures of Bedrock requests

Model of the SigV4 helpers of `crates/barqium-ai/src/providers/bedrock.rs`: SHA-256, HMAC, and
the date of a request. An index or a slice out of range has no result. Days and seconds are
numbers: no year leaves the range of 64 bits.
-/

namespace Barqium.Native.SigV4

abbrev U32 := BitVec 32

/-! ## Arrays -/

/-- `a[i] = x`. -/
def store {α : Type} (a : List α) (i : Nat) (x : α) : Option (List α) :=
  if i < a.length then some (a.set i x) else none

/-- `a[start..stop].copy_from_slice(src)`. -/
def copyFromSlice {α : Type} (a : List α) (start stop : Nat) (src : List α) : Option (List α) :=
  if start ≤ stop ∧ stop ≤ a.length ∧ src.length = stop - start then
    some (a.take start ++ src ++ a.drop stop)
  else none

/-! ## SHA-256 -/

/-- The constants `K`. -/
def kTable : List U32 :=
  [0x428a2f98, 0x71374491, 0xb5c0fbcf, 0xe9b5dba5, 0x3956c25b, 0x59f111f1, 0x923f82a4,
   0xab1c5ed5, 0xd807aa98, 0x12835b01, 0x243185be, 0x550c7dc3, 0x72be5d74, 0x80deb1fe,
   0x9bdc06a7, 0xc19bf174, 0xe49b69c1, 0xefbe4786, 0x0fc19dc6, 0x240ca1cc, 0x2de92c6f,
   0x4a7484aa, 0x5cb0a9dc, 0x76f988da, 0x983e5152, 0xa831c66d, 0xb00327c8, 0xbf597fc7,
   0xc6e00bf3, 0xd5a79147, 0x06ca6351, 0x14292967, 0x27b70a85, 0x2e1b2138, 0x4d2c6dfc,
   0x53380d13, 0x650a7354, 0x766a0abb, 0x81c2c92e, 0x92722c85, 0xa2bfe8a1, 0xa81a664b,
   0xc24b8b70, 0xc76c51a3, 0xd192e819, 0xd6990624, 0xf40e3585, 0x106aa070, 0x19a4c116,
   0x1e376c08, 0x2748774c, 0x34b0bcb5, 0x391c0cb3, 0x4ed8aa4a, 0x5b9cca4f, 0x682e6ff3,
   0x748f82ee, 0x78a5636f, 0x84c87814, 0x8cc70208, 0x90befffa, 0xa4506ceb, 0xbef9a3f7,
   0xc67178f2]

/-- The initial value of `h`. -/
def hInit : List U32 :=
  [0x6a09e667, 0xbb67ae85, 0x3c6ef372, 0xa54ff53a, 0x510e527f, 0x9b05688c, 0x1f83d9ab,
   0x5be0cd19]

/-- The loop that pushes zeros. -/
def pushZeros (msg : List UInt8) : List UInt8 :=
  if msg.length % 64 ≠ 56 then pushZeros (msg ++ [0]) else msg
termination_by (120 - msg.length % 64) % 64
decreasing_by
  rw [List.length_append, List.length_singleton]
  omega

/-- The padded message. The product wraps, as in a release build. -/
def padded (data : List UInt8) : List UInt8 :=
  let bitLen : UInt64 := UInt64.ofNat data.length * 8
  pushZeros (data ++ [0x80]) ++ Bits.beBytes 8 bitLen.toNat

/-- `u32::from_be_bytes([word[0], word[1], word[2], word[3]])`. -/
def fromBeBytes (word : List UInt8) : Option U32 := do
  let b₀ ← word[0]?
  let b₁ ← word[1]?
  let b₂ ← word[2]?
  let b₃ ← word[3]?
  return BitVec.ofNat 32 (((b₀.toNat * 256 + b₁.toNat) * 256 + b₂.toNat) * 256 + b₃.toNat)

/-- The first sixteen words of `w`, read from the chunk. -/
def loadWords (chunk : List UInt8) : Option (List U32) :=
  ((chunk.chunks 4).zipIdx.take 16).foldlM
    (fun w p => do store w p.2 (← fromBeBytes p.1)) (List.replicate 64 0)

/-- One pass of the loop that fills the rest of `w` in place. -/
def extendStep (w : List U32) (i : Nat) : Option (List U32) := do
  let w15 ← w[i - 15]?
  let w2 ← w[i - 2]?
  let s0 := w15.rotateRight 7 ^^^ w15.rotateRight 18 ^^^ w15 >>> 3
  let s1 := w2.rotateRight 17 ^^^ w2.rotateRight 19 ^^^ w2 >>> 10
  store w i ((← w[i - 16]?) + s0 + (← w[i - 7]?) + s1)

def extendWords (w : List U32) : Option (List U32) := (List.range' 16 48).foldlM extendStep w

/-- The variables of the main loop. -/
structure Working where
  a : U32
  b : U32
  c : U32
  d : U32
  e : U32
  f : U32
  g : U32
  hh : U32

/-- One pass of the main loop. -/
def mainStep (w : List U32) (v : Working) (i : Nat) : Option Working := do
  let s1 := v.e.rotateRight 6 ^^^ v.e.rotateRight 11 ^^^ v.e.rotateRight 25
  let ch := (v.e &&& v.f) ^^^ (~~~v.e &&& v.g)
  let temp1 := v.hh + s1 + ch + (← kTable[i]?) + (← w[i]?)
  let s0 := v.a.rotateRight 2 ^^^ v.a.rotateRight 13 ^^^ v.a.rotateRight 22
  let maj := (v.a &&& v.b) ^^^ (v.a &&& v.c) ^^^ (v.b &&& v.c)
  let temp2 := s0 + maj
  return { hh := v.g, g := v.f, f := v.e, e := v.d + temp1, d := v.c, c := v.b, b := v.a,
           a := temp1 + temp2 }

/-- The variables before the main loop. -/
def startVars (h : List U32) : Option Working := do
  return ⟨← h[0]?, ← h[1]?, ← h[2]?, ← h[3]?, ← h[4]?, ← h[5]?, ← h[6]?, ← h[7]?⟩

/-- `h[i] = h[i].wrapping_add(x)`. -/
def addTo (h : List U32) (i : Nat) (x : U32) : Option (List U32) := do
  store h i ((← h[i]?) + x)

/-- The additions behind the main loop. -/
def addVars (h : List U32) (v : Working) : Option (List U32) := do
  let h ← addTo h 0 v.a
  let h ← addTo h 1 v.b
  let h ← addTo h 2 v.c
  let h ← addTo h 3 v.d
  let h ← addTo h 4 v.e
  let h ← addTo h 5 v.f
  let h ← addTo h 6 v.g
  addTo h 7 v.hh

/-- The loop over the chunks, for one chunk. -/
def processChunk (h : List U32) (chunk : List UInt8) : Option (List U32) := do
  let w ← extendWords (← loadWords chunk)
  let v ← (List.range 64).foldlM (mainStep w) (← startVars h)
  addVars h v

/-- The hash as bytes. -/
def output (h : List U32) : Option (List UInt8) :=
  h.zipIdx.foldlM
    (fun out p => copyFromSlice out (p.2 * 4) ((p.2 + 1) * 4) (Bits.beBytes 4 p.1.toNat))
    (List.replicate 32 0)

def sha256Raw (data : List UInt8) : Option (List UInt8) := do
  let h ← ((padded data).chunks 64).foldlM processChunk hInit
  output h

/-! ## HMAC -/

/-- `pad[i] ^= k[i]` for every index of the block. -/
def xorBlock (pad k : List UInt8) : Option (List UInt8) :=
  (List.range 64).foldlM (fun pad i => do store pad i ((← pad[i]?) ^^^ (← k[i]?))) pad

def hmacSha256 (key data : List UInt8) : Option (List UInt8) := do
  let k : List UInt8 := List.replicate 64 0
  let k ←
    -- a long key is hashed first
    if key.length > 64 then do
      let h ← sha256Raw key
      copyFromSlice k 0 32 h
    else copyFromSlice k 0 key.length key
  let ipad ← xorBlock (List.replicate 64 0x36) k
  let opad ← xorBlock (List.replicate 64 0x5c) k
  let innerHash ← sha256Raw (ipad ++ data)
  sha256Raw (opad ++ innerHash)

/-! ## The date of a request -/

def isLeap (y : Nat) : Bool := y % 4 == 0 && (!(y % 100 == 0) || y % 400 == 0)

/-- The days of a year. -/
def dy (year : Nat) : Nat := if isLeap year then 366 else 365

/-- A year has days. -/
theorem dy_pos (year : Nat) : 0 < dy year := by
  unfold dy
  split <;> decide

/-- The loop over the years: the days that are left and the year. -/
def yearLoop (days year : Nat) : Nat × Nat :=
  if days < dy year then (days, year) else yearLoop (days - dy year) (year + 1)
termination_by days
decreasing_by
  have hpos := dy_pos year
  omega

def months (leap : Bool) : List Nat :=
  [31, if leap then 29 else 28, 31, 30, 31, 30, 31, 31, 30, 31, 30, 31]

/-- The loop over the months: the days that are left and the month. -/
def monthLoop : List Nat → Nat → Nat → Nat × Nat
  | [], days, month => (days, month)
  | dm :: rest, days, month =>
    if days < dm then (days, month) else monthLoop rest (days - dm) (month + 1)

def daysToYmd (days : Nat) : Nat × Nat × Nat :=
  let (days, year) := yearLoop days 1970
  let (days, month) := monthLoop (months (isLeap year)) days 1
  (year, month, days + 1)

def secondsToYmdHms (s : Nat) : Nat × Nat × Nat × Nat × Nat × Nat :=
  let sec := s % 60
  let min := s / 60 % 60
  let hour := s / 3600 % 24
  let days := s / 86400
  let (y, mo, d) := daysToYmd days
  (y, mo, d, hour, min, sec)

def formatDatetime (secs : Nat) : List Char :=
  let (y, mo, d, h, mi, sec) := secondsToYmdHms secs
  Digits.zeroPadded 4 y ++ Digits.zeroPadded 2 mo ++ Digits.zeroPadded 2 d ++ ['T'] ++
    Digits.zeroPadded 2 h ++ Digits.zeroPadded 2 mi ++ Digits.zeroPadded 2 sec ++ ['Z']

/-- `&date_time[..8]`, the date of the credential scope. -/
def scopeDate (secs : Nat) : Option (List Char) := Text.sliceTo (formatDatetime secs) 8

end Barqium.Native.SigV4
