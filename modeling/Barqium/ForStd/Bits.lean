import Barqium.ForStd.List
import Mathlib.Algebra.Group.Nat.Defs
import Mathlib.Data.List.Induction

/-!
# Bit strings

Strings of bits with the most significant bit first, as the numbers and the strings of bytes that
they stand for.

## Key results

- `toNat_ofNat`, `ofNat_toNat`: bits and numbers of a fixed width
- `ofBytes_beBytes`: the bytes of a number in network order have the bits of the number.
- `toBytes_ofBytes`: a string of bytes is determined by its bits.
-/

namespace Bits

/-! ## Numbers -/

/-- The low bits of a number. -/
def ofNat : Nat → Nat → List Bool
  | 0, _ => []
  | w + 1, n => ofNat w (n / 2) ++ [decide (n % 2 = 1)]

def toNat (bits : List Bool) : Nat := bits.foldl (fun n b => 2 * n + b.toNat) 0

@[simp] theorem length_ofNat (w n : Nat) : (ofNat w n).length = w := by
  induction w generalizing n with
  | zero => rfl
  | succ w ih => rw [ofNat, List.length_append, ih, List.length_singleton]

/-- The last bit counts one. -/
theorem toNat_concat (l : List Bool) (b : Bool) : toNat (l ++ [b]) = 2 * toNat l + b.toNat :=
  List.foldl_concat ..

/-- A string of `w` bits holds a number modulo `2 ^ w`. -/
theorem toNat_ofNat (w n : Nat) : toNat (ofNat w n) = n % 2 ^ w := by
  induction w generalizing n with
  | zero => rw [Nat.pow_zero, Nat.mod_one]; rfl
  | succ w ih =>
    rw [ofNat, toNat_concat, ih, Nat.pow_succ, Nat.mul_comm (2 ^ w), Nat.mod_mul]
    have hbit : (decide (n % 2 = 1)).toNat = n % 2 := by
      rcases Nat.mod_two_eq_zero_or_one n with h | h <;> rw [h] <;> rfl
    rw [hbit, Nat.add_comm]

/-- Every string is the string of its number. -/
theorem ofNat_toNat (l : List Bool) : ofNat l.length (toNat l) = l := by
  induction l using List.reverseRecOn with
  | nil => rfl
  | append_singleton l b ih =>
    have hhalf : (2 * toNat l + b.toNat) / 2 = toNat l := by
      cases b <;> simp
      omega
    have hbit : decide ((2 * toNat l + b.toNat) % 2 = 1) = b := by
      cases b <;> simp
    rw [List.length_append, List.length_singleton, toNat_concat, ofNat, hhalf, hbit, ih]

/-- Strings of one length are told apart by their numbers. -/
theorem eq_of_toNat_eq {l m : List Bool} (hlength : l.length = m.length)
    (h : toNat l = toNat m) : l = m := by
  rw [← ofNat_toNat l, hlength, h, ofNat_toNat]

/-- The first part of a string counts by the length of the second. -/
theorem toNat_append (l m : List Bool) : toNat (l ++ m) = toNat l * 2 ^ m.length + toNat m := by
  induction m using List.reverseRecOn with
  | nil =>
    rw [List.append_nil, List.length_nil, Nat.pow_zero, Nat.mul_one]
    rfl
  | append_singleton m b ih =>
    rw [← List.append_assoc, toNat_concat, ih, toNat_concat, List.length_append,
      List.length_singleton, Nat.pow_succ, ← Nat.mul_assoc]
    omega

/-- The number is taken modulo the width. -/
theorem ofNat_mod (w n : Nat) : ofNat w (n % 2 ^ w) = ofNat w n := by
  apply eq_of_toNat_eq
  · rw [length_ofNat, length_ofNat]
  · rw [toNat_ofNat, toNat_ofNat, Nat.mod_mod]

/-! ## Bytes -/

def ofByte (b : UInt8) : List Bool := ofNat 8 b.toNat

def ofBytes (bytes : List UInt8) : List Bool := bytes.flatMap ofByte

@[simp] theorem length_ofByte (b : UInt8) : (ofByte b).length = 8 := length_ofNat 8 _

@[simp] theorem ofBytes_nil : ofBytes [] = [] := rfl

theorem ofBytes_cons (b : UInt8) (bytes : List UInt8) :
    ofBytes (b :: bytes) = ofByte b ++ ofBytes bytes :=
  List.flatMap_cons

/-- The bits of two strings of bytes, one after the other. -/
theorem ofBytes_append (bytes bytes' : List UInt8) :
    ofBytes (bytes ++ bytes') = ofBytes bytes ++ ofBytes bytes' :=
  List.flatMap_append

/-- Eight bits to a byte. -/
theorem length_ofBytes (bytes : List UInt8) : (ofBytes bytes).length = 8 * bytes.length := by
  induction bytes with
  | nil => rfl
  | cons b bytes ih =>
    rw [ofBytes_cons, List.length_append, length_ofByte, ih, List.length_cons]
    omega

/-- Dropping bytes drops eight times as many bits. -/
theorem drop_ofBytes (n : Nat) (bytes : List UInt8) :
    (ofBytes bytes).drop (8 * n) = ofBytes (bytes.drop n) := by
  induction n generalizing bytes with
  | zero => rfl
  | succ n ih =>
    cases bytes with
    | nil => rw [ofBytes_nil, List.drop_nil, List.drop_nil, ofBytes_nil]
    | cons b bytes =>
      rw [ofBytes_cons, Nat.mul_succ, Nat.add_comm, ← List.drop_drop,
        List.drop_left' (length_ofByte b), ih, List.drop_succ_cons]

/-- Taking bytes takes eight times as many bits. -/
theorem take_ofBytes (n : Nat) (bytes : List UInt8) :
    (ofBytes bytes).take (8 * n) = ofBytes (bytes.take n) := by
  induction n generalizing bytes with
  | zero => rfl
  | succ n ih =>
    cases bytes with
    | nil => rw [ofBytes_nil, List.take_nil, List.take_nil, ofBytes_nil]
    | cons b bytes =>
      rw [ofBytes_cons, List.take_append, length_ofByte, List.take_of_length_le
        (by rw [length_ofByte]; omega), Nat.mul_succ, Nat.add_sub_cancel, ih,
        List.take_succ_cons, ofBytes_cons]

/-- Zero bytes are zero bits. -/
theorem ofBytes_replicate_zero (n : Nat) :
    ofBytes (List.replicate n 0) = List.replicate (8 * n) false := by
  induction n with
  | zero => rfl
  | succ n ih =>
    have hbyte : ofByte 0 = List.replicate 8 false := by decide
    rw [List.replicate_succ, ofBytes_cons, ih, hbyte, ← List.replicate_add, Nat.mul_succ,
      Nat.add_comm]

/-- The bytes of a number, the most significant first. -/
def beBytes : Nat → Nat → List UInt8
  | 0, _ => []
  | n + 1, x => beBytes n (x / 256) ++ [UInt8.ofNat x]

@[simp] theorem length_beBytes (n x : Nat) : (beBytes n x).length = n := by
  induction n generalizing x with
  | zero => rfl
  | succ n ih => rw [beBytes, List.length_append, ih, List.length_singleton]

/-- The big-endian bytes of a number are its bits in order. -/
theorem ofBytes_beBytes (n x : Nat) : ofBytes (beBytes n x) = ofNat (8 * n) x := by
  apply eq_of_toNat_eq
  · rw [length_ofBytes, length_beBytes, length_ofNat]
  · rw [toNat_ofNat]
    induction n generalizing x with
    | zero => rw [Nat.mul_zero, Nat.pow_zero, Nat.mod_one]; rfl
    | succ n ih =>
      have hlast : ofBytes [UInt8.ofNat x] = ofNat 8 (x % 256) := by
        rw [ofBytes_cons, ofBytes_nil, List.append_nil, ofByte, UInt8.toNat_ofNat']
      -- the last byte is the rest modulo 256, the bytes before it are the quotient
      rw [beBytes, ofBytes_append, toNat_append, ih, hlast, toNat_ofNat, length_ofNat,
        Nat.mul_succ, Nat.add_comm (8 * n), Nat.pow_add, Nat.mod_mul]
      have hpow : 2 ^ 8 = 256 := rfl
      rw [hpow, Nat.mod_mod, Nat.add_comm, Nat.mul_comm]

/-- The bytes of which a string of bits is made. -/
def toBytes (bits : List Bool) : List UInt8 := (bits.chunks 8).map fun c => UInt8.ofNat (toNat c)

/-- Cutting the bits of bytes into bytes gives them back. -/
theorem toBytes_ofBytes (bytes : List UInt8) : toBytes (ofBytes bytes) = bytes := by
  unfold toBytes
  induction bytes with
  | nil =>
    rw [ofBytes_nil, List.chunks_nil]
    rfl
  | cons b bytes ih =>
    have hbyte : UInt8.ofNat (toNat (ofByte b)) = b := by
      rw [ofByte, toNat_ofNat, Nat.mod_eq_of_lt b.toNat_lt, UInt8.ofNat_toNat]
    rw [ofBytes_cons, List.chunks_append (by decide) (length_ofByte b), List.map_cons, ih, hbyte]

end Bits
