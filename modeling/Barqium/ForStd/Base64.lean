/-!
# Base64

The standard encoding with padding: three bytes are written as four characters, a last
group of one or two bytes is filled up with the padding character.

## Key results

- `length_encode`: an encoding is a third longer than what it encodes.
-/

namespace Base64

/-- The characters in the order of their values. -/
def alphabet : List Char :=
  "ABCDEFGHIJKLMNOPQRSTUVWXYZabcdefghijklmnopqrstuvwxyz0123456789+/".toList

def padding : Char := '='

/-- The character of the low six bits. -/
def digit (n : Nat) : Char := alphabet.getD (n % 64) padding

def encode : List UInt8 → List Char
  | [] => []
  | [a] => [digit (a.toNat / 4), digit (a.toNat % 4 * 16), padding, padding]
  | [a, b] =>
    [digit (a.toNat / 4), digit (a.toNat % 4 * 16 + b.toNat / 16), digit (b.toNat % 16 * 4),
      padding]
  | a :: b :: c :: rest =>
    [digit (a.toNat / 4), digit (a.toNat % 4 * 16 + b.toNat / 16),
      digit (b.toNat % 16 * 4 + c.toNat / 64), digit c.toNat] ++ encode rest

/-- Three bytes, or what is left of them, give four characters. -/
theorem length_encode (bytes : List UInt8) :
    (encode bytes).length = 4 * ((bytes.length + 2) / 3) := by
  fun_induction encode bytes with
  | case1 => rfl
  | case2 a => simp
  | case3 a b => simp
  | case4 a b c rest ih =>
    simp only [List.length_append, List.length_cons, List.length_nil, ih]
    omega

/-- An encoding is not shorter than the bytes. -/
theorem length_le_length_encode (bytes : List UInt8) : bytes.length ≤ (encode bytes).length := by
  rw [length_encode]
  omega

example : encode [0x4d, 0x61, 0x6e, 0x7b, 0x7d] = "TWFue30=".toList := by decide

end Base64
