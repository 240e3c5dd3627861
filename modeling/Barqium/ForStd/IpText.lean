import Barqium.ForStd.List
import Mathlib.Algebra.Group.Nat.Defs
import Mathlib.Data.Fintype.Basic
import Mathlib.Data.List.Basic

/-!
# Texts of IP addresses

The textual forms of addresses: four decimal octets for IPv4, and for IPv6 eight groups
of hexadecimal digits, of which a run of zero groups may be left out once (`::`) and
the last two may be written as four octets.

## Key results

- `V4.isPrivate_iff`, `V4.isLoopback_iff`, `V4.isLinkLocal_iff`: the ranges of addresses as
  blocks of a network.
- `V4.fst_of_isPrefix`, `V4.snd_of_isPrefix`: octets with a dot behind them begin the texts of
  the addresses that have them.
- `V6Text.toLower`: the case of a text does not matter.
- `V6Text.firstOther`: an IPv6 text has a colon behind its first hexadecimal digits.
- `V6Text.eq_nil_of_one`: the address of a text that begins with `::1` is no loopback,
  unspecified, link-local or IPv4-mapped address, unless `::1` is all of it.
-/

namespace IpText

/-! ## IPv4 -/

/-- An IPv4 address. -/
structure V4 where
  a : Fin 256
  b : Fin 256
  c : Fin 256
  d : Fin 256
  deriving Repr, DecidableEq

/-- The digits of an octet. -/
def octet (n : Fin 256) : List Char := n.val.repr.toList

namespace V4

/-- The dotted quad of an address. -/
def text (x : V4) : List Char :=
  octet x.a ++ '.' :: (octet x.b ++ '.' :: (octet x.c ++ '.' :: octet x.d))

/-- The address as two groups of 16 bits. -/
def groups (x : V4) : List Nat := [x.a * 256 + x.b, x.c * 256 + x.d]

def IsLoopback (x : V4) : Prop := x.a = 127

/-- The blocks of RFC 1918. -/
def IsPrivate (x : V4) : Prop :=
  x.a = 10 ∨ (x.a = 172 ∧ 16 ≤ x.b ∧ x.b ≤ 31) ∨ (x.a = 192 ∧ x.b = 168)

def IsLinkLocal (x : V4) : Prop := x.a = 169 ∧ x.b = 254

def IsUnspecified (x : V4) : Prop := x = ⟨0, 0, 0, 0⟩

/-- The 32 bits of an address. -/
def value (x : V4) : Nat := ((x.a * 256 + x.b) * 256 + x.c) * 256 + x.d

/-- `x` is in the block `net/bits`: the two agree in the first `bits` bits. -/
def InBlock (net : V4) (bits : Nat) (x : V4) : Prop :=
  x.value / 2 ^ (32 - bits) = net.value / 2 ^ (32 - bits)

/-- The loopback addresses are a block. -/
theorem isLoopback_iff {x : V4} : x.IsLoopback ↔ InBlock ⟨127, 0, 0, 0⟩ 8 x := by
  obtain ⟨a, b, c, d⟩ := x
  simp only [IsLoopback, InBlock, value, Fin.ext_iff, Fin.isValue]
  omega

/-- The private addresses are three blocks. -/
theorem isPrivate_iff {x : V4} :
    x.IsPrivate ↔ InBlock ⟨10, 0, 0, 0⟩ 8 x ∨ InBlock ⟨172, 16, 0, 0⟩ 12 x ∨
      InBlock ⟨192, 168, 0, 0⟩ 16 x := by
  obtain ⟨a, b, c, d⟩ := x
  simp only [IsPrivate, InBlock, value, Fin.ext_iff, Fin.le_def, Fin.isValue]
  omega

/-- The link-local addresses are a block. -/
theorem isLinkLocal_iff {x : V4} : x.IsLinkLocal ↔ InBlock ⟨169, 254, 0, 0⟩ 16 x := by
  obtain ⟨a, b, c, d⟩ := x
  simp only [IsLinkLocal, InBlock, value, Fin.ext_iff, Fin.isValue]
  omega

end V4

/-! ## IPv6 -/

/-- The hexadecimal digits of either case. -/
def hexDigits : List Char := "0123456789abcdefABCDEF".toList

/-- The value of a hexadecimal digit. -/
def digitValue (c : Char) : Nat := "0123456789abcdef".toList.idxOf c.toLower

def hexValue (t : List Char) : Nat := t.foldl (fun n c => 16 * n + digitValue c) 0

/-- One to four hexadecimal digits with value `v`. -/
structure IsGroup (t : List Char) (v : Nat) : Prop where
  ne_nil : t ≠ []
  length_le : t.length ≤ 4
  hex : ∀ c ∈ t, c ∈ hexDigits
  value : hexValue t = v

/-- Groups with colons between them. Where `tail` is set, the text may end with the four
    octets of its last two groups. -/
inductive Groups (tail : Bool) : List Char → List Nat → Prop where
  | group {t : List Char} {v : Nat} (h : IsGroup t v) : Groups tail t [v]
  | octets (x : V4) (h : tail = true) : Groups tail x.text x.groups
  | cons {t rest : List Char} {v : Nat} {vs : List Nat} (h : IsGroup t v)
      (hrest : Groups tail rest vs) : Groups tail (t ++ ':' :: rest) (v :: vs)

/-- Any number of groups, also none. -/
def Part (tail : Bool) (t : List Char) (vs : List Nat) : Prop :=
  (t = [] ∧ vs = []) ∨ Groups tail t vs

/-- The texts of the IPv6 address with these eight groups. -/
inductive V6Text : List Char → List Nat → Prop where
  | full {t : List Char} {vs : List Nat} (h : Groups true t vs) (hlen : vs.length = 8) :
      V6Text t vs
  | compressed {left right : List Char} {ls rs : List Nat} (hleft : Part false left ls)
      (hright : Part true right rs) (hlen : ls.length + rs.length ≤ 7) :
      V6Text (left ++ ':' :: ':' :: right)
        (ls ++ List.replicate (8 - ls.length - rs.length) 0 ++ rs)

namespace V6

def IsLoopback (vs : List Nat) : Prop := vs = [0, 0, 0, 0, 0, 0, 0, 1]

def IsUnspecified (vs : List Nat) : Prop := vs = [0, 0, 0, 0, 0, 0, 0, 0]

/-- The block `fe80::/10`. -/
def IsLinkLocal (vs : List Nat) : Prop := ∃ v rest, vs = v :: rest ∧ 0xfe80 ≤ v ∧ v ≤ 0xfebf

/-- The IPv4-mapped address of `x`. -/
def mapped (x : V4) : List Nat := [0, 0, 0, 0, 0, 0xffff] ++ x.groups

end V6

/-! ## Characters -/

/-- A digit is one of ten characters. -/
theorem mem_of_isDigit {c : Char} (h : c.isDigit) : c ∈ "0123456789".toList := by
  obtain ⟨hle, hge⟩ := Char.isDigit_iff_toNat.mp h
  have hdigits : ∀ n < 10, Char.ofNat ('0'.toNat + n) ∈ "0123456789".toList := by decide
  have hlt : c.toNat - '0'.toNat < 10 := Nat.sub_lt_left_of_lt_add hle (Nat.lt_succ_of_le hge)
  have hc := hdigits _ hlt
  rwa [Nat.add_sub_cancel' hle, Char.ofNat_toNat] at hc

/-- The characters of an octet are digits. -/
theorem mem_octet {n : Fin 256} {c : Char} (h : c ∈ octet n) : c ∈ "0123456789".toList := by
  rw [octet, Nat.toList_repr] at h
  exact mem_of_isDigit (Nat.isDigit_of_mem_toDigits (by decide) (by decide) h)

/-- The digits of an octet are hexadecimal ones too. -/
theorem octet_hex {n : Fin 256} {c : Char} (h : c ∈ octet n) : c ∈ hexDigits := by
  have hdigits : ∀ c ∈ "0123456789".toList, c ∈ hexDigits :=
    List.forall_iff_forall_mem.mp (by decide)
  exact hdigits c (mem_octet h)

/-- An octet has a digit. -/
theorem octet_ne_nil (n : Fin 256) : octet n ≠ [] := by
  rw [octet, Nat.toList_repr]
  exact Nat.toDigits_ne_nil

/-- Different octets have different texts. -/
theorem octet_injective {m n : Fin 256} (h : octet m = octet n) : m = n := by
  rw [octet, octet, Nat.toList_repr, Nat.toList_repr] at h
  apply Fin.ext
  calc m.val = Nat.ofDigitChars 10 (Nat.toDigits 10 m) 0 :=
        (Nat.ofDigitChars_toDigits (by decide) (by decide)).symm
    _ = Nat.ofDigitChars 10 (Nat.toDigits 10 n) 0 := by rw [h]
    _ = n.val := Nat.ofDigitChars_toDigits (by decide) (by decide)

/-- An octet has no dot. -/
theorem dot_notMem_octet (n : Fin 256) : '.' ∉ octet n := fun h =>
  absurd (mem_octet h) (by decide)

/-- No octet but zero begins with the digit 0. -/
theorem eq_zero_of_octet : ∀ {n : Fin 256}, (octet n).head? = some '0' → n = 0 := by
  decide +kernel

/-- An octet whose first digit is 1 is neither the smallest nor the largest one. -/
theorem ne_of_octet_one {n : Fin 256} (h : (octet n).head? = some '1') : n ≠ 0 ∧ n ≠ 255 := by
  constructor
  · intro hzero
    subst hzero
    cases h
  · intro hmax
    subst hmax
    cases h

/-- A quad has digits and dots. -/
theorem V4.mem_text {x : V4} {c : Char} (h : c ∈ x.text) : c ∈ hexDigits ∨ c = '.' := by
  simp only [text, List.mem_append, List.mem_cons] at h
  rcases h with h | rfl | h | rfl | h | rfl | h
  · exact .inl (octet_hex h)
  · exact .inr rfl
  · exact .inl (octet_hex h)
  · exact .inr rfl
  · exact .inl (octet_hex h)
  · exact .inr rfl
  · exact .inl (octet_hex h)

/-! ## Beginnings of a dotted quad -/

namespace V4

variable {x : V4}

/-- The first octet of a quad stands before its first dot. -/
theorem fst_of_isPrefix {a : Fin 256} (h : octet a ++ ['.'] <+: x.text) : x.a = a := by
  obtain ⟨r, hr⟩ := h
  rw [text, List.append_assoc, List.cons_append] at hr
  obtain ⟨ha, -⟩ :=
    List.append_cons_inj_of_not_mem (dot_notMem_octet a) (dot_notMem_octet x.a) hr
  exact (octet_injective ha).symm

/-- The first two octets stand before the second dot. -/
theorem snd_of_isPrefix {a b : Fin 256} (h : octet a ++ '.' :: (octet b ++ ['.']) <+: x.text) :
    x.a = a ∧ x.b = b := by
  obtain ⟨r, hr⟩ := h
  simp only [text, List.append_assoc, List.cons_append] at hr
  obtain ⟨ha, hr⟩ := List.append_cons_inj_of_not_mem (dot_notMem_octet a) (dot_notMem_octet x.a) hr
  obtain ⟨hb, -⟩ := List.append_cons_inj_of_not_mem (dot_notMem_octet b) (dot_notMem_octet x.b) hr
  exact ⟨(octet_injective ha).symm, (octet_injective hb).symm⟩

/-- No longer text than its own begins with the text of the unspecified address. -/
theorem isUnspecified_of_isPrefix (h : text ⟨0, 0, 0, 0⟩ <+: x.text) : x.IsUnspecified := by
  obtain ⟨r, hr⟩ := h
  simp only [text, List.append_assoc, List.cons_append] at hr
  obtain ⟨ha, hr⟩ := List.append_cons_inj_of_not_mem (dot_notMem_octet 0) (dot_notMem_octet x.a) hr
  obtain ⟨hb, hr⟩ := List.append_cons_inj_of_not_mem (dot_notMem_octet 0) (dot_notMem_octet x.b) hr
  obtain ⟨hc, hr⟩ := List.append_cons_inj_of_not_mem (dot_notMem_octet 0) (dot_notMem_octet x.c) hr
  -- the last octet begins with 0
  have hd : x.d = 0 := by
    apply eq_zero_of_octet
    rw [← hr]
    rfl
  obtain ⟨a, b, c, d⟩ := x
  rw [IsUnspecified, V4.mk.injEq]
  exact ⟨(octet_injective ha).symm, (octet_injective hb).symm, (octet_injective hc).symm, hd⟩

/-- A dotted quad has three dots. -/
theorem count_dot : x.text.count '.' = 3 := by
  have hoctet (n : Fin 256) : (octet n).count '.' = 0 :=
    List.count_eq_zero_of_not_mem (dot_notMem_octet n)
  simp only [text, List.count_append, List.count_cons_self, hoctet]

end V4

/-! ## Characters of a text -/

/-- Groups have digits, dots and colons. -/
theorem Groups.mem {tail : Bool} {t : List Char} {vs : List Nat} (h : Groups tail t vs) {c : Char}
    (hc : c ∈ t) : c ∈ hexDigits ∨ c = '.' ∨ c = ':' := by
  induction h with
  | group h => exact .inl (h.hex c hc)
  | octets x _ => exact (V4.mem_text hc).imp_right .inl
  | cons h _ ih =>
    rcases List.mem_append.mp hc with hc | hc
    · exact .inl (h.hex c hc)
    · rcases List.mem_cons.mp hc with rfl | hc
      · exact .inr (.inr rfl)
      · exact ih hc

/-- A part of an address has digits, dots and colons only. -/
theorem Part.mem {tail : Bool} {t : List Char} {vs : List Nat} (h : Part tail t vs) {c : Char}
    (hc : c ∈ t) : c ∈ hexDigits ∨ c = '.' ∨ c = ':' := by
  rcases h with ⟨rfl, -⟩ | h
  · cases hc
  · exact h.mem hc

/-- An IPv6 text consists of hexadecimal digits, dots and colons. -/
theorem V6Text.mem {t : List Char} {vs : List Nat} (h : V6Text t vs) {c : Char} (hc : c ∈ t) :
    c ∈ hexDigits ∨ c = '.' ∨ c = ':' := by
  cases h with
  | full h hlen => exact h.mem hc
  | compressed hleft hright hlen =>
    simp only [List.mem_append, List.mem_cons] at hc
    rcases hc with hc | rfl | rfl | hc
    · exact hleft.mem hc
    · exact .inr (.inr rfl)
    · exact .inr (.inr rfl)
    · exact hright.mem hc

/-! ## Case -/

/-- An octet has no letters. -/
theorem octet_toLower (n : Fin 256) : (octet n).map Char.toLower = octet n := by
  have hdigits : ∀ c ∈ "0123456789".toList, c.toLower = c :=
    List.forall_iff_forall_mem.mp (by decide)
  rw [List.map_congr_left (fun c hc => hdigits c (mem_octet hc)), List.map_id']

/-- A quad has no letters. -/
theorem V4.text_toLower (x : V4) : x.text.map Char.toLower = x.text := by
  simp only [text, List.map_append, List.map_cons, octet_toLower]
  rfl

/-- Lower case keeps the value of a hexadecimal digit. -/
theorem hexDigits_toLower :
    ∀ c ∈ hexDigits, c.toLower ∈ hexDigits ∧ digitValue c.toLower = digitValue c :=
  List.forall_iff_forall_mem.mp (by decide)

/-- Lower case keeps the value of hexadecimal digits. -/
theorem foldl_toLower {t : List Char} (hhex : ∀ c ∈ t, c ∈ hexDigits) (n : Nat) :
    (t.map Char.toLower).foldl (fun n c => 16 * n + digitValue c) n =
      t.foldl (fun n c => 16 * n + digitValue c) n := by
  induction t generalizing n with
  | nil => rfl
  | cons c t ih =>
    obtain ⟨hc, ht⟩ := List.forall_mem_cons.mp hhex
    rw [List.map_cons, List.foldl_cons, List.foldl_cons, (hexDigits_toLower c hc).2, ih ht]

/-- A group in lower case is a group of the same value. -/
theorem IsGroup.toLower {t : List Char} {v : Nat} (h : IsGroup t v) :
    IsGroup (t.map Char.toLower) v where
  ne_nil := by simpa using h.ne_nil
  length_le := by simpa using h.length_le
  hex := by
    intro c hc
    obtain ⟨d, hd, rfl⟩ := List.mem_map.mp hc
    exact (hexDigits_toLower d (h.hex d hd)).1
  value := (foldl_toLower h.hex 0).trans h.value

/-- Groups in lower case are groups of the same values. -/
theorem Groups.toLower {tail : Bool} {t : List Char} {vs : List Nat} (h : Groups tail t vs) :
    Groups tail (t.map Char.toLower) vs := by
  induction h with
  | group h => exact .group h.toLower
  | octets x htail =>
    rw [x.text_toLower]
    exact .octets x htail
  | cons h _ ih =>
    rw [List.map_append, List.map_cons]
    exact .cons h.toLower ih

/-- A part of an address in lower case has the same groups. -/
theorem Part.toLower {tail : Bool} {t : List Char} {vs : List Nat} (h : Part tail t vs) :
    Part tail (t.map Char.toLower) vs := by
  rcases h with ⟨rfl, rfl⟩ | h
  · exact .inl ⟨rfl, rfl⟩
  · exact .inr h.toLower

/-- In lower case the text is one of the same address. -/
theorem V6Text.toLower {t : List Char} {vs : List Nat} (h : V6Text t vs) :
    V6Text (t.map Char.toLower) vs := by
  cases h with
  | full h hlen => exact .full h.toLower hlen
  | compressed hleft hright hlen =>
    rw [List.map_append, List.map_cons, List.map_cons]
    exact .compressed hleft.toLower hright.toLower hlen

/-! ## The first colon -/

/-- The first character that is no hexadecimal digit. -/
def firstOther (t : List Char) : Option Char := (t.dropWhile (· ∈ hexDigits)).head?

/-- Behind digits the next character is the first other one. -/
theorem firstOther_append {hex rest : List Char} {c : Char} (hhex : ∀ d ∈ hex, d ∈ hexDigits)
    (hc : c ∉ hexDigits) : firstOther (hex ++ c :: rest) = some c := by
  rw [firstOther, List.dropWhile_append_of_pos (by simpa using hhex),
    List.dropWhile_cons_of_neg (by simpa using hc), List.head?_cons]

/-- The first other character of a prefix is that of the text. -/
theorem firstOther_of_isPrefix {p t : List Char} {c : Char} (hp : p <+: t)
    (h : firstOther p = some c) : firstOther t = some c := by
  obtain ⟨u, rfl⟩ := hp
  obtain ⟨rest, hrest⟩ := List.head?_eq_some_iff.mp h
  rw [firstOther, List.dropWhile_append, hrest]
  rfl

/-- More groups than four octets stand for have a colon behind the first. -/
theorem Groups.firstOther_of_lt {tail : Bool} {t : List Char} {vs : List Nat}
    (h : Groups tail t vs) (hlt : 2 < vs.length) : firstOther t = some ':' := by
  cases h with
  | group h => simp at hlt
  | octets x _ => simp [V4.groups] at hlt
  | cons h _ => exact firstOther_append h.hex (by decide)

/-- Behind groups without a tail, and a colon, the first other character is a colon. -/
theorem Part.firstOther_append {t : List Char} {vs : List Nat} (h : Part false t vs)
    (suffix : List Char) : firstOther (t ++ ':' :: suffix) = some ':' := by
  rcases h with ⟨rfl, -⟩ | h
  · rfl
  · cases h with
    | group h => exact IpText.firstOther_append h.hex (by decide)
    | octets x htail => cases htail
    | cons h _ =>
      rw [List.append_assoc, List.cons_append]
      exact IpText.firstOther_append h.hex (by decide)

/-- The first character of an IPv6 text that is no digit is a colon. -/
theorem V6Text.firstOther {t : List Char} {vs : List Nat} (h : V6Text t vs) :
    firstOther t = some ':' := by
  cases h with
  | full h hlen => exact h.firstOther_of_lt (by omega)
  | compressed hleft _ _ => exact hleft.firstOther_append _

/-! ## Texts that begin with a one -/

/-- A hexadecimal digit is less than sixteen. -/
theorem digitValue_lt : ∀ c ∈ hexDigits, digitValue c < 16 :=
  List.forall_iff_forall_mem.mp (by decide)

/-- Digits behind a number move it up by their places and add less than one. -/
theorem foldl_hex_bounds {t : List Char} (hhex : ∀ c ∈ t, c ∈ hexDigits) (n : Nat) :
    16 ^ t.length * n ≤ t.foldl (fun n c => 16 * n + digitValue c) n ∧
      t.foldl (fun n c => 16 * n + digitValue c) n < 16 ^ t.length * (n + 1) := by
  -- the number read so far, moved by as many places as digits follow
  induction t generalizing n with
  | nil => simp
  | cons c t ih =>
    obtain ⟨hc, ht⟩ := List.forall_mem_cons.mp hhex
    -- a digit is below sixteen
    have hdigit := digitValue_lt c hc
    obtain ⟨hle, hlt⟩ := ih ht (16 * n + digitValue c)
    rw [List.foldl_cons, List.length_cons, Nat.pow_succ]
    constructor
    · -- the next digit adds at least nothing
      calc 16 ^ t.length * 16 * n = 16 ^ t.length * (16 * n) := Nat.mul_assoc _ _ _
        _ ≤ 16 ^ t.length * (16 * n + digitValue c) := Nat.mul_le_mul_left _ (by omega)
        _ ≤ _ := hle
    · calc _ < 16 ^ t.length * (16 * n + digitValue c + 1) := hlt
        _ ≤ 16 ^ t.length * (16 * (n + 1)) := Nat.mul_le_mul_left _ (by omega)
        _ = 16 ^ t.length * 16 * (n + 1) := (Nat.mul_assoc _ _ _).symm

/-- The value of a group whose first digit is 1. -/
theorem IsGroup.value_of_one {t : List Char} {v : Nat} (h : IsGroup ('1' :: t) v) :
    v ≠ 0 ∧ v < 0x2000 ∧ (v = 1 → t = []) := by
  obtain ⟨-, ht⟩ := List.forall_mem_cons.mp h.hex
  have hlen : t.length ≤ 3 := Nat.le_of_succ_le_succ h.length_le
  have hvalue : t.foldl (fun n c => 16 * n + digitValue c) 1 = v := h.value
  obtain ⟨hle, hlt⟩ := foldl_hex_bounds ht 1
  rw [hvalue] at hle hlt
  -- between `16 ^ k` and twice that, for at most three digits behind the one
  have hpos : 0 < 16 ^ t.length := Nat.pow_pos (by decide)
  have hmax : 16 ^ t.length ≤ 16 ^ 3 := Nat.pow_le_pow_right (by decide) hlen
  refine ⟨by omega, by omega, fun hone => ?_⟩
  cases t with
  | nil => rfl
  | cons c t =>
    -- a second digit makes the value at least 16
    have hmin : 16 ^ 1 ≤ 16 ^ (c :: t).length := Nat.pow_le_pow_right (by decide) (by simp)
    omega

/-- Groups have a value. -/
theorem Groups.ne_nil {tail : Bool} {t : List Char} {vs : List Nat} (h : Groups tail t vs) :
    vs ≠ [] := by
  cases h with
  | group h => simp
  | octets x _ => simp [V4.groups]
  | cons h _ => simp

/-- The first of the groups that begin with the digit 1. -/
theorem Groups.of_one {tail : Bool} {t r : List Char} {vs : List Nat} (h : Groups tail t vs)
    (ht : t = '1' :: r) :
    ∃ v rest, vs = v :: rest ∧ v ≠ 0 ∧ v ≠ 0xffff ∧ (v = 1 → rest = [] → r = []) := by
  cases h with
  | @group _ v h =>
    subst ht
    obtain ⟨hne, hlt, hone⟩ := h.value_of_one
    exact ⟨v, [], rfl, hne, by omega, fun hv _ => hone hv⟩
  | octets x _ =>
    have hhead : (octet x.a).head? = some '1' := by
      obtain ⟨c, u, hu⟩ := List.exists_cons_of_ne_nil (octet_ne_nil x.a)
      rw [V4.text, hu, List.cons_append] at ht
      rw [hu, (List.cons.inj ht).1]
      rfl
    -- the octet is the high byte of the first group
    obtain ⟨hzero, hmax⟩ := ne_of_octet_one hhead
    exact ⟨_, _, rfl, by omega, by omega, fun _ hrest => by cases hrest⟩
  | @cons u rest v vs h hrest =>
    obtain ⟨c, u', rfl⟩ := List.exists_cons_of_ne_nil h.ne_nil
    obtain ⟨rfl, -⟩ := List.cons.inj ht
    obtain ⟨hne, hlt, -⟩ := h.value_of_one
    exact ⟨v, vs, rfl, hne, by omega, fun _ hnil => absurd hnil hrest.ne_nil⟩

/-- Groups begin with a hexadecimal digit. -/
theorem Groups.exists_cons {tail : Bool} {t : List Char} {vs : List Nat} (h : Groups tail t vs) :
    ∃ c r, t = c :: r ∧ c ∈ hexDigits := by
  cases h with
  | group h =>
    obtain ⟨c, r, rfl⟩ := List.exists_cons_of_ne_nil h.ne_nil
    exact ⟨c, r, rfl, h.hex c List.mem_cons_self⟩
  | octets x _ =>
    obtain ⟨c, u, hu⟩ := List.exists_cons_of_ne_nil (octet_ne_nil x.a)
    have hc : c ∈ octet x.a := by
      rw [hu]
      exact List.mem_cons_self
    exact ⟨c, _, by rw [V4.text, hu, List.cons_append], octet_hex hc⟩
  | cons h _ =>
    obtain ⟨c, u, rfl⟩ := List.exists_cons_of_ne_nil h.ne_nil
    exact ⟨c, _, List.cons_append, h.hex c List.mem_cons_self⟩

/-- A text that begins with `::1` stands for zeros and the groups behind them. -/
theorem V6Text.of_one {r : List Char} {vs : List Nat} (h : V6Text (':' :: ':' :: '1' :: r) vs) :
    ∃ n v rest, vs = List.replicate (n + 1) 0 ++ v :: rest ∧ v ≠ 0 ∧ v ≠ 0xffff ∧
      (v = 1 → rest = [] → r = []) := by
  have hcolon : ':' ∉ hexDigits := by decide
  generalize ht : ':' :: ':' :: '1' :: r = t at h
  cases h with
  -- without compression the text begins with a digit
  | full h _ =>
    obtain ⟨c, u, rfl, hc⟩ := h.exists_cons
    obtain ⟨rfl, -⟩ := List.cons.inj ht
    exact absurd hc hcolon
  | compressed hleft hright hlen =>
    rcases hleft with ⟨rfl, rfl⟩ | hleft
    · -- the two colons are those of the compression
      obtain ⟨-, ht⟩ := List.cons.inj ht
      obtain ⟨-, rfl⟩ := List.cons.inj ht
      rcases hright with ⟨hnil, -⟩ | hright
      · cases hnil
      · obtain ⟨v, rest, rfl, hv⟩ := hright.of_one rfl
        refine ⟨7 - (v :: rest).length, v, rest, ?_, hv⟩
        have hzeros : 8 - (v :: rest).length = 7 - (v :: rest).length + 1 := by
          simp only [List.length_nil, List.length_cons] at hlen ⊢
          omega
        rw [List.nil_append, List.length_nil, Nat.sub_zero, hzeros]
    · -- groups before the compression would begin with a digit
      obtain ⟨c, u, rfl, hc⟩ := hleft.exists_cons
      obtain ⟨rfl, -⟩ := List.cons.inj ht
      exact absurd hc hcolon

/-- No special address but the loopback address has a text that begins with `::1`, and that
    one has no other. -/
theorem V6Text.eq_nil_of_one {r : List Char} {vs : List Nat}
    (h : V6Text (':' :: ':' :: '1' :: r) vs)
    (hspecial : V6.IsLoopback vs ∨ V6.IsUnspecified vs ∨ V6.IsLinkLocal vs ∨
      ∃ x, vs = V6.mapped x) : r = [] := by
  obtain ⟨n, v, rest, rfl, hzero, hmax, hr⟩ := h.of_one
  -- What stands behind the zeros tells the addresses apart.
  have hdrop : (List.replicate (n + 1) 0 ++ v :: rest).dropWhile (· = 0) = v :: rest := by
    rw [List.dropWhile_append_of_pos (by simp), List.dropWhile_cons_of_neg (by simpa using hzero)]
  rcases hspecial with hloop | hunspec | ⟨w, ws, hlink, hw, -⟩ | ⟨x, hmapped⟩
  · rw [hloop] at hdrop
    obtain ⟨rfl, rfl⟩ := List.cons.inj hdrop
    exact hr rfl rfl
  · -- the unspecified address has nothing but zeros
    rw [hunspec] at hdrop
    cases hdrop
  · -- the first group of a link-local address is not zero
    rw [List.replicate_succ, List.cons_append] at hlink
    obtain ⟨rfl, -⟩ := List.cons.inj hlink
    omega
  · -- behind the zeros of a mapped address comes `ffff`
    rw [hmapped] at hdrop
    exact absurd (List.cons.inj hdrop).1.symm hmax

end IpText
