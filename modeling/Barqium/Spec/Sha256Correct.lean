import Barqium.ForStd.Sha256
import Barqium.Native.SigV4

/-!
# The hash functions of request signatures

The hand-written hash is SHA-256 as FIPS 180-4 defines it on strings of bits, and the keyed hash is
HMAC over it. Every loop is a fold that keeps a list of words whose beginning is settled.

## Key results

- `ofBytes_padded`: the padding
- `loadWords_eq`, `extendWords_eq`: the message schedule, word by word
- `processChunk_eq`: one block
- `sha256Raw_eq`: the hash, with no index out of range
- `hmacSha256_eq`: the keyed hash, for keys of any length
- `hashes_standard`: both together
-/

namespace Barqium.Native.SigV4

/-! ## Computations that do not fail -/

/-- The first part succeeds. -/
private theorem bind_of_eq_some {α β : Type} {x : Option α} {a : α} {f : α → Option β}
    {r : Option β} (hx : x = some a) (hf : f a = r) : (x >>= f) = r := by
  rw [hx]
  exact hf

/-- A loop whose steps all have a result, on values that stand for others. -/
private theorem foldlM_eq_some {α β γ : Type} {step : β → α → Option β} {f : γ → α → γ} {g : γ → β}
    {l : List α} (h : ∀ a ∈ l, ∀ c, step (g c) a = some (g (f c a))) (c : γ) :
    l.foldlM step (g c) = some (g (l.foldl f c)) := by
  induction l generalizing c with
  | nil => rfl
  | cons a l ih =>
    rw [List.foldlM_cons, h a List.mem_cons_self c, List.foldl_cons]
    exact ih (fun a' ha' => h a' (List.mem_cons_of_mem _ ha')) _

/-! ## Padding -/

/-- The loop pushes zeros up to eight bytes before the end of a block. -/
private theorem pushZeros_eq (msg : List UInt8) :
    pushZeros msg = msg ++ List.replicate ((120 - msg.length % 64) % 64) 0 := by
  induction msg using pushZeros.induct with
  | case1 msg h ih =>
    rw [pushZeros, if_pos h, ih, List.append_assoc, List.length_append, List.length_singleton]
    congr 1
    -- one zero more than behind the next pass
    rw [← List.replicate_one, ← List.replicate_add]
    congr 1
    omega
  | case2 msg h =>
    rw [pushZeros, if_neg h]
    have hlength : msg.length % 64 = 56 := not_not.mp h
    rw [hlength]
    exact (List.append_nil msg).symm

/-- The bits of the padded message are the padded bits of the message. -/
theorem ofBytes_padded (data : List UInt8) :
    Bits.ofBytes (padded data) = Sha256.pad (Bits.ofBytes data) := by
  -- the byte `0x80` is a one and seven zeros
  have hone : Bits.ofBytes [0x80] = true :: List.replicate 7 false := by decide
  -- the length in bits, in 64 bits
  have hlength : (UInt64.ofNat data.length * 8).toNat = 8 * data.length % 2 ^ 64 := by
    rw [UInt64.toNat_mul, UInt64.toNat_ofNat']
    show data.length % 2 ^ 64 * 8 % 2 ^ 64 = _
    omega
  -- the zeros of the code are those of the standard
  have hzeros : 7 + 8 * ((120 - (data.length + 1) % 64) % 64) =
      Sha256.zeros (8 * data.length) := by
    unfold Sha256.zeros
    omega
  unfold padded Sha256.pad Sha256.padding
  rw [Bits.ofBytes_append, Bits.ofBytes_beBytes, hlength, Bits.ofNat_mod, pushZeros_eq,
    Bits.ofBytes_append, Bits.ofBytes_append, hone, Bits.ofBytes_replicate_zero,
    List.length_append, List.length_singleton, Bits.length_ofBytes, ← hzeros,
    List.replicate_add]
  simp only [List.append_assoc, List.cons_append]

/-- The padded message is made of blocks. -/
private theorem length_padded (data : List UInt8) :
    ∃ m, (padded data).length = 64 * m ∧
      (Sha256.pad (Bits.ofBytes data)).length = 512 * m := by
  have hbits := Bits.length_ofBytes (padded data)
  rw [ofBytes_padded] at hbits
  have hblocks := Sha256.length_pad (Bits.ofBytes data)
  refine ⟨(padded data).length / 64, ?_, ?_⟩ <;> omega

/-! ## Words -/

/-- The word of four bytes. -/
private theorem fromBeBytes_eq {word : List UInt8} (h : word.length = 4) :
    fromBeBytes word = some (BitVec.ofNat 32 (Bits.toNat (Bits.ofBytes word))) := by
  obtain ⟨b₀, b₁, b₂, b₃, rfl⟩ := List.length_eq_four.mp h
  -- four bytes, the first of them counting most
  have hvalue : Bits.toNat (Bits.ofBytes [b₀, b₁, b₂, b₃]) =
      ((b₀.toNat * 256 + b₁.toNat) * 256 + b₂.toNat) * 256 + b₃.toNat := by
    have hbyte : ∀ b : UInt8, Bits.toNat (Bits.ofByte b) = b.toNat := by
      intro b
      rw [Bits.ofByte, Bits.toNat_ofNat, Nat.mod_eq_of_lt b.toNat_lt]
    rw [Bits.ofBytes_cons, Bits.ofBytes_cons, Bits.ofBytes_cons, Bits.ofBytes_cons,
      Bits.ofBytes_nil, List.append_nil, Bits.toNat_append, Bits.toNat_append,
      Bits.toNat_append, hbyte, hbyte, hbyte, hbyte]
    simp only [List.length_append, Bits.length_ofByte]
    omega
  rw [hvalue]
  rfl

/-- A store within bounds. -/
private theorem store_eq_some {α : Type} {a : List α} {i : Nat} (h : i < a.length) (x : α) :
    store a i x = some (a.set i x) := if_pos h

/-! ## Arrays that a loop fills -/

/-- The array of which the first `n` entries are settled. -/
def settled {α : Type} (f : Nat → α) (a : List α) (n : Nat) : List α :=
  (List.range n).map f ++ a.drop n

section Settled

variable {α : Type} {f : Nat → α} {a : List α}

/-- Settling words keeps their number. -/
private theorem length_settled {n : Nat} (h : n ≤ a.length) :
    (settled f a n).length = a.length := by
  unfold settled
  rw [List.length_append, List.length_map, List.length_range, List.length_drop]
  omega

/-- The first words are settled. -/
private theorem getElem?_settled_of_lt {n i : Nat} (h : i < n) :
    (settled f a n)[i]? = some (f i) := by
  unfold settled
  rw [List.getElem?_append_left (by simpa using h), List.getElem?_map, List.getElem?_range h]
  rfl

/-- The entry that is settled next is still the one of the array. -/
private theorem getElem?_settled_self (n : Nat) : (settled f a n)[n]? = a[n]? := by
  unfold settled
  rw [List.getElem?_append_right (by simp), List.length_map, List.length_range, Nat.sub_self,
    List.getElem?_drop, Nat.add_zero]

/-- The next entry is settled by storing it. -/
private theorem store_settled {n : Nat} (h : n < a.length) :
    store (settled f a n) n (f n) = some (settled f a (n + 1)) := by
  rw [store_eq_some (by rw [length_settled (Nat.le_of_lt h)]; exact h)]
  unfold settled
  rw [List.set_append_right _ _ (by simp), List.length_map, List.length_range, Nat.sub_self,
    List.drop_eq_getElem_cons h, List.set_cons_zero, List.range_succ, List.map_append,
    List.append_assoc]
  rfl

/-- A loop that settles one entry after the other. -/
private theorem foldlM_settled {step : List α → Nat → Option (List α)} {s n : Nat}
    (hstep : ∀ i, s ≤ i → i < s + n → step (settled f a i) i = some (settled f a (i + 1))) :
    (List.range' s n).foldlM step (settled f a s) = some (settled f a (s + n)) := by
  induction n with
  | zero => rfl
  | succ n ih =>
    have hinit := ih fun i hle hlt => hstep i hle (Nat.lt_succ_of_lt hlt)
    rw [List.range'_concat, Nat.one_mul, List.foldlM_append, hinit]
    show step (settled f a (s + n)) (s + n) >>= pure = _
    rw [hstep (s + n) (Nat.le_add_right s n) (Nat.lt_succ_self _)]
    rfl

/-- All entries are settled. -/
private theorem settled_length : settled f a a.length = (List.range a.length).map f := by
  unfold settled
  rw [List.drop_length, List.append_nil]

end Settled

/-- The positions of a mapped range. -/
private theorem zipIdx_map_range {α : Type} (f : Nat → α) (n : Nat) :
    ((List.range n).map f).zipIdx = (List.range n).map fun i => (f i, i) := by
  apply List.ext_getElem
  · simp
  · intro i _ _
    simp

/-! ## The message schedule -/

/-- Word `j` of a chunk. -/
def chunkWord (chunk : List UInt8) (j : Nat) : U32 :=
  BitVec.ofNat 32 (Bits.toNat (((Bits.ofBytes chunk).drop (32 * j)).take 32))

/-- Four bytes of a chunk are a word of the block. -/
private theorem fromBeBytes_chunk {chunk : List UInt8} (h : chunk.length = 64) {j : Nat}
    (hj : j < 16) :
    fromBeBytes ((chunk.drop (4 * j)).take 4) = some (chunkWord chunk j) := by
  have hlength : ((chunk.drop (4 * j)).take 4).length = 4 := by
    rw [List.length_take, List.length_drop]
    omega
  -- the bytes of a word are its bits in the chunk
  have hbits : Bits.ofBytes ((chunk.drop (4 * j)).take 4) =
      ((Bits.ofBytes chunk).drop (32 * j)).take 32 := by
    have hdrop : 32 * j = 8 * (4 * j) := by omega
    rw [hdrop, Bits.drop_ofBytes]
    exact (Bits.take_ofBytes 4 _).symm
  rw [fromBeBytes_eq hlength, hbits]
  rfl

/-- The array before the loops over it. -/
def zeroWords : List U32 := List.replicate 64 0

/-- The words of the schedule for the words of a chunk. -/
def scheduled (chunk : List UInt8) (t : Nat) : U32 := Sha256.schedule (chunkWord chunk) t

/-- The first loop settles sixteen words. -/
theorem loadWords_eq {chunk : List UInt8} (h : chunk.length = 64) :
    loadWords chunk = some (settled (scheduled chunk) zeroWords 16) := by
  -- the chunk has exactly sixteen words
  have hpieces : (chunk.chunks 4).zipIdx.take 16 =
      (List.range 16).map fun j => ((chunk.drop (4 * j)).take 4, j) := by
    have hchunks := List.chunks_eq_map_range (m := 16) (show 0 < 4 by decide) h
    rw [hchunks, List.take_of_length_le (by simp), zipIdx_map_range]
  unfold loadWords
  rw [hpieces, List.foldlM_map, List.range_eq_range']
  refine foldlM_settled (s := 0) (n := 16) fun j _ hj => ?_
  have hword : scheduled chunk j = chunkWord chunk j := Sha256.schedule_of_lt _ (by omega)
  rw [fromBeBytes_chunk h (by omega), ← hword]
  exact store_settled (by simp; omega)

/-- The rotations are the same. -/
private theorem rotateRight_eq (x : U32) {n : Nat} (h : n < 32) :
    x.rotateRight n = Sha256.rotr n x := by
  rw [BitVec.rotateRight_eq_rotateRightAux_of_lt h]
  rfl

/-- One step of the second loop settles one more word. -/
private theorem extendStep_eq (chunk : List UInt8) {i : Nat} (hle : 16 ≤ i) (hlt : i < 64) :
    extendStep (settled (scheduled chunk) zeroWords i) i =
      some (settled (scheduled chunk) zeroWords (i + 1)) := by
  unfold extendStep
  rw [getElem?_settled_of_lt (by omega), getElem?_settled_of_lt (by omega),
    getElem?_settled_of_lt (by omega), getElem?_settled_of_lt (by omega)]
  -- the code adds the same words in another order
  have hword : scheduled chunk i = scheduled chunk (i - 16) +
      Sha256.sigma0 (scheduled chunk (i - 15)) + scheduled chunk (i - 7) +
      Sha256.sigma1 (scheduled chunk (i - 2)) := by
    have hschedule := Sha256.schedule_of_le (chunkWord chunk) hle
    unfold scheduled
    rw [hschedule]
    ac_rfl
  have hstore := store_settled (f := scheduled chunk) (a := zeroWords) (n := i)
    (by simp [zeroWords]; omega)
  rw [← hstore, hword]
  show store _ i _ = store _ i _
  rw [rotateRight_eq _ (by decide), rotateRight_eq _ (by decide), rotateRight_eq _ (by decide),
    rotateRight_eq _ (by decide)]
  rfl

/-- The second loop settles all words. -/
theorem extendWords_eq (chunk : List UInt8) :
    extendWords (settled (scheduled chunk) zeroWords 16) =
      some (settled (scheduled chunk) zeroWords 64) :=
  foldlM_settled (s := 16) (n := 48) fun _ hle hlt => extendStep_eq chunk hle hlt

/-! ## The main loop -/

/-- The table of the code has the constants of the standard. -/
private theorem kTable_eq : kTable = Sha256.constants := by decide +kernel

private theorem hInit_eq : hInit = Sha256.initial.words := by decide +kernel

/-- The constants are those of the standard. -/
private theorem kTable_getElem? {i : Nat} (h : i < 64) : kTable[i]? = some (Sha256.constant i) := by
  have hlength : i < kTable.length := h
  unfold Sha256.constant
  rw [← kTable_eq, List.getD_eq_getElem?_getD, List.getElem?_eq_getElem hlength]
  rfl

def Working.ofRegisters (r : Sha256.Registers) : Working :=
  ⟨r.a, r.b, r.c, r.d, r.e, r.f, r.g, r.h⟩

/-- One step of the main loop is a round. -/
private theorem mainStep_eq (chunk : List UInt8) (r : Sha256.Registers) {i : Nat} (h : i < 64) :
    mainStep (settled (scheduled chunk) zeroWords 64) (.ofRegisters r) i =
      some (.ofRegisters (Sha256.round (chunkWord chunk) r i)) := by
  unfold mainStep
  rw [kTable_getElem? h, getElem?_settled_of_lt h]
  show some _ = some _
  unfold Working.ofRegisters Sha256.round
  simp only [rotateRight_eq _ (show 2 < 32 by decide), rotateRight_eq _ (show 6 < 32 by decide),
    rotateRight_eq _ (show 11 < 32 by decide), rotateRight_eq _ (show 13 < 32 by decide),
    rotateRight_eq _ (show 22 < 32 by decide), rotateRight_eq _ (show 25 < 32 by decide)]
  rfl

/-- The main loop is sixty-four rounds. -/
private theorem mainLoop_eq (chunk : List UInt8) (r : Sha256.Registers) :
    (List.range 64).foldlM (mainStep (settled (scheduled chunk) zeroWords 64)) (.ofRegisters r) =
      some (.ofRegisters ((List.range 64).foldl (Sha256.round (chunkWord chunk)) r)) :=
  foldlM_eq_some (fun _ hi r => mainStep_eq chunk r (List.mem_range.mp hi)) r

/-- The variables start as the registers. -/
private theorem startVars_words (r : Sha256.Registers) :
    startVars r.words = some (.ofRegisters r) := rfl

/-- The variables are added to the registers at the end. -/
private theorem addVars_words (r s : Sha256.Registers) :
    addVars r.words (.ofRegisters s) = some (r.add s).words := rfl

/-- A chunk is compressed. -/
theorem processChunk_eq {chunk : List UInt8} (h : chunk.length = 64) (r : Sha256.Registers) :
    processChunk r.words chunk = some (Sha256.compress r (chunkWord chunk)).words := by
  unfold processChunk Sha256.compress
  simp only [loadWords_eq h, extendWords_eq, startVars_words, mainLoop_eq, addVars_words,
    Option.bind_eq_bind, Option.bind_some]

/-! ## The hash -/

/-- The words of the hash go to the output one after the other. -/
private theorem foldlM_copyFromSlice (before words : List U32) :
    (words.zipIdx before.length).foldlM
      (fun out p => copyFromSlice out (p.2 * 4) ((p.2 + 1) * 4) (Bits.beBytes 4 p.1.toNat))
      (before.flatMap (fun w => Bits.beBytes 4 w.toNat) ++ List.replicate (4 * words.length) 0) =
    some ((before ++ words).flatMap fun w => Bits.beBytes 4 w.toNat) := by
  -- word by word, each behind the last
  induction words generalizing before with
  | nil =>
    rw [List.append_nil, List.length_nil, Nat.mul_zero, List.replicate_zero, List.append_nil]
    rfl
  | cons w words ih =>
    have hbefore : (before.flatMap fun w => Bits.beBytes 4 w.toNat).length = before.length * 4 := by
      simp [List.length_flatMap]
    -- the next word fills the first four zeros
    have hcopy : copyFromSlice
        (before.flatMap (fun w => Bits.beBytes 4 w.toNat) ++
          List.replicate (4 * (w :: words).length) 0)
        (before.length * 4) ((before.length + 1) * 4) (Bits.beBytes 4 w.toNat) =
        some ((before ++ [w]).flatMap (fun w => Bits.beBytes 4 w.toNat) ++
          List.replicate (4 * words.length) 0) := by
      unfold copyFromSlice
      rw [if_pos (by simp [List.length_flatMap]; omega), List.take_left' hbefore,
        List.drop_append, List.drop_eq_nil_of_le (by omega), hbefore, List.drop_replicate]
      have hleft : 4 * (w :: words).length - ((before.length + 1) * 4 - before.length * 4) =
          4 * words.length := by
        rw [List.length_cons]
        omega
      rw [hleft, List.flatMap_append]
      simp
    rw [List.zipIdx_cons, List.foldlM_cons]
    show copyFromSlice _ (before.length * 4) ((before.length + 1) * 4) _ >>= _ = _
    have hlist : before ++ w :: words = before ++ [w] ++ words := List.append_cons before w words
    have hrest := ih (before ++ [w])
    rw [List.length_append, List.length_singleton] at hrest
    rw [hcopy, Option.bind_eq_bind, Option.bind_some, hlist]
    exact hrest

/-- The bytes of the words have the bits of the words. -/
private theorem ofBytes_words (words : List U32) :
    Bits.ofBytes (words.flatMap fun w => Bits.beBytes 4 w.toNat) =
      words.flatMap fun w => Bits.ofNat 32 w.toNat := by
  unfold Bits.ofBytes
  rw [List.flatMap_assoc]
  exact List.flatMap_congr fun w _ => Bits.ofBytes_beBytes 4 w.toNat

/-- A digest is the words of the hash in bytes. -/
private theorem digest_eq (data : List UInt8) :
    Sha256.digest data = (Sha256.hashBlocks (Sha256.pad (Bits.ofBytes data))).words.flatMap
      fun w => Bits.beBytes 4 w.toNat := by
  unfold Sha256.digest Sha256.hash
  rw [← ofBytes_words, Bits.toBytes_ofBytes]

/-- A digest has 32 bytes. -/
private theorem length_digest (data : List UInt8) : (Sha256.digest data).length = 32 := by
  rw [digest_eq]
  simp [Sha256.Registers.words]

/-- The output has the bytes of the hash value. -/
private theorem output_eq (r : Sha256.Registers) :
    output r.words = some (r.words.flatMap fun w => Bits.beBytes 4 w.toNat) :=
  foldlM_copyFromSlice [] r.words

/-- The words of the chunks are the words of the blocks. -/
private theorem chunkWord_padded (data : List UInt8) (i : Nat) {j : Nat} (hj : j < 16) :
    chunkWord (((padded data).drop (64 * i)).take 64) j =
      Sha256.blockWord (Sha256.pad (Bits.ofBytes data)) i j := by
  have hdrop : 512 * i = 8 * (64 * i) := by omega
  have hbits : Bits.ofBytes (((padded data).drop (64 * i)).take 64) =
      ((Sha256.pad (Bits.ofBytes data)).drop (512 * i)).take 512 := by
    rw [← ofBytes_padded, hdrop, Bits.drop_ofBytes]
    exact (Bits.take_ofBytes 64 _).symm
  have hmin : min 32 (512 - 32 * j) = 32 := by omega
  unfold chunkWord Sha256.blockWord
  rw [hbits, List.drop_take, List.take_take, List.drop_drop, hmin]

/-- A piece of a list of whole blocks is a block. -/
private theorem length_piece {bytes : List UInt8} {m i : Nat} (h : bytes.length = 64 * m)
    (hi : i < m) :
    ((bytes.drop (64 * i)).take 64).length = 64 := by
  rw [List.length_take, List.length_drop]
  omega

/-- The hash of the code is the digest of the standard. -/
theorem sha256Raw_eq (data : List UInt8) : sha256Raw data = some (Sha256.digest data) := by
  obtain ⟨m, hbytes, hbits⟩ := length_padded data
  have hcount : (Sha256.pad (Bits.ofBytes data)).length / 512 = m := by omega
  -- each chunk is compressed into the registers as a block of the padded bits is
  have hchunks : ((padded data).chunks 64).foldlM processChunk hInit =
      some (Sha256.hashBlocks (Sha256.pad (Bits.ofBytes data))).words := by
    unfold Sha256.hashBlocks
    rw [List.chunks_eq_map_range (by decide) hbytes, List.foldlM_map, hInit_eq, hcount]
    refine foldlM_eq_some (fun i hi r => ?_) Sha256.initial
    have hlength := length_piece hbytes (List.mem_range.mp hi)
    rw [processChunk_eq hlength, Sha256.compress_congr fun j hj => chunkWord_padded data i hj]
  unfold sha256Raw
  rw [hchunks, Option.bind_eq_bind, Option.bind_some, output_eq, digest_eq]

/-! ## The keyed hash -/

/-- The beginning of a zeroed array is overwritten. -/
private theorem copyFromSlice_zeros {src : List UInt8} {n : Nat} (h : src.length ≤ n) :
    copyFromSlice (List.replicate n 0) 0 src.length src =
      some (src ++ List.replicate (n - src.length) 0) := by
  have hfits : src.length ≤ (List.replicate n (0 : UInt8)).length := by
    rw [List.length_replicate]
    exact h
  rw [← List.drop_replicate]
  exact if_pos ⟨Nat.zero_le _, hfits, rfl⟩

/-- A pad of one byte is combined with every byte of the key. -/
private theorem xorBlock_eq {block k : List UInt8} {pad : UInt8}
    (hblock : block = List.replicate 64 pad)
    (hk : k.length = 64) : xorBlock block k = some (k.map (· ^^^ pad)) := by
  have hlength : block.length = 64 := by rw [hblock, List.length_replicate]
  have hloop : xorBlock block k = some (settled (fun i => k.getD i 0 ^^^ pad) block 64) := by
    unfold xorBlock
    rw [List.range_eq_range']
    refine foldlM_settled (s := 0) (n := 64) fun i _ hi => ?_
    have hpad : block[i]? = some pad := by
      rw [hblock, List.getElem?_replicate_of_lt (by omega)]
    have hkey : k[i]? = some (k.getD i 0) := by
      rw [List.getD_eq_getElem?_getD, List.getElem?_eq_getElem (by omega), Option.getD_some]
    rw [getElem?_settled_self, hpad, hkey]
    -- the code has the byte of the pad in front
    show store _ i (pad ^^^ k.getD i 0) = _
    rw [UInt8.xor_comm]
    exact store_settled (by omega)
  rw [hloop, ← hlength, settled_length]
  congr 1
  apply List.ext_getElem
  · rw [List.length_map, List.length_map, List.length_range, hlength, hk]
  · intro i _ hi
    have hlt : i < k.length := by rw [List.length_map] at hi; exact hi
    simp [hlt]

/-- The key of a block has 64. -/
private theorem length_blockKey (key : List UInt8) :
    (Hmac.blockKey 64 Sha256.digest key).length = 64 := by
  unfold Hmac.blockKey
  rw [List.length_append, List.length_replicate]
  split
  · rw [length_digest]
  · omega

/-- A key that is longer than a block. -/
private theorem copy_long {key : List UInt8} (h : key.length > 64) :
    copyFromSlice (List.replicate 64 0) 0 32 (Sha256.digest key) =
      some (Hmac.blockKey 64 Sha256.digest key) := by
  have hfits : (Sha256.digest key).length ≤ 64 := by rw [length_digest]; decide
  have hcopy := copyFromSlice_zeros hfits
  rw [length_digest] at hcopy
  unfold Hmac.blockKey
  simp only [if_pos h, length_digest]
  exact hcopy

/-- A short key is padded with zeros. -/
private theorem copy_short {key : List UInt8} (h : ¬ key.length > 64) :
    copyFromSlice (List.replicate 64 0) 0 key.length key =
      some (Hmac.blockKey 64 Sha256.digest key) := by
  unfold Hmac.blockKey
  rw [if_neg h]
  exact copyFromSlice_zeros (Nat.not_lt.mp h)

/-- The keyed hash of the code is HMAC over the digest. -/
theorem hmacSha256_eq (key data : List UInt8) :
    hmacSha256 key data = some (Hmac.hmac 64 Sha256.digest key data) := by
  have hlength := length_blockKey key
  -- what follows the copy of the key is the same for long and short keys
  have hrest : (do
      let ipad ← xorBlock (List.replicate 64 0x36) (Hmac.blockKey 64 Sha256.digest key)
      let opad ← xorBlock (List.replicate 64 0x5c) (Hmac.blockKey 64 Sha256.digest key)
      let innerHash ← sha256Raw (ipad ++ data)
      sha256Raw (opad ++ innerHash)) = some (Hmac.hmac 64 Sha256.digest key data) := by
    unfold Hmac.hmac
    refine bind_of_eq_some (xorBlock_eq rfl hlength) ?_
    refine bind_of_eq_some (xorBlock_eq rfl hlength) ?_
    refine bind_of_eq_some (sha256Raw_eq _) ?_
    exact sha256Raw_eq _
  unfold hmacSha256
  by_cases hlong : key.length > 64
  · rw [if_pos hlong]
    refine bind_of_eq_some (sha256Raw_eq key) ?_
    exact bind_of_eq_some (copy_long hlong) hrest
  · rw [if_neg hlong]
    exact bind_of_eq_some (copy_short hlong) hrest

/-! ## Both hash functions -/

/-- The hash is SHA-256 and the keyed hash is HMAC over it, for all keys and messages: the padding
ends at a multiple of 64 bytes, the chunks are full, and no index is out of range. -/
theorem hashes_standard :
    (∀ data : List UInt8, sha256Raw data = some (Sha256.digest data) ∧
      64 ∣ (padded data).length ∧ ∀ chunk ∈ (padded data).chunks 64, chunk.length = 64) ∧
    ∀ key data : List UInt8,
      hmacSha256 key data = some (Hmac.hmac 64 Sha256.digest key data) := by
  refine ⟨fun data => ⟨sha256Raw_eq data, ?_, fun chunk hchunk => ?_⟩, hmacSha256_eq⟩
  · obtain ⟨m, hbytes, -⟩ := length_padded data
    exact ⟨m, hbytes⟩
  · obtain ⟨m, hbytes, -⟩ := length_padded data
    rw [List.chunks_eq_map_range (by decide) hbytes] at hchunk
    obtain ⟨i, hi, rfl⟩ := List.mem_map.mp hchunk
    exact length_piece hbytes (List.mem_range.mp hi)

end Barqium.Native.SigV4
