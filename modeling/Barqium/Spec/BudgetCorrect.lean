import Barqium.ForStd.WriteLog
import Barqium.Native.Budget
import Mathlib.Algebra.Ring.Nat
import Mathlib.Data.List.Basic

/-!
# Pricing lookups and token estimates

The registry is a log of writes under flattened keys. A lookup gives the pricing of its pair
unless a later call for another pair has the same text. The estimate of a conversation is the
exact number as long as neither a length nor the sum leaves 32 bits.

## Key results

- `get_run`: a lookup reads the last call with the text of its pair.
- `get_run_iff`: when that is the last call for the pair
- `ownText_of_slashFree`: providers without `'/'` never collide.
- `countTokensHeuristic_toNat`, `faithful_iff`: when the estimate is exact
-/

namespace Barqium.Native.Ai

namespace PricingRegistry

/-! ## Lookups -/

/-- The pricing of the last call for exactly this pair. -/
def lastRegistered (calls : List Registration) (provider model : String) : Option ModelPricing :=
  (calls.reverse.find? fun c => c.provider = provider && c.model = model).map Registration.pricing

/-- The write of a call on the table. -/
def write (c : Registration) : Option (String × Option ModelPricing) :=
  some (key c.provider c.model, some c.pricing)

/-- The table is a replay of the registrations. -/
theorem table_run (calls : List Registration) :
    (run calls).table = WriteLog.replay write ∅ calls := by
  induction calls using List.reverseRecOn with
  | nil => rfl
  | append_singleton calls c ih =>
    have hstep : run (calls ++ [c]) = (run calls).register c.provider c.model c.pricing :=
      List.foldl_concat ..
    rw [hstep, WriteLog.replay_concat, ← ih]
    rfl

/-- A registration leaves a model alone if its key is another one. -/
theorem effect_eq_none_iff {c : Registration} {provider model : String} :
    WriteLog.effect write (key provider model) c = none ↔
      key c.provider c.model ≠ key provider model := by
  simp [WriteLog.effect, write]

/-- A lookup reads the last call with the text of its pair. -/
theorem get_run {before after : List Registration} {c : Registration} {provider model : String}
    (hc : key c.provider c.model = key provider model)
    (hafter : ∀ d ∈ after, key d.provider d.model ≠ key provider model) :
    (run (before ++ c :: after)).get provider model = some c.pricing := by
  have heffect : WriteLog.effect write (key provider model) c = some (some c.pricing) := by
    simp [WriteLog.effect, write, hc]
  have hlast : WriteLog.lastWrite write (key provider model) (before ++ c :: after) =
      some (some c.pricing) :=
    WriteLog.lastWrite_of_split write heffect fun d hd => effect_eq_none_iff.mpr (hafter d hd)
  unfold get
  rw [table_run, WriteLog.lookup_replay, hlast]
  rfl

/-- Calls with other texts are not for the pair. -/
theorem find?_eq_none {calls : List Registration} {provider model : String}
    (h : ∀ d ∈ calls, key d.provider d.model ≠ key provider model) :
    calls.reverse.find? (fun c => c.provider = provider && c.model = model) = none := by
  rw [List.find?_eq_none]
  intro d hd hpair
  rw [Bool.and_eq_true, decide_eq_true_eq, decide_eq_true_eq] at hpair
  refine h d (List.mem_reverse.mp hd) ?_
  rw [hpair.1, hpair.2]

/-- After the last registration under a key, a model has its price if that was its own. -/
private theorem lastRegistered_of_split {before after : List Registration} {c : Registration}
    {provider model : String}
    (hafter : ∀ d ∈ after, key d.provider d.model ≠ key provider model) :
    lastRegistered (before ++ c :: after) provider model =
      if c.provider = provider ∧ c.model = model then some c.pricing
      else lastRegistered before provider model := by
  unfold lastRegistered
  -- backwards, none of the calls behind it is for the pair
  rw [List.reverse_append, List.reverse_cons, List.append_assoc, List.find?_append,
    find?_eq_none hafter, Option.none_or, List.singleton_append, List.find?_cons]
  split
  · rename_i hpair
    simp only [Bool.and_eq_true, decide_eq_true_eq] at hpair
    rw [if_pos hpair]
    rfl
  · rename_i hpair
    simp only [Bool.and_eq_false_iff, decide_eq_false_iff_not] at hpair
    rw [if_neg (not_and_or.mpr hpair)]

/-- The last call with the text of the pair is for the pair, or gives the pricing that the last
call for the pair gave. -/
def OwnText (calls : List Registration) (provider model : String) : Prop :=
  ∀ before c after, calls = before ++ c :: after → key c.provider c.model = key provider model →
    (∀ d ∈ after, key d.provider d.model ≠ key provider model) →
    (c.provider = provider ∧ c.model = model) ∨
      lastRegistered before provider model = some c.pricing

/-- A lookup gives the pricing of the last call for its pair exactly when no later call for
another pair has the same text and a different pricing. -/
theorem get_run_iff (calls : List Registration) (provider model : String) :
    (run calls).get provider model = lastRegistered calls provider model ↔
      OwnText calls provider model := by
  constructor
  · rintro h before c after rfl hc hafter
    rw [get_run hc hafter, lastRegistered_of_split hafter] at h
    split at h
    · rename_i hpair
      exact .inl hpair
    · exact .inr h.symm
  · intro hown
    -- the last call with this text decides what `get` returns
    cases hlast : WriteLog.lastWrite write (key provider model) calls with
    | none =>
      -- no call has the text, so none is for the pair
      have hnone : ∀ d ∈ calls, key d.provider d.model ≠ key provider model := fun d hd =>
        effect_eq_none_iff.mp ((WriteLog.lastWrite_eq_none_iff write).mp hlast d hd)
      unfold get lastRegistered
      rw [table_run, WriteLog.lookup_replay, hlast, find?_eq_none hnone]
      exact Finmap.lookup_empty _
    | some w =>
      obtain ⟨before, c, after, rfl, he, hafter⟩ := WriteLog.lastWrite_eq_some write hlast
      -- it writes under the text, so it has the text
      have hc : key c.provider c.model = key provider model := by
        by_contra hne
        rw [effect_eq_none_iff.mpr hne] at he
        cases he
      have hafter' : ∀ d ∈ after, key d.provider d.model ≠ key provider model :=
        fun d hd => effect_eq_none_iff.mp (hafter d hd)
      rw [get_run hc hafter', lastRegistered_of_split hafter']
      rcases hown before c after rfl hc hafter' with hpair | hsame
      · rw [if_pos hpair]
      · rw [hsame]
        split <;> rfl

/-- Providers without `'/'` do not collide, whatever the names of their models. -/
theorem ownText_of_slashFree {calls : List Registration} {provider model : String}
    (hprovider : '/' ∉ provider.toList) (hcalls : ∀ c ∈ calls, '/' ∉ c.provider.toList) :
    OwnText calls provider model := by
  rintro before c after rfl hc -
  have hlist : ∀ p m : String, (key p m).toList = p.toList ++ '/' :: m.toList := by
    intro p m
    simp [key, String.toList_append]
  have hkeys := congrArg String.toList hc
  rw [hlist, hlist] at hkeys
  -- both texts have their first slash behind the provider
  have hc' : '/' ∉ c.provider.toList := hcalls c (by simp)
  have hsame : c.provider.toList = provider.toList := by
    have htake := congrArg (List.takeWhile (· != '/')) hkeys
    rw [List.takeWhile_append_of_pos fun x hx => by
        simpa using fun h : x = '/' => hc' (h ▸ hx),
      List.takeWhile_append_of_pos fun x hx => by
        simpa using fun h : x = '/' => hprovider (h ▸ hx)] at htake
    simpa using htake
  rw [hsame, List.append_cancel_left_eq, List.cons.injEq] at hkeys
  exact .inl ⟨String.toList_inj.mp hsame, String.toList_inj.mp hkeys.2⟩

/-- A model whose name has a slash in it answers for another provider. -/
theorem get_run_other_provider :
    let pricing : ModelPricing := ⟨1, 2, 8192⟩
    let registry := run [⟨"openrouter", "openai/gpt-4o", pricing⟩]
    registry.get "openrouter/openai" "gpt-4o" = some pricing ∧
      ¬ ∀ calls provider model,
        (run calls).get provider model = lastRegistered calls provider model := by
  intro pricing registry
  -- both pairs are joined to `openrouter/openai/gpt-4o`
  have hget : (run ([] ++ ⟨"openrouter", "openai/gpt-4o", pricing⟩ :: [])).get
      "openrouter/openai" "gpt-4o" = some pricing := get_run (by decide) (by simp)
  refine ⟨hget, fun h => ?_⟩
  have hlast := h [⟨"openrouter", "openai/gpt-4o", pricing⟩] "openrouter/openai" "gpt-4o"
  have hnone : lastRegistered [⟨"openrouter", "openai/gpt-4o", pricing⟩]
      "openrouter/openai" "gpt-4o" = none := by decide
  rw [hnone] at hlast
  exact absurd (hget.symm.trans hlast) (by simp)

end PricingRegistry

/-! ## Token estimates -/

/-- The exact number that the estimate stands for. -/
def exactTokens (messages : List Message) : Nat :=
  (messages.map fun m => m.content.utf8ByteSize / 4 + 4).sum + 2

/-- Every length and the exact number fit into 32 bits. -/
structure FitsU32 (messages : List Message) : Prop where
  lengths : ∀ m ∈ messages, m.content.utf8ByteSize < 2 ^ 32
  total : exactTokens messages < 2 ^ 32

/-- What a conversation grows by: a message more, or a longer message. -/
inductive Grows : List Message → List Message → Prop where
  | append (messages : List Message) (m : Message) : Grows messages (messages ++ [m])
  | lengthen (before after : List Message) (m : Message) (content : String)
      (longer : m.content.utf8ByteSize ≤ content.utf8ByteSize) :
    Grows (before ++ m :: after) (before ++ { m with content := content } :: after)

/-- The tokens of a message, from its bytes modulo `2 ^ 32`. -/
private theorem messageTokens_toNat (m : Message) :
    (messageTokens m).toNat = m.content.utf8ByteSize % 2 ^ 32 / 4 + 4 := by
  unfold messageTokens
  rw [UInt32.toNat_add, UInt32.toNat_div, UInt32.toNat_ofNat']
  have hfour : (4 : UInt32).toNat = 4 := rfl
  rw [hfour]
  -- a quarter of 32 bits leaves room for the 4
  omega

/-- The sum wraps around. -/
private theorem foldl_add_toNat (ns : List UInt32) (n : UInt32) :
    (ns.foldl (· + ·) n).toNat = (n.toNat + (ns.map UInt32.toNat).sum) % 2 ^ 32 := by
  induction ns generalizing n with
  | nil =>
    have hn := n.toNat_lt
    rw [List.foldl_nil, List.map_nil, List.sum_nil, Nat.add_zero, Nat.mod_eq_of_lt hn]
  | cons k ns ih =>
    rw [List.foldl_cons, ih, UInt32.toNat_add, List.map_cons, List.sum_cons, Nat.mod_add_mod,
      Nat.add_assoc]

/-- The estimate takes every length and the sum modulo 2^32. -/
theorem countTokensHeuristic_toNat (messages : List Message) :
    (countTokensHeuristic messages).toNat =
      ((messages.map fun m => m.content.utf8ByteSize % 2 ^ 32 / 4 + 4).sum + 2) % 2 ^ 32 := by
  have hmap : (messages.map messageTokens).map UInt32.toNat =
      messages.map fun m => m.content.utf8ByteSize % 2 ^ 32 / 4 + 4 := by
    rw [List.map_map]
    exact List.map_congr_left fun m _ => messageTokens_toNat m
  have hzero : (0 : UInt32).toNat = 0 := rfl
  have htwo : (2 : UInt32).toNat = 2 := rfl
  unfold countTokensHeuristic
  rw [UInt32.toNat_add, foldl_add_toNat, hmap, hzero, htwo, Nat.zero_add, Nat.mod_add_mod]

/-- The sum over the truncated lengths is not higher than the exact one, and lower as soon as
a length is truncated. -/
private theorem sum_mod_le (messages : List Message) :
    (messages.map fun m => m.content.utf8ByteSize % 2 ^ 32 / 4 + 4).sum + 2 ≤
        exactTokens messages ∧
      ((messages.map fun m => m.content.utf8ByteSize % 2 ^ 32 / 4 + 4).sum + 2 =
        exactTokens messages ↔ ∀ m ∈ messages, m.content.utf8ByteSize < 2 ^ 32) := by
  unfold exactTokens
  induction messages with
  | nil => simp
  | cons m messages ih =>
    obtain ⟨hle, heq⟩ := ih
    rw [List.map_cons, List.sum_cons, List.map_cons, List.sum_cons, List.forall_mem_cons, ← heq]
    -- a length is not below its rest modulo `2 ^ 32`
    refine ⟨by omega, ?_, ?_⟩
    · intro h
      omega
    · rintro ⟨hm, h⟩
      rw [Nat.mod_eq_of_lt hm]
      omega

/-- The count is exact if and only if all fits into `u32`. -/
theorem countTokensHeuristic_eq_iff (messages : List Message) :
    (countTokensHeuristic messages).toNat = exactTokens messages ↔ FitsU32 messages := by
  obtain ⟨hle, heq⟩ := sum_mod_le messages
  rw [countTokensHeuristic_toNat]
  constructor
  · intro h
    -- nothing is lost in the last reduction, so the exact number is below 2^32
    have htotal : exactTokens messages < 2 ^ 32 := h ▸ Nat.mod_lt _ (by decide)
    rw [Nat.mod_eq_of_lt (Nat.lt_of_le_of_lt hle htotal)] at h
    exact ⟨heq.mp h, htotal⟩
  · intro h
    rw [heq.mpr h.lengths, Nat.mod_eq_of_lt h.total]

/-- Longer messages have more tokens. -/
theorem Grows.exactTokens_le {messages longer : List Message} (h : Grows messages longer) :
    exactTokens messages ≤ exactTokens longer := by
  unfold exactTokens
  cases h with
  | append m => simp
  | lengthen before after m content hlonger =>
    have hquarter := Nat.div_le_div_right (c := 4) hlonger
    simp only [List.map_append, List.map_cons, List.sum_append, List.sum_cons]
    omega

/-- What fits when messages are longer, fits. -/
theorem Grows.fitsU32 {messages longer : List Message} (h : Grows messages longer)
    (hfits : FitsU32 longer) : FitsU32 messages := by
  refine ⟨fun m hm => ?_, Nat.lt_of_le_of_lt h.exactTokens_le hfits.total⟩
  have hlengths := hfits.lengths
  cases h with
  | append m' => exact hlengths m (List.mem_append_left _ hm)
  | lengthen before after m' content hlonger =>
    rcases List.mem_append.mp hm with hbefore | htail
    · exact hlengths m (List.mem_append_left _ hbefore)
    · -- the message itself has become longer
      rcases List.mem_cons.mp htail with rfl | hafter
      · exact Nat.lt_of_le_of_lt hlonger (hlengths { m with content := content } (by simp))
      · exact hlengths m (by simp [hafter])

/-- The estimate is the exact number, no shorter conversation is estimated higher, and a
conversation that is over the limit of a model is rejected. -/
structure Faithful (TransportError SerdeError : Type) (messages : List Message) : Prop where
  exact : (countTokensHeuristic messages).toNat = exactTokens messages
  monotone : ∀ shorter, Grows shorter messages →
    countTokensHeuristic shorter ≤ countTokensHeuristic messages
  rejects : ∀ model (pricing : ModelPricing),
    pricing.contextLimit.toNat < exactTokens messages →
      (checkContextLimit model pricing (countTokensHeuristic messages) :
          Except (AiError TransportError SerdeError) Unit) =
        .error (.contextLengthExceeded model (countTokensHeuristic messages) pricing.contextLimit)

/-- The estimate of a conversation is faithful if and only if every length and the exact number
fit into 32 bits. -/
theorem faithful_iff (TransportError SerdeError : Type) (messages : List Message) :
    Faithful TransportError SerdeError messages ↔ FitsU32 messages := by
  constructor
  · intro h
    exact (countTokensHeuristic_eq_iff messages).mp h.exact
  · intro h
    -- without overflow the count is exact, for the shorter list too
    have hexact := (countTokensHeuristic_eq_iff messages).mpr h
    refine ⟨hexact, fun shorter hgrows => ?_, fun model pricing hover => ?_⟩
    · have hshorter := (countTokensHeuristic_eq_iff shorter).mpr (hgrows.fitsU32 h)
      rw [UInt32.le_iff_toNat_le, hshorter, hexact]
      exact hgrows.exactTokens_le
    · unfold checkContextLimit
      have hgt : countTokensHeuristic messages > pricing.contextLimit := by
        rw [gt_iff_lt, UInt32.lt_iff_toNat_lt, hexact]
        exact hover
      rw [if_pos hgt]

/-- A text of ASCII letters has one byte per letter. -/
private theorem utf8ByteSize_replicate (n : Nat) :
    (String.ofList (List.replicate n 'a')).utf8ByteSize = n := by
  induction n with
  | zero => rfl
  | succ n ih =>
    have hcons : String.ofList (List.replicate (n + 1) 'a') =
        String.singleton 'a' ++ String.ofList (List.replicate n 'a') := by
      apply String.toList_inj.mp
      simp [String.toList_append, List.replicate_succ]
    have hone : 'a'.utf8Size = 1 := rfl
    rw [hcons, String.utf8ByteSize_append, ih, String.utf8ByteSize_singleton, hone, Nat.add_comm]

/-- A message of 4 GiB counts as 6 tokens. -/
theorem estimate_of_4GiB :
    let m : Message := ⟨.user, String.ofList (List.replicate (2 ^ 32) 'a')⟩
    (countTokensHeuristic [m]).toNat = 6 ∧ ¬ Faithful Unit Unit [m] := by
  intro m
  have hsize : m.content.utf8ByteSize = 2 ^ 32 := utf8ByteSize_replicate _
  have hcount : (countTokensHeuristic [m]).toNat = 6 := by
    -- the length is truncated to zero
    rw [countTokensHeuristic_toNat, List.map_cons, List.map_nil, hsize]
    rfl
  refine ⟨hcount, fun h => ?_⟩
  have hexact := h.exact
  rw [hcount] at hexact
  unfold exactTokens at hexact
  rw [List.map_cons, List.map_nil, hsize] at hexact
  exact absurd hexact (by decide)

end Barqium.Native.Ai
