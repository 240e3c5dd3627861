import Barqium.ForStd.IpText
import Barqium.Native.ControlApi.Handlers

/-!
# Upstream URLs: which internal hosts pass

An upstream URL must not lead to the gateway's own host or its network, and `validateURL`
rejects the hosts that begin with a blocked pattern. The patterns cover every dotted
quad of an internal address. Of the many texts of an IPv6 address they cover `::1` only.

## Key results

- `hostBlocked_quad`, `internal_of_hostBlocked`: of the dotted quads those of internal
  addresses are blocked
- `validateURL_quad_iff`: the blocks of addresses whose dotted quads are rejected
- `eq_of_hostBlocked`: of the IPv6 texts of internal addresses only `::1` is blocked
- `acceptsNoInternal_iff`: a URL is not accepted with an internal host, if and only if that
  host is not written as another IPv6 text
-/

namespace Barqium.Native.ControlApi

open IpText

/-! ## Internal hosts -/

/-- The addresses an upstream must not have. -/
def InternalV4 (x : V4) : Prop :=
  x.IsLoopback ∨ x.IsPrivate ∨ x.IsLinkLocal ∨ x.IsUnspecified

/-- The internal ranges, as six blocks. -/
theorem internalV4_iff {x : V4} :
    InternalV4 x ↔ V4.InBlock ⟨127, 0, 0, 0⟩ 8 x ∨ V4.InBlock ⟨10, 0, 0, 0⟩ 8 x ∨
      V4.InBlock ⟨172, 16, 0, 0⟩ 12 x ∨ V4.InBlock ⟨192, 168, 0, 0⟩ 16 x ∨
      V4.InBlock ⟨169, 254, 0, 0⟩ 16 x ∨ x = ⟨0, 0, 0, 0⟩ := by
  rw [InternalV4, V4.isLoopback_iff, V4.isPrivate_iff, V4.isLinkLocal_iff, V4.IsUnspecified]
  simp only [or_assoc]

def InternalV6 (groups : List Nat) : Prop :=
  V6.IsLoopback groups ∨ V6.IsUnspecified groups ∨ V6.IsLinkLocal groups ∨
    ∃ x, InternalV4 x ∧ groups = V6.mapped x

/-- The host is a text of an internal address, or the name of the local host. -/
def RefersInternal (host : String) : Prop :=
  (∃ x, InternalV4 x ∧ host.toList = x.text) ∨
    (∃ groups, V6Text host.toList groups ∧ InternalV6 groups) ∨
    host.toList.map Char.toLower = "localhost".toList

/-- `strings.ToLower` on a string of ASCII characters. -/
def LowersAscii (ext : Ext) : Prop :=
  ∀ s : String, (∀ c ∈ s.toList, c.toNat < 128) →
    ext.toLower s = String.ofList (s.toList.map Char.toLower)

/-! ## Blocked hosts -/

/-- A host is blocked by a prefix in the list, or by one without its closing dot. -/
theorem hostBlocked_iff {host : String} :
    hostBlocked host = true ↔ ∃ blocked ∈ blockedHosts,
      blocked.toList <+: host.toList ∨
        host.toList = if blocked.toList.getLast? = some '.' then blocked.toList.dropLast
          else blocked.toList := by
  simp only [hostBlocked, List.any_eq_true, Bool.or_eq_true, List.isPrefixOf_iff_prefix,
    decide_eq_true_eq]

/-- Every dotted quad of an internal address begins with a blocked pattern. -/
private theorem exists_prefix {x : V4} (h : InternalV4 x) :
    ∃ blocked ∈ blockedHosts, blocked.toList <+: x.text := by
  obtain ⟨a, b, c, d⟩ := x
  have hone : octet a ++ ['.'] <+: V4.text ⟨a, b, c, d⟩ :=
    ⟨octet b ++ '.' :: (octet c ++ '.' :: octet d), by simp [V4.text]⟩
  have htwo : octet a ++ '.' :: (octet b ++ ['.']) <+: V4.text ⟨a, b, c, d⟩ :=
    ⟨octet c ++ '.' :: octet d, by simp [V4.text]⟩
  -- the list has one pattern for each second octet of 172.16.0.0/12
  have hsecond : ∀ b : Fin 256, 16 ≤ b → b ≤ 31 →
      String.ofList (octet 172 ++ '.' :: (octet b ++ ['.'])) ∈ blockedHosts := by decide +kernel
  rcases h with rfl | (rfl | ⟨rfl, hle, hge⟩ | ⟨rfl, rfl⟩) | ⟨rfl, rfl⟩ | h
  · exact ⟨"127.", by decide, hone⟩
  · exact ⟨"10.", by decide, hone⟩
  · exact ⟨_, hsecond b hle hge, by rwa [String.toList_ofList]⟩
  · exact ⟨"192.168.", by decide, htwo⟩
  · exact ⟨"169.254.", by decide, htwo⟩
  · cases h
    exact ⟨"0.0.0.0", by decide, [], rfl⟩

/-- Among the blocked patterns only `::1` has a colon behind its hexadecimal digits. -/
private theorem blockedHosts_firstOther : ∀ blocked ∈ blockedHosts, blocked ≠ "::1" →
    firstOther blocked.toList ≠ none ∧ firstOther blocked.toList ≠ some ':' ∧
      firstOther (if blocked.toList.getLast? = some '.' then blocked.toList.dropLast
        else blocked.toList) ≠ some ':' := by
  decide

private theorem ascii_of_hex : ∀ c ∈ hexDigits, c.toNat < 128 :=
  List.forall_iff_forall_mem.mp (by decide)

/-- The dotted quad of an internal address is blocked. -/
theorem hostBlocked_quad {ext : Ext} (hlower : LowersAscii ext) {host : String} {x : V4}
    (h : InternalV4 x) (hhost : host.toList = x.text) :
    hostBlocked (ext.toLower host) = true := by
  have hascii : ∀ c ∈ host.toList, c.toNat < 128 := by
    intro c hc
    rw [hhost] at hc
    rcases V4.mem_text hc with hc | rfl
    · exact ascii_of_hex c hc
    · decide
  obtain ⟨blocked, hmem, hprefix⟩ := exists_prefix h
  rw [hlower host hascii, hhost, x.text_toLower]
  exact hostBlocked_iff.mpr ⟨blocked, hmem, .inl (by rwa [String.toList_ofList])⟩

/-- The blocked patterns: two names that are no dotted quad, the unspecified address, one
    octet, and two octets, where the sixteen of 172.16.0.0/12 are listed one by one. -/
private theorem blockedHosts_eq : ∀ blocked ∈ blockedHosts,
    blocked = "localhost" ∨ blocked = "::1" ∨ blocked.toList = V4.text ⟨0, 0, 0, 0⟩ ∨
      (∃ a ∈ [127, 10], blocked.toList = octet a ++ ['.']) ∨
      ∃ q ∈ (192, 168) :: (169, 254) :: (List.range' 16 16).map fun n => (172, Fin.ofNat 256 n),
        blocked.toList = octet q.1 ++ '.' :: (octet q.2 ++ ['.']) := by
  decide +kernel

/-- Of the blocked patterns without a final dot only the unspecified address is as long as a
    dotted quad. -/
private theorem blockedHosts_trimmed : ∀ blocked ∈ blockedHosts,
    (if blocked.toList.getLast? = some '.' then blocked.toList.dropLast
      else blocked.toList).count '.' = 3 →
    (if blocked.toList.getLast? = some '.' then blocked.toList.dropLast
      else blocked.toList) = blocked.toList := by
  decide

/-- A blocked pattern that begins a dotted quad is one of an internal address. -/
private theorem internal_of_isPrefix {blocked : String} (hmem : blocked ∈ blockedHosts) {x : V4}
    (h : blocked.toList <+: x.text) : InternalV4 x := by
  -- a prefix of a quad has digits and dots only
  have hother : ∀ c ∈ blocked.toList, c ∈ hexDigits ∨ c = '.' := fun c hc =>
    V4.mem_text (h.subset hc)
  rcases blockedHosts_eq blocked hmem with rfl | rfl | hquad | ⟨a, ha, hone⟩ | ⟨q, hq, htwo⟩
  · exact absurd (hother 'l' (by decide)) (by decide)
  · exact absurd (hother ':' (by decide)) (by decide)
  · rw [hquad] at h
    exact .inr (.inr (.inr (V4.isUnspecified_of_isPrefix h)))
  · rw [hone] at h
    have hx := V4.fst_of_isPrefix h
    rcases List.mem_pair.mp ha with rfl | rfl
    · exact .inl hx
    · exact .inr (.inl (.inl hx))
  · rw [htwo] at h
    obtain ⟨hx, hy⟩ := V4.snd_of_isPrefix h
    rcases List.mem_cons.mp hq with rfl | hq
    · exact .inr (.inl (.inr (.inr ⟨hx, hy⟩)))
    rcases List.mem_cons.mp hq with rfl | hq
    · exact .inr (.inr (.inl ⟨hx, hy⟩))
    · -- the second octets of the list are 16 to 31
      obtain ⟨n, hn, rfl⟩ := List.mem_map.mp hq
      rw [List.mem_range'_1] at hn
      have hval : (Fin.ofNat 256 n).val = n := Nat.mod_eq_of_lt (by omega)
      refine .inr (.inl (.inr (.inl ⟨hx, ?_, ?_⟩)))
      · rw [hy, Fin.le_def, hval]
        exact hn.1
      · rw [hy, Fin.le_def, hval]
        exact Nat.le_of_lt_succ hn.2

/-- A dotted quad that is blocked is one of an internal address. -/
theorem internal_of_hostBlocked {ext : Ext} (hlower : LowersAscii ext) {host : String} {x : V4}
    (hhost : host.toList = x.text) (h : hostBlocked (ext.toLower host) = true) :
    InternalV4 x := by
  -- a quad is ASCII, so it is its own lower case
  have hascii : ∀ c ∈ host.toList, c.toNat < 128 := by
    intro c hc
    rw [hhost] at hc
    rcases V4.mem_text hc with hc | rfl
    · exact ascii_of_hex c hc
    · decide
  rw [hlower host hascii, hhost, x.text_toLower] at h
  obtain ⟨blocked, hmem, hmatch⟩ := hostBlocked_iff.mp h
  rw [String.toList_ofList] at hmatch
  rcases hmatch with hprefix | heq
  · exact internal_of_isPrefix hmem hprefix
  · -- the host is the whole pattern, which then has no final dot to leave out
    have hsame := blockedHosts_trimmed blocked hmem (by rw [← heq, x.count_dot])
    rw [hsame] at heq
    exact internal_of_isPrefix hmem (by rw [heq])

/-- Only ASCII characters have an ASCII character as lower case. -/
private theorem ascii_of_toLower {c : Char} (h : c.toLower.toNat < 128) : c.toNat < 128 := by
  unfold Char.toLower at h
  split at h
  · rename_i hupper
    exact Nat.lt_of_le_of_lt hupper.2 (by decide)
  · exact h

/-- The name of the local host is blocked in any case. -/
private theorem hostBlocked_localhost {ext : Ext} (hlower : LowersAscii ext) {host : String}
    (h : host.toList.map Char.toLower = "localhost".toList) :
    hostBlocked (ext.toLower host) = true := by
  have hname : ∀ c ∈ "localhost".toList, c.toNat < 128 :=
    List.forall_iff_forall_mem.mp (by decide)
  -- a text whose lower case is ASCII is ASCII itself
  have hascii : ∀ c ∈ host.toList, c.toNat < 128 := by
    intro c hc
    apply ascii_of_toLower
    apply hname
    rw [← h]
    exact List.mem_map_of_mem hc
  rw [hlower host hascii, h]
  decide

/-- Of the IPv6 texts only those that begin with `::1` are blocked. -/
private theorem prefix_of_hostBlocked {host : String} {groups : List Nat}
    (h : V6Text host.toList groups) (hblocked : hostBlocked host = true) :
    "::1".toList <+: host.toList := by
  obtain ⟨blocked, hmem, hmatch⟩ := hostBlocked_iff.mp hblocked
  -- every pattern but `::1` has a character that no IPv6 text begins with
  by_cases hone : blocked = "::1"
  · subst hone
    rcases hmatch with hprefix | heq
    · exact hprefix
    · rw [heq]
      exact List.prefix_rfl
  · obtain ⟨hsome, hcolon, htrimmed⟩ := blockedHosts_firstOther blocked hmem hone
    rcases hmatch with hprefix | heq
    · -- the pattern and the host would have to agree on that character
      obtain ⟨c, hc⟩ := Option.ne_none_iff_exists'.mp hsome
      have hfirst := firstOther_of_isPrefix hprefix hc
      rw [h.firstOther] at hfirst
      rw [hc, ← hfirst] at hcolon
      exact absurd rfl hcolon
    · rw [← heq] at htrimmed
      exact absurd h.firstOther htrimmed

/-- In another case than its own no text becomes `::1`. -/
private theorem eq_of_toLower_eq {t : List Char} {groups : List Nat} (h : V6Text t groups)
    (heq : t.map Char.toLower = "::1".toList) : t = "::1".toList := by
  -- no upper case letter becomes one of these characters
  have hhex : ∀ c ∈ hexDigits, c.toLower ∈ "::1".toList → c.toLower = c :=
    List.forall_iff_forall_mem.mp (by decide)
  have hsame : ∀ c ∈ t, c.toLower = c := by
    intro c hc
    rcases h.mem hc with hdigit | rfl | rfl
    · apply hhex c hdigit
      rw [← heq]
      exact List.mem_map_of_mem hc
    · rfl
    · rfl
  calc t = t.map id := (List.map_id t).symm
    _ = t.map Char.toLower := List.map_congr_left fun c hc => (hsame c hc).symm
    _ = "::1".toList := heq

/-- The text of an internal address that is blocked is `::1`. -/
theorem eq_of_hostBlocked {ext : Ext} (hlower : LowersAscii ext) {host : String}
    {groups : List Nat} (h : V6Text host.toList groups) (hinternal : InternalV6 groups)
    (hblocked : hostBlocked (ext.toLower host) = true) : host = "::1" := by
  have hascii : ∀ c ∈ host.toList, c.toNat < 128 := by
    intro c hc
    rcases h.mem hc with hc | rfl | rfl
    · exact ascii_of_hex c hc
    · decide
    · decide
  have htext : (ext.toLower host).toList = host.toList.map Char.toLower := by
    rw [hlower host hascii, String.toList_ofList]
  -- The lowered text is a text of the same address.
  have hlowered : V6Text (ext.toLower host).toList groups := htext ▸ h.toLower
  obtain ⟨r, hr⟩ := prefix_of_hostBlocked hlowered hblocked
  have hnil : r = [] := by
    rw [← hr] at hlowered
    apply V6Text.eq_nil_of_one hlowered
    rcases hinternal with hloop | hunspec | hlink | ⟨x, -, hmapped⟩
    · exact .inl hloop
    · exact .inr (.inl hunspec)
    · exact .inr (.inr (.inl hlink))
    · exact .inr (.inr (.inr ⟨x, hmapped⟩))
  subst hnil
  rw [List.append_nil, htext] at hr
  exact String.toList_inj.mp (eq_of_toLower_eq h hr.symm)

/-! ## Accepted URLs -/

/-- What a URL is accepted for. -/
theorem validateURL_eq_ok {ext : Ext} {rawURL : String} :
    validateURL ext rawURL = .ok () ↔ rawURL ≠ "" ∧
      ∃ parsed, ext.parseRequestURI rawURL = some parsed ∧
        (ext.toLower parsed.scheme = "http" ∨ ext.toLower parsed.scheme = "https") ∧
        hostBlocked (ext.toLower parsed.hostname) = false := by
  unfold validateURL
  by_cases hempty : rawURL = ""
  · simp [bind, Except.bind, require, hempty]
  · cases hparse : ext.parseRequestURI rawURL with
    | none => simp [bind, Except.bind, require, hempty]
    | some parsed =>
      -- the scheme is tested before the host
      by_cases hscheme : ext.toLower parsed.scheme = "http" ∨ ext.toLower parsed.scheme = "https"
      · cases hblocked : hostBlocked (ext.toLower parsed.hostname) <;>
          simp [bind, Except.bind, require, hempty, hscheme, hblocked]
      · simp [bind, Except.bind, require, hempty, hscheme]

/-- Not accepted with an internal host. -/
def AcceptsNoInternal (ext : Ext) (rawURL : String) : Prop :=
  validateURL ext rawURL = .ok () → ∀ parsed, ext.parseRequestURI rawURL = some parsed →
    ¬ RefersInternal parsed.hostname

/-- An HTTP or HTTPS URL is accepted with an internal host exactly when the host is
    written as an IPv6 text other than `::1`. -/
theorem acceptsNoInternal_iff {ext : Ext} (hlower : LowersAscii ext) (rawURL : String) :
    AcceptsNoInternal ext rawURL ↔
      (rawURL ≠ "" → ∀ parsed, ext.parseRequestURI rawURL = some parsed →
        ext.toLower parsed.scheme = "http" ∨ ext.toLower parsed.scheme = "https" →
        ∀ groups, V6Text parsed.hostname.toList groups → InternalV6 groups →
          parsed.hostname = "::1") := by
  constructor
  · intro haccepts hne parsed hparse hscheme groups htext hinternal
    apply eq_of_hostBlocked hlower htext hinternal
    by_contra hblocked
    -- a host that is not blocked makes an internal host that is accepted
    have hok : validateURL ext rawURL = .ok () :=
      validateURL_eq_ok.mpr ⟨hne, parsed, hparse, hscheme, by simpa using hblocked⟩
    exact haccepts hok parsed hparse (.inr (.inl ⟨groups, htext, hinternal⟩))
  · intro hcond hok parsed hparse hrefers
    -- each kind of text of an internal host is blocked
    obtain ⟨hne, parsed', hparse', hscheme, hblocked⟩ := validateURL_eq_ok.mp hok
    obtain rfl : parsed = parsed' := Option.some.inj (hparse.symm.trans hparse')
    have hrejected : hostBlocked (ext.toLower parsed.hostname) = true := by
      rcases hrefers with ⟨x, hx, hquad⟩ | ⟨groups, htext, hinternal⟩ | hname
      · exact hostBlocked_quad hlower hx hquad
      · have hascii : ∀ c ∈ "::1".toList, c.toNat < 128 :=
          List.forall_iff_forall_mem.mp (by decide)
        rw [hcond hne parsed hparse hscheme groups htext hinternal, hlower _ hascii]
        decide
      · exact hostBlocked_localhost hlower hname
    rw [hblocked] at hrejected
    cases hrejected

/-- The libraries on two URLs of the local host. -/
def loopbackUrls : Ext where
  uuidParse _ := none
  toUpper s := String.ofList (s.toList.map Char.toUpper)
  toLower s := String.ofList (s.toList.map Char.toLower)
  parseRequestURI s :=
    if s = "http://[::1]/" then some ⟨"http", "::1"⟩
    else if s = "http://[::ffff:127.0.0.1]/" then some ⟨"http", "::ffff:127.0.0.1"⟩
    else none
  rawMessage _ := "null"
  sha256Hex _ := ""

/-- The stand-in lower-cases ASCII as the standard library does. -/
private theorem loopbackUrls_lowersAscii : LowersAscii loopbackUrls := fun _ _ => rfl

/-- The one text of the loopback address that is listed is not accepted. -/
theorem acceptsNoInternal_loopback : AcceptsNoInternal loopbackUrls "http://[::1]/" := by
  apply (acceptsNoInternal_iff loopbackUrls_lowersAscii _).mpr
  intro _ parsed hparse _ _ _ _
  obtain rfl : ⟨"http", "::1"⟩ = parsed := Option.some.inj hparse
  rfl

/-- Written as an IPv4-mapped address the loopback address is accepted. -/
theorem mapped_loopback_accepted :
    LowersAscii loopbackUrls ∧
      ¬ AcceptsNoInternal loopbackUrls "http://[::ffff:127.0.0.1]/" := by
  have hgroup : IsGroup "ffff".toList 0xffff :=
    ⟨by decide, by decide, List.forall_iff_forall_mem.mp (by decide), by decide⟩
  -- the mapped address has neither a listed prefix nor the text `::1`
  have htext : V6Text "::ffff:127.0.0.1".toList (V6.mapped ⟨127, 0, 0, 1⟩) :=
    .compressed (.inl ⟨rfl, rfl⟩) (.inr (.cons hgroup (.octets ⟨127, 0, 0, 1⟩ rfl))) (by decide)
  have hinternal : InternalV6 (V6.mapped ⟨127, 0, 0, 1⟩) :=
    .inr (.inr (.inr ⟨⟨127, 0, 0, 1⟩, .inl rfl, rfl⟩))
  refine ⟨loopbackUrls_lowersAscii, ?_⟩
  intro haccepts
  have hok : validateURL loopbackUrls "http://[::ffff:127.0.0.1]/" = .ok () :=
    validateURL_eq_ok.mpr ⟨by decide, _, rfl, .inl (by decide), by decide⟩
  exact haccepts hok _ rfl (.inr (.inl ⟨_, htext, hinternal⟩))

/-! ## Hosts that are dotted quads -/

/-- A URL whose host is a dotted quad is rejected exactly for the addresses of the loopback,
    private and link-local blocks and the unspecified address. -/
theorem validateURL_quad_iff {ext : Ext} (hlower : LowersAscii ext) (rawURL : String)
    (hne : rawURL ≠ "") {parsed : RequestUri} (hparse : ext.parseRequestURI rawURL = some parsed)
    (hscheme : ext.toLower parsed.scheme = "http" ∨ ext.toLower parsed.scheme = "https")
    {x : V4} (hhost : parsed.hostname.toList = x.text) :
    validateURL ext rawURL ≠ .ok () ↔
      V4.InBlock ⟨127, 0, 0, 0⟩ 8 x ∨ V4.InBlock ⟨10, 0, 0, 0⟩ 8 x ∨
        V4.InBlock ⟨172, 16, 0, 0⟩ 12 x ∨ V4.InBlock ⟨192, 168, 0, 0⟩ 16 x ∨
        V4.InBlock ⟨169, 254, 0, 0⟩ 16 x ∨ x = ⟨0, 0, 0, 0⟩ := by
  -- with the other checks passed only the host decides
  have hok : validateURL ext rawURL = .ok () ↔
      hostBlocked (ext.toLower parsed.hostname) = false := by
    rw [validateURL_eq_ok]
    constructor
    · rintro ⟨-, parsed', hparse', -, hfree⟩
      obtain rfl : parsed = parsed' := Option.some.inj (hparse.symm.trans hparse')
      exact hfree
    · exact fun hfree => ⟨hne, parsed, hparse, hscheme, hfree⟩
  rw [← internalV4_iff, Ne, hok, Bool.not_eq_false]
  exact ⟨internal_of_hostBlocked hlower hhost, fun h => hostBlocked_quad hlower h hhost⟩

/-- The libraries on two URLs at the edge of a private block. -/
def edgeUrls : Ext where
  __ := loopbackUrls
  parseRequestURI s :=
    if s = "http://172.31.255.255/" then some ⟨"http", "172.31.255.255"⟩
    else if s = "http://172.32.0.0/" then some ⟨"http", "172.32.0.0"⟩
    else none

/-- The last address of a private block is rejected, the one behind it is not. -/
theorem validateURL_edge :
    validateURL edgeUrls "http://172.31.255.255/" ≠ .ok () ∧
      ¬ validateURL edgeUrls "http://172.32.0.0/" ≠ .ok () := by
  have hlower : LowersAscii edgeUrls := fun _ _ => rfl
  have hinside := validateURL_quad_iff hlower "http://172.31.255.255/"
    (x := ⟨172, 31, 255, 255⟩) (by decide) rfl (.inl (by decide)) (by decide)
  -- the last address of the block and the first one behind it
  have hbehind := validateURL_quad_iff hlower "http://172.32.0.0/"
    (x := ⟨172, 32, 0, 0⟩) (by decide) rfl (.inl (by decide)) (by decide)
  constructor
  · exact hinside.mpr (.inr (.inr (.inl rfl)))
  · intro hrejected
    have hblock := hbehind.mp hrejected
    revert hblock
    simp only [V4.InBlock, V4.value]
    decide

end Barqium.Native.ControlApi
