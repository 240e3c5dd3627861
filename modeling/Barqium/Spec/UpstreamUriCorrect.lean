import Barqium.ForStd.Except
import Barqium.Native.UpstreamUri
import Barqium.Spec.UpstreamUrlCorrect

/-!
# The URI that a request is forwarded to

The forwarder appends the text of the request target to the text of the upstream URL and parses
the result. So the parts of both mix where the text of the URL does not end in a path.

## Key results

- `authorityOf_append_iff`: when an appended path leaves authority and path as they should be.
- `preservesTarget_iff`: when the result has the scheme, the authority and the path of the
  upstream and the path and the query of the request
-/

namespace Barqium.Native

open UriText

/-- The parts that the parser finds in a text. The scheme is case-insensitive. -/
structure FullUri.Follows (u : FullUri) (parts : Parts) : Prop where
  scheme : u.scheme.map asciiLower = parts.scheme.map fun s => asciiLower (String.ofList s)
  authority : u.authority = parts.authority.map String.ofList
  path : u.path = String.ofList (nonemptyPath parts.path)
  query : u.query = parts.query.map String.ofList

/-- A parser of URIs by RFC 3986. -/
structure UriParser where
  parse : String → Except String FullUri
  follows : ∀ text u, parse text = .ok u → u.Follows (split text.toList)

/-- A path without its trailing slashes. -/
def trimPath (path : List Char) : List Char := path.rdropWhile (· = '/')

/-- The upstream and the request are in the URI. -/
structure PreservesTarget (url : Parts) (target : RequestTarget) (u : FullUri) : Prop where
  scheme : u.scheme.map asciiLower = url.scheme.map fun s => asciiLower (String.ofList s)
  authority : u.authority = url.authority.map String.ofList
  path : u.path = String.ofList (trimPath url.path ++ target.path)
  query : u.query = target.query.map String.ofList

/-- The path in the text that is appended. -/
def RequestTarget.sentPath (target : RequestTarget) : List Char :=
  if target.query = none then target.path else target.rawPath

/-- A path can follow an authority and a trimmed path. -/
structure PathFits (authority : Option (List Char)) (base path : List Char) : Prop where
  afterPath : base ≠ [] → path ≠ []
  afterAuthority : base = [] → ∀ a ∈ authority, a ≠ [] ∧ path ≠ ['*']
  afterNothing : base = [] → authority = none → ¬ ['/', '/'] <+: path

/-- The text of the URL ends where a request target can follow. -/
structure TakesTarget (url : Parts) (target : RequestTarget) : Prop where
  fragment : url.fragment = none
  query : url.query = none
  path : PathFits url.authority (trimPath url.path) target.sentPath

/-- Of the URL alone, behind a fragment. -/
structure AgreesAlready (url : Parts) (target : RequestTarget) : Prop where
  fragment : url.fragment ≠ none
  query : url.query = target.query
  path : nonemptyPath url.path = trimPath url.path ++ target.path

/-! ## Request targets -/

namespace RequestTarget

variable (target : RequestTarget)

/-- What is joined to the base URL is the path and the query. -/
private theorem pathAndQuery_eq :
    target.pathAndQuery = target.sentPath ++ queryText target.query := by
  unfold pathAndQuery sentPath path
  cases target.query with
  | none => simp [queryText]
  | some q => simp [queryText, nonemptyPath]

/-- A target's path is empty, starts with a slash or is the asterisk. -/
theorem rawPath_cases :
    target.rawPath = [] ∨ target.rawPath.head? = some '/' ∨ target.rawPath = ['*'] := by
  cases target with
  | originForm path _ => exact .inr (.inl path.head)
  | absoluteForm path _ =>
    cases path with
    | none => exact .inl rfl
    | some path => exact .inr (.inl path.head)
  | asteriskForm => exact .inr (.inr rfl)

/-- A target's path has neither `#` nor `?`. -/
private theorem rawPath_plain : '#' ∉ target.rawPath ∧ '?' ∉ target.rawPath := by
  cases target with
  | originForm path _ => exact path.plain
  | absoluteForm path _ =>
    cases path with
    | none => exact ⟨List.not_mem_nil, List.not_mem_nil⟩
    | some path => exact path.plain
  | asteriskForm => decide

/-- A query has no `#`. -/
private theorem query_plain : ∀ q ∈ target.query, '#' ∉ q := by
  intro q hq
  cases target with
  | originForm _ query =>
    obtain ⟨text, -, rfl⟩ := Option.map_eq_some_iff.mp hq
    exact text.property
  | absoluteForm _ query =>
    obtain ⟨text, -, rfl⟩ := Option.map_eq_some_iff.mp hq
    exact text.property
  | asteriskForm => cases hq

/-- The path sent is the raw one, or a slash for an empty one. -/
private theorem sentPath_eq : target.sentPath = target.rawPath ∨ target.sentPath = ['/'] := by
  unfold sentPath path nonemptyPath
  split
  · split
    · exact .inr rfl
    · exact .inl rfl
  · exact .inl rfl

/-- The path sent has the same three shapes. -/
theorem sentPath_cases :
    target.sentPath = [] ∨ target.sentPath.head? = some '/' ∨ target.sentPath = ['*'] := by
  rcases target.sentPath_eq with h | h
  · rw [h]
    exact target.rawPath_cases
  · exact .inr (.inl (h ▸ rfl))

/-- The path sent has neither `#` nor `?`. -/
private theorem sentPath_plain : '#' ∉ target.sentPath ∧ '?' ∉ target.sentPath := by
  rcases target.sentPath_eq with h | h
  · rw [h]
    exact target.rawPath_plain
  · rw [h]
    decide

/-- The path the parser reads from it is the target's path. -/
private theorem nonemptyPath_sentPath : nonemptyPath target.sentPath = target.path := by
  unfold sentPath path nonemptyPath
  split
  · split <;> simp_all
  · rfl

end RequestTarget

/-! ## Paths behind a text -/

variable {t e path : List Char}

/-- The texts that are appended: nothing, a path, and the asterisk. -/
def IsTargetPath (path : List Char) : Prop := path = [] ∨ path.head? = some '/' ∨ path = ['*']

/-- The path of a target has no colon before its first slash. -/
theorem IsTargetPath.noColonFirst (h : IsTargetPath path) : NoColonFirst path := by
  intro hcolon
  rcases h with rfl | h | rfl
  · cases hcolon
  · exact h
  · exact absurd hcolon (by decide)

/-- Slashes alone are the path of a target. -/
private theorem isTargetPath_slashes (he : ∀ x ∈ e, x = '/') : IsTargetPath e := by
  cases e with
  | nil => exact .inl rfl
  | cons x e => exact .inr (.inl (congrArg some (he x List.mem_cons_self)))

/-- Slashes at the end of a URL are trimmed. -/
private theorem trimPath_append (he : ∀ x ∈ e, x = '/') (t : List Char) :
    trimPath (t ++ e) = trimPath t := by
  unfold trimPath List.rdropWhile
  rw [List.reverse_append, List.dropWhile_append_of_pos]
  intro x hx
  simpa using he x (List.mem_reverse.mp hx)

/-- A URL that ends in no slash is not trimmed. -/
private theorem trimPath_of_getLast (h : t.getLast? ≠ some '/') : trimPath t = t := by
  rw [trimPath, List.rdropWhile_eq_self_iff]
  intro hne hslash
  exact h ((List.getLast?_eq_some_getLast hne).trans (congrArg some (of_decide_eq_true hslash)))

/-- Slashes alone have nothing before the first one. -/
private theorem takeWhile_slashes (he : ∀ x ∈ e, x = '/') : e.takeWhile (· ≠ '/') = [] := by
  cases e with
  | nil => rfl
  | cons x e => simp [he x List.mem_cons_self]

/-- Only a path that begins with a slash does not go on with an authority. -/
theorem takeWhile_eq_nil_iff (h : IsTargetPath path) :
    path.takeWhile (· ≠ '/') = [] ↔ path ≠ ['*'] := by
  rcases h with rfl | h | rfl
  · simp
  · cases path with
    | nil => cases h
    | cons x path =>
      obtain rfl : x = '/' := Option.some.inj h
      simp
  · decide

/-- A base text is kept before the path unless the path is empty. -/
private theorem nonemptyPath_append (hne : t ≠ []) :
    nonemptyPath (t ++ path) = t ++ nonemptyPath path ↔ path ≠ [] := by
  rw [nonemptyPath, if_neg (by simp [hne]), List.append_cancel_left_eq]
  by_cases hpath : path = []
  · simp [hpath, nonemptyPath]
  · simp [hpath, nonemptyPath]

/-- Of slashes alone nothing is left. -/
private theorem trimPath_slashes (he : ∀ x ∈ e, x = '/') : trimPath e = [] := by
  rw [trimPath, List.rdropWhile_eq_nil_iff]
  intro x hx
  simpa using he x hx

/-- A path with nothing before its first slash starts there. -/
private theorem dropWhile_of_takeWhile_eq_nil (h : path.takeWhile (· ≠ '/') = []) :
    path.dropWhile (· ≠ '/') = path := by
  have happend := List.takeWhile_append_dropWhile (p := fun x => decide (x ≠ '/')) (l := path)
  rwa [h, List.nil_append] at happend

/-- At most one slash is added to a path. -/
private theorem length_nonemptyPath_le (path : List Char) :
    (nonemptyPath path).length ≤ path.length + 1 := by
  unfold nonemptyPath
  split
  · simp
  · omega

/-- Behind nothing a path stays a path, unless it begins with two slashes. -/
private theorem authorityOf_iff_of_none (path : List Char) :
    (authorityOf path).1 = none ∧ nonemptyPath (authorityOf path).2 = nonemptyPath path ↔
      PathFits none [] path := by
  -- two slashes begin an authority
  by_cases hpre : ['/', '/'] <+: path
  · obtain ⟨rest, rfl⟩ := hpre
    constructor
    · rintro ⟨hnone, -⟩
      cases hnone
    · exact fun h => absurd ⟨rest, rfl⟩ (h.afterNothing rfl rfl)
  · rw [authorityOf_of_oneSlash hpre]
    constructor
    · refine fun _ => ⟨fun h => absurd rfl h, fun _ a ha => ?_, fun _ _ => hpre⟩
      cases ha
    · exact fun _ => ⟨rfl, rfl⟩

/-- An authority that is empty is lost, or takes the slashes of the path. -/
private theorem not_authorityOf_of_empty (path : List Char) :
    ¬ ((authorityOf path).1 = some [] ∧
      nonemptyPath (authorityOf path).2 = nonemptyPath path) := by
  rintro ⟨hauthority, hpath⟩
  by_cases hpre : ['/', '/'] <+: path
  · obtain ⟨rest, rfl⟩ := hpre
    have hdrop : rest.dropWhile (· ≠ '/') = rest :=
      dropWhile_of_takeWhile_eq_nil (Option.some.inj hauthority)
    have hshort : nonemptyPath (rest.dropWhile (· ≠ '/')) = '/' :: '/' :: rest := hpath
    -- the path would be longer than the text that it is part of
    have hlength := length_nonemptyPath_le rest
    rw [hdrop] at hshort
    rw [hshort, List.length_cons, List.length_cons] at hlength
    omega
  · rw [authorityOf_of_oneSlash hpre] at hauthority
    cases hauthority

/-- Slashes alone are a path that is trimmed away, or an empty authority. -/
theorem authorityOf_slashes_iff (he : ∀ x ∈ e, x = '/') (path : List Char) :
    (authorityOf path).1 = (authorityOf e).1 ∧
      nonemptyPath (authorityOf path).2 = trimPath (authorityOf e).2 ++ nonemptyPath path ↔
    PathFits (authorityOf e).1 (trimPath (authorityOf e).2) path := by
  by_cases hpre : ['/', '/'] <+: e
  · -- the URL has an authority without text
    obtain ⟨rest, rfl⟩ := hpre
    have hrest : ∀ x ∈ rest, x = '/' := fun x hx => he x (by simp [hx])
    have htake := takeWhile_slashes hrest
    have hurl : authorityOf (['/', '/'] ++ rest) = (some [], rest) := by
      rw [List.cons_append, List.cons_append, List.nil_append, authorityOf, htake,
        dropWhile_of_takeWhile_eq_nil htake]
    rw [hurl, trimPath_slashes hrest, List.nil_append]
    exact ⟨fun h => absurd h (not_authorityOf_of_empty path),
      fun h => absurd rfl (h.afterAuthority rfl [] rfl).1⟩
  · rw [authorityOf_of_oneSlash hpre, trimPath_slashes he, List.nil_append]
    exact authorityOf_iff_of_none path

/-- Behind an authority only the asterisk does not fit. -/
theorem pathFits_authority_iff {a : List Char} (hne : a ≠ []) :
    PathFits (some a) [] path ↔ path ≠ ['*'] := by
  constructor
  · exact fun h => (h.afterAuthority rfl a rfl).2
  · intro hstar
    refine ⟨fun h => absurd rfl h, fun _ b hb => ?_, fun _ h => absurd h (by simp)⟩
    obtain rfl := Option.some.inj hb
    exact ⟨hne, hstar⟩

/-- Behind a base path only the empty path does not fit. -/
theorem pathFits_base_iff {authority : Option (List Char)} {base : List Char} (hne : base ≠ []) :
    PathFits authority base path ↔ path ≠ [] := by
  constructor
  · exact fun h => h.afterPath hne
  · exact fun h => ⟨fun _ => h, fun hnil => absurd hnil hne, fun hnil => absurd hnil hne⟩

/-- When an appended path leaves the authority and adds itself to the trimmed path. -/
theorem authorityOf_append_iff (ht : t.getLast? ≠ some '/') (he : ∀ x ∈ e, x = '/')
    (hpath : IsTargetPath path) :
    (authorityOf (t ++ path)).1 = (authorityOf (t ++ e)).1 ∧
      nonemptyPath (authorityOf (t ++ path)).2 =
        trimPath (authorityOf (t ++ e)).2 ++ nonemptyPath path ↔
    PathFits (authorityOf (t ++ e)).1 (trimPath (authorityOf (t ++ e)).2) path := by
  cases hier_of_getLast ht with
  | nil => exact authorityOf_slashes_iff he path
  | @authority a hne ha =>
    -- a target that does not begin with a slash goes on with the authority
    rw [authorityOf_authority_append ha, authorityOf_authority_append ha, takeWhile_slashes he,
      dropWhile_of_takeWhile_eq_nil (takeWhile_slashes he), trimPath_slashes he]
    simp only [Option.some.injEq, List.append_right_inj, List.nil_append]
    rw [takeWhile_eq_nil_iff hpath, List.append_nil, pathFits_authority_iff hne,
      and_iff_left_iff_imp]
    intro hstar
    rw [dropWhile_of_takeWhile_eq_nil ((takeWhile_eq_nil_iff hpath).mpr hstar)]
  | @authorityPath a ha p =>
    have hlast : ('/' :: p).getLast? ≠ some '/' := by
      intro hslash
      refine ht ?_
      rw [← List.cons_append, ← List.cons_append, List.getLast?_append, hslash]
      rfl
    rw [authorityOf_authorityPath_append ha, authorityOf_authorityPath_append ha,
      trimPath_append he, trimPath_of_getLast hlast, pathFits_base_iff (List.cons_ne_nil '/' p),
      nonemptyPath_append (List.cons_ne_nil '/' p)]
    exact and_iff_right rfl
  | path hne hp =>
    -- no target makes an authority behind a path
    rw [authorityOf_of_oneSlash (hp path), authorityOf_of_oneSlash (hp e),
      trimPath_append he, trimPath_of_getLast ht, pathFits_base_iff hne, nonemptyPath_append hne]
    exact and_iff_right rfl

/-! ## Targets behind a URL -/

/-- The authority of the upstream and the request are in these parts. -/
structure CarriesTarget (url : Parts) (target : RequestTarget) (parts : Parts) : Prop where
  authority : parts.authority = url.authority
  path : nonemptyPath parts.path = trimPath url.path ++ target.path
  query : parts.query = target.query

private theorem slashes_plain (he : ∀ x ∈ e, x = '/') : '#' ∉ e ∧ '?' ∉ e :=
  ⟨fun h => absurd (he _ h) (by decide), fun h => absurd (he _ h) (by decide)⟩

/-- What is joined has no `#`. -/
private theorem pathAndQuery_plain (target : RequestTarget) : '#' ∉ target.pathAndQuery := by
  rw [target.pathAndQuery_eq]
  cases hq : target.query with
  | none => simp [queryText, target.sentPath_plain.1]
  | some q => simp [queryText, target.sentPath_plain.1, target.query_plain q hq]

/-- No target makes or changes a scheme. -/
private theorem scheme_split_append (t : List Char) (target : RequestTarget)
    (he : ∀ x ∈ e, x = '/') :
    (split (t ++ target.pathAndQuery)).scheme = (split (t ++ e)).scheme := by
  by_cases hfragment : '#' ∈ t
  · rw [split_append_of_fragment hfragment, split_append_of_fragment hfragment]
  · -- behind a `?` everything belongs to the query
    by_cases hquery : '?' ∈ t
    · rw [split_append_of_query hfragment hquery (pathAndQuery_plain target),
        split_append_of_query hfragment hquery (slashes_plain he).1]
    · have hslashes := split_append_path ⟨hfragment, hquery⟩ (slashes_plain he)
        (isTargetPath_slashes he).noColonFirst (q := none) (by simp)
      rw [queryText, List.append_nil] at hslashes
      rw [target.pathAndQuery_eq, ← List.append_assoc, hslashes,
        split_append_path ⟨hfragment, hquery⟩ target.sentPath_plain
          (IsTargetPath.noColonFirst target.sentPath_cases) target.query_plain]

/-- Behind a fragment the URL stays as it is. -/
private theorem carriesTarget_of_fragment (ht : '#' ∈ t) (target : RequestTarget) :
    CarriesTarget (split (t ++ e)) target (split (t ++ target.pathAndQuery)) ↔
      AgreesAlready (split (t ++ e)) target := by
  have hfragment : (split (t ++ e)).fragment ≠ none := by simp [fragment_split, ht]
  rw [split_append_of_fragment ht, split_append_of_fragment ht] at *
  exact ⟨fun h => ⟨hfragment, h.query, h.path⟩, fun h => ⟨rfl, h.path, h.query⟩⟩

/-- Behind a query the text of the target is a part of it. -/
private theorem not_carriesTarget_of_query (ht : '#' ∉ t) (hquery : '?' ∈ t)
    (target : RequestTarget)
    (url : Parts) : ¬ CarriesTarget url target (split (t ++ target.pathAndQuery)) := by
  intro h
  have hsame := h.query
  rw [split_append_of_query ht hquery (pathAndQuery_plain target)] at hsame
  cases hold : (split t).query with
  | none => exact (query_split ht).mp hold hquery
  | some old =>
    -- the query of the request is shorter than what stands there now
    rw [hold, Option.map_some] at hsame
    rw [target.pathAndQuery_eq, ← hsame, queryText] at hsame
    have hlength := congrArg List.length (Option.some.inj hsame)
    simp only [List.length_append, List.length_cons] at hlength
    omega

/-- Behind a path it is where the path ends that counts. -/
private theorem carriesTarget_of_plain (ht : '#' ∉ t ∧ '?' ∉ t) (hlast : t.getLast? ≠ some '/')
    (he : ∀ x ∈ e, x = '/') (target : RequestTarget) :
    CarriesTarget (split (t ++ e)) target (split (t ++ target.pathAndQuery)) ↔
      TakesTarget (split (t ++ e)) target := by
  -- the base and the joined URL, each cut into its parts
  have hslashes := split_append_path ht (slashes_plain he)
    (isTargetPath_slashes he).noColonFirst (q := none) (by simp)
  have htarget := split_append_path ht target.sentPath_plain
    (IsTargetPath.noColonFirst target.sentPath_cases) target.query_plain
  rw [queryText, List.append_nil] at hslashes
  rw [target.pathAndQuery_eq, ← List.append_assoc, htarget, hslashes]
  -- the trimmed base ends in no slash
  have hrest : (schemeOf t).2.getLast? ≠ some '/' := by
    intro hslash
    obtain ⟨front, hfront⟩ := schemeOf_snd_suffix t
    refine hlast ?_
    rw [← hfront, List.getLast?_append, hslash]
    rfl
  have hiff := authorityOf_append_iff hrest he target.sentPath_cases
  rw [target.nonemptyPath_sentPath] at hiff
  constructor
  · rintro ⟨hauthority, hpath, -⟩
    exact ⟨rfl, rfl, hiff.mp ⟨hauthority, hpath⟩⟩
  · rintro ⟨-, -, hfits⟩
    obtain ⟨hauthority, hpath⟩ := hiff.mpr hfits
    exact ⟨hauthority, hpath, rfl⟩

/-- The joined URL carries the target if it takes it or agrees with it already. -/
theorem carriesTarget_iff (hlast : t.getLast? ≠ some '/') (he : ∀ x ∈ e, x = '/')
    (target : RequestTarget) :
    CarriesTarget (split (t ++ e)) target (split (t ++ target.pathAndQuery)) ↔
      TakesTarget (split (t ++ e)) target ∨ AgreesAlready (split (t ++ e)) target := by
  -- behind a `#` everything belongs to the fragment
  by_cases hfragment : '#' ∈ t
  · rw [carriesTarget_of_fragment hfragment, or_iff_right]
    intro h
    exact (fragment_split _).mp h.fragment (List.mem_append_left e hfragment)
  · have hnone : (split (t ++ e)).fragment = none := by
      simp [fragment_split, hfragment, (slashes_plain he).1]
    have hnot : ¬ AgreesAlready (split (t ++ e)) target := fun h => h.fragment hnone
    rw [or_iff_left hnot]
    by_cases hquery : '?' ∈ t
    · refine iff_of_false (not_carriesTarget_of_query hfragment hquery target _) fun h => ?_
      have hplain := (query_split ((fragment_split _).mp hnone)).mp h.query
      exact hplain (List.mem_append_left e hquery)
    · exact carriesTarget_of_plain ⟨hfragment, hquery⟩ hlast he target

/-! ## The forwarder -/

/-- The scheme is always kept, so the texts compare as their parts do. -/
private theorem preservesTarget_iff_of_follows {url parts : Parts} {target : RequestTarget}
    {u : FullUri} (h : u.Follows parts) (hscheme : parts.scheme = url.scheme) :
    PreservesTarget url target u ↔ CarriesTarget url target parts := by
  have hmap := Option.map_injective fun _ _ => String.ofList_injective
  constructor
  · rintro ⟨-, hauthority, hpath, hquery⟩
    exact ⟨hmap (h.authority.symm.trans hauthority),
      String.ofList_injective (h.path.symm.trans hpath), hmap (h.query.symm.trans hquery)⟩
  · rintro ⟨hauthority, hpath, hquery⟩
    exact ⟨hscheme ▸ h.scheme, hauthority ▸ h.authority, hpath ▸ h.path, hquery ▸ h.query⟩

/-- The URL without its trailing slashes, and these. -/
private theorem exists_trailing (url : List Char) :
    ∃ e, url = trimPath url ++ e ∧ ∀ x ∈ e, x = '/' := by
  refine ⟨(url.reverse.takeWhile (· = '/')).reverse, ?_, fun x hx => ?_⟩
  · rw [trimPath, List.rdropWhile, ← List.reverse_append, List.takeWhile_append_dropWhile,
      List.reverse_reverse]
  · have hslash := List.mem_takeWhile_imp (List.mem_reverse.mp hx)
    exact of_decide_eq_true hslash

/-- A trimmed URL ends in no slash. -/
private theorem getLast_trimPath (url : List Char) : (trimPath url).getLast? ≠ some '/' := by
  intro h
  have hne : trimPath url ≠ [] := by
    intro hnil
    rw [hnil] at h
    cases h
  have hlast := List.rdropWhile_last_not (fun x => decide (x = '/')) url hne
  rw [List.getLast?_eq_some_getLast hne] at h
  exact hlast (decide_eq_true (Option.some.inj h))

/-- The URI has what it should have of the upstream and the request if and only if the text of
    the URL ends where a target can follow, or the target behind its fragment is the one that
    the URL has already. -/
theorem preservesTarget_iff (parser : UriParser) (upstreamUrl : String) (target : RequestTarget)
    (host : Option String) (port : Option UInt16) (u : FullUri)
    (h : buildUpstreamFullUri parser.parse upstreamUrl (target.uri host port) = .ok u) :
    PreservesTarget (split upstreamUrl.toList) target u ↔
      TakesTarget (split upstreamUrl.toList) target ∨
        AgreesAlready (split upstreamUrl.toList) target := by
  have hparse : parser.parse (String.ofList (trimPath upstreamUrl.toList) ++
      String.ofList target.pathAndQuery) = .ok u := by
    unfold buildUpstreamFullUri at h
    exact Except.mapError_eq_ok_iff.mp h
  -- the parser splits the joined text
  have hfollows := parser.follows _ _ hparse
  rw [String.toList_append, String.toList_ofList, String.toList_ofList] at hfollows
  obtain ⟨e, hurl, he⟩ := exists_trailing upstreamUrl.toList
  have hiff := carriesTarget_iff (getLast_trimPath upstreamUrl.toList) he target
  have hscheme := scheme_split_append (trimPath upstreamUrl.toList) target he
  rw [← hurl] at hiff hscheme
  exact (preservesTarget_iff_of_follows hfollows hscheme).trans hiff

/-- A parser that takes the host and the port for all of an authority. -/
def plainParser : UriParser where
  parse text :=
    let parts := split text.toList
    let authority := parts.authority.map (cutAt ':')
    .ok
      { host := authority.map fun a => String.ofList a.1
        port := authority.bind fun a => a.2.bind fun digits =>
          (String.ofList digits).toNat?.map UInt16.ofNat
        path := String.ofList (nonemptyPath parts.path)
        pathAndQuery := some (String.ofList (nonemptyPath (parts.path ++ queryText parts.query)))
        scheme := parts.scheme.map String.ofList
        authority := parts.authority.map String.ofList
        query := parts.query.map String.ofList }
  follows text u h := by
    cases h
    exact ⟨by rw [Option.map_map]; rfl, rfl, rfl, rfl⟩

def exampleTarget : RequestTarget :=
  .originForm ⟨"/a".toList, by decide, by decide⟩ (some ⟨"page=2".toList, by decide⟩)

/-- A base URL with a path and one closing slash. -/
theorem preservesTarget_plain_url :
    PreservesTarget (split "http://example.com/api/".toList) exampleTarget
      { host := some "example.com", port := none, path := "/api/a",
        pathAndQuery := some "/api/a?page=2", scheme := some "http",
        authority := some "example.com", query := some "page=2" } :=
  (preservesTarget_iff plainParser "http://example.com/api/" exampleTarget none none _ rfl).mpr
    (.inl ⟨by decide, by decide, by decide, by decide, by decide⟩)

/-- The libraries on a URL with a query. -/
def queryUrls : ControlApi.Ext where
  __ := ControlApi.loopbackUrls
  parseRequestURI s :=
    if s = "http://example.com/api?key=1" then some ⟨"http", "example.com"⟩ else none

/-- The query of an upstream takes the path and the query of the request. -/
theorem upstream_query_takes_target :
    ¬ ∀ (ext : ControlApi.Ext) (parser : UriParser) (upstreamUrl : String)
      (target : RequestTarget) (host : Option String) (port : Option UInt16) (u : FullUri),
      ControlApi.validateURL ext upstreamUrl = .ok () →
        buildUpstreamFullUri parser.parse upstreamUrl (target.uri host port) = .ok u →
          PreservesTarget (split upstreamUrl.toList) target u := by
  intro h
  have haccepted : ControlApi.validateURL queryUrls "http://example.com/api?key=1" = .ok () :=
    ControlApi.validateURL_eq_ok.mpr ⟨by decide, _, rfl, .inl (by decide), by decide⟩
  have hpath := (h queryUrls plainParser _ exampleTarget none none _ haccepted rfl).path
  revert hpath
  decide

end Barqium.Native
