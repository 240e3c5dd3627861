import Barqium.ForStd.MediaType
import Barqium.Native.Protocols

/-!
# The action of a SOAP 1.2 content type

SOAP 1.2 gives the action as a quoted parameter of the content type. `extract_action` cuts
the header at every semicolon, also at those inside of quotes, and takes the first piece
that begins with `action=`.

## Key results

- `roundTrips_iff`: the content types of which the action comes back
- `roundTrips_iff_of_values`: without semicolons in the values in front, they are those whose
  action has none either
-/

namespace Barqium.Native.Soap

open MediaType

/-! ## Pieces -/

/-- A piece is read as the action `v`. -/
def ReadsAction (piece : List Char) (v : String) : Prop :=
  ∃ val, Text.trim piece = "action=".toList ++ val ∧ v = String.ofList (trimQuotes val)

/-- The first of the pieces that is read as an action is read as `v`. -/
def FirstAction (pieces : List (List Char)) (v : String) : Prop :=
  ∃ ps piece qs, pieces = ps ++ piece :: qs ∧ ReadsAction piece v ∧
    ∀ p ∈ ps, ∀ w, ¬ ReadsAction p w

/-- The action that a piece is read as. -/
def readAction (piece : List Char) : Option String :=
  (Text.stripPrefix "action=".toList (Text.trim piece)).map fun val =>
    String.ofList (trimQuotes val)

/-- A piece is read as an action. -/
private theorem readAction_eq_some {piece : List Char} {v : String} :
    readAction piece = some v ↔ ReadsAction piece v := by
  rw [readAction, Option.map_eq_some_iff]
  simp only [Text.stripPrefix_eq_some, ReadsAction, @eq_comm _ v]

/-- The first piece that has one counts. -/
private theorem findSome?_readAction {pieces : List (List Char)} {v : String} :
    pieces.findSome? readAction = some v ↔ FirstAction pieces v := by
  simp only [List.findSome?_eq_some_iff, readAction_eq_some, Option.eq_none_iff_forall_ne_some,
    ne_eq, FirstAction]

/-- There is one first action. -/
private theorem firstAction_unique {pieces : List (List Char)} {v w : String}
    (hv : FirstAction pieces v) (hw : FirstAction pieces w) : v = w :=
  Option.some.inj ((findSome?_readAction.mpr hv).symm.trans (findSome?_readAction.mpr hw))

/-- The pieces in front decide, if one of them is read as an action. -/
private theorem firstAction_append {ps qs : List (List Char)} {v : String} :
    FirstAction (ps ++ qs) v ↔
      FirstAction ps v ∨ (∀ w, ¬ FirstAction ps w) ∧ FirstAction qs v := by
  simp only [← findSome?_readAction, List.findSome?_append, Option.or_eq_some_iff,
    Option.eq_none_iff_forall_ne_some, ne_eq]

/-- For SOAP 1.2 the action is the first one of the content type. -/
private theorem extractAction_eq_some {contentType : String} (header : Option String) {v : String} :
    extractAction .soap12 contentType header = some v ↔
      FirstAction (contentType.toList.splitOn ';') v :=
  findSome?_readAction

/-- Trimming quotes adds no character. -/
private theorem mem_trimQuotes {t : List Char} {c : Char} (h : c ∈ trimQuotes t) : c ∈ t :=
  (List.dropWhile_sublist _).subset
    (List.mem_reverse.mp ((List.dropWhile_sublist _).subset (List.mem_reverse.mp h)))

/-- An action that is read from a piece has no character that the piece has not. -/
theorem ReadsAction.mem {piece : List Char} {v : String} (h : ReadsAction piece v) {c : Char}
    (hc : c ∈ v.toList) : c ∈ piece := by
  obtain ⟨val, hval, rfl⟩ := h
  rw [String.toList_ofList] at hc
  apply Text.mem_of_mem_trim
  rw [hval]
  exact List.mem_append_right _ (mem_trimQuotes hc)

/-- The first action stands in one of the pieces. -/
theorem FirstAction.exists_mem {pieces : List (List Char)} {v : String} (h : FirstAction pieces v) :
    ∃ piece ∈ pieces, ReadsAction piece v := by
  obtain ⟨ps, piece, qs, rfl, hv, -⟩ := h
  exact ⟨piece, by simp, hv⟩

/-! ## Content types -/

/-- A content type with the action `action` among other parameters. -/
structure ActionType where
  action : String
  before : List Parameter
  after : List Parameter
  ows : List Char
  ows' : List Char
  noQuote : '"' ∉ action.toList
  spaces : Spaces ows ∧ Spaces ows'
  other : ∀ p ∈ before ++ after, p.name ≠ "action".toList

namespace ActionType

variable (c : ActionType)

/-- What stands in front of the semicolon of the action. -/
def front : List Char :=
  "application/soap+xml".toList ++ (c.before.flatMap Parameter.text ++ c.ows)

def text : String :=
  String.ofList (c.front ++ ';' :: (c.ows' ++ ("action=\"".toList ++
    (c.action.toList ++ '"' :: c.after.flatMap Parameter.text))))

/-- The content type is one of SOAP 1.2 and has the action, whatever else the request has. -/
def RoundTrips : Prop :=
  ∀ header body, ∃ result, parseSoapAction c.text header body = some result ∧
    result.version = .soap12 ∧ result.action = some c.action

/-- The action has no semicolon in it. A piece of the earlier parameters, cut at semicolons,
    that looks like an action already has the same. -/
def Plain : Prop :=
  ';' ∉ c.action.toList ∧ ∀ v, FirstAction (c.front.splitOn ';') v → v = c.action

variable {c}

/-! ## The piece of the action -/

/-- A quoted text without quotes is itself. -/
private theorem trimQuotes_quoted {t : List Char} (h : '"' ∉ t) :
    trimQuotes ('"' :: (t ++ ['"'])) = t := by
  -- nothing is dropped in front of another character
  have hkeep (c : Char) (u : List Char) (hc : c ≠ '"') :
      (c :: u).dropWhile (· = '"') = c :: u := List.dropWhile_cons_of_neg (by simpa using hc)
  rw [trimQuotes, List.dropWhile_cons_of_pos (by decide)]
  cases t with
  | nil => rfl
  | cons c u =>
    have hc : c ≠ '"' := fun heq => h (heq ▸ List.mem_cons_self)
    rw [List.cons_append, hkeep c _ hc, ← List.cons_append, List.reverse_concat,
      List.dropWhile_cons_of_pos (by decide)]
    cases hu : (c :: u).reverse with
    | nil => simp at hu
    | cons d w =>
      have hd : d ≠ '"' := by
        rintro rfl
        exact h (List.mem_reverse.mp (hu ▸ List.mem_cons_self))
      rw [hkeep d w hd, ← hu, List.reverse_reverse]

/-- The action without a semicolon is read from its piece. -/
private theorem readsAction_self {t s s' : List Char} (h : '"' ∉ t) (hs : Spaces s)
    (hs' : Spaces s') :
    ReadsAction (s ++ ("action=\"".toList ++ (t ++ '"' :: s'))) (String.ofList t) := by
  refine ⟨'"' :: (t ++ ['"']), ?_, by rw [trimQuotes_quoted h]⟩
  have hpiece : "action=\"".toList ++ (t ++ '"' :: s') =
      ("action=".toList ++ '"' :: (t ++ ['"'])) ++ s' := by simp
  rw [hpiece]
  exact Text.trim_eq hs.isWhitespace (c := 'a') (d := '"')
    (u := "ction=".toList ++ '"' :: (t ++ ['"'])) (v := "action=\"".toList ++ t)
    rfl (by decide) (by simp) (by decide) hs'.isWhitespace

/-- An action that is read has no semicolon. -/
private theorem semicolon_notMem {t : List Char} {v : String} (h : FirstAction (t.splitOn ';') v) :
    ';' ∉ v.toList := by
  obtain ⟨piece, hmem, hv⟩ := h.exists_mem
  exact fun hc => List.not_mem_of_mem_splitOn hmem (hv.mem hc)

/-! ## The pieces of other parameters -/

/-- Spaces have no semicolon. -/
private theorem semicolon_notMem_spaces {s : List Char} (hs : Spaces s) : ';' ∉ s := by
  intro hmem
  rcases hs _ hmem with h | h
  · exact absurd h (by decide)
  · exact absurd h (by decide)

/-- A parameter without a semicolon in its value has none. -/
private theorem semicolon_notMem_content {p : Parameter} (h : ';' ∉ p.value) : ';' ∉ p.content := by
  have hname : ';' ∉ p.name := fun hmem => absurd (p.isToken.chars _ hmem) (by decide)
  simp [Parameter.content, hname, h]

/-- Without semicolons in the values each piece is a parameter with white space around it. -/
private theorem mem_splitOn_parameters {ps : List Parameter} (h : ∀ p ∈ ps, ';' ∉ p.value)
    {x s piece : List Char} (hx : ';' ∉ x) (hs : Spaces s)
    (hpiece : piece ∈ (x ++ (ps.flatMap Parameter.text ++ s)).splitOn ';') :
    (∃ s', Spaces s' ∧ piece = x ++ s') ∨
      ∃ p ∈ ps, ∃ s₁ s₂, Spaces s₁ ∧ Spaces s₂ ∧ piece = s₁ ++ (p.content ++ s₂) := by
  -- the semicolon before each parameter is the only one
  induction ps generalizing x with
  | nil =>
    have hall : ';' ∉ x ++ s := fun hmem =>
      (List.mem_append.mp hmem).elim hx (semicolon_notMem_spaces hs)
    rw [List.flatMap_nil, List.nil_append, List.splitOn_eq_singleton hall,
      List.mem_singleton] at hpiece
    exact .inl ⟨s, hs, hpiece⟩
  | cons p ps ih =>
    obtain ⟨hp, hps⟩ := List.forall_mem_cons.mp h
    have hfirst : ';' ∉ x ++ p.before := fun hmem =>
      (List.mem_append.mp hmem).elim hx (semicolon_notMem_spaces p.spaces.1)
    have hnext : ';' ∉ p.behind ++ p.content := fun hmem =>
      (List.mem_append.mp hmem).elim (semicolon_notMem_spaces p.spaces.2)
        (semicolon_notMem_content hp)
    have htext : x ++ ((p :: ps).flatMap Parameter.text ++ s) = (x ++ p.before) ++
        ';' :: (p.behind ++ p.content ++ (ps.flatMap Parameter.text ++ s)) := by
      simp [Parameter.text]
    rw [htext, List.splitOn_append_cons_self_of_not_mem hfirst, List.mem_cons] at hpiece
    rcases hpiece with rfl | hpiece
    · exact .inl ⟨p.before, p.spaces.1, rfl⟩
    · rcases ih hps hnext hpiece with ⟨s', hs', rfl⟩ | ⟨q, hq, hcut⟩
      · exact .inr ⟨p, List.mem_cons_self, p.behind, s', p.spaces.2, hs', by simp⟩
      · exact .inr ⟨q, List.mem_cons_of_mem p hq, hcut⟩

/-- A parameter of another name is not read as an action. -/
private theorem not_readsAction {p : Parameter} (h : p.name ≠ "action".toList) {s s' : List Char}
    (hs : Spaces s) (hs' : Spaces s') (v : String) :
    ¬ ReadsAction (s ++ (p.content ++ s')) v := by
  rintro ⟨val, hval, -⟩
  have hname : '=' ∉ p.name := fun hmem => absurd (p.isToken.chars _ hmem) (by decide)
  have haction : "action=".toList ++ val = "action".toList ++ '=' :: val := by simp
  rw [p.trim_content hs hs', haction] at hval
  exact h (List.append_cons_inj_of_not_mem hname (by decide) hval).1

/-! ## The round trip -/

/-- What comes before the action, the action, and what comes behind it. -/
private theorem toList_text (c : ActionType) : c.text.toList = c.front ++ ';' :: (c.ows' ++
    ("action=\"".toList ++ (c.action.toList ++ '"' :: c.after.flatMap Parameter.text))) :=
  String.toList_ofList

/-- The pieces before the action and those from it on. -/
private theorem splitOn_text (c : ActionType) : c.text.toList.splitOn ';' =
    c.front.splitOn ';' ++ (c.ows' ++ ("action=\"".toList ++
      (c.action.toList ++ '"' :: c.after.flatMap Parameter.text))).splitOn ';' := by
  rw [toList_text, List.splitOn_append_cons_self]

/-- Without a semicolon the action is a piece of its own, up to white space. -/
private theorem firstAction_tail (c : ActionType) (h : ';' ∉ c.action.toList) :
    FirstAction ((c.ows' ++ ("action=\"".toList ++
      (c.action.toList ++ '"' :: c.after.flatMap Parameter.text))).splitOn ';') c.action := by
  -- what follows the closing quote is white space up to the next semicolon or the end
  obtain ⟨s', hs', qs, hrest⟩ : ∃ s', Spaces s' ∧ ∃ qs,
      (c.after.flatMap Parameter.text).splitOn ';' = s' :: qs := by
    cases c.after with
    | nil => exact ⟨[], by simp [Spaces], [], rfl⟩
    | cons p ps =>
      refine ⟨p.before, p.spaces.1,
        (p.behind ++ p.content ++ ps.flatMap Parameter.text).splitOn ';', ?_⟩
      rw [List.flatMap_cons, Parameter.text, List.append_assoc, List.cons_append,
        List.splitOn_append_cons_self_of_not_mem (semicolon_notMem_spaces p.spaces.1)]
  have hpiece : ';' ∉ c.ows' ++ ("action=\"".toList ++ (c.action.toList ++ ['"'])) := by
    simp only [List.mem_append, not_or]
    exact ⟨semicolon_notMem_spaces c.spaces.2, by decide, h, by decide⟩
  have hsplit : (c.ows' ++ ("action=\"".toList ++
      (c.action.toList ++ '"' :: c.after.flatMap Parameter.text))).splitOn ';' =
      (c.ows' ++ ("action=\"".toList ++ (c.action.toList ++ '"' :: s'))) :: qs := by
    have happ := List.splitOn_append_of_not_mem hpiece (c.after.flatMap Parameter.text)
    rw [hrest, List.modifyHead_cons] at happ
    simpa using happ
  rw [hsplit]
  refine ⟨[], _, qs, rfl, ?_, by simp⟩
  have hread := readsAction_self c.noQuote c.spaces.2 hs'
  rwa [String.ofList_toList] at hread

/-- The media type is trimmed. -/
private theorem trim_mediaType {s : List Char} (hs : Spaces s) :
    Text.trim ("application/soap+xml".toList ++ s) = "application/soap+xml".toList := by
  have hfirst : "application/soap+xml".toList = 'a' :: "pplication/soap+xml".toList := by rfl
  have hlast : "application/soap+xml".toList = "application/soap+xm".toList ++ ['l'] := by rfl
  exact Text.trim_eq (s := []) (by simp) hfirst (by decide) hlast (by decide) hs.isWhitespace

/-- The media type of SOAP 1.2, without white space. -/
private theorem mediaType_text (c : ActionType) : mediaType c.text = "application/soap+xml" := by
  -- the media type ends at the first semicolon, that of a parameter or of the action
  obtain ⟨s, hs, rest, htext⟩ : ∃ s, Spaces s ∧ ∃ rest,
      c.text.toList = "application/soap+xml".toList ++ s ++ ';' :: rest := by
    rw [toList_text]
    unfold front
    generalize "application/soap+xml".toList = name
    generalize c.ows' ++ _ = tail
    cases c.before with
    | nil => exact ⟨c.ows, c.spaces.1, tail, rfl⟩
    | cons p ps =>
      refine ⟨p.before, p.spaces.1,
        p.behind ++ p.content ++ ps.flatMap Parameter.text ++ c.ows ++ ';' :: tail, ?_⟩
      simp [Parameter.text]
  have hname : ';' ∉ "application/soap+xml".toList := by decide
  have hkeep : ∀ d ∈ "application/soap+xml".toList ++ s, decide (d ≠ ';') = true := by
    intro d hd
    rw [decide_eq_true_eq]
    rintro rfl
    exact (List.mem_append.mp hd).elim hname (semicolon_notMem_spaces hs)
  rw [mediaType, htext, List.takeWhile_append_of_pos hkeep,
    List.takeWhile_cons_of_neg (by simp), List.append_nil, trim_mediaType hs,
    String.ofList_toList]

/-- An action is read back exactly if it is the first one. -/
private theorem roundTrips_iff_firstAction (c : ActionType) :
    c.RoundTrips ↔ FirstAction (c.text.toList.splitOn ';') c.action := by
  -- the content type alone decides, whatever header and body are
  have hparse (header : Option String) (body : ByteArray) :
      parseSoapAction c.text header body =
        some ⟨.soap12, extractAction .soap12 c.text header, extractBodyElement body⟩ := by
    simp [parseSoapAction, detectVersion, mediaType_text]
  constructor
  · intro h
    obtain ⟨result, hresult, -, haction⟩ := h none ByteArray.empty
    obtain rfl := Option.some.inj ((hparse none ByteArray.empty).symm.trans hresult)
    exact (extractAction_eq_some none).mp haction
  · intro h header body
    exact ⟨_, hparse header body, rfl, (extractAction_eq_some header).mpr h⟩

/-- An action is the first one exactly if no piece before it has one and it has no semicolon. -/
private theorem firstAction_iff_plain (c : ActionType) :
    FirstAction (c.text.toList.splitOn ';') c.action ↔ c.Plain := by
  constructor
  · intro h
    refine ⟨semicolon_notMem h, fun v hv => ?_⟩
    rw [splitOn_text, firstAction_append] at h
    rcases h with hfront | ⟨hnone, -⟩
    · exact firstAction_unique hv hfront
    · exact absurd hv (hnone v)
  · rintro ⟨hplain, hfront⟩
    rw [splitOn_text, firstAction_append]
    -- what stands before may already have an action
    by_cases hsome : ∃ v, FirstAction (c.front.splitOn ';') v
    · obtain ⟨v, hv⟩ := hsome
      exact .inl (hfront v hv ▸ hv)
    · exact .inr ⟨not_exists.mp hsome, firstAction_tail c hplain⟩

/-- The action comes back exactly from the content types that are plain. -/
theorem roundTrips_iff (c : ActionType) : c.RoundTrips ↔ c.Plain :=
  (roundTrips_iff_firstAction c).trans (firstAction_iff_plain c)

/-- An action of two parts. -/
def twoParts : ActionType where
  action := "urn:a;b"
  before := []
  after := []
  ows := []
  ows' := [' ']
  noQuote := by decide
  spaces := ⟨by simp [Spaces], by simp [Spaces]⟩
  other := by simp

/-- Of an action with a semicolon only the first part comes back. -/
theorem twoParts_cut : ¬ twoParts.RoundTrips := by
  intro h
  obtain ⟨result, hresult, -, haction⟩ := h none ByteArray.empty
  have htext : twoParts.text = "application/soap+xml; action=\"urn:a;b\"" := by decide
  have hcut : parseSoapAction "application/soap+xml; action=\"urn:a;b\"" none ByteArray.empty =
      some ⟨.soap12, some "urn:a", none⟩ := by decide
  rw [htext, hcut] at hresult
  obtain rfl := Option.some.inj hresult
  exact absurd haction (by decide)

/-- Without semicolons in the values in front, the action comes back if it has none either. -/
theorem roundTrips_iff_of_values (c : ActionType) (h : ∀ p ∈ c.before, ';' ∉ p.value) :
    c.RoundTrips ↔ ';' ∉ c.action.toList := by
  rw [roundTrips_iff_firstAction, firstAction_iff_plain, Plain]
  refine ⟨And.left, fun hplain => ⟨hplain, fun v hv => ?_⟩⟩
  -- a piece before the action is the media type or another parameter
  obtain ⟨piece, hmem, hread⟩ := hv.exists_mem
  rcases mem_splitOn_parameters h (by decide) c.spaces.1 hmem with
    ⟨s, hs, rfl⟩ | ⟨p, hp, s₁, s₂, hs₁, hs₂, rfl⟩
  · -- the media type itself begins otherwise
    obtain ⟨val, hval, -⟩ := hread
    rw [trim_mediaType hs] at hval
    have hsecond := congrArg (·[1]?) hval
    simp at hsecond
  · exact absurd hread (not_readsAction (c.other p (List.mem_append_left _ hp)) hs₁ hs₂ v)

end ActionType

end Barqium.Native.Soap
