import Barqium.ForStd.GraphQlText
import Barqium.Native.Protocols

/-!
# The operation type of a GraphQL document

`classify_operation` drops white space and compares the beginning of the rest with two
keywords. The first token of a document may also stand behind commas, a byte order mark and
comments, and a longer name may begin with a keyword.

## Key results

- `classify_eq_iff`: the classification is that of the keyword behind white space
- `classifiesFirst_iff`: when it is that of the first token, also with ignored tokens in front
-/

namespace Barqium.Native.GraphQl

open GraphQlText

/-! ## Keywords -/

/-- The names of the operations that are no queries. -/
def keywords : List (List Char × OperationType) :=
  [("mutation".toList, .mutation), ("subscription".toList, .subscription)]

/-- White space and then the text of a keyword, maybe as the beginning of a longer name. -/
def BeginsWith (keyword t : List Char) : Prop :=
  ∃ s u, (∀ c ∈ s, Text.isWhitespace c) ∧ t = s ++ (keyword ++ u)

variable {k : List Char × OperationType}

/-- A keyword begins with a letter. -/
private theorem keyword_head (hk : k ∈ keywords) :
    ∃ c u, k.1 = c :: u ∧ Text.isWhitespace c = false ∧ c ∉ [',', '\ufeff', '#'] := by
  rcases List.mem_pair.mp hk with rfl | rfl
  · exact ⟨'m', "utation".toList, rfl, by decide, by decide⟩
  · exact ⟨'s', "ubscription".toList, rfl, by decide, by decide⟩

/-- A document begins with a keyword behind its white space. -/
theorem beginsWith_iff (hk : k ∈ keywords) {t : List Char} :
    BeginsWith k.1 t ↔ k.1 <+: t.dropWhile Text.isWhitespace := by
  obtain ⟨c, v, hv, hc, -⟩ := keyword_head hk
  constructor
  · rintro ⟨s, u, hs, rfl⟩
    rw [List.dropWhile_append_of_pos hs, hv, List.cons_append,
      List.dropWhile_cons_of_neg (by simp [hc])]
    exact ⟨u, rfl⟩
  · rintro ⟨u, hu⟩
    refine ⟨t.takeWhile Text.isWhitespace, u, fun c hc => List.mem_takeWhile_imp hc, ?_⟩
    rw [hu, List.takeWhile_append_dropWhile]

/-- The choice between three types, of which at most one condition holds. -/
theorem choice_eq_iff {m s : Prop} [Decidable m] [Decidable s] (hboth : m → ¬ s) :
    ((if m then .mutation else if s then .subscription else .query) = OperationType.mutation ↔ m) ∧
    ((if m then .mutation else if s then .subscription else .query) =
      OperationType.subscription ↔ s) := by
  by_cases hm : m
  · simp [hm, hboth hm]
  · by_cases hs : s
    · simp [hm, hs]
    · simp [hm, hs]

/-- The classification is that of the keyword in front. -/
theorem classify_eq_iff (hk : k ∈ keywords) {t : List Char} :
    classifyOperation (String.ofList t) = k.2 ↔ BeginsWith k.1 t := by
  -- no text begins with both keywords
  have hboth (x : List Char) : "mutation".toList <+: x → ¬ "subscription".toList <+: x := by
    rintro ⟨u, rfl⟩ ⟨v, hv⟩
    exact absurd (List.cons.inj hv).1 (by decide)
  rw [beginsWith_iff hk]
  simp only [classifyOperation, startsWith, String.toList_ofList, List.isPrefixOf_iff_prefix]
  obtain ⟨hmutation, hsubscription⟩ := choice_eq_iff (hboth (t.dropWhile Text.isWhitespace))
  rcases List.mem_pair.mp hk with rfl | rfl
  · exact hmutation
  · exact hsubscription

/-! ## Ignored tokens in front -/

/-- The spaces of the language are white space. -/
private theorem isWhitespace_of_isSpace {c : Char} (h : isSpace c) : Text.isWhitespace c := by
  simp only [isSpace, Bool.or_eq_true, decide_eq_true_eq] at h
  rcases h with ((rfl | rfl) | rfl) | rfl <;> rfl

/-- Spaces in front make no difference. -/
private theorem beginsWith_append (hk : k ∈ keywords) {w : List Char} (hw : ∀ c ∈ w, isSpace c)
    (t : List Char) : BeginsWith k.1 (w ++ t) ↔ BeginsWith k.1 t := by
  rw [beginsWith_iff hk, beginsWith_iff hk,
    List.dropWhile_append_of_pos fun c hc => isWhitespace_of_isSpace (hw c hc)]

/-- A comma, a byte order mark or a comment hides what follows. -/
private theorem space_of_beginsWith (hk : k ∈ keywords) {w : List Char} (hw : Ignored w)
    {t : List Char} (h : BeginsWith k.1 (w ++ t)) : ∀ c ∈ w, isSpace c := by
  rcases hw.space_or with hall | ⟨s, c, u, rfl, hs, hc⟩
  · exact hall
  · -- a comma, a byte order mark or a comment stands before any keyword
    have hmark : ∀ c ∈ [',', '\ufeff', '#'], Text.isWhitespace c = false :=
      List.forall_iff_forall_mem.mp (by decide)
    rw [List.append_assoc, beginsWith_append hk hs, beginsWith_iff hk, List.cons_append,
      List.dropWhile_cons_of_neg (by simp [hmark c hc])] at h
    obtain ⟨d, v, hv, -, hd⟩ := keyword_head hk
    obtain ⟨x, hx⟩ := h
    rw [hv] at hx
    exact absurd hc ((List.cons.inj hx).1 ▸ hd)

/-- A first name stands behind ignored tokens. -/
private theorem exists_of_firstName {n t : List Char} (h : firstName t = some n) :
    ∃ s, Ignored s ∧ t = s ++ skipIgnored false t ∧ n <+: skipIgnored false t := by
  unfold firstName at h
  cases hskip : skipIgnored false t with
  | nil =>
    rw [hskip] at h
    cases h
  | cons c rest =>
    -- what is skipped is ignored text
    obtain ⟨s, hs, ht⟩ := exists_ignored.1 (by rw [hskip]; exact List.cons_ne_nil c rest)
    rw [hskip] at h ht
    simp only [Option.ite_none_right_eq_some, Option.some.injEq] at h
    obtain ⟨-, rfl⟩ := h
    exact ⟨s, hs, ht, List.cons_prefix_cons.mpr ⟨rfl, List.takeWhile_prefix _⟩⟩

/-! ## Documents that are classified by their first token -/

/-- The operation types reported for a document and for a variant of it are the same, and are
    that of its first token. -/
def ClassifiesFirst (reported variant : Option GraphQlInfo) (d : List Char) : Prop :=
  ∃ info info', reported = some info ∧ variant = some info' ∧
    info'.operationType = info.operationType ∧
    (info.operationType = .mutation ↔ firstName d = some "mutation".toList) ∧
    (info.operationType = .subscription ↔ firstName d = some "subscription".toList)

/-- In front of a keyword stands only white space. Where the first token is another one, the
    document does not begin with white space and the text of the keyword. -/
def Plain (w d : List Char) : Prop :=
  ∀ k ∈ keywords,
    (firstName d = some k.1 → ∀ s, d = s ++ skipIgnored false d → ∀ c ∈ w ++ s, isSpace c) ∧
    (firstName d ≠ some k.1 → ¬ BeginsWith k.1 d)

/-- The keywords are found behind ignored text exactly if that is plain. -/
private theorem classify_iff_plain {w : List Char} (hw : Ignored w) (d : List Char) :
    (∀ k ∈ keywords, (BeginsWith k.1 (w ++ d) ↔ BeginsWith k.1 d) ∧
      (BeginsWith k.1 d ↔ firstName d = some k.1)) ↔ Plain w d := by
  constructor
  · intro h k hk
    obtain ⟨hvariant, hfirst⟩ := h k hk
    refine ⟨fun hname s hs => ?_, fun hname => mt hfirst.mp hname⟩
    obtain ⟨s', hs', hd, -⟩ := exists_of_firstName hname
    -- only one sequence of ignored tokens stands in front of the first token
    obtain rfl : s = s' := List.append_cancel_right (hs.symm.trans hd)
    have hbegins := hvariant.mpr (hfirst.mpr hname)
    rw [hs, ← List.append_assoc] at hbegins
    exact space_of_beginsWith hk (hw.append hs') hbegins
  · intro h k hk
    obtain ⟨hspace, hother⟩ := h k hk
    have hfirst : BeginsWith k.1 d ↔ firstName d = some k.1 := by
      constructor
      · intro hbegins
        by_contra hname
        exact hother hname hbegins
      · intro hname
        obtain ⟨s, -, hd, u, hu⟩ := exists_of_firstName hname
        have hs := hspace hname s hd
        exact ⟨s, u, fun c hc => isWhitespace_of_isSpace (hs c (List.mem_append_right w hc)),
          by rw [hu]; exact hd⟩
    refine ⟨⟨fun hbegins => ?_, fun hbegins => ?_⟩, hfirst⟩
    · exact (beginsWith_append hk (space_of_beginsWith hk hw hbegins) d).mp hbegins
    · obtain ⟨s, -, hd, -⟩ := exists_of_firstName (hfirst.mp hbegins)
      have hs := hspace (hfirst.mp hbegins) s hd
      exact (beginsWith_append hk (fun c hc => hs c (List.mem_append_left s hc)) d).mpr hbegins

variable {fromSlice : List UInt8 → Option GqlBody} {contentType : String}

/-- The body is one with the query `q`. -/
def HasQuery (fromSlice : List UInt8 → Option GqlBody) (body : List UInt8) (q : List Char) : Prop :=
  ∃ parsed, fromSlice body = some parsed ∧ parsed.query = some (String.ofList q)

/-- A request with a query is classified by it. -/
private theorem detect_query (htype : mediaType contentType = "application/graphql+json" ∨
    mediaType contentType = "application/json") {body : List UInt8} {q : List Char}
    (h : HasQuery fromSlice body q) :
    ∃ info, detect fromSlice contentType body = some info ∧
      info.operationType = classifyOperation (String.ofList q) := by
  obtain ⟨parsed, hparsed, hquery⟩ := h
  have hdetect : detect fromSlice contentType body = inspect fromSlice body := by
    unfold detect
    rw [if_neg fun hne => htype.elim hne.1 hne.2]
  simp [hdetect, inspect, hparsed, hquery]

/-- The type is that of a keyword, or a query. -/
theorem classify_cases (q : String) :
    (∃ k ∈ keywords, classifyOperation q = k.2) ∨ classifyOperation q = .query := by
  unfold classifyOperation
  simp only
  split
  · exact .inl ⟨("mutation".toList, .mutation), by simp [keywords], rfl⟩
  · split
    · exact .inl ⟨("subscription".toList, .subscription), by simp [keywords], rfl⟩
    · exact .inr rfl

/-- The keywords decide the classification. -/
private theorem classify_ext {t t' : List Char} :
    classifyOperation (String.ofList t') = classifyOperation (String.ofList t) ↔
      ∀ k ∈ keywords, BeginsWith k.1 t' ↔ BeginsWith k.1 t := by
  constructor
  · intro h k hk
    rw [← classify_eq_iff hk, h, classify_eq_iff hk]
  · intro h
    have hsame : ∀ k ∈ keywords, classifyOperation (String.ofList t') = k.2 ↔
        classifyOperation (String.ofList t) = k.2 := by
      intro k hk
      rw [classify_eq_iff hk, h k hk, classify_eq_iff hk]
    -- a document is classified by a keyword, or as a query by default
    rcases classify_cases (String.ofList t') with ⟨k, hk, ht'⟩ | ht'
    · exact ht'.trans ((hsame k hk).mp ht').symm
    · rcases classify_cases (String.ofList t) with ⟨k, hk, ht⟩ | ht
      · exact ((hsame k hk).mpr ht).trans ht.symm
      · exact ht'.trans ht.symm

/-- A document and its variant are classified by their first token exactly if they are plain. -/
theorem classifiesFirst_iff (htype : mediaType contentType = "application/graphql+json" ∨
    mediaType contentType = "application/json") {w d : List Char} (hw : Ignored w)
    {body body' : List UInt8} (hbody : HasQuery fromSlice body d)
    (hbody' : HasQuery fromSlice body' (w ++ d)) :
    ClassifiesFirst (detect fromSlice contentType body) (detect fromSlice contentType body') d ↔
      Plain w d := by
  obtain ⟨info, hinfo, hop⟩ := detect_query htype hbody
  obtain ⟨info', hinfo', hop'⟩ := detect_query htype hbody'
  -- only the operation types of the two answers matter
  have hkeywords : ClassifiesFirst (detect fromSlice contentType body)
      (detect fromSlice contentType body') d ↔
      info'.operationType = info.operationType ∧
        ∀ k ∈ keywords, info.operationType = k.2 ↔ firstName d = some k.1 := by
    simp [ClassifiesFirst, hinfo, hinfo', keywords]
  rw [hkeywords, ← classify_iff_plain hw d, hop, hop', classify_ext, ← forall₂_and]
  refine forall₂_congr fun k hk => ?_
  rw [classify_eq_iff hk]

/-- The bodies of three documents: a mutation, and the same behind white space and behind a
    comment. -/
def documents : List (List UInt8 × GqlBody) :=
  [("\x7b\"query\":\"mutation \x7b a \x7d\"\x7d".toUTF8.data.toList,
      ⟨some "mutation \x7b a \x7d", none, none⟩),
    ("\x7b\"query\":\"  mutation \x7b a \x7d\"\x7d".toUTF8.data.toList,
      ⟨some "  mutation \x7b a \x7d", none, none⟩),
    ("\x7b\"query\":\"# a\\nmutation \x7b a \x7d\"\x7d".toUTF8.data.toList,
      ⟨some "# a\nmutation \x7b a \x7d", none, none⟩)]

/-- White space in front of a mutation does not matter. -/
theorem classifiesFirst_space :
    ClassifiesFirst
      (detect (documents.lookup ·) "application/json"
        "\x7b\"query\":\"mutation \x7b a \x7d\"\x7d".toUTF8.data.toList)
      (detect (documents.lookup ·) "application/json"
        "\x7b\"query\":\"  mutation \x7b a \x7d\"\x7d".toUTF8.data.toList)
      "mutation \x7b a \x7d".toList := by
  -- the two blanks are ignored tokens
  have hspaces : Ignored [' ', ' '] := .char (by decide) (.char (by decide) .nil)
  refine (classifiesFirst_iff (.inr (by decide)) hspaces ⟨_, rfl, rfl⟩ ⟨_, rfl, rfl⟩).mpr ?_
  have hfirst : firstName "mutation \x7b a \x7d".toList = some "mutation".toList := by decide
  intro k hk
  rw [hfirst]
  refine ⟨fun _ s hs => ?_, fun hne hbegins => hne ?_⟩
  · -- nothing is skipped in front of the name
    have hskip : "mutation \x7b a \x7d".toList =
        [] ++ skipIgnored false "mutation \x7b a \x7d".toList := by decide
    obtain rfl : s = [] := List.append_cancel_right (hs.symm.trans hskip)
    simp [isSpace]
  · rcases List.mem_pair.mp hk with rfl | rfl
    · rfl
    · exact absurd ((beginsWith_iff hk).mp hbegins) (by decide)

/-- Behind a comment a mutation is taken for a query. -/
theorem comment_hides_mutation :
    Ignored "# a\n".toList ∧ ¬ ClassifiesFirst
      (detect (documents.lookup ·) "application/json"
        "\x7b\"query\":\"mutation \x7b a \x7d\"\x7d".toUTF8.data.toList)
      (detect (documents.lookup ·) "application/json"
        "\x7b\"query\":\"# a\\nmutation \x7b a \x7d\"\x7d".toUTF8.data.toList)
      "mutation \x7b a \x7d".toList := by
  refine ⟨.comment (s := " a".toList) (t := []) (by simp [isLineTerminator]) (by decide) .nil, ?_⟩
  rintro ⟨info, info', hinfo, hinfo', hop, -⟩
  -- the same mutation without the comment and with it
  have hplain : detect (documents.lookup ·) "application/json"
      "\x7b\"query\":\"mutation \x7b a \x7d\"\x7d".toUTF8.data.toList =
      some ⟨.mutation, none, some "mutation \x7b a \x7d", none⟩ := by rfl
  have hcomment : detect (documents.lookup ·) "application/json"
      "\x7b\"query\":\"# a\\nmutation \x7b a \x7d\"\x7d".toUTF8.data.toList =
      some ⟨.query, none, some "# a\nmutation \x7b a \x7d", none⟩ := by rfl
  obtain rfl := Option.some.inj (hplain.symm.trans hinfo)
  obtain rfl := Option.some.inj (hcomment.symm.trans hinfo')
  cases hop

end Barqium.Native.GraphQl
