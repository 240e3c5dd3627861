import Barqium.ForStd.Xml
import Barqium.Native.Protocols

/-!
# SOAP faults: what an upstream body can do to the envelope

The five passes of `escape_xml` are one pass over the characters, because the first of
them is the one for the ampersand. The body of an upstream error stays character data of
the `detail` element, and a client that decodes it has the body again.

## Key results

- `escapeXml_eq`: five replacements are one pass
- `wrapFault_lossless`: the tags of the envelope are the same for all bodies, and the
  detail decodes to the body
-/

namespace Barqium.Native.Soap

/-! ## The passes -/

/-- The five replacements in the order of the source are one pass. -/
theorem escapeXml_eq (s : String) : (escapeXml s).toList = Xml.escape s.toList := by
  have hpasses : (escapeXml s).toList = Replace.replaceAll Xml.entities s.toList := by
    rw [escapeXml, String.toList_ofList]
    rfl
  -- No entity has a character that a later pass replaces.
  have hlater : Xml.entities.Pairwise fun p q => q.1 ∉ p.2 := by decide
  rw [hpasses, Replace.replaceAll_eq_flatMap hlater]
  rfl

/-! ## The envelope -/

/-- The tags of a fault envelope, each with the character data behind it. -/
def faultPieces (ns faultCode : String) (upstreamStatus : UInt16) (detail : String) :
    List (String × String) :=
  [("?xml version=\"1.0\" encoding=\"utf-8\"?", "\n"),
    ("soap:Envelope xmlns:soap=\"" ++ ns ++ "\"", "\n  "),
    ("soap:Body", "\n    "), ("soap:Fault", "\n      "),
    ("faultcode", faultCode), ("/faultcode", "\n      "),
    ("faultstring", "Upstream error: HTTP " ++ upstreamStatus.toNat.repr),
    ("/faultstring", "\n      "), ("detail", detail), ("/detail", "\n    "),
    ("/soap:Fault", "\n  "), ("/soap:Body", "\n"), ("/soap:Envelope", "")]

/-- The fault envelope is the rendering of its pieces. -/
private theorem faultEnvelope_eq (ns faultCode : String) (upstreamStatus : UInt16)
    (detail : String) :
    faultEnvelope ns faultCode upstreamStatus detail =
      Xml.renderText (faultPieces ns faultCode upstreamStatus detail) := by
  unfold faultEnvelope faultPieces Xml.renderText
  simp only [List.foldr_cons, List.foldr_nil]
  -- each line of the format is cut into its indentation, its tags and its text
  rw [show "<?xml version=\"1.0\" encoding=\"utf-8\"?>\n" =
      "<" ++ "?xml version=\"1.0\" encoding=\"utf-8\"?" ++ ">" ++ "\n" from rfl,
    show "<soap:Envelope xmlns:soap=\"" = "<" ++ "soap:Envelope xmlns:soap=\"" from rfl,
    show "\">\n" = "\"" ++ ">" ++ "\n" from rfl,
    show "  <soap:Body>\n" = "  " ++ "<" ++ "soap:Body" ++ ">" ++ "\n" from rfl,
    show "    <soap:Fault>\n" = "    " ++ "<" ++ "soap:Fault" ++ ">" ++ "\n" from rfl,
    show "      <faultcode>" = "      " ++ "<" ++ "faultcode" ++ ">" from rfl,
    show "</faultcode>\n" = "<" ++ "/faultcode" ++ ">" ++ "\n" from rfl,
    show "      <faultstring>Upstream error: HTTP " =
      "      " ++ "<" ++ "faultstring" ++ ">" ++ "Upstream error: HTTP " from rfl,
    show "</faultstring>\n" = "<" ++ "/faultstring" ++ ">" ++ "\n" from rfl,
    show "      <detail>" = "      " ++ "<" ++ "detail" ++ ">" from rfl,
    show "</detail>\n" = "<" ++ "/detail" ++ ">" ++ "\n" from rfl,
    show "    </soap:Fault>\n" = "    " ++ "<" ++ "/soap:Fault" ++ ">" ++ "\n" from rfl,
    show "  </soap:Body>\n" = "  " ++ "<" ++ "/soap:Body" ++ ">" ++ "\n" from rfl,
    show "</soap:Envelope>" = "<" ++ "/soap:Envelope" ++ ">" from rfl,
    show "\n  " = "\n" ++ "  " from rfl, show "\n    " = "\n" ++ "    " from rfl,
    show "\n      " = "\n" ++ "      " from rfl]
  simp only [String.append_assoc, String.append_empty]

/-- A status code has digits only. -/
private theorem notMem_status (upstreamStatus : UInt16) :
    '<' ∉ Nat.toDigits 10 upstreamStatus.toNat := by
  intro hmem
  have hdigit := Nat.isDigit_of_mem_toDigits (by decide) (by decide) hmem
  cases hdigit

/-- The tags of an envelope have no brackets inside, and only the detail comes from outside. -/
private theorem isPiece_faultPieces {ns faultCode detail : String} (upstreamStatus : UInt16)
    (hns : '<' ∉ ns.toList ∧ '>' ∉ ns.toList) (hcode : '<' ∉ faultCode.toList)
    (hdetail : '<' ∉ detail.toList) :
    ∀ p ∈ faultPieces ns faultCode upstreamStatus detail,
      Xml.IsPiece (p.1.toList, p.2.toList) := by
  have hstatus := notMem_status upstreamStatus
  obtain ⟨hlt, hgt⟩ := hns
  simp [faultPieces, Xml.IsPiece, String.toList_append, *]

/-- The envelope of a fault is cut at the tags of its format. -/
private theorem pieces_faultEnvelope {ns faultCode : String} (upstreamStatus : UInt16)
    (hns : '<' ∉ ns.toList ∧ '>' ∉ ns.toList) (hcode : '<' ∉ faultCode.toList) (body : String) :
    Xml.pieces (faultEnvelope ns faultCode upstreamStatus (escapeXml body)).toList =
      (faultPieces ns faultCode upstreamStatus (escapeXml body)).map fun p =>
        (p.1.toList, p.2.toList) := by
  have hdetail : '<' ∉ (escapeXml body).toList := by
    rw [escapeXml_eq]
    exact Xml.notMem_escape (by decide) body.toList
  rw [faultEnvelope_eq, Xml.toList_renderText, Xml.pieces_render]
  intro q hq
  obtain ⟨p, hp, rfl⟩ := List.mem_map.mp hq
  exact isPiece_faultPieces upstreamStatus hns hcode hdetail p hp

/-- The detail of the format is the first character data behind a `detail` tag. -/
private theorem textOf_faultEnvelope {ns faultCode : String} (upstreamStatus : UInt16)
    (hns : '<' ∉ ns.toList ∧ '>' ∉ ns.toList) (hcode : '<' ∉ faultCode.toList) (body : String) :
    Xml.textOf "detail".toList
        (faultEnvelope ns faultCode upstreamStatus (escapeXml body)).toList =
      some (escapeXml body).toList := by
  rw [Xml.textOf, pieces_faultEnvelope upstreamStatus hns hcode]
  simp [faultPieces, List.lookup_cons, String.toList_append]

/-- The body is escaped without loss. In the faults of one version and status all bodies have
    the same tags around them, and the detail decodes to the body. -/
theorem wrapFault_lossless :
    (∀ s : String, Xml.IsEscaped s.toList (escapeXml s).toList) ∧
    ∀ version upstreamStatus, ∃ tags, ∀ body, ∃ text : String,
      String.fromUTF8? (wrapFault version upstreamStatus body).1 = some text ∧
      Xml.markup text.toList = tags ∧
      (Xml.textOf "detail".toList text.toList).map Xml.unescape = some body.toList := by
  have hescaped (s : String) : Xml.IsEscaped s.toList (escapeXml s).toList := by
    rw [escapeXml_eq]
    exact Xml.escape_isEscaped s.toList
  refine ⟨hescaped, ?_⟩
  intro version upstreamStatus
  -- the namespace and the fault code of either version are free of brackets
  obtain ⟨ns, faultCode, hns, hcode, hwrap⟩ : ∃ ns faultCode : String,
      ('<' ∉ ns.toList ∧ '>' ∉ ns.toList) ∧ '<' ∉ faultCode.toList ∧
      ∀ body, (wrapFault version upstreamStatus body).1 =
        (faultEnvelope ns faultCode upstreamStatus (escapeXml body)).toUTF8 := by
    cases version with
    | soap11 => exact ⟨_, _, ⟨by simp, by simp⟩, by simp, fun _ => rfl⟩
    | soap12 => exact ⟨_, _, ⟨by simp, by simp⟩, by simp, fun _ => rfl⟩
  refine ⟨(faultPieces ns faultCode upstreamStatus "").map fun p => p.1.toList, ?_⟩
  intro body
  refine ⟨faultEnvelope ns faultCode upstreamStatus (escapeXml body), ?_, ?_, ?_⟩
  · rw [hwrap, Text.fromUTF8?_toUTF8]
  · rw [Xml.markup, pieces_faultEnvelope upstreamStatus hns hcode, List.map_map]
    simp only [faultPieces, List.map_cons, List.map_nil, Function.comp_apply]
  · rw [textOf_faultEnvelope upstreamStatus hns hcode, Option.map_some, (hescaped body).decodes]

end Barqium.Native.Soap
