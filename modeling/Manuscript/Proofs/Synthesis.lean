import Manuscript.Archive.Packing
import Manuscript.Proofs.Extractor
import Manuscript.Proofs.SourceText
import Manuscript.Proofs.Wordprocessing.Package
import Manuscript.Registry
import Manuscript.Synthesis

/-!
# From a text to a package and back

A package is told by its first bytes and goes to the extractor of packages.  What that finds is the
text of the synthesized document, with a line for every source line, unless the document part is
larger than it takes.
-/

namespace Manuscript

open Archive (Codec Item bytesOf maxNumber)
open Text (lines)
open Utf8 (bytes)
open Wordprocessing (HasRoom documentPartXml documentXml items)
open Xml (legal)

-- The package of an unknown text must never be evaluated, so steps that make one are taken by
-- rewriting with these.
theorem ok_bind {ε α β : Type} (a : α) (f : α → Except ε β) : (Except.ok a >>= f) = f a :=
  rfl

theorem error_bind {ε α β : Type} (e : ε) (f : α → Except ε β) :
    (Except.error e >>= f) = .error e :=
  rfl

theorem map_error {ε α β : Type} (e : ε) (f : α → β) :
    (f <$> Except.error e : Except ε β) = .error e :=
  rfl

theorem Format.ofBytes_bytesOf [Codec] (item : Item) (stored : List Item) :
    Format.ofBytes (bytesOf (item :: stored)) = .ok .package := by
  obtain ⟨rest, hrest⟩ : ∃ rest, bytesOf (item :: stored) = Format.packageMark ++ rest := by
    simp only [Archive.bytesOf_eq, Archive.body, Archive.locals_cons, Item.stored,
      List.append_assoc]
    exact ⟨_, rfl⟩
  have hsome : (Format.packageMark ++ rest).isEmpty = false := rfl
  have hmark : Format.isPackage (Format.packageMark ++ rest) = true := by
    simp [Format.isPackage]
  simp [Format.ofBytes, Format.ofBytesOrHead, hrest, hsome, hmark]

theorem Registry.extractDetected_bytesOf [Codec] (item : Item) (stored : List Item) :
    Registry.reference.extractDetected (bytesOf (item :: stored)) =
      (Wordprocessing.extract Wordprocessing.maxPartSize (bytesOf (item :: stored))).value := by
  have hsupports : Extractor.package.supports Format.package.extension = true := by rfl
  simp only [extractDetected, Format.ofBytes_bytesOf, bind, Except.bind,
    extract_package _ hsupports, Extractor.extract_package]

theorem length_lines_legal (s : String) : (lines (legal s)).length = (lines s).length := by
  have hfeed : Xml.isLegal '\n' := by decide
  simp [Text.length_lines, List.count_filter hfeed]

theorem Style.length_lines_document (style : Style) (text : String) :
    (lines (style.document text).plainText).length = (lines text).length := by
  rw [style.lines_plainText_document, List.length_map]

/-- Apart from asterisks, number signs, space and what XML leaves out, a text can be told from the
markup of its document. -/
theorem Style.filter_of_documentXml_eq {p : Char → Bool} (hp : IsPlain p)
    (hlegal : ∀ c, p c = true → Xml.isLegal c = true) {font font' : String} {style style' : Style}
    {text text' : String}
    (h : documentXml font (style.document text) = documentXml font' (style'.document text')) :
    text.toList.filter (fun c => p c || c == '\n') =
      text'.toList.filter fun c => p c || c == '\n' := by
  have hkeep : ∀ cs : List Char, (cs.filter Xml.isLegal).filter (fun c => p c || c == '\n') =
      cs.filter fun c => p c || c == '\n' := by
    intro cs
    rw [List.filter_filter]
    apply List.filter_congr
    intro c _
    by_cases hc : p c
    · simp [hc, hlegal c hc]
    · by_cases hfeed : c = '\n'
      · have hfine : Xml.isLegal '\n' = true := by decide
        simp [hfeed, hfine]
      · simp [hc, hfeed]
  have hread := congrArg String.toList (Wordprocessing.legal_plainText_of_documentXml_eq h)
  rw [Xml.toList_legal, Xml.toList_legal] at hread
  rw [← style.filter_plainText_document hp text, ← style'.filter_plainText_document hp text',
    ← hkeep, hread, hkeep]

namespace Synthesizer

section

variable [Codec] {made : Synthesizer} {text : String} {package : Bytes}

theorem convert_eq (made : Synthesizer) (text : String) :
    made.convert text =
      if maxNumber < (bytes (documentXml made.style.fontFamily (made.document text))).length then
        .error (.transfer .tooLarge)
      else if maxNumber < (Codec.pack
          (bytes (documentXml made.style.fontFamily (made.document text)))).length then
        .error (.archive .largePacked)
      else .ok (bytesOf (items made.style.fontFamily (made.document text))) := by
  rw [← Wordprocessing.archive_items, ← Wordprocessing.package_eq_archive]
  rfl

theorem convert_eq_ok_iff :
    made.convert text = .ok package ↔
      HasRoom made.style.fontFamily (made.document text) ∧
        bytesOf (items made.style.fontFamily (made.document text)) = package := by
  rw [convert_eq]
  constructor
  · intro h
    split at h
    · cases h
    split at h
    · cases h
    · rename_i hpart hpacked
      exact ⟨⟨Nat.le_of_not_lt hpart, Nat.le_of_not_lt hpacked⟩, Except.ok.inj h⟩
  · rintro ⟨hroom, rfl⟩
    rw [if_neg (Nat.not_lt.mpr hroom.part), if_neg (Nat.not_lt.mpr hroom.packed)]

theorem exists_convert (made : Synthesizer) {text : String}
    (h : (bytes (documentXml made.style.fontFamily (made.document text))).length ≤
      Wordprocessing.maxPartSize) :
    ∃ package, made.convert text = .ok package :=
  ⟨_, convert_eq_ok_iff.mpr ⟨.of_length_le (h.trans (by decide)), rfl⟩⟩

theorem documentPartXml_of_convert (h : made.convert text = .ok package) {limit : Nat}
    (hlimit : (bytes (documentXml made.style.fontFamily (made.document text))).length ≤ limit) :
    documentPartXml limit package =
      .ok (documentXml made.style.fontFamily (made.document text)) := by
  obtain ⟨hroom, rfl⟩ := convert_eq_ok_iff.mp h
  apply Wordprocessing.documentPartXml_of_bytes
  rw [Wordprocessing.documentPartBytes_items hroom, if_pos hlimit]

theorem extract_of_convert (h : made.convert text = .ok package)
    (hlimit : (bytes (documentXml made.style.fontFamily (made.document text))).length ≤
      Wordprocessing.maxPartSize) :
    Extractor.package.extract package = .ok (legal (made.document text).plainText) := by
  obtain ⟨hroom, rfl⟩ := convert_eq_ok_iff.mp h
  rw [Extractor.extract_package, Wordprocessing.extract_items hroom, if_pos hlimit]

theorem extractDetected_of_convert (h : made.convert text = .ok package) :
    Registry.reference.extractDetected package =
      if (bytes (documentXml made.style.fontFamily (made.document text))).length ≤
          Wordprocessing.maxPartSize then
        .ok (legal (made.document text).plainText)
      else .error (.package (.largePart Wordprocessing.maxPartSize)) := by
  obtain ⟨hroom, rfl⟩ := convert_eq_ok_iff.mp h
  obtain ⟨item, stored, hitems⟩ : ∃ item stored,
      items made.style.fontFamily (made.document text) = item :: stored := ⟨_, _, rfl⟩
  rw [hitems, Registry.extractDetected_bytesOf, ← hitems, Wordprocessing.extract_items hroom]
  split
  · rfl
  · rfl

end

def referenceRoom (text : String) : Nat :=
  ((Wordprocessing.documentPieces reference.style.fontFamily
    (reference.document text)).map Xml.Piece.room).sum

theorem length_reference_le (text : String) :
    (bytes (documentXml reference.style.fontFamily (reference.document text))).length ≤
      100 + referenceRoom text :=
  Xml.length_bytes_renderText_le (Wordprocessing.documentPieces
    reference.style.fontFamily (reference.document text))

theorem length_reference_le_of_room {text : String} {room limit : Nat}
    (hroom : referenceRoom text ≤ room) (hlimit : 100 + room ≤ limit) :
    (bytes (documentXml reference.style.fontFamily (reference.document text))).length ≤ limit :=
  (length_reference_le text).trans ((Nat.add_le_add_left hroom 100).trans hlimit)

theorem length_reference_two_le :
    (bytes (documentXml reference.style.fontFamily (reference.document "two"))).length ≤ 5000 := by
  have hroom : referenceRoom "two" ≤ 4000 := by decide +kernel
  exact length_reference_le_of_room hroom (by decide)

end Synthesizer

/-! ## There and back -/

theorem Synthesizer.exists_of_part [Codec] (synthesizer : Synthesizer) (text : String)
    {part : Bytes}
    (h : bytes (documentXml synthesizer.style.fontFamily (synthesizer.document text)) = part) :
    if part.length ≤ 67108864 then
      ∃ package, synthesizer.convert text = .ok package ∧
        Registry.reference.extractDetected package =
          .ok (legal (synthesizer.document text).plainText)
    else if part.length ≤ 4294967295 then
      if (Codec.pack part).length ≤ 4294967295 then
        ∃ package, synthesizer.convert text = .ok package ∧
          Registry.reference.extractDetected package = .error (.package (.largePart 67108864))
      else synthesizer.convert text = .error (.archive .largePacked)
    else synthesizer.convert text = .error (.transfer .tooLarge) := by
  have hconvert := synthesizer.convert_eq text
  have hextract := fun package (hmade : synthesizer.convert text = .ok package) =>
    extractDetected_of_convert hmade
  have hmax : maxNumber = 4294967295 := rfl
  have hlimit : Wordprocessing.maxPartSize = 67108864 := rfl
  rw [h, hmax] at hconvert
  rw [h, hlimit] at hextract
  by_cases hread : part.length ≤ 67108864
  · obtain ⟨package, hpackage⟩ := synthesizer.exists_convert (by rwa [h, hlimit])
    rw [if_pos hread] at hextract ⊢
    exact ⟨package, hpackage, hextract package hpackage⟩
  rw [if_neg hread] at hextract ⊢
  by_cases hpart : part.length ≤ 4294967295
  · rw [if_neg (Nat.not_lt.mpr hpart)] at hconvert
    rw [if_pos hpart]
    by_cases hpacked : (Codec.pack part).length ≤ 4294967295
    · rw [if_neg (Nat.not_lt.mpr hpacked)] at hconvert
      rw [if_pos hpacked]
      exact ⟨_, hconvert, hextract _ hconvert⟩
    · rw [if_neg hpacked, hconvert, if_pos (Nat.lt_of_not_le hpacked)]
  · rw [if_neg hpart, hconvert, if_pos (Nat.lt_of_not_le hpart)]

/-- A text that has become a package is read back from it, with a line for every line, or its
document part is larger than what is read. There is no package if the document part, or what it is
packed into, has no room in an archive. -/
theorem Synthesizer.extractDetected_convert [Codec] (synthesizer : Synthesizer) (text : String) :
    let document := synthesizer.document text
    let part := bytes (documentXml synthesizer.style.fontFamily document)
    let read := legal document.plainText
    (lines read).length = (lines text).length ∧
      (if part.length ≤ 67108864 then
        ∃ package, synthesizer.convert text = .ok package ∧
          Registry.reference.extractDetected package = .ok read
      else if part.length ≤ 4294967295 then
        if (Codec.pack part).length ≤ 4294967295 then
          ∃ package, synthesizer.convert text = .ok package ∧
            Registry.reference.extractDetected package = .error (.package (.largePart 67108864))
        else synthesizer.convert text = .error (.archive .largePacked)
      else synthesizer.convert text = .error (.transfer .tooLarge)) ∧
      (Error.package (.largePart 67108864)).message =
        "Text extraction error: word/document.xml exceeds 67108864 bytes" ∧
      (Error.archive .largePacked).message = "Archive error: i/o error" ∧
      (Error.transfer .tooLarge).message = "I/O error: Large file option has not been set" := by
  intro document part read
  have hpart : bytes (documentXml synthesizer.style.fontFamily (synthesizer.document text)) =
      part := rfl
  -- the part begins with known characters, so its length would be counted out
  clear_value part
  refine ⟨?_, synthesizer.exists_of_part text hpart, by decide +kernel, by decide +kernel,
    by decide +kernel⟩
  rw [length_lines_legal]
  exact synthesizer.style.length_lines_document text

/-! ## Parts without room -/

namespace Synthesizer

theorem two_mul_runCount_mul_le (font : String) (document : Document) :
    2 * document.runCount * Utf8.size (Xml.escapeChars font.toList) ≤
      (bytes (documentXml font document)).length := by
  rw [Wordprocessing.length_bytes_documentXml]
  exact Nat.le_add_left _ _

theorem runCount_replicate (style : Style) (n : Nat) :
    (style.document (Text.unlines (List.replicate (n + 1) "a"))).runCount = n + 1 := by
  have hline : Line.classify "a" = ⟨.paragraph, "a"⟩ := by decide +kernel
  have hspans : (Inline.parse "a").length = 1 := by decide +kernel
  have hlines : lines (Text.unlines (List.replicate (n + 1) "a")) = List.replicate (n + 1) "a" := by
    apply Text.lines_unlines
    · simp
    · intro s hs
      rw [List.eq_of_mem_replicate hs]
      decide
  simp [Document.runCount, Style.document, Line.ofText, hlines, hline, Style.paragraph,
    RoleStyle.runs, hspans]

theorem size_escapeChars_replicate (n : Nat) :
    Utf8.size (Xml.escapeChars (List.replicate n '&')) = 5 * n := by
  have hand : String.utf8Len (Xml.escapeChar '&') = 5 := by decide
  induction n with
  | zero => rfl
  | succ n ih =>
      rw [Utf8.size_eq] at ih ⊢
      rw [List.replicate_succ, Xml.escapeChars, List.flatMap_cons, String.utf8Len_append,
        ← Xml.escapeChars, ih, hand]
      omega

def longFont (n : Nat) : Synthesizer where
  style := { fontFamily := String.ofList (List.replicate (n + 1) '&') }
  isFit := by
    have hand : Text.isBlank '&' = false ∧ Text.isControl '&' = false := by decide
    simp only [Style.fault?, String.toList_ofList, List.all_replicate, List.any_replicate, hand,
      Nat.add_one_ne_zero, if_false, Bool.false_eq_true]
    decide

theorem length_longFont_ge (n k : Nat) :
    2 * (k + 1) * (5 * (n + 1)) ≤ (bytes (documentXml (longFont n).style.fontFamily
      ((longFont n).document (Text.unlines (List.replicate (k + 1) "a"))))).length := by
  have hle := two_mul_runCount_mul_le (longFont n).style.fontFamily
    ((longFont n).document (Text.unlines (List.replicate (k + 1) "a")))
  have hcount : ((longFont n).document (Text.unlines (List.replicate (k + 1) "a"))).runCount =
      k + 1 := runCount_replicate _ k
  have hfont : (longFont n).style.fontFamily.toList = List.replicate (n + 1) '&' := by
    simp only [longFont, String.toList_ofList]
  rwa [hcount, hfont, size_escapeChars_replicate] at hle

/-- There is no package of 6554 lines in a font of 65536 characters. -/
theorem convert_longFont :
    67108864 < (bytes (documentXml (longFont 65535).style.fontFamily
      ((longFont 65535).document (Text.unlines (List.replicate 6554 "a"))))).length ∧
      (longFont 65535).convert (Text.unlines (List.replicate 6554 "a")) =
        .error (.transfer .tooLarge) := by
  have hsize := length_longFont_ge 65535 6553
  have hpart : maxNumber < _ := Nat.lt_of_lt_of_le (by decide) hsize
  exact ⟨Nat.lt_of_lt_of_le (by decide) hsize, by rw [convert_eq, if_pos hpart]⟩

end Synthesizer

end Manuscript
