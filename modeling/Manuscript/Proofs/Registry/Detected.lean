import Manuscript.Archive.Packing
import Manuscript.Proofs.Extractor
import Manuscript.Proofs.Format

/-!
# Extraction by content

The content of a byte string decides what is made of it.  A package goes to the extractor for
packages, and a PDF file is refused.  Anything else is text as a whole or is not known: what has
been taken for text is never refused when it is decoded, and it is found by the extensions of text
files as well.
-/

namespace Manuscript

open Archive (Codec)
open Utf8 (bytes)

namespace Format

variable {bs : Bytes}

theorem packageMark_eq : packageMark = bytes "PK\x03\x04" := by decide

theorem pdfMark_eq : pdfMark = bytes "%PDF-" := by decide

theorem ofBytes_of_package (h : packageMark <+: bs) : ofBytes bs = .ok package := by
  have hne : bs ≠ [] := by
    rintro rfl
    simp [packageMark, Archive.localMark] at h
  rw [← List.isPrefixOf_iff_prefix] at h
  simp [ofBytes, ofBytesOrHead, isPackage, hne, h]

theorem not_isPackage_of_pdf (h : pdfMark <+: bs) : ¬ packageMark <+: bs := by
  rintro ⟨rest, rfl⟩
  simp [pdfMark, packageMark, Archive.localMark, List.cons_prefix_cons] at h

theorem ofBytes_of_pdf (h : pdfMark <+: bs) : ofBytes bs = .ok pdf := by
  have hpackage := not_isPackage_of_pdf h
  have hne : bs ≠ [] := by
    rintro rfl
    simp [pdfMark] at h
  rw [← List.isPrefixOf_iff_prefix] at h hpackage
  simp [ofBytes, ofBytesOrHead, isPackage, hne, h, hpackage]

/-- A text that can be told as one: there is something in it, and no zero character. -/
def IsTellable (text : String) : Prop :=
  text ≠ "" ∧ '\x00' ∉ text.toList

theorem bytes_ne_nil {text : String} (h : text ≠ "") : bytes text ≠ [] := fun hnil =>
  h (Utf8.bytes_injective hnil)

theorem ofBytes_of_text (h : ¬ IsMarked bs) {text : String} (hbs : bs = bytes text)
    (htext : IsTellable text) : ofBytes bs = .ok plainText := by
  have hwhole : isText false bs = true := isText_false_iff.mpr ⟨text, hbs, htext.2⟩
  have hne : bs ≠ [] := hbs ▸ bytes_ne_nil htext.1
  rw [IsMarked, not_or] at h
  simp [ofBytes, ofBytesOrHead, isPackage, h, hne, hwhole]

theorem ofBytes_of_unknown (h : ¬ IsMarked bs)
    (hnone : ¬ ∃ text, bs = bytes text ∧ IsTellable text) :
    ofBytes bs = .error .unknownFormat := by
  have hunknown : ¬ ∃ format, ofBytes bs = .ok format := by
    rw [ofBytes, exists_ofBytesOrHead_iff]
    rintro ⟨hne, hmark | htext⟩
    · exact h hmark
    · obtain ⟨text, rfl, hzero⟩ := isText_false_iff.mp htext
      refine hnone ⟨text, rfl, ?_, hzero⟩
      rintro rfl
      exact hne rfl
  cases hformat : ofBytes bs with
  | ok format => exact absurd ⟨format, hformat⟩ hunknown
  | error error => rw [ofBytesOrHead_error hformat]

end Format

namespace Registry

open Format (IsMarked IsTellable packageMark pdfMark)

variable {bs : Bytes}

section

variable [Codec]

theorem extractDetected_of_package (h : packageMark <+: bs) :
    reference.extractDetected bs = Extractor.package.extract bs := by
  have hsupports : Extractor.package.supports Format.package.extension = true := by rfl
  simp only [extractDetected, Format.ofBytes_of_package h, bind, Except.bind]
  exact extract_package bs hsupports

theorem extractDetected_of_pdf (h : pdfMark <+: bs) :
    reference.extractDetected bs = .error (.unsupportedFormat "pdf") := by
  simp only [extractDetected, Format.ofBytes_of_pdf h, bind, Except.bind]
  rfl

theorem extractDetected_of_text (h : ¬ IsMarked bs) {text : String} (hbs : bs = bytes text)
    (htext : IsTellable text) :
    reference.extractDetected bs = .ok (Text.withoutMark text) := by
  have hsupports : Extractor.plain.supports Format.plainText.extension = true := by rfl
  simp only [extractDetected, Format.ofBytes_of_text h hbs htext, bind, Except.bind]
  rw [extract_plain bs hsupports, hbs, Extractor.plainText_bytes]

theorem extractDetected_of_unknown (h : ¬ IsMarked bs)
    (hnone : ¬ ∃ text, bs = bytes text ∧ IsTellable text) :
    reference.extractDetected bs = .error .unknownFormat := by
  simp only [extractDetected, Format.ofBytes_of_unknown h hnone, bind, Except.bind]

theorem extractDetected_of_not_package (h : ¬ packageMark <+: bs) :
    (∃ text, bs = bytes text ∧ reference.extractDetected bs = .ok (Text.withoutMark text)) ∨
      reference.extractDetected bs = .error (.unsupportedFormat "pdf") ∨
      reference.extractDetected bs = .error .unknownFormat := by
  by_cases hpdf : pdfMark <+: bs
  · exact .inr (.inl (extractDetected_of_pdf hpdf))
  have hmark : ¬ IsMarked bs := not_or.mpr ⟨h, hpdf⟩
  by_cases htext : ∃ text, bs = bytes text ∧ IsTellable text
  · obtain ⟨text, hbs, htellable⟩ := htext
    exact .inl ⟨text, hbs, extractDetected_of_text hmark hbs htellable⟩
  · exact .inr (.inr (extractDetected_of_unknown hmark htext))

end

def SpellsExtension (word extension : String) : Prop :=
  word.toList.map Char.toLower = extension.toList ∨ Text.lowercase word = extension

theorem supports_of_spells {word extension : String} (h : SpellsExtension word extension)
    (hextension : extension ∈ ["txt", "md", "markdown"]) :
    Extractor.plain.supports word = true := by
  have hlatin : ∀ c ∈ extension.toList, c.toNat < 0x80 := by
    simp only [List.mem_cons, List.not_mem_nil, or_false] at hextension
    rcases hextension with rfl | rfl | rfl <;> simp
  have hlower : Text.lowercase word = extension := h.elim (Text.lowercase_eq hlatin) id
  rw [Extractor.supports, hlower, List.contains_iff_mem]
  exact hextension

/-- What is made of a byte string by its content.  A PDF file is refused, a package goes to its
extractor, other text with something in it and without zero characters is given without its byte
order mark, and all else is unknown.  So only a package can have a text that is wrongly encoded, and
a text that is not from a package is also found by every extension of text files. -/
theorem extractDetected_eq [Codec] (bs : Bytes) :
    (bytes "%PDF-" <+: bs →
      reference.extractDetected bs = .error (.unsupportedFormat "pdf")) ∧
    (bytes "PK\x03\x04" <+: bs →
      reference.extractDetected bs = Extractor.package.extract bs) ∧
    (¬ bytes "%PDF-" <+: bs → ¬ bytes "PK\x03\x04" <+: bs →
      (∀ text, bs = bytes text → text ≠ "" → '\x00' ∉ text.toList →
        reference.extractDetected bs = .ok (Text.withoutMark text)) ∧
      ((∀ text, bs = bytes text → text = "" ∨ '\x00' ∈ text.toList) →
        reference.extractDetected bs = .error .unknownFormat)) ∧
    (¬ bytes "PK\x03\x04" <+: bs →
      (∀ source fault, reference.extractDetected bs ≠ .error (.encoding source fault)) ∧
      ∀ text, reference.extractDetected bs = .ok text →
        ∀ extension ∈ ["txt", "md", "markdown"], ∀ word, SpellsExtension word extension →
          reference.extract word bs = .ok text) := by
  rw [← Format.packageMark_eq, ← Format.pdfMark_eq]
  refine ⟨extractDetected_of_pdf, extractDetected_of_package, fun hpdf hpackage => ?_,
    fun hpackage => ?_⟩
  · have hmark : ¬ IsMarked bs := not_or.mpr ⟨hpackage, hpdf⟩
    refine ⟨fun text hbs hne hzero => extractDetected_of_text hmark hbs ⟨hne, hzero⟩, ?_⟩
    intro hnone
    apply extractDetected_of_unknown hmark
    rintro ⟨text, hbs, hne, hzero⟩
    exact (hnone text hbs).elim hne hzero
  · rcases extractDetected_of_not_package hpackage with ⟨whole, hbs, hfound⟩ | hfound | hfound
    · rw [hfound]
      refine ⟨fun source fault => nofun, ?_⟩
      rintro text htext extension hextension word hword
      rw [extract_plain bs (supports_of_spells hword hextension), hbs, Extractor.plainText_bytes,
        htext]
    all_goals
      rw [hfound]
      exact ⟨fun source fault => nofun, fun text => nofun⟩

theorem extractDetected_eq_marks :
    reference.extractDetected (bytes "\ufeff\ufeff") = .ok "\ufeff" ∧
      reference.extract "MarkDown" (bytes "\ufeff\ufeff") = .ok "\ufeff" ∧
      reference.extractDetected (bytes "%PDF-") = .error (.unsupportedFormat "pdf") ∧
      reference.extractDetected [0x63, 0xC3] = .error .unknownFormat := by
  obtain ⟨-, -, hplain, hagrees⟩ := extractDetected_eq (bytes "\ufeff\ufeff")
  obtain ⟨-, -, hbroken, -⟩ := extractDetected_eq [0x63, 0xC3]
  have hmarks : reference.extractDetected (bytes "\ufeff\ufeff") = .ok "\ufeff" :=
    (hplain (by decide) (by decide)).1 _ rfl (by decide) (by decide)
  refine ⟨hmarks, ?_, (extractDetected_eq (bytes "%PDF-")).1 (List.prefix_refl _), ?_⟩
  · exact (hagrees (by decide)).2 _ hmarks "markdown" (by simp) "MarkDown" (.inl rfl)
  · apply (hbroken (by decide) (by decide)).2
    intro text hbytes
    have hdecode := Utf8.decode_eq_ok_iff.mpr hbytes
    have herror : Utf8.decode [0x63, 0xC3] = .error ⟨1, none⟩ := by rfl
    rw [herror] at hdecode
    cases hdecode

end Registry

end Manuscript
