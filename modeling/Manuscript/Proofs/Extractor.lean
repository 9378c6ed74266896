import Manuscript.Proofs.Text.Utf8Heads
import Manuscript.Registry
import Mathlib.Data.String.Basic

/-!
# What the extractors find

The extractor for text files decodes a byte string and takes off the byte order mark that the text
may begin with.  The reference registry knows it, and the extractor for packages, by their
extensions in capital or small letters.
-/

namespace Manuscript

open Archive (Codec)

def Text.orderMark : Char := '\ufeff'

def Text.withoutMark (text : String) : String :=
  if text.toList.head? = some orderMark then String.ofList text.toList.tail else text

theorem Text.withoutMark_of_head? {text : String} (h : text.toList.head? ≠ some orderMark) :
    withoutMark text = text :=
  if_neg h

theorem Text.toList_of_head? {text : String} (h : text.toList.head? = some orderMark) :
    text.toList = orderMark :: (withoutMark text).toList := by
  obtain ⟨cs, hcs⟩ := List.head?_eq_some_iff.mp h
  rw [withoutMark, if_pos h, String.toList_ofList, hcs, List.tail_cons]

theorem Extractor.plainText_eq (bs : Bytes) :
    plainText bs =
      match Utf8.decode bs with
      | .ok text => .ok (Text.withoutMark text)
      | .error fault => .error (.encoding .input fault) := by
  unfold plainText
  cases Utf8.decode bs with
  | error fault => rfl
  | ok text =>
      by_cases h : text.toList.head? = some Text.orderMark
      · obtain ⟨cs, hcs⟩ := List.head?_eq_some_iff.mp h
        simp [Text.withoutMark, hcs, Text.orderMark]
      · simp only [Text.withoutMark_of_head? h]
        split
        · rename_i cs hcs
          rw [hcs] at h
          exact absurd rfl h
        · rfl

theorem Extractor.plainText_bytes (text : String) :
    plainText (Utf8.bytes text) = .ok (Text.withoutMark text) := by
  rw [plainText_eq, Utf8.decode_bytes]

theorem Extractor.extract_plain (bs : Bytes) : plain.extract bs = plainText bs :=
  rfl

theorem Extractor.extract_package [Codec] (bs : Bytes) :
    package.extract bs = (Wordprocessing.extract Wordprocessing.maxPartSize bs).value :=
  rfl

theorem Text.toNat_lt_of_toLower {c : Char} (h : c.toLower.toNat < 0x80) : c.toNat < 0x80 := by
  unfold Char.toLower at h
  split at h
  · next hcapital =>
    have hle : c.toNat ≤ 90 := hcapital.2
    omega
  · exact h

theorem Text.lowerAfter_of_lt {cs : List Char} (h : ∀ c ∈ cs, c.toNat < 0x80)
    (before : List Char) : lowerAfter before cs = cs.map Char.toLower := by
  induction cs generalizing before with
  | nil => rfl
  | cons c cs ih =>
      have hc : c.toNat < 0x80 := h c List.mem_cons_self
      have hsigma : c ≠ '\u03a3' := by
        rintro rfl
        exact absurd hc (by decide)
      rw [lowerAfter, if_neg hsigma, lowerChar, if_pos hc,
        ih (fun d hd => h d (List.mem_cons_of_mem c hd)), List.map_cons, List.singleton_append]

theorem Text.lowercase_eq {s name : String} (hname : ∀ c ∈ name.toList, c.toNat < 0x80)
    (h : s.toList.map Char.toLower = name.toList) : lowercase s = name := by
  have hs : ∀ c ∈ s.toList, c.toNat < 0x80 := fun c hc =>
    toNat_lt_of_toLower (hname c.toLower (h ▸ List.mem_map_of_mem hc))
  rw [lowercase, lowerAfter_of_lt hs, h, String.ofList_toList]

namespace Registry

theorem lowercase_extensions :
    Text.lowercase "txt" = "txt" ∧ Text.lowercase "md" = "md" ∧
      Text.lowercase "markdown" = "markdown" ∧ Text.lowercase "docx" = "docx" :=
  ⟨rfl, rfl, rfl, rfl⟩

variable [Codec]

theorem require_plain {extension : String} (h : Extractor.plain.supports extension = true) :
    reference.require extension = .ok Extractor.plain := by
  have hknown : Text.lowercase extension ∈ ["txt", "md", "markdown"] := by
    simpa [Extractor.supports, Extractor.plain] using h
  have hfound : reference.forExtension? extension = some Extractor.plain := by
    simp only [List.mem_cons, List.not_mem_nil, or_false] at hknown
    rcases hknown with hext | hext | hext <;>
      simp [forExtension?, hext, lowercase_extensions, reference, register, Extractor.package,
        Extractor.packageWithin, Extractor.plain, Std.TreeMap.getElem_insert]
  simp [require, hfound]

theorem require_package {extension : String} (h : Extractor.package.supports extension = true) :
    reference.require extension = .ok Extractor.package := by
  have hknown : Text.lowercase extension = "docx" := by
    simpa [Extractor.supports, Extractor.package, Extractor.packageWithin] using h
  have hfound : reference.forExtension? extension = some Extractor.package := by
    simp [forExtension?, hknown, lowercase_extensions, reference, register, Extractor.package,
      Extractor.packageWithin]
  simp [require, hfound]

section

variable {extension : String} (bs : Bytes)

theorem extract_plain (h : Extractor.plain.supports extension = true) :
    reference.extract extension bs = Extractor.plainText bs := by
  simp only [extract, require_plain h, bind, Except.bind]
  rfl

theorem extract_package (h : Extractor.package.supports extension = true) :
    reference.extract extension bs = Extractor.package.extract bs := by
  simp only [extract, require_package h, bind, Except.bind]

theorem extractFile_of_require {path : String} {extractor : Extractor}
    (hextension : Path.extension? path = some extension)
    (hrequire : reference.require extension = .ok extractor) :
    reference.extractFile path (.ok bs) = extractor.extract bs := by
  rw [extractFile, hextension]
  simp only [hrequire, bind, Except.bind, Extractor.extractFile]

end

end Registry

end Manuscript
