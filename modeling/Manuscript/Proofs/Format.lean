import Manuscript.Proofs.Text.Utf8Heads
import Manuscript.Workspace

/-!
# Telling text by its head

A head of a text is taken for text wherever it is cut, unless there is a zero byte in it.  So a file
that holds a text has a known format unless it is empty or its head holds a zero byte, and then it
may still begin as another format does.

The head never contradicts the whole content: what has a format as a whole has it by its head too.
The converse fails, even for files that are no longer than the head, since a text that breaks off
inside a character looks like one that has been cut.
-/

namespace Manuscript.Format

open Utf8 (bytes encode)

theorem isText_head (cs : List Char) (n : Nat) :
    isText true ((encode cs).take n) = !((encode cs).take n).contains 0 := by
  obtain ⟨whole, cut, hhead, hcut⟩ := Utf8.exists_head cs n
  rw [hhead]
  rcases hcut with rfl | hcut
  · rw [List.append_nil, isText, Utf8.decodeFrom_encode]
    rw [Bool.eq_iff_iff]
    simp [Utf8.zero_mem_encode_iff]
  · rw [isText, Utf8.decodeFrom_encode_append 0 whole hcut, Nat.zero_add]
    simp [hcut.zero_not_mem]

def IsMarked (bs : Bytes) : Prop :=
  packageMark <+: bs ∨ pdfMark <+: bs

theorem ofBytesOrHead_error {head : Bool} {bs : Bytes} {error : Error}
    (h : ofBytesOrHead head bs = .error error) : error = .unknownFormat := by
  unfold ofBytesOrHead at h
  split_ifs at h
  · exact (Except.error.inj h).symm
  · exact (Except.error.inj h).symm

theorem exists_ofBytesOrHead_iff {head : Bool} {bs : Bytes} :
    (∃ format, ofBytesOrHead head bs = .ok format) ↔
      bs ≠ [] ∧ (IsMarked bs ∨ isText head bs = true) := by
  unfold ofBytesOrHead IsMarked isPackage
  simp only [List.isEmpty_iff, List.isPrefixOf_iff_prefix]
  split_ifs <;> simp_all

theorem isMarked_take_iff {bs : Bytes} {n : Nat} (hn : 5 ≤ n) :
    IsMarked (bs.take n) ↔ IsMarked bs := by
  have hpackage : packageMark.length ≤ n := le_trans (by decide) hn
  have hpdf : pdfMark.length ≤ n := le_trans (by decide) hn
  rw [IsMarked, IsMarked, List.prefix_take_iff, List.prefix_take_iff]
  simp [hpackage, hpdf]

theorem exists_ofFile_bytes_iff (text : String) :
    (∃ format, ofFile (bytes text) = .ok format) ↔
      bytes text ≠ [] ∧ (IsMarked (bytes text) ∨ 0 ∉ (bytes text).take headLength) := by
  have htext : isText true ((bytes text).take headLength) = true ↔
      0 ∉ (bytes text).take headLength := by
    rw [bytes, isText_head]
    simp
  rw [ofFile, exists_ofBytesOrHead_iff, isMarked_take_iff (by decide), htext, ne_eq,
    List.take_eq_nil_iff]
  simp [headLength]

theorem isText_iff {head : Bool} {bs : Bytes} :
    isText head bs = true ↔ ∃ whole cut, bs = encode whole ++ cut ∧ '\x00' ∉ whole ∧
      (cut = [] ∨ head = true ∧ Utf8.IsCut cut) := by
  constructor
  · intro h
    unfold isText at h
    split at h
    next cs hdecode =>
      refine ⟨cs, [], ?_, by simpa using h, .inl rfl⟩
      rw [List.append_nil, Utf8.encode_of_decodeFrom hdecode]
    next validUpTo hdecode =>
      obtain ⟨whole, cut, rfl, hcut, rfl⟩ := Utf8.decodeFrom_eq_error_none_iff.mp hdecode
      simp only [Nat.zero_add, List.take_left, Bool.and_eq_true, Bool.not_eq_true',
        List.contains_eq_mem, decide_eq_false_iff_not, Utf8.zero_mem_encode_iff] at h
      exact ⟨whole, cut, rfl, h.2, .inr ⟨h.1, hcut⟩⟩
    next => cases h
  · rintro ⟨whole, cut, rfl, hzero, rfl | ⟨rfl, hcut⟩⟩
    · rw [List.append_nil, isText, Utf8.decodeFrom_encode]
      simpa using hzero
    · rw [isText, Utf8.decodeFrom_encode_append 0 whole hcut]
      simpa [Utf8.zero_mem_encode_iff] using hzero

theorem isText_false_iff {bs : Bytes} :
    isText false bs = true ↔ ∃ text, bs = bytes text ∧ '\x00' ∉ text.toList := by
  rw [isText_iff]
  constructor
  · rintro ⟨whole, cut, rfl, hzero, rfl | ⟨⟨⟩, -⟩⟩
    refine ⟨String.ofList whole, ?_, ?_⟩
    · rw [List.append_nil, bytes, String.toList_ofList]
    · rwa [String.toList_ofList]
  · rintro ⟨text, rfl, hzero⟩
    exact ⟨text.toList, [], (List.append_nil _).symm, hzero, .inl rfl⟩

theorem isText_take {bs : Bytes} (h : isText false bs = true) (n : Nat) :
    isText true (bs.take n) = true := by
  obtain ⟨whole, cut, rfl, hzero, rfl | ⟨⟨⟩, -⟩⟩ := isText_iff.mp h
  have hhead : 0 ∉ (encode whole).take n := fun hmem =>
    hzero ((Utf8.zero_mem_encode_iff whole).mp (List.mem_of_mem_take hmem))
  rw [List.append_nil, isText_head]
  simpa using hhead

/-- Text without zero bytes that ends inside a character, and that does not begin as another format
does. -/
def BreaksOff (bs : Bytes) : Prop :=
  ¬ IsMarked bs ∧ ∃ whole cut, bs = encode whole ++ cut ∧ Utf8.IsCut cut ∧ '\x00' ∉ whole

theorem not_isText_of_cut {bs cut : Bytes} {whole : List Char} (hbs : bs = encode whole ++ cut)
    (hcut : Utf8.IsCut cut) : isText false bs = false := by
  rw [isText, hbs, Utf8.decodeFrom_encode_append 0 whole hcut]
  rfl

theorem isText_eq_of_not_cut {bs : Bytes}
    (h : ¬ ∃ whole cut, bs = encode whole ++ cut ∧ Utf8.IsCut cut ∧ '\x00' ∉ whole) :
    isText true bs = isText false bs := by
  rw [Bool.eq_iff_iff]
  constructor
  · intro htext
    obtain ⟨whole, cut, hbs, hzero, hcut | ⟨-, hcut⟩⟩ := isText_iff.mp htext
    · exact isText_iff.mpr ⟨whole, cut, hbs, hzero, .inl hcut⟩
    · exact absurd ⟨whole, cut, hbs, hcut, hzero⟩ h
  · intro htext
    obtain ⟨whole, cut, hbs, hzero, hcut | ⟨⟨⟩, -⟩⟩ := isText_iff.mp htext
    exact isText_iff.mpr ⟨whole, cut, hbs, hzero, .inl hcut⟩

/-! ## Whole byte strings and their heads -/

theorem isPrefixOf_take {mark : Bytes} {n : Nat} (hn : mark.length ≤ n) (bs : Bytes) :
    mark.isPrefixOf (bs.take n) = mark.isPrefixOf bs := by
  rw [Bool.eq_iff_iff, List.isPrefixOf_iff_prefix, List.isPrefixOf_iff_prefix,
    List.prefix_take_iff]
  exact and_iff_left hn

theorem ofFile_of_ofBytes {bs : Bytes} {format : Format} (h : ofBytes bs = .ok format) :
    ofFile bs = .ok format := by
  have hempty : (bs.take headLength).isEmpty = bs.isEmpty := by
    rw [Bool.eq_iff_iff]
    simp [headLength]
  unfold ofBytes at h
  unfold ofFile
  unfold ofBytesOrHead at h ⊢
  rw [isPackage] at h ⊢
  rw [hempty, isPrefixOf_take (by decide), isPrefixOf_take (by decide)]
  by_cases hwhole : isText false bs = true
  · rw [if_pos hwhole] at h
    rwa [if_pos (isText_take hwhole headLength)]
  · rw [if_neg hwhole] at h
    split_ifs at h ⊢
    · exact h
    · exact h

theorem ofFile_of_length_le {bs : Bytes} (h : bs.length ≤ headLength) :
    ofFile bs = ofBytesOrHead true bs := by
  rw [ofFile, List.take_of_length_le h]

theorem formats_of_breaksOff {bs : Bytes} (h : BreaksOff bs) :
    ofBytesOrHead true bs = .ok plainText ∧ ofBytes bs = .error .unknownFormat := by
  obtain ⟨hmark, whole, cut, hbs, hcut, hzero⟩ := h
  rw [IsMarked, not_or] at hmark
  have hempty : bs ≠ [] := by simp [hbs, hcut.ne_nil]
  have hhead : isText true bs = true := isText_iff.mpr ⟨whole, cut, hbs, hzero, .inr ⟨rfl, hcut⟩⟩
  have hwhole : isText false bs = false := not_isText_of_cut hbs hcut
  simp [ofBytes, ofBytesOrHead, isPackage, hmark, hempty, hhead, hwhole]

theorem ofBytesOrHead_eq_of_not_breaksOff {bs : Bytes} (h : ¬ BreaksOff bs) :
    ofBytesOrHead true bs = ofBytes bs := by
  unfold ofBytes ofBytesOrHead
  by_cases hmark : IsMarked bs
  · -- What stands behind a mark is not looked at.
    rcases hmark with hpackage | hpdf
    · rw [← List.isPrefixOf_iff_prefix] at hpackage
      simp [isPackage, hpackage]
    · rw [← List.isPrefixOf_iff_prefix] at hpdf
      simp [hpdf]
  · rw [isText_eq_of_not_cut fun hcut => h ⟨hmark, hcut⟩]

end Manuscript.Format

namespace Manuscript.FileTree

open Format (BreaksOff headLength)

variable {tree : FileTree} {path : String} {content : Bytes}

theorem formatOf_of_read (h : tree.read path = .ok content) :
    tree.formatOf path = Format.ofFile content := by
  rw [formatOf, h]

/-- However long a file is and wherever its head ends, the format of its whole content is the
format of the file. -/
theorem formatOf_of_ofBytes (hread : tree.read path = .ok content) {format : Format}
    (h : Format.ofBytes content = .ok format) : tree.formatOf path = .ok format := by
  rw [formatOf_of_read hread]
  exact Format.ofFile_of_ofBytes h

/-- A file that is no longer than the head is told by its whole content, unless it is a text that
breaks off inside a character: that one is taken for text as if the head had cut it. -/
theorem formatOf_of_length_le (hread : tree.read path = .ok content)
    (hshort : content.length ≤ headLength) :
    (BreaksOff content →
      tree.formatOf path = .ok .plainText ∧ Format.ofBytes content = .error .unknownFormat) ∧
    (¬ BreaksOff content → tree.formatOf path = Format.ofBytes content) := by
  rw [formatOf_of_read hread, Format.ofFile_of_length_le hshort]
  exact ⟨Format.formats_of_breaksOff, Format.ofBytesOrHead_eq_of_not_breaksOff⟩

def single (content : Bytes) : FileTree :=
  ⟨[([['f']], .file content)], []⟩

def accented (n : Nat) : Bytes :=
  List.replicate n 0x61 ++ [0xC3, 0xA9]

theorem replicate_eq_encode (n : Nat) :
    List.replicate n 0x61 = Utf8.encode (List.replicate n 'a') := by
  induction n with
  | zero => rfl
  | succ n ih =>
      rw [List.replicate_succ, List.replicate_succ, Utf8.encode_cons, ← ih]
      rfl

theorem ofBytes_accented (n : Nat) : Format.ofBytes (accented (n + 1)) = .ok .plainText := by
  have hencode : accented (n + 1) = Utf8.encode (List.replicate (n + 1) 'a' ++ ['é']) := by
    rw [accented, replicate_eq_encode, Utf8.encode, Utf8.encode, List.flatMap_append]
    rfl
  have htext : Format.isText false (accented (n + 1)) = true :=
    Format.isText_iff.mpr
      ⟨_, [], by rw [hencode, List.append_nil], by simp [List.mem_replicate], .inl rfl⟩
  unfold Format.ofBytes Format.ofBytesOrHead
  rw [htext]
  rfl

theorem breaksOff_take_accented (n : Nat) :
    Format.BreaksOff ((accented (n + 1)).take (n + 2)) := by
  have hcut : (accented (n + 1)).take (n + 2) =
      Utf8.encode (List.replicate (n + 1) 'a') ++ [0xC3] := by
    rw [accented, ← replicate_eq_encode, List.take_append, List.take_of_length_le (by simp)]
    simp
  refine ⟨?_, List.replicate (n + 1) 'a', [0xC3], hcut,
    Utf8.isCut_one (by decide) (by decide), by simp [List.mem_replicate]⟩
  rw [hcut, List.replicate_succ, Utf8.encode_cons]
  simp [Format.IsMarked, Format.packageMark, Format.pdfMark, Archive.localMark, Utf8.encodeChar]

theorem formatOf_accented :
    (single (accented 4095)).read "f" = .ok (accented 4095) ∧
      Format.ofBytes (accented 4095) = .ok .plainText ∧
      Format.ofBytes ((accented 4095).take headLength) = .error .unknownFormat ∧
      (single (accented 4095)).formatOf "f" = .ok .plainText := by
  have hread : (single (accented 4095)).read "f" = .ok (accented 4095) := by rfl
  exact ⟨hread, ofBytes_accented 4094,
    (Format.formats_of_breaksOff (breaksOff_take_accented 4094)).2,
    formatOf_of_ofBytes hread (ofBytes_accented 4094)⟩

theorem formatOf_short_files :
    (single (accented 1)).formatOf "f" = Format.ofBytes (accented 1) ∧
      (single ((accented 1).take 2)).formatOf "f" = .ok .plainText ∧
      Format.ofBytes ((accented 1).take 2) = .error .unknownFormat := by
  have hwhole : ¬ BreaksOff (accented 1) := by
    intro hbroken
    have hunknown := (Format.formats_of_breaksOff hbroken).2
    rw [ofBytes_accented 0] at hunknown
    cases hunknown
  have hbroken : BreaksOff ((accented 1).take 2) := breaksOff_take_accented 0
  exact ⟨(formatOf_of_length_le rfl (by decide)).2 hwhole,
    (formatOf_of_length_le rfl (by decide)).1 hbroken⟩

theorem formatOf_unlike_ofBytes :
    (single [0x63, 0x61, 0x66, 0xC3]).read "f" = .ok [0x63, 0x61, 0x66, 0xC3] ∧
      [0x63, 0x61, 0x66, 0xC3].length < headLength ∧
      (single [0x63, 0x61, 0x66, 0xC3]).formatOf "f" = .ok .plainText ∧
      Format.ofBytes [0x63, 0x61, 0x66, 0xC3] = .error .unknownFormat :=
  ⟨rfl, by decide, rfl, rfl⟩

end Manuscript.FileTree
