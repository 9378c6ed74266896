import Manuscript.Proofs.CommandLine.Single
import Manuscript.Proofs.Extractor
import Manuscript.Proofs.Synthesis

/-!
# Text files and the standard input

A file with the extension of text files says what its bytes say, without the byte order mark that
they may begin with.  The standard input is taken as it is.  So both give the same document of the
same bytes, unless these begin with that mark: then they never do.
-/

namespace Manuscript.CommandLine

open Archive (Codec)
open Synthesizer (exists_convert length_reference_le_of_room referenceRoom)
open Utf8 (bytes encodeChar)
open Wordprocessing (documentXml documentPartXml)

def IsTextPath (path : String) : Prop :=
  ∃ extension, Path.extension? path = some extension ∧ Extractor.plain.supports extension = true

theorem IsTextPath.ne_standardInput {path : String} (h : IsTextPath path) :
    path ≠ standardInput := by
  rintro rfl
  obtain ⟨extension, hextension, -⟩ := h
  have hnone : Path.extension? standardInput = none := by rfl
  rw [hnone] at hextension
  cases hextension

theorem Source.text_standardInput_eq_ok_iff [Codec] {source : Source} {text : String} :
    source.text standardInput = .ok text ↔ source.input = bytes text := by
  rw [Source.text, if_pos rfl, ← Utf8.decode_eq_ok_iff]
  cases Utf8.decode source.input <;> simp

theorem Source.text_of_isTextPath [Codec] {source : Source} {path : String} {content : Bytes}
    (hpath : IsTextPath path) (hread : source.file path = .ok content) :
    source.text path =
      match Utf8.decode content with
      | .ok text => .ok (Text.withoutMark text)
      | .error fault => .error (.error (.encoding .input fault)) := by
  obtain ⟨extension, hextension, hsupports⟩ := id hpath
  have hextract : Registry.reference.extractFile path (source.file path) =
      Extractor.plainText content := by
    rw [Registry.extractFile, hextension, hread]
    simp only [Registry.require_plain hsupports, bind, Except.bind]
    rfl
  rw [Source.text, if_neg hpath.ne_standardInput, hextract, Extractor.plainText_eq]
  cases Utf8.decode content <;> rfl

theorem Source.text_eq_ok_iff_of_isTextPath [Codec] {source : Source} {path : String}
    {content : Bytes} (hpath : IsTextPath path) (hread : source.file path = .ok content)
    {text : String} :
    source.text path = .ok text ↔
      ∃ whole, content = bytes whole ∧ text = Text.withoutMark whole := by
  rw [Source.text_of_isTextPath hpath hread]
  simp only [← Utf8.decode_eq_ok_iff]
  cases Utf8.decode content <;> simp [eq_comm]

theorem orderMark_prefix_bytes_iff {text : String} :
    encodeChar Text.orderMark <+: bytes text ↔ text.toList.head? = some Text.orderMark :=
  Utf8.encodeChar_prefix_encode_iff

theorem Ready.of_same [Codec] {source other : Source} {first second : String}
    {style : Option String} {noJustify : Bool} {made : Synthesizer} {text : String}
    {package : Bytes} (hstyle : source.style style = other.style style)
    (htext : source.text first = .ok text → other.text second = .ok text)
    (h : Ready source first style noJustify made text package) :
    Ready other second style noJustify made text package := by
  refine ⟨?_, htext h.reads, h.converts⟩
  rw [← hstyle]
  exact h.style

theorem documentXml_ne_withoutMark {text : String}
    (h : text.toList.head? = some Text.orderMark) (font font' : String) (style style' : Style) :
    documentXml font (style.document text) ≠
      documentXml font' (style'.document (Text.withoutMark text)) := by
  intro hsame
  have hplain : IsPlain (· == Text.orderMark) := by
    intro c hc
    rw [beq_iff_eq.mp hc]
    decide
  have hlegal : ∀ c, (c == Text.orderMark) = true → Xml.isLegal c = true := by
    intro c hc
    rw [beq_iff_eq.mp hc]
    decide
  have hfilter := Style.filter_of_documentXml_eq hplain hlegal hsame
  rw [Text.toList_of_head? h, List.filter_cons_of_pos (by simp)] at hfilter
  exact absurd (congrArg List.length hfilter) (by simp)

section

variable {environment : Option String} {inputWords fileWords : List String} {path : String}
  {output style : Option String} {noJustify : Bool} {handover : Handover} {tree other : FileTree}
  {content : Bytes} {ignored : Bytes}

theorem style_of_same_files
    (hstyle : ∀ file, style = some file → tree.read file = other.read file) :
    Source.style ⟨tree.read, content⟩ style = Source.style ⟨other.read, ignored⟩ style := by
  cases style with
  | none => rfl
  | some file => simp only [Source.style, hstyle file rfl]

theorem text_of_same_bytes [Codec] (hpath : IsTextPath path) (hread : other.read path = .ok content)
    (hmark : ¬ encodeChar Text.orderMark <+: content) (text : String) :
    Source.text ⟨tree.read, content⟩ standardInput = .ok text ↔
      Source.text ⟨other.read, ignored⟩ path = .ok text := by
  rw [Source.text_standardInput_eq_ok_iff, Source.text_eq_ok_iff_of_isTextPath hpath hread]
  simp only
  constructor
  · intro hcontent
    rw [hcontent, orderMark_prefix_bytes_iff] at hmark
    exact ⟨text, hcontent, (Text.withoutMark_of_head? hmark).symm⟩
  · rintro ⟨whole, hcontent, rfl⟩
    rw [hcontent, orderMark_prefix_bytes_iff] at hmark
    rw [Text.withoutMark_of_head? hmark]
    exact hcontent

theorem head?_of_mark [Codec] {whole text : String} (hmark : encodeChar Text.orderMark <+: content)
    (hinput : Source.text ⟨tree.read, content⟩ standardInput = .ok whole) (hpath : IsTextPath path)
    (hread : other.read path = .ok content)
    (hfile : Source.text ⟨other.read, ignored⟩ path = .ok text) :
    whole.toList.head? = some Text.orderMark ∧ text = Text.withoutMark whole := by
  have hcontent : content = bytes whole := Source.text_standardInput_eq_ok_iff.mp hinput
  obtain ⟨same, hsame, rfl⟩ := (Source.text_eq_ok_iff_of_isTextPath hpath hread).mp hfile
  obtain rfl : same = whole := Utf8.bytes_injective (hsame.symm.trans hcontent)
  rw [hcontent, orderMark_prefix_bytes_iff] at hmark
  exact ⟨hmark, rfl⟩

/-- A run over the standard input and one over a text file with the same bytes both fail, or both
hand over the same package, if the bytes do not begin with a byte order mark.  If they do, and both
runs hand something over, the documents differ: only the file is read without its mark. -/
theorem input_like_file [Codec]
    (hinput : Command.ofArguments environment inputWords =
      .ok (.convert [standardInput] output style noJustify handover))
    (hfile : Command.ofArguments environment fileWords =
      .ok (.convert [path] output style noJustify handover)) (hpath : IsTextPath path)
    (hread : other.read path = .ok content)
    (hstyle : ∀ file, style = some file → tree.read file = other.read file)
    (hroom : CanHandOver tree output standardInput handover ↔
      CanHandOver other output path handover) (ignored : Bytes) :
    let fromInput := run environment inputWords content tree
    let fromFile := run environment fileWords ignored other
    (¬ encodeChar Text.orderMark <+: content →
      Failed tree fromInput ∧ Failed other fromFile ∨
      ∃ package xml, HandedOver handover output standardInput package fromInput ∧
        HandedOver handover output path package fromFile ∧ HasDocument package xml) ∧
    (encodeChar Text.orderMark <+: content →
      Failed tree fromInput ∨ Failed other fromFile ∨
      ∃ package xml package' xml', HandedOver handover output standardInput package fromInput ∧
        HasDocument package xml ∧ HandedOver handover output path package' fromFile ∧
        HasDocument package' xml' ∧ xml ≠ xml') := by
  intro fromInput fromFile
  have hstyles : Source.style ⟨tree.read, content⟩ style =
      Source.style ⟨other.read, ignored⟩ style := style_of_same_files hstyle
  constructor
  · intro hmark
    have hsame : ∀ text, Source.text ⟨tree.read, content⟩ standardInput = .ok text ↔
        Source.text ⟨other.read, ignored⟩ path = .ok text :=
      text_of_same_bytes hpath hread hmark
    by_cases haccepted : Accepted content tree standardInput output style noJustify handover
    · obtain ⟨⟨made, text, package, hready⟩, hplace⟩ := haccepted
      have hready' := hready.of_same hstyles (hsame text).mp
      exact .inr ⟨package, _, handedOver_run hinput hready hplace,
        handedOver_run hfile hready' (hroom.mp hplace), hasDocument_of_convert hready.converts⟩
    · refine .inl ⟨failed_run hinput haccepted, failed_run hfile ?_⟩
      rintro ⟨⟨made, text, package, hready'⟩, hplace⟩
      exact haccepted ⟨⟨made, text, package, hready'.of_same hstyles.symm (hsame text).mpr⟩,
        hroom.mpr hplace⟩
  · intro hmark
    by_cases haccepted : Accepted content tree standardInput output style noJustify handover
    · by_cases haccepted' : Accepted ignored other path output style noJustify handover
      · obtain ⟨⟨made, whole, package, hready⟩, hplace⟩ := haccepted
        obtain ⟨⟨made', text, package', hready'⟩, hplace'⟩ := haccepted'
        obtain ⟨hhead, rfl⟩ := head?_of_mark hmark hready.reads hpath hread hready'.reads
        exact .inr (.inr ⟨package, _, package', _, handedOver_run hinput hready hplace,
          hasDocument_of_convert hready.converts, handedOver_run hfile hready' hplace',
          hasDocument_of_convert hready'.converts, documentXml_ne_withoutMark hhead _ _ _ _⟩)
      · exact .inr (.inl (failed_run hfile haccepted'))
    · exact .inl (failed_run hinput haccepted)

end

def noteTree (content : Bytes) : FileTree :=
  ⟨[(["f.md".toList], .file content)], []⟩

theorem command_input : Command.ofArguments none ["convert", "-"] =
    .ok (.convert [standardInput] none none false .file) := by
  cbv

theorem command_note : Command.ofArguments none ["convert", "f.md"] =
    .ok (.convert ["f.md"] none none false .file) := by
  cbv

theorem isTextPath_note : IsTextPath "f.md" :=
  ⟨"md", rfl, rfl⟩

theorem singleTarget_note : singleTarget none standardInput = "document.docx" ∧
    singleTarget none "f.md" = "f.docx" :=
  ⟨rfl, rfl⟩

theorem referenceRoom_notes : ∀ text ∈ ["two", "\ufeff# Title", "# Title", "", "\x00"],
    referenceRoom text ≤ 4000 := by
  decide +kernel

theorem canHandOver_note (content : Bytes) :
    CanHandOver (noteTree content) none standardInput .file ∧
      CanHandOver (noteTree content) none "f.md" .file := by
  have hinput : (noteTree content).write "document.docx" [] =
      .ok ((noteTree content).put ["document.docx".toList] (.file [])) := by rfl
  have hfile : (noteTree content).write "f.docx" [] =
      .ok ((noteTree content).put ["f.docx".toList] (.file [])) := by rfl
  rw [CanHandOver, CanHandOver, singleTarget_note.1, singleTarget_note.2]
  exact ⟨fun _ => FileTree.exists_write_iff.mp ⟨_, hinput⟩,
    fun _ => FileTree.exists_write_iff.mp ⟨_, hfile⟩⟩

theorem ready_reference [Codec] {source : Source} {path text : String}
    (hread : source.text path = .ok text) (hroom : referenceRoom text ≤ 4000) :
    ∃ package, Ready source path none false Synthesizer.reference text package := by
  obtain ⟨package, hpackage⟩ := exists_convert Synthesizer.reference
    (length_reference_le_of_room hroom (by decide))
  exact ⟨package, ⟨.reference, rfl, synthesizer_reference⟩, hread, hpackage⟩

theorem input_like_file_plain :
    let tree := noteTree (bytes "two")
    ∃ package, (run none ["convert", "-"] (bytes "two") tree).1.read "document.docx" =
        .ok package ∧
      (run none ["convert", "f.md"] [] tree).1.read "f.docx" = .ok package := by
  intro tree
  have hread : tree.read "f.md" = .ok (bytes "two") := by rfl
  have hroom := canHandOver_note (bytes "two")
  obtain ⟨hplain, -⟩ := input_like_file command_input command_note isTextPath_note hread
    (fun _ _ => rfl) (iff_of_true hroom.1 hroom.2) []
  rcases hplain (by decide) with ⟨⟨failure, hfailed⟩, -⟩ | ⟨package, xml, hinput, hfile, -⟩
  · have htext : Source.text ⟨tree.read, bytes "two"⟩ standardInput = .ok "two" :=
      Source.text_standardInput_eq_ok_iff.mpr rfl
    obtain ⟨package, hready⟩ := ready_reference htext (referenceRoom_notes "two" (by simp))
    have hdone := (handedOver_run command_input hready hroom.1).status
    rw [hfailed] at hdone
    cases hdone
  · rw [← singleTarget_note.1, ← singleTarget_note.2]
    exact ⟨package, hinput.1, hfile.1⟩

theorem documentPartXml_reference [Codec] {source : Source} {path text : String} {package : Bytes}
    (h : Ready source path none false Synthesizer.reference text package)
    (hroom : referenceRoom text ≤ 4000) :
    documentPartXml Wordprocessing.maxPartSize package =
      .ok (documentXml Synthesizer.reference.style.fontFamily
        (Synthesizer.reference.document text)) := by
  apply hasDocument_of_convert h.converts
  have hlimit : 100 + 4000 ≤ Wordprocessing.maxPartSize := by simp [Wordprocessing.maxPartSize]
  exact length_reference_le_of_room hroom hlimit

/-- The same bytes with a mark become packages with two documents. -/
theorem input_unlike_file :
    let content := bytes "\ufeff# Title"
    (run none ["convert", "-"] content (noteTree content)).2.status = 0 ∧
      (run none ["convert", "f.md"] content (noteTree content)).2.status = 0 ∧
      ∃ package package' xml xml',
        (run none ["convert", "-"] content (noteTree content)).1.read "document.docx" =
          .ok package ∧
        (run none ["convert", "f.md"] content (noteTree content)).1.read "f.docx" =
          .ok package' ∧
        documentPartXml Wordprocessing.maxPartSize package = .ok xml ∧
        documentPartXml Wordprocessing.maxPartSize package' = .ok xml' ∧ xml ≠ xml' := by
  intro content
  have hinput : Source.text ⟨(noteTree content).read, content⟩ standardInput =
      .ok "\ufeff# Title" := Source.text_standardInput_eq_ok_iff.mpr rfl
  have hread : (noteTree content).read "f.md" = .ok content := by rfl
  have hrest : Text.withoutMark "\ufeff# Title" = "# Title" := by rfl
  have hfile : Source.text ⟨(noteTree content).read, content⟩ "f.md" = .ok "# Title" :=
    (Source.text_eq_ok_iff_of_isTextPath isTextPath_note hread).mpr
      ⟨"\ufeff# Title", rfl, hrest.symm⟩
  have hshort := referenceRoom_notes "\ufeff# Title" (by simp)
  have hshort' := referenceRoom_notes "# Title" (by simp)
  obtain ⟨package, hready⟩ := ready_reference hinput hshort
  obtain ⟨package', hready'⟩ := ready_reference hfile hshort'
  have hroom := canHandOver_note content
  have hdone := handedOver_run command_input hready hroom.1
  have hdone' := handedOver_run command_note hready' hroom.2
  have hhead : "\ufeff# Title".toList.head? = some Text.orderMark := by decide
  have hne := documentXml_ne_withoutMark hhead Synthesizer.reference.style.fontFamily
    Synthesizer.reference.style.fontFamily Synthesizer.reference.style Synthesizer.reference.style
  rw [hrest] at hne
  refine ⟨hdone.status, hdone'.status, package, package', _, _, ?_, ?_,
    documentPartXml_reference hready hshort, documentPartXml_reference hready' hshort', hne⟩
  · rw [← singleTarget_note.1]
    exact hdone.1
  · rw [← singleTarget_note.2]
    exact hdone'.1

end Manuscript.CommandLine
