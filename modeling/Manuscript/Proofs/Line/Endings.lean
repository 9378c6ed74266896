import Manuscript.Archive.Packing
import Manuscript.Proofs.Line.Grammar
import Manuscript.Synthesis
import Mathlib.Data.List.Forall2

/-!
# Space at the ends of lines

Space may be put in before the line feeds of a text and at its end.  It only lengthens lines at
their ends, where space is cut off before a line is looked at.  So the text keeps its lines, its
document and its package; a text with a carriage return before every line feed is one case of this.
-/

namespace Manuscript

open Archive (Codec)
open Wordprocessing (documentXml)

namespace Text

/-- Space that starts no new line. -/
def IsInset (space : List Char) : Prop :=
  ∀ c ∈ space, isSpacing c = true ∧ c ≠ '\n'

/-- The second text is the first one with space put in before line feeds and at the end. -/
inductive EndsSpaced : List Char → List Char → Prop
  | atEnd {space : List Char} : IsInset space → EndsSpaced [] space
  | atFeed {space cs ds : List Char} : IsInset space → EndsSpaced cs ds →
      EndsSpaced ('\n' :: cs) (space ++ '\n' :: ds)
  | keep (c : Char) {cs ds : List Char} : EndsSpaced cs ds → EndsSpaced (c :: cs) (c :: ds)

theorem IsInset.not_mem {space : List Char} (h : IsInset space) : '\n' ∉ space :=
  fun hmem => (h _ hmem).2 rfl

theorem EndsSpaced.append_left (front : List Char) {cs ds : List Char} (h : EndsSpaced cs ds) :
    EndsSpaced (front ++ cs) (front ++ ds) := by
  induction front with
  | nil => exact h
  | cons c front ih => exact .keep c ih

def withReturns (text : String) : String :=
  String.ofList (text.toList.flatMap fun c => if c = '\n' then ['\r', '\n'] else [c])

theorem endsSpaced_withReturns (text : String) :
    EndsSpaced text.toList (withReturns text).toList := by
  rw [withReturns, String.toList_ofList]
  induction text.toList with
  | nil => exact .atEnd (by simp [IsInset])
  | cons c cs ih =>
      rw [List.flatMap_cons]
      split
      · rename_i hfeed
        subst hfeed
        have hreturn : IsInset ['\r'] := by
          have hspacing : isSpacing '\r' = true := by decide
          simp [IsInset, hspacing]
        exact .atFeed hreturn ih
      · exact .keep c ih

def Lengthened (line longer : List Char) : Prop :=
  ∃ space, (∀ c ∈ space, isSpacing c = true) ∧ longer = line ++ space

theorem Lengthened.refl (line : List Char) : Lengthened line line :=
  ⟨[], by simp, (List.append_nil line).symm⟩

theorem Lengthened.cons (c : Char) {line longer : List Char} (h : Lengthened line longer) :
    Lengthened (c :: line) (c :: longer) := by
  obtain ⟨space, hspace, rfl⟩ := h
  exact ⟨space, hspace, rfl⟩

theorem IsInset.lengthened {space : List Char} (h : IsInset space) : Lengthened [] space :=
  ⟨space, fun c hc => (h c hc).1, rfl⟩

theorem splitLines_cons_of_ne {c : Char} (hc : c ≠ '\n') {cs line : List Char}
    {rest : List (List Char)} (h : splitLines cs = line :: rest) :
    splitLines (c :: cs) = (c :: line) :: rest := by
  rw [splitLines, if_neg hc, h]

theorem EndsSpaced.lengthened {cs ds : List Char} (h : EndsSpaced cs ds) :
    List.Forall₂ Lengthened (splitLines cs) (splitLines ds) := by
  induction h with
  | atEnd hspace =>
      rw [splitLines_of_not_mem hspace.not_mem]
      exact .cons hspace.lengthened .nil
  | @atFeed space cs ds hspace _ ih =>
      have hfirst : splitLines ('\n' :: cs) = [] :: splitLines cs := by simp [splitLines]
      rw [hfirst, splitLines_append hspace.not_mem]
      exact .cons hspace.lengthened ih
  | @keep c cs ds _ ih =>
      by_cases hc : c = '\n'
      · subst hc
        simp only [splitLines, ↓reduceIte]
        exact .cons (.refl []) ih
      · obtain ⟨line, rest, hcs⟩ := List.exists_cons_of_ne_nil (splitLines_ne_nil cs)
        obtain ⟨longer, rest', hds⟩ := List.exists_cons_of_ne_nil (splitLines_ne_nil ds)
        rw [hcs, hds] at ih
        obtain ⟨hline, hrest⟩ := List.forall₂_cons.mp ih
        rw [splitLines_cons_of_ne hc hcs, splitLines_cons_of_ne hc hds]
        exact .cons (hline.cons c) hrest

end Text

open Text (EndsSpaced Lengthened isSpacing withReturns)

theorem Line.trimmed_eq_of_lengthened {line longer : String}
    (h : Lengthened line.toList longer.toList) : trimmed longer = trimmed line := by
  obtain ⟨space, hspace, hlonger⟩ := h
  have hreversed : ∀ c ∈ space.reverse, isSpacing c = true := by simpa using hspace
  rw [trimmed, trimmed, hlonger, List.rdropWhile, List.rdropWhile, List.reverse_append,
    List.dropWhile_append_of_pos hreversed]

theorem Line.classify_eq_of_lengthened {line longer : String}
    (h : Lengthened line.toList longer.toList) : classify longer = classify line :=
  (classified_classify line).classify (trimmed_eq_of_lengthened h)

theorem Line.ofText_eq_of_endsSpaced {text spaced : String}
    (h : EndsSpaced text.toList spaced.toList) : ofText spaced = ofText text := by
  have hlines : List.Forall₂ (fun line longer : String => classify line = classify longer)
      (Text.lines text) (Text.lines spaced) := by
    rw [Text.lines, Text.lines, List.forall₂_map_left_iff, List.forall₂_map_right_iff]
    apply h.lengthened.imp
    intro line longer hlonger
    exact (classify_eq_of_lengthened (by simpa using hlonger)).symm
  rw [ofText, ofText, eq_comm, ← List.forall₂_eq_eq_eq, List.forall₂_map_left_iff,
    List.forall₂_map_right_iff]
  exact hlines

theorem Synthesizer.convert_eq_of_document_eq [Codec] (made : Synthesizer) {text other : String}
    (h : made.document text = made.document other) : made.convert text = made.convert other := by
  rw [convert, convert, h]

/-- Space that is put in before line feeds and at the end of a text changes none of its lines, and
neither its document, the markup and the statistics of that nor its package.  In particular every
line feed may have a carriage return before it. -/
theorem Style.document_of_endsSpaced [Codec] (style : Style) {text spaced : String}
    (h : EndsSpaced text.toList spaced.toList) :
    Line.ofText spaced = Line.ofText text ∧
      style.document spaced = style.document text ∧
      documentXml style.fontFamily (style.document spaced) =
        documentXml style.fontFamily (style.document text) ∧
      Stats.ofDocument (style.document spaced) = Stats.ofDocument (style.document text) ∧
      ∀ made : Synthesizer, made.convert spaced = made.convert text ∧
        made.convert (withReturns text) = made.convert text := by
  have hdocument (other : Style) {longer : String}
      (hlonger : EndsSpaced text.toList longer.toList) :
      other.document longer = other.document text := by
    rw [Style.document, Line.ofText_eq_of_endsSpaced hlonger, Style.document]
  refine ⟨Line.ofText_eq_of_endsSpaced h, hdocument style h, ?_, ?_, fun made => ⟨?_, ?_⟩⟩
  · rw [hdocument style h]
  · rw [hdocument style h]
  · exact made.convert_eq_of_document_eq (hdocument made.style h)
  · exact made.convert_eq_of_document_eq (hdocument made.style (Text.endsSpaced_withReturns text))

theorem Style.document_of_endsSpaced_mixed :
    EndsSpaced "# a\n#\n \nb".toList "# a\r\n#\t\x1f\n \u3000\nb\x1c ".toList ∧
      Line.ofText "# a\r\n#\t\x1f\n \u3000\nb\x1c " = Line.ofText "# a\n#\n \nb" := by
  have hspaced : EndsSpaced "# a\n#\n \nb".toList "# a\r\n#\t\x1f\n \u3000\nb\x1c ".toList := by
    have hinset (space : List Char) (h : (space.all fun c => isSpacing c && c != '\n') = true) :
        Text.IsInset space := by
      simpa [Text.IsInset] using h
    exact .append_left "# a".toList <| .atFeed (hinset ['\r'] (by decide)) <|
      .append_left "#".toList <| .atFeed (hinset ['\t', '\x1f'] (by decide)) <|
      .append_left " ".toList <| .atFeed (hinset ['\u3000'] (by decide)) <|
      .append_left "b".toList <| .atEnd (hinset ['\x1c', ' '] (by decide))
  exact ⟨hspaced, (Style.reference.document_of_endsSpaced hspaced).1⟩

end Manuscript
