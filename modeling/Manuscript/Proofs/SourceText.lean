import Manuscript.Assembly
import Manuscript.Proofs.Inline.Factorization
import Manuscript.Proofs.Text.Lines
import Mathlib.Data.List.DropRight

/-!
# No source text is lost

Every source line becomes one line of the document's text.  Classifying a line takes away the
space at its end and the marks of a heading, and reading emphasis takes away asterisks; nothing
else is lost, invented or moved.
-/

namespace Manuscript

open Text

theorem Text.trimEnd_eq_rdropWhile (p : Char → Bool) (cs : List Char) :
    trimEnd p cs = cs.rdropWhile p := by
  induction cs with
  | nil => rfl
  | cons c cs ih =>
      have hcons : (c :: cs).rdropWhile p =
          if cs.rdropWhile p = [] then [c].rdropWhile p else c :: cs.rdropWhile p := by
        simp only [List.rdropWhile, List.reverse_cons, List.dropWhile_append]
        cases cs.reverse.dropWhile p with
        | nil => simp
        | cons d ds => simp
      rw [trimEnd, ih, hcons]
      cases hcs : cs.rdropWhile p with
      | nil => simp [List.rdropWhile_singleton]
      | cons d ds => simp

namespace Line

/-- Whether a line without space at its end is a heading: one to six number signs and then some
space. -/
def opensHeading (trimmed : List Char) : Bool :=
  let marks := trimmed.takeWhile (· == '#')
  1 ≤ marks.length && marks.length ≤ 6 &&
    (trimmed.dropWhile (· == '#')).head?.any isSpacing

/-- What is left of a source line once the space at its end is gone, and with it the marks of a
heading and the space after them. -/
def kept (line : String) : String :=
  let trimmed := line.toList.rdropWhile isSpacing
  String.ofList <|
    if opensHeading trimmed then (trimmed.dropWhile (· == '#')).dropWhile isSpacing
    else trimmed

theorem length_dropWhile_lt_iff (p : Char → Bool) (cs : List Char) :
    (cs.dropWhile p).length < cs.length ↔ cs.head?.any p := by
  cases cs with
  | nil => simp
  | cons c cs =>
      have hle := (List.dropWhile_suffix (l := cs) p).length_le
      by_cases hc : p c
      · simp [hc]
        omega
      · simp [hc]

theorem content_ne_nil {cs : List Char} (htrimmed : cs.rdropWhile isSpacing = cs)
    (hspace : (cs.dropWhile (· == '#')).head?.any isSpacing) :
    (cs.dropWhile (· == '#')).dropWhile isSpacing ≠ [] := by
  intro hnil
  have hall := List.dropWhile_eq_nil_iff.mp hnil
  have hne : cs.dropWhile (· == '#') ≠ [] := by
    rintro hrest
    simp [hrest] at hspace
  have hsuffix := List.dropWhile_suffix (l := cs) (· == '#')
  have hcs : cs ≠ [] := by
    rintro rfl
    simp at hne
  have hlast := List.rdropWhile_eq_self_iff.mp htrimmed hcs
  rw [← hsuffix.getLast hne] at hlast
  exact hlast (hall _ (List.getLast_mem hne))

theorem heading?_eq {cs : List Char} (htrimmed : cs.rdropWhile isSpacing = cs)
    (hline : '\n' ∉ cs) :
    heading? cs =
      if opensHeading cs then
        some ((cs.takeWhile (· == '#')).length, (cs.dropWhile (· == '#')).dropWhile isSpacing)
      else none := by
  have hfeed : '\n' ∉ (cs.dropWhile (· == '#')).dropWhile isSpacing := by
    intro hmem
    apply hline
    exact (List.dropWhile_suffix _).subset ((List.dropWhile_suffix _).subset hmem)
  simp only [heading?, opensHeading, length_dropWhile_lt_iff]
  by_cases hspace : (cs.dropWhile (· == '#')).head?.any isSpacing
  · simp [hspace, hfeed, content_ne_nil htrimmed hspace]
  · simp [hspace]

theorem classify_eq {line : String} (h : '\n' ∉ line.toList) :
    classify line =
      let trimmed := line.toList.rdropWhile isSpacing
      { kind :=
          if trimmed = [] then .blank
          else if opensHeading trimmed then
            .heading (UInt8.ofNat (trimmed.takeWhile (· == '#')).length)
          else .paragraph
        content := kept line } := by
  have htrimmed := List.rdropWhile_idempotent isSpacing line.toList
  have hline : '\n' ∉ line.toList.rdropWhile isSpacing := by
    intro hmem
    apply h
    exact (List.rdropWhile_prefix _ _).subset hmem
  simp only [kept, classify, trimEnd_eq_rdropWhile]
  cases hcs : line.toList.rdropWhile isSpacing with
  | nil => simp [opensHeading]
  | cons c cs =>
      rw [hcs] at htrimmed hline
      have hheading := heading?_eq htrimmed hline
      by_cases hopens : opensHeading (c :: cs)
      · simp [hheading, hopens]
      · simp [hheading, hopens]

theorem content_classify {line : String} (h : '\n' ∉ line.toList) :
    (classify line).content = kept line := by
  rw [classify_eq h]

theorem isSome_headingLevel?_classify {line : String} (h : '\n' ∉ line.toList) :
    (classify line).headingLevel?.isSome = opensHeading (line.toList.rdropWhile isSpacing) := by
  rw [classify_eq h]
  cases hcs : line.toList.rdropWhile isSpacing with
  | nil => rfl
  | cons c cs =>
      by_cases hopens : opensHeading (c :: cs)
      · simp [headingLevel?, hopens]
      · simp [headingLevel?, hopens]

theorem not_mem_kept {line : String} (h : '\n' ∉ line.toList) : '\n' ∉ (kept line).toList := by
  have htrimmed : line.toList.rdropWhile isSpacing ⊆ line.toList :=
    (List.rdropWhile_prefix _ _).subset
  simp only [kept, String.toList_ofList]
  split
  · intro hmem
    have hmarks := (List.dropWhile_suffix _).subset ((List.dropWhile_suffix _).subset hmem)
    exact h (htrimmed hmarks)
  · intro hmem
    apply h
    exact htrimmed hmem

end Line

def withoutStars (s : String) : String :=
  String.ofList (s.toList.filter (· != '*'))

namespace Inline

def spokenBy (spans : List Span) : List Char :=
  spans.flatMap fun span => span.text.toList

theorem filter_stars (marker : Marker) : marker.stars.filter (· != '*') = [] := by
  cases marker <;> rfl

theorem spokenBy_spansOf (factors : List Factor) :
    (spokenBy (spansOf factors)).filter (· != '*') =
      (factors.flatMap Factor.spelling).filter (· != '*') := by
  induction factors with
  | nil => rfl
  | cons factor factors ih =>
      rw [List.flatMap_cons, List.filter_append, ← ih]
      rcases factor with ⟨_ | _ | _, text⟩ | text | _ <;>
        simp [spansOf, spokenBy, Factor.spelling, filter_stars]

theorem spokenBy_parse (content : String) :
    (spokenBy (parse content)).filter (· != '*') = content.toList.filter (· != '*') := by
  have hfactors := factorization_factors content.toList
  rw [parse, filterMap_span?, spokenBy_spansOf, hfactors.spelled]

theorem mem_of_mem_spokenBy {content : String} {c : Char} (hc : c ≠ '*')
    (h : c ∈ spokenBy (parse content)) : c ∈ content.toList := by
  have hfilter : c ∈ (spokenBy (parse content)).filter (· != '*') :=
    List.mem_filter.mpr ⟨h, by simpa using hc⟩
  rw [spokenBy_parse] at hfilter
  exact (List.mem_filter.mp hfilter).1

end Inline

theorem toList_plainText_runs (style : RoleStyle) (bold underline : Bool) (content : String)
    (alignment : Alignment) (role : Role) :
    (Paragraph.plainText ⟨style.runs bold underline content, alignment, role⟩).toList =
      Inline.spokenBy (Inline.parse content) := by
  simp [Paragraph.plainText, RoleStyle.runs, RoleStyle.run, Inline.spokenBy, String.toList_join,
    List.flatMap_def, Function.comp_def]

theorem Line.content_of_blank {line : String} (h : (Line.classify line).kind = .blank) :
    (Line.classify line).content = "" := by
  unfold Line.classify at h ⊢
  split
  · rfl
  · split <;> simp_all

theorem Style.toList_plainText_paragraph (style : Style) (line : String) :
    (style.paragraph (Line.classify line)).plainText.toList =
      Inline.spokenBy (Inline.parse (Line.classify line).content) := by
  unfold Style.paragraph
  split
  · rename_i hblank
    rw [Line.content_of_blank hblank]
    simp [Paragraph.plainText, Paragraph.blank, Inline.parse, Inline.factors, Inline.spokenBy]
  · split <;> exact toList_plainText_runs _ _ _ _ _ _
  · exact toList_plainText_runs _ _ _ _ _ _

theorem Style.not_mem_plainText_paragraph (style : Style) {line : String}
    (h : '\n' ∉ line.toList) :
    '\n' ∉ (style.paragraph (Line.classify line)).plainText.toList := by
  rw [style.toList_plainText_paragraph, Line.content_classify h]
  intro hmem
  apply Line.not_mem_kept h
  exact Inline.mem_of_mem_spokenBy (by decide) hmem

theorem Style.withoutStars_plainText_paragraph (style : Style) {line : String}
    (h : '\n' ∉ line.toList) :
    withoutStars (style.paragraph (Line.classify line)).plainText =
      withoutStars (Line.kept line) := by
  rw [withoutStars, style.toList_plainText_paragraph, Inline.spokenBy_parse,
    Line.content_classify h]
  rfl

/-! ## Documents -/

theorem Style.lines_plainText_document (style : Style) (text : String) :
    lines (style.document text).plainText =
      (lines text).map fun line => (style.paragraph (Line.classify line)).plainText := by
  have hfree : ∀ s ∈ (style.document text).paragraphs.map Paragraph.plainText,
      '\n' ∉ s.toList := by
    simp only [Style.document, Line.ofText, List.map_map, List.mem_map]
    rintro s ⟨line, hline, rfl⟩
    exact style.not_mem_plainText_paragraph (not_mem_of_mem_lines hline)
  have hne : (style.document text).paragraphs.map Paragraph.plainText ≠ [] := by
    simp [Style.document, Line.ofText, lines_ne_nil]
  rw [Document.plainText, lines_unlines hne hfree]
  simp [Style.document, Line.ofText, Function.comp_def]

/-- The text of a document has the lines of its source, and up to asterisks each says what is
kept of its source line, where the headings are the lines that are classified as headings. -/
theorem Style.withoutStars_lines_document (style : Style) (text : String) :
    (lines (style.document text).plainText).length = (lines text).length ∧
      (lines (style.document text).plainText).map withoutStars =
        ((lines text).map fun line => withoutStars (Line.kept line)) ∧
      ∀ line ∈ lines text, (Line.classify line).headingLevel?.isSome =
        Line.opensHeading (line.toList.rdropWhile isSpacing) := by
  rw [style.lines_plainText_document]
  refine ⟨List.length_map _, ?_, ?_⟩
  · rw [List.map_map]
    apply List.map_congr_left
    intro line hline
    exact style.withoutStars_plainText_paragraph (not_mem_of_mem_lines hline)
  · intro line hline
    exact Line.isSome_headingLevel?_classify (not_mem_of_mem_lines hline)

theorem filter_dropWhile {p q : Char → Bool} (h : ∀ c, q c = true → p c = false)
    (cs : List Char) : (cs.dropWhile q).filter p = cs.filter p := by
  have hnone : (cs.takeWhile q).filter p = [] := by
    rw [List.filter_eq_nil_iff]
    intro c hc
    simp [h c (List.mem_takeWhile_imp hc)]
  conv_rhs => rw [← List.takeWhile_append_dropWhile (p := q) (l := cs), List.filter_append, hnone]
  rfl

theorem filter_rdropWhile {p q : Char → Bool} (h : ∀ c, q c = true → p c = false)
    (cs : List Char) : (cs.rdropWhile q).filter p = cs.filter p := by
  rw [List.rdropWhile, List.filter_reverse, filter_dropWhile h, List.filter_reverse,
    List.reverse_reverse]

def IsPlain (p : Char → Bool) : Prop :=
  ∀ c, p c = true → c ≠ '*' ∧ c ≠ '#' ∧ isSpacing c = false

theorem Line.filter_kept {p : Char → Bool} (hp : IsPlain p) (line : String) :
    (kept line).toList.filter p = line.toList.filter p := by
  have hspace : ∀ c, isSpacing c = true → p c = false := by
    intro c hc
    by_contra hplain
    rw [Bool.not_eq_false] at hplain
    rw [(hp c hplain).2.2] at hc
    cases hc
  have hmark : ∀ c, (c == '#') = true → p c = false := by
    intro c hc
    by_contra hplain
    rw [Bool.not_eq_false] at hplain
    exact (hp c hplain).2.1 (beq_iff_eq.mp hc)
  simp only [kept, String.toList_ofList]
  split
  · rw [filter_dropWhile hspace, filter_dropWhile hmark, filter_rdropWhile hspace]
  · exact filter_rdropWhile hspace _

theorem Style.filter_plainText_paragraph {p : Char → Bool} (hp : IsPlain p) (style : Style)
    {line : String} (h : '\n' ∉ line.toList) :
    (style.paragraph (Line.classify line)).plainText.toList.filter p = line.toList.filter p := by
  have hstars : ∀ cs : List Char, (cs.filter (· != '*')).filter p = cs.filter p := by
    intro cs
    rw [List.filter_filter]
    apply List.filter_congr
    intro c _
    by_cases hc : p c
    · simp [hc, (hp c hc).1]
    · simp [hc]
  rw [style.toList_plainText_paragraph, Line.content_classify h, ← hstars, Inline.spokenBy_parse,
    hstars, Line.filter_kept hp]

/-- Apart from asterisks, number signs and space, a document says what its source says. -/
theorem Style.filter_plainText_document {p : Char → Bool} (hp : IsPlain p) (style : Style)
    (text : String) :
    (style.document text).plainText.toList.filter (fun c => p c || c == '\n') =
      text.toList.filter fun c => p c || c == '\n' := by
  have hline : ∀ {cs : List Char}, '\n' ∉ cs →
      cs.filter (fun c => p c || c == '\n') = cs.filter p := by
    intro cs hcs
    apply List.filter_congr
    intro c hc
    have hne : c ≠ '\n' := by
      rintro rfl
      exact hcs hc
    simp [hne]
  have hfeed : (fun c => p c || c == '\n') '\n' = true := by simp
  have hsame : ((lines (style.document text).plainText).map String.toList).map
        (List.filter fun c => p c || c == '\n') =
      ((lines text).map String.toList).map (List.filter fun c => p c || c == '\n') := by
    rw [style.lines_plainText_document]
    simp only [List.map_map]
    apply List.map_congr_left
    intro line hmem
    have hfree := not_mem_of_mem_lines hmem
    simp only [Function.comp_apply]
    rw [hline (style.not_mem_plainText_paragraph hfree), hline hfree,
      style.filter_plainText_paragraph hp hfree]
  have htext : ∀ s : String, s.toList.filter (fun c => p c || c == '\n') =
      joinLines (((lines s).map String.toList).map (List.filter fun c => p c || c == '\n')) := by
    intro s
    conv_lhs => rw [← unlines_lines s, unlines, String.toList_ofList, filter_joinLines hfeed]
  rw [htext, hsame, ← htext]

end Manuscript
