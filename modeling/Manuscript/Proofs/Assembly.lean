import Manuscript.Proofs.Inline.Factorization
import Manuscript.Proofs.Text.Lines
import Manuscript.Synthesis
import Mathlib.Data.List.Forall2
import Mathlib.Data.Option.Basic

/-!
# What becomes of a source line

The kind of a line gives its paragraph's role, alignment and style, and every span of its content
gives one run.  Nothing else has a say, so a paragraph can be told from its line alone.  The sizes
that appear in a document are those of its style, which are in bounds once the style is accepted.
-/

namespace Manuscript

open Text (lines)

/-- A run shows a span in the style of a role.  The role may make it bold, but never less bold
than its source. -/
structure Run.Shows (role : RoleStyle) (bold underline : Bool) (span : Span) (run : Run) :
    Prop where
  text : run.text = span.text
  text_ne : run.text ≠ ""
  bold : run.bold = true ↔ span.bold = true ∨ bold = true
  italic : run.italic = span.italic
  underline : run.underline = underline
  size : run.size = role.size
  color : run.color = role.color

/-- The paragraph that a style prescribes for a line. -/
inductive Style.Prescribes (style : Style) : Line → Paragraph → Prop where
  | blank {content : String} : style.Prescribes ⟨.blank, content⟩ ⟨[], .left, .blank⟩
  | title {content : String} {runs : List Run}
      (shown : List.Forall₂ (Run.Shows style.title false false) (Inline.parse content) runs) :
      style.Prescribes ⟨.heading 1, content⟩ ⟨runs, .left, .title⟩
  | subtitle {level : UInt8} {content : String} {runs : List Run}
      (lower : 2 ≤ level.toNat) (upper : level.toNat ≤ 6)
      (shown : List.Forall₂ (Run.Shows style.subtitle style.subtitleBold style.subtitleUnderline)
        (Inline.parse content) runs) :
      style.Prescribes ⟨.heading level, content⟩ ⟨runs, .left, .subtitle⟩
  | body {content : String} {runs : List Run}
      (shown : List.Forall₂ (Run.Shows style.body false false) (Inline.parse content) runs) :
      style.Prescribes ⟨.paragraph, content⟩
        ⟨runs, if style.justifyBody then .justify else .left, .body⟩

theorem Run.Shows.unique {role : RoleStyle} {bold underline : Bool} {span : Span} {run other : Run}
    (h : run.Shows role bold underline span) (hother : other.Shows role bold underline span) :
    run = other := by
  have hbold : run.bold = other.bold := Bool.eq_iff_iff.mpr (h.bold.trans hother.bold.symm)
  cases run
  cases other
  simp only [Run.mk.injEq]
  exact ⟨h.text.trans hother.text.symm, hbold, h.italic.trans hother.italic.symm,
    h.underline.trans hother.underline.symm, h.size.trans hother.size.symm,
    h.color.trans hother.color.symm⟩

theorem runs_unique {role : RoleStyle} {bold underline : Bool} {spans : List Span}
    {runs others : List Run} (h : List.Forall₂ (Run.Shows role bold underline) spans runs)
    (hothers : List.Forall₂ (Run.Shows role bold underline) spans others) : runs = others := by
  induction h generalizing others with
  | nil =>
      cases hothers
      rfl
  | cons hrun _ ih =>
      cases hothers with
      | cons hother hrest => rw [hrun.unique hother, ih hrest]

theorem Style.Prescribes.unique {style : Style} {line : Line} {paragraph other : Paragraph}
    (h : style.Prescribes line paragraph) (hother : style.Prescribes line other) :
    paragraph = other := by
  cases h with
  | blank =>
      cases hother
      rfl
  | title hruns =>
      cases hother with
      | title hothers => rw [runs_unique hruns hothers]
      | subtitle hlower => exact absurd hlower (by decide)
  | subtitle hlower _ hruns =>
      cases hother with
      | title => exact absurd hlower (by decide)
      | subtitle _ _ hothers => rw [runs_unique hruns hothers]
  | body hruns =>
      cases hother with
      | body hothers => rw [runs_unique hruns hothers]

theorem Inline.text_ne_of_mem_parse {content : String} {span : Span}
    (h : span ∈ Inline.parse content) : span.text ≠ "" := by
  rw [Inline.parse, Inline.filterMap_span?] at h
  exact (Inline.factorization_factors content.toList).text_ne_nil span h

theorem RoleStyle.shows_run (role : RoleStyle) (bold underline : Bool) {span : Span}
    (h : span.text ≠ "") : (role.run bold underline span).Shows role bold underline span where
  text := rfl
  text_ne := h
  bold := by simp [run, or_comm]
  italic := rfl
  underline := rfl
  size := rfl
  color := rfl

theorem RoleStyle.shows_runs (role : RoleStyle) (bold underline : Bool) (content : String) :
    List.Forall₂ (Run.Shows role bold underline) (Inline.parse content)
      (role.runs bold underline content) := by
  rw [RoleStyle.runs, List.forall₂_map_right_iff, List.forall₂_same]
  intro span hspan
  exact role.shows_run bold underline (Inline.text_ne_of_mem_parse hspan)

theorem Line.level_classify {s : String} {level : UInt8}
    (h : (Line.classify s).kind = .heading level) : 1 ≤ level.toNat ∧ level.toNat ≤ 6 := by
  unfold Line.classify at h
  split at h
  · cases h
  · split at h
    · rename_i marks content hheading
      cases h
      simp only [Line.heading?, Option.ite_none_right_eq_some] at hheading
      obtain ⟨⟨hlower, hupper, -⟩, hmarks⟩ := hheading
      cases hmarks
      rw [UInt8.toNat_ofNat']
      omega
    · cases h

theorem Style.prescribes_paragraph (style : Style) (s : String) :
    style.Prescribes (Line.classify s) (style.paragraph (Line.classify s)) := by
  have hlevel := @Line.level_classify s
  generalize Line.classify s = line at hlevel ⊢
  rcases line with ⟨_ | level | _, content⟩
  · exact .blank
  · obtain ⟨hlower, hupper⟩ := hlevel rfl
    simp only [Style.paragraph]
    by_cases hone : level = 1
    · rw [if_pos hone, hone]
      exact .title (style.title.shows_runs _ _ content)
    · rw [if_neg hone]
      have htwo : 2 ≤ level.toNat := by
        have hne : level.toNat ≠ 1 := fun hnat => hone (UInt8.toNat_inj.mp hnat)
        omega
      exact .subtitle htwo hupper (style.subtitle.shows_runs _ _ content)
  · exact .body (style.body.shows_runs _ _ content)

theorem Style.sizeFault?_eq_none {of : Style.Sized} {role : RoleStyle}
    (h : Style.sizeFault? of role = none) : 1 ≤ role.size.toNat ∧ role.size.toNat ≤ 3276 := by
  have hmax : Style.maxSize.toNat = 3276 := rfl
  simp only [Style.sizeFault?, ite_eq_right_iff, reduceCtorEq, imp_false, not_or] at h
  obtain ⟨hzero, hbound⟩ := h
  rw [← UInt32.toNat_inj] at hzero
  rw [UInt32.lt_iff_toNat_lt] at hbound
  simp only [UInt32.toNat_zero] at hzero
  omega

def Style.roles (style : Style) : List RoleStyle :=
  [style.title, style.subtitle, style.body]

theorem Style.size_of_fit {style : Style} (h : style.fault? = none) {role : RoleStyle}
    (hrole : role ∈ style.roles) : 1 ≤ role.size.toNat ∧ role.size.toNat ≤ 3276 := by
  unfold Style.fault? at h
  split at h
  · cases h
  split at h
  · cases h
  rw [Option.orElse_eq_none, Option.orElse_eq_none] at h
  obtain ⟨htitle, hsubtitle, hbody⟩ := h
  simp only [Style.roles, List.mem_cons, List.not_mem_nil, or_false] at hrole
  rcases hrole with rfl | rfl | rfl
  · exact Style.sizeFault?_eq_none htitle
  · exact Style.sizeFault?_eq_none hsubtitle
  · exact Style.sizeFault?_eq_none hbody

theorem Style.Prescribes.role_of_mem {style : Style} {line : Line} {paragraph : Paragraph}
    (h : style.Prescribes line paragraph) {run : Run} (hrun : run ∈ paragraph.runs) :
    ∃ role ∈ style.roles, run.size = role.size ∧ run.color = role.color := by
  have hshown {role : RoleStyle} {bold underline : Bool} {spans : List Span} {runs : List Run}
      (hruns : List.Forall₂ (Run.Shows role bold underline) spans runs) (hmem : run ∈ runs) :
      run.size = role.size ∧ run.color = role.color := by
    induction hruns with
    | nil => cases hmem
    | cons hshows _ ih =>
        rcases List.mem_cons.mp hmem with rfl | hmem
        · exact ⟨hshows.size, hshows.color⟩
        · exact ih hmem
  cases h with
  | blank => cases hrun
  | title hruns => exact ⟨style.title, by simp [Style.roles], hshown hruns hrun⟩
  | subtitle _ _ hruns => exact ⟨style.subtitle, by simp [Style.roles], hshown hruns hrun⟩
  | body hruns => exact ⟨style.body, by simp [Style.roles], hshown hruns hrun⟩

theorem Color.hexadecimal (color : Color) :
    color.digits.length = 6 ∧ ∀ c ∈ color.digits.toList,
      ('0' ≤ c ∧ c ≤ '9') ∨ ('a' ≤ c ∧ c ≤ 'f') ∨ ('A' ≤ c ∧ c ≤ 'F') := by
  have haccepted := color.accepted
  simp only [Color.accepts, Bool.and_eq_true, beq_iff_eq, List.all_eq_true] at haccepted
  refine ⟨haccepted.1, ?_⟩
  intro c hc
  simpa [Color.isDigit, or_assoc] using haccepted.2 c hc

/-! ## Documents -/

/-- Line by line, an assembly appends what its style makes of each line. -/
theorem Assembly.paragraphs_extend (assembly : Assembly) (source : List Line) :
    (assembly.extend source).document.paragraphs =
      assembly.document.paragraphs ++ source.map assembly.style.paragraph := by
  induction source generalizing assembly with
  | nil => simp [Assembly.extend]
  | cons line source ih =>
      have hstep := ih (assembly.push line)
      simpa [Assembly.extend, Assembly.push, Document.push] using hstep

theorem Synthesizer.ofStyle_of_fit {style : Style} (h : style.fault? = none) :
    Synthesizer.ofStyle style = .ok ⟨style, h⟩ := by
  unfold Synthesizer.ofStyle
  split
  · rfl
  · rename_i fault hfault
    rw [h] at hfault
    cases hfault

theorem Synthesizer.ofStyle_eq_ok {style : Style} {synthesizer : Synthesizer}
    (h : Synthesizer.ofStyle style = .ok synthesizer) : synthesizer.style = style := by
  unfold Synthesizer.ofStyle at h
  split at h
  · cases h
    rfl
  · cases h

/-- A document has a paragraph for every source line, and it is the one that the style prescribes
for that line.  So every run has an accepted size and a color of six hexadecimal digits. -/
theorem Synthesizer.paragraphs_document {style : Style} {synthesizer : Synthesizer}
    (h : Synthesizer.ofStyle style = .ok synthesizer) (text : String) :
    let document := synthesizer.document text
    document.paragraphs.length = (lines text).length ∧
      (∀ (k : Nat) (line : String), (lines text)[k]? = some line →
        ∀ paragraph, document.paragraphs[k]? = some paragraph ↔
          style.Prescribes (Line.classify line) paragraph) ∧
      ((Assembly.start style).extend (Line.ofText text)).document = document ∧
      ∀ paragraph ∈ document.paragraphs, ∀ run ∈ paragraph.runs,
        (1 ≤ run.size.toNat ∧ run.size.toNat ≤ 3276) ∧ run.color.digits.length = 6 ∧
          ∀ c ∈ run.color.digits.toList,
            ('0' ≤ c ∧ c ≤ '9') ∨ ('a' ≤ c ∧ c ≤ 'f') ∨ ('A' ≤ c ∧ c ≤ 'F') := by
  intro document
  have hstyle := Synthesizer.ofStyle_eq_ok h
  have hfit : style.fault? = none := by
    rw [← hstyle]
    exact synthesizer.isFit
  have hparagraphs : document.paragraphs =
      (lines text).map fun line => style.paragraph (Line.classify line) := by
    simp [document, Synthesizer.document, Style.document, Line.ofText, hstyle, Function.comp_def]
  refine ⟨by rw [hparagraphs, List.length_map], ?_, ?_, ?_⟩
  · intro k line hline paragraph
    have hprescribed := style.prescribes_paragraph line
    rw [hparagraphs, List.getElem?_map, hline, Option.map_some, Option.some_inj]
    constructor
    · rintro rfl
      exact hprescribed
    · exact hprescribed.unique
  · have hassembled := (Assembly.start style).paragraphs_extend (Line.ofText text)
    simp only [document, Synthesizer.document, Style.document, hstyle]
    exact congrArg Document.mk hassembled
  · intro paragraph hparagraph run hrun
    rw [hparagraphs, List.mem_map] at hparagraph
    obtain ⟨line, -, rfl⟩ := hparagraph
    obtain ⟨role, hrole, hsize, -⟩ := (style.prescribes_paragraph line).role_of_mem hrun
    rw [hsize]
    exact ⟨Style.size_of_fit hfit hrole, run.color.hexadecimal⟩

theorem Synthesizer.paragraphs_document_plain_subtitle :
    ∃ style : Style, style.subtitleBold = false ∧
      ∃ synthesizer, Synthesizer.ofStyle style = .ok synthesizer ∧
        (synthesizer.document "c\n## a **b**").paragraphs[1]? =
          some ⟨[⟨"a ", false, false, true, 30, .black⟩, ⟨"b", true, false, true, 30, .black⟩],
            .left, .subtitle⟩ := by
  let style : Style := { subtitle := ⟨30, .black⟩, subtitleBold := false }
  have hline : (lines "c\n## a **b**")[1]? = some "## a **b**" := by decide +kernel
  have hkind : Line.classify "## a **b**" = ⟨.heading 2, "a **b**"⟩ := by decide +kernel
  have hspans : Inline.parse "a **b**" = [⟨"a ", false, false⟩, ⟨"b", true, false⟩] := by
    decide +kernel
  have hprescribed : style.Prescribes (Line.classify "## a **b**")
      ⟨[⟨"a ", false, false, true, 30, .black⟩, ⟨"b", true, false, true, 30, .black⟩],
        .left, .subtitle⟩ := by
    rw [hkind]
    apply Style.Prescribes.subtitle (by decide) (by decide)
    rw [hspans]
    refine .cons ?_ (.cons ?_ .nil)
    · constructor <;> simp [style]
    · constructor <;> simp [style]
  have hfit : style.fault? = none := by decide +kernel
  have haccepted := Synthesizer.ofStyle_of_fit hfit
  obtain ⟨-, hparagraphs, -⟩ := Synthesizer.paragraphs_document haccepted "c\n## a **b**"
  exact ⟨style, rfl, _, haccepted, (hparagraphs 1 _ hline _).mpr hprescribed⟩

end Manuscript
