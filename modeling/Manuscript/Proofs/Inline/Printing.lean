import Manuscript.Proofs.Inline.First
import Mathlib.Data.List.Chain

/-!
# Spans written with their markers

A span is written as its text between two copies of its marker, and a plain span as its bare text.
Reading may cut the written form of several spans elsewhere than where they meet.  It does not
whenever each emphasized span is what is read first at its place and the texts of plain spans have
no asterisk; then only neighbouring plain spans are read as one.
-/

namespace Manuscript

namespace Span

def marker? (span : Span) : Option Inline.Marker :=
  match span.bold, span.italic with
  | true, true => some .boldItalic
  | true, false => some .bold
  | false, true => some .italic
  | false, false => none

def isPlain (span : Span) : Bool :=
  span.marker?.isNone

def written (span : Span) : List Char :=
  match span.marker? with
  | some marker => marker.stars ++ span.text.toList ++ marker.stars
  | none => span.text.toList

def attach (span : Span) : List Span → List Span
  | [] => [span]
  | next :: spans =>
    if span.isPlain && next.isPlain then ⟨span.text ++ next.text, false, false⟩ :: spans
    else span :: next :: spans

theorem isPlain_iff {span : Span} : span.isPlain ↔ span.marker? = none := by
  simp [isPlain]

section

variable {span : Span} {marker : Inline.Marker}

theorem written_of_isPlain (h : span.isPlain) : span.written = span.text.toList := by
  rw [written, isPlain_iff.mp h]

theorem written_of_marker? (h : span.marker? = some marker) :
    span.written = marker.stars ++ span.text.toList ++ marker.stars := by
  rw [written, h]

theorem attach_of_marker? (h : span.marker? = some marker) (spans : List Span) :
    span.attach spans = span :: spans := by
  cases spans with
  | nil => rfl
  | cons next spans => simp [attach, isPlain, h]

end

end Span

namespace Inline

def written (spans : List Span) : List Char :=
  spans.flatMap Span.written

def print (spans : List Span) : String :=
  String.ofList (written spans)

/-- The spans with neighbouring plain spans joined. -/
def joinPlain : List Span → List Span
  | [] => []
  | span :: spans => span.attach (joinPlain spans)

def factorOf (span : Span) : Factor :=
  match span.marker? with
  | some marker => .enclosed marker span.text.toList
  | none => .plain span.text.toList

theorem factorOf_of_marker? {span : Span} {marker : Marker} (h : span.marker? = some marker) :
    factorOf span = .enclosed marker span.text.toList := by
  rw [factorOf, h]

theorem factorOf_of_isPlain {span : Span} (h : span.isPlain) :
    factorOf span = .plain span.text.toList := by
  rw [factorOf, Span.isPlain_iff.mp h]

theorem span?_factorOf (span : Span) : (factorOf span).span? = some span := by
  rcases span with ⟨text, _ | _, _ | _⟩ <;> simp [factorOf, Span.marker?, Factor.span?]

theorem spansOf_map_factorOf (spans : List Span) : spansOf (spans.map factorOf) = spans := by
  rw [← filterMap_span?, List.filterMap_map]
  simp [span?_factorOf]

theorem written_cons (span : Span) (spans : List Span) :
    written (span :: spans) = span.written ++ written spans :=
  rfl

theorem written_append (spans others : List Span) :
    written (spans ++ others) = written spans ++ written others :=
  List.flatMap_append

section

variable {span : Span} {cs : List Char}

theorem factors_append_alone (hplain : span.isPlain) (hne : span.text ≠ "")
    (hstar : '*' ∉ span.text.toList) (hcs : cs = [] ∨ cs.head? = some '*') :
    factors (span.text.toList ++ cs) = factorOf span :: factors cs := by
  rw [factorOf_of_isPlain hplain]
  have hne' : span.text.toList ≠ [] := by simpa using hne
  exact factors_of_readsFirst (readsFirst_run_iff.mpr ⟨rfl, hne', hstar, hcs⟩)

theorem factors_append_joined (hne : span.text ≠ "") (hstar : '*' ∉ span.text.toList)
    {next : Span} (hnext : next.isPlain) {others : List Factor}
    (hcs : factors cs = factorOf next :: others) :
    factors (span.text.toList ++ cs) =
      factorOf ⟨span.text ++ next.text, false, false⟩ :: others := by
  rw [factorOf_of_isPlain hnext] at hcs
  rcases readsFirst_of_factors hcs with ⟨rest, hreads, rfl⟩
  rcases readsFirst_run_iff.mp hreads with ⟨rfl, -, hnextStar, hrest⟩
  -- the run ends where it did before `span` was put in front of it
  let joined : Span := ⟨span.text ++ next.text, false, false⟩
  have hread : factors (joined.text.toList ++ rest) = factorOf joined :: factors rest := by
    apply factors_append_alone
    · rfl
    · simp [joined, hne]
    · simp [joined, hstar, hnextStar]
    · exact hrest
  rw [← List.append_assoc, ← String.toList_append]
  exact hread

theorem factors_append_of_isPlain (hplain : span.isPlain) (hne : span.text ≠ "")
    (hstar : '*' ∉ span.text.toList) {spans : List Span}
    (hcs : factors cs = spans.map factorOf) :
    factors (span.text.toList ++ cs) = (span.attach spans).map factorOf := by
  cases spans with
  | nil =>
      have hnil : cs = [] := by
        cases cs with
        | nil => rfl
        | cons c cs => simp [factors] at hcs
      rw [factors_append_alone hplain hne hstar (.inl hnil), hcs]
      rfl
  | cons next spans =>
      cases hnext : next.marker? with
      | some marker =>
          have hstarred : cs.head? = some '*' := by
            rw [List.map_cons, factorOf_of_marker? hnext] at hcs
            rcases readsFirst_of_factors hcs with ⟨rest, hreads, -⟩
            exact head?_of_encloses (readsFirst_enclosed_iff.mp hreads).1.toEncloses
          rw [factors_append_alone hplain hne hstar (.inr hstarred), hcs]
          simp [Span.attach, Span.isPlain, hnext]
      | none =>
          have hnextPlain := Span.isPlain_iff.mpr hnext
          rw [factors_append_joined hne hstar hnextPlain hcs]
          simp [Span.attach, hplain, hnextPlain]

end

/-- Each emphasized span is what is read first where it is written in front of the others, and the
texts of plain spans have no asterisk. -/
inductive Readable : List Span → Prop
  | nil : Readable []
  | plain {span : Span} {spans : List Span} :
      span.isPlain → span.text ≠ "" → '*' ∉ span.text.toList → Readable spans →
        Readable (span :: spans)
  | emphasized {span : Span} {spans : List Span} {marker : Marker} :
      span.marker? = some marker →
        ReadsFirst (written (span :: spans)) (.enclosed marker span.text.toList)
          (written spans) →
        Readable spans → Readable (span :: spans)

theorem Readable.factors_written {spans : List Span} (h : Readable spans) :
    factors (written spans) = (joinPlain spans).map factorOf := by
  induction h with
  | nil => simp [written, joinPlain, factors]
  | @plain span spans hplain hne hstar _ ih =>
      rw [written_cons, Span.written_of_isPlain hplain, joinPlain]
      exact factors_append_of_isPlain hplain hne hstar ih
  | emphasized hmarker hreads _ ih =>
      rw [factors_of_readsFirst hreads, ih, joinPlain, Span.attach_of_marker? hmarker,
        List.map_cons, factorOf_of_marker? hmarker]

theorem Readable.parse_written {spans : List Span} (h : Readable spans) :
    parse (print spans) = joinPlain spans := by
  rw [parse, print, String.toList_ofList, h.factors_written, filterMap_span?,
    spansOf_map_factorOf]

/-- A text in which nothing can be mistaken for a marker, on one line. -/
structure IsSimple (span : Span) : Prop where
  nonempty : span.text ≠ ""
  starless : '*' ∉ span.text.toList
  oneLine : '\n' ∉ span.text.toList

instance (span : Span) : Decidable (IsSimple span) :=
  decidable_of_iff (span.text ≠ "" ∧ '*' ∉ span.text.toList ∧ '\n' ∉ span.text.toList)
    ⟨fun ⟨hne, hstar, hline⟩ => ⟨hne, hstar, hline⟩, fun h => ⟨h.nonempty, h.starless, h.oneLine⟩⟩

theorem enclosesFirst_of_starless {marker : Marker} {text : List Char} (hne : text ≠ [])
    (hstar : '*' ∉ text) (hline : '\n' ∉ text) (rest : List Char) :
    EnclosesFirst marker (marker.stars ++ text ++ marker.stars ++ rest) text rest := by
  refine ⟨⟨rfl, hne, hline⟩, ?_⟩
  intro other tail hother
  have hspelled := hother.spelled
  simp only [List.append_assoc, List.append_cancel_left_eq] at hspelled
  by_contra hlength
  rcases stars_eq_cons marker with ⟨stars, hstars⟩
  rcases List.append_eq_append_iff.mp hspelled with ⟨more, rfl, -⟩ | ⟨more, rfl, hmore⟩
  · simp at hlength
  -- the closing marker of a shorter text begins inside `text`
  · cases more with
    | nil => simp at hlength
    | cons c more =>
        rw [hstars, List.cons_append, List.cons_append, List.cons.injEq] at hmore
        rcases hmore with ⟨rfl, -⟩
        exact hstar (by simp)

theorem width_le_of_encloses {marker wider : Marker} {text rest other tail : List Char}
    (hne : text ≠ []) (hstar : '*' ∉ text)
    (h : Encloses wider (marker.stars ++ text ++ rest) other tail) :
    wider.width ≤ marker.width := by
  rcases List.exists_cons_of_ne_nil hne with ⟨c, text, rfl⟩
  simp only [List.mem_cons, not_or] at hstar
  have hspelled := h.spelled
  cases marker <;> cases wider <;>
    simp [Marker.stars, Marker.width, List.replicate, Ne.symm hstar.1] at hspelled ⊢

theorem readsFirst_of_starless (marker : Marker) {text : List Char} (hne : text ≠ [])
    (hstar : '*' ∉ text) (hline : '\n' ∉ text) (rest : List Char) :
    ReadsFirst (marker.stars ++ text ++ marker.stars ++ rest) (.enclosed marker text) rest := by
  refine readsFirst_enclosed_iff.mpr ⟨enclosesFirst_of_starless hne hstar hline rest, ?_⟩
  rintro wider hwidth ⟨other, tail, hencloses⟩
  rw [List.append_assoc (marker.stars ++ text)] at hencloses
  have hle := width_le_of_encloses hne hstar hencloses
  omega

theorem readable_of_isSimple {spans : List Span} (h : ∀ span ∈ spans, IsSimple span) :
    Readable spans := by
  induction spans with
  | nil => exact .nil
  | cons span spans ih =>
      have hspan := h span (by simp)
      have hspans := ih fun other hother => h other (by simp [hother])
      cases hmarker : span.marker? with
      | none =>
          exact .plain (Span.isPlain_iff.mpr hmarker) hspan.nonempty hspan.starless hspans
      | some marker =>
          have hne : span.text.toList ≠ [] := by simpa using hspan.nonempty
          refine .emphasized hmarker ?_ hspans
          rw [written_cons, Span.written_of_marker? hmarker]
          exact readsFirst_of_starless marker hne hspan.starless hspan.oneLine (written spans)

theorem joinPlain_of_isChain {spans : List Span}
    (h : spans.IsChain fun span next => ¬ (span.isPlain ∧ next.isPlain)) :
    joinPlain spans = spans := by
  induction h with
  | nil => rfl
  | singleton span => rfl
  | @cons_cons span next spans happart _ ih =>
      rw [joinPlain, ih, Span.attach, if_neg]
      simpa using happart

/-- Spans with simple texts, no two plain ones beside each other, are read back from what they are
written as, whatever markers meet between them. -/
theorem parse_print {spans : List Span} (hsimple : ∀ span ∈ spans, IsSimple span)
    (happart : spans.IsChain fun span next => ¬ (span.isPlain ∧ next.isPlain)) :
    parse (print spans) = spans := by
  rw [(readable_of_isSimple hsimple).parse_written, joinPlain_of_isChain happart]

theorem parse_print_seams :
    let spans : List Span :=
      [⟨"a", true, true⟩, ⟨"b", true, true⟩, ⟨"c", true, false⟩, ⟨"d", false, true⟩,
        ⟨"e", false, false⟩, ⟨"f", false, true⟩, ⟨"g", false, true⟩]
    (∀ span ∈ spans, IsSimple span) ∧
      (spans.IsChain fun span next => ¬ (span.isPlain ∧ next.isPlain)) ∧
      print spans = "***a******b*****c***d*e*f**g*" ∧ parse (print spans) = spans := by
  intro spans
  have hsimple : ∀ span ∈ spans, IsSimple span := by decide
  have happart : spans.IsChain fun span next => ¬ (span.isPlain ∧ next.isPlain) := by decide
  exact ⟨hsimple, happart, by decide, parse_print hsimple happart⟩

end Inline

end Manuscript
