import Manuscript.Proofs.Json.Entries
import Manuscript.Proofs.Style.RoundTrip
import Mathlib.Data.Finset.Basic

/-!
# Styles from partial texts

A style can be given by some of its knobs.  In whatever order and layout they are written, and
whatever else is written with them, those that are given are taken and all others keep their
reference values.  Only the size and the color of a kind of text must come together: an object that
has just one of them is refused.
-/

namespace Manuscript

open Json (Entry IsMember IsString IsValue Padded Presents ReadsText Reader Reason isBlank_nil
  isString_printString padded_self)
open Json.Shape (Takes TakesMember Tracks takesMember_of)

namespace Style

inductive Knob where
  | fontFamily
  | size (of : Sized)
  | color (of : Sized)
  | subtitleBold
  | subtitleUnderline
  | justifyBody
  deriving DecidableEq

def role (style : Style) : Sized → RoleStyle
  | .title => style.title
  | .subtitle => style.subtitle
  | .body => style.body

def Agrees (style other : Style) : Knob → Prop
  | .fontFamily => style.fontFamily = other.fontFamily
  | .size of => (style.role of).size = (other.role of).size
  | .color of => (style.role of).color = (other.role of).color
  | .subtitleBold => style.subtitleBold = other.subtitleBold
  | .subtitleUnderline => style.subtitleUnderline = other.subtitleUnderline
  | .justifyBody => style.justifyBody = other.justifyBody

def boolText : Bool → List Char
  | false => ['f', 'a', 'l', 's', 'e']
  | true => ['t', 'r', 'u', 'e']

def roleEntries (style : Style) (knobs : Finset Knob) (of : Sized) : List Entry :=
  [⟨"size", .size of ∈ knobs, (· = Text.decimal (style.role of).size.toNat)⟩,
    ⟨"color", .color of ∈ knobs, IsString (style.role of).color.digits⟩]

/-- The object of a style: the knobs that are given, those of the named kinds of text in an object
of their own. -/
def entries (style : Style) (knobs : Finset Knob) (named : Finset Sized) : List Entry :=
  [⟨"font_family", .fontFamily ∈ knobs, IsString style.fontFamily⟩,
    ⟨"title", .title ∈ named, Presents (style.roleEntries knobs .title)⟩,
    ⟨"subtitle", .subtitle ∈ named, Presents (style.roleEntries knobs .subtitle)⟩,
    ⟨"body", .body ∈ named, Presents (style.roleEntries knobs .body)⟩,
    ⟨"subtitle_bold", .subtitleBold ∈ knobs, (· = boolText style.subtitleBold)⟩,
    ⟨"subtitle_underline", .subtitleUnderline ∈ knobs, (· = boolText style.subtitleUnderline)⟩,
    ⟨"justify_body", .justifyBody ∈ knobs, (· = boolText style.justifyBody)⟩]

section

variable {style : Style} {knobs : Finset Knob} {named : Finset Sized}

theorem readsText_size (n : UInt32) (room : Nat) :
    ReadsText (Reader.word32 room) (Text.decimal n.toNat) (.ok n) := by
  have hread := (Json.ReadsAs.word32 n).readsText .compact 0 (Nat.zero_le room)
  rwa [Json.natural, Json.print] at hread

theorem readsText_bool (b : Bool) (room : Nat) :
    ReadsText (Reader.boolean room) (boolText b) (.ok b) := by
  have hread := (Json.ReadsAs.boolean b).readsText .compact 0 (Nat.zero_le room)
  cases b <;> simpa [Json.print, boolText] using hread

def roleDraft (role : RoleStyle) (seen : List String) : RoleStyle.Draft where
  size := if "size" ∈ seen then some role.size else none
  color := if "color" ∈ seen then some role.color else none

theorem tracks_role (style : Style) (knobs : Finset Knob) (of : Sized) (room : Nat) :
    Tracks RoleStyle.shape.fields room (style.roleEntries knobs of)
      (roleDraft (style.role of)) fun _ => none where
  names := rfl
  nodup := by simp [roleEntries]
  same h := by
    simp only [roleEntries, List.map_cons, List.map_nil, List.forall_mem_cons] at h
    simp only [roleDraft, h.1, h.2.1]
  others _ := rfl
  takes hentry hfits hfresh := by
    simp only [roleEntries, List.mem_cons, List.not_mem_nil, or_false] at hentry
    rcases hentry with rfl | rfl
    · cases hfits
      exact takesMember_of rfl (by simp [roleDraft, hfresh]) (readsText_size _ room)
        (by simp [roleDraft, Except.map])
    · exact takesMember_of rfl (by simp [roleDraft, hfresh])
        ((style.role of).color.readsText hfits room) (by simp [roleDraft, Except.map])

theorem finish_roleDraft (role : RoleStyle) (seen : List String) :
    RoleStyle.shape.finish (roleDraft role seen) =
      if "size" ∈ seen then if "color" ∈ seen then .ok role else .error "color"
      else .error "size" := by
  by_cases hsize : "size" ∈ seen <;> by_cases hcolor : "color" ∈ seen <;>
    simp [roleDraft, hsize, hcolor] <;> rfl

def missing? (knobs : Finset Knob) (of : Sized) : Option String :=
  if .size of ∈ knobs then if .color of ∈ knobs then none else some "color" else some "size"

theorem readsText_role {of : Sized} {text : List Char}
    (h : Presents (style.roleEntries knobs of) text) (room : Nat) :
    ReadsText (RoleStyle.reader (room + 1)) text
      ((missing? knobs of).elim (.ok (style.role of)) fun name => .error (.missingField name)) := by
  obtain ⟨members, outcome, hobject, htakes, ⟨-, rfl⟩ | ⟨_, _, _, _, hnone, -⟩⟩ :=
    h.exists_takes (tracks_role style knobs of room)
  · have hstart : roleDraft (style.role of) [] = RoleStyle.shape.start := by
      simp [roleDraft, RoleStyle.shape]
    rw [hstart] at htakes
    have hsize : "size" ∈ ((style.roleEntries knobs of).filter (·.given)).map Entry.name ↔
        .size of ∈ knobs := by
      simp [roleEntries, or_and_right, exists_or, and_assoc]
    have hcolor : "color" ∈ ((style.roleEntries knobs of).filter (·.given)).map Entry.name ↔
        .color of ∈ knobs := by
      simp [roleEntries, or_and_right, exists_or, and_assoc]
    have hread := ReadsText.record hobject htakes
    change ReadsText _ _ ((RoleStyle.shape.finish _).mapError _) at hread
    simp only [finish_roleDraft, hsize, hcolor] at hread
    unfold missing?
    split_ifs at hread ⊢ <;> exact hread
  · cases hnone

/-! ## Whole styles -/

def draft (style : Style) (seen : List String) : Draft where
  fontFamily := if "font_family" ∈ seen then some style.fontFamily else none
  title := if "title" ∈ seen then some style.title else none
  subtitle := if "subtitle" ∈ seen then some style.subtitle else none
  body := if "body" ∈ seen then some style.body else none
  subtitleBold := if "subtitle_bold" ∈ seen then some style.subtitleBold else none
  subtitleUnderline := if "subtitle_underline" ∈ seen then some style.subtitleUnderline else none
  justifyBody := if "justify_body" ∈ seen then some style.justifyBody else none

def refused (knobs : Finset Knob) (name : String) : Option Reason :=
  if name = "title" then (missing? knobs .title).map .missingField
  else if name = "subtitle" then (missing? knobs .subtitle).map .missingField
  else if name = "body" then (missing? knobs .body).map .missingField
  else none

theorem tracks (style : Style) (knobs : Finset Knob) (named : Finset Sized) (room : Nat) :
    Tracks Style.shape.fields (room + 1) (style.entries knobs named) style.draft
      (refused knobs) where
  names := rfl
  nodup := by simp [entries]
  same h := by
    simp only [entries, List.map_cons, List.map_nil, List.forall_mem_cons] at h
    obtain ⟨hfont, htitle, hsubtitle, hbody, hbold, hunderline, hjustify, -⟩ := h
    simp only [draft, hfont, htitle, hsubtitle, hbody, hbold, hunderline, hjustify]
  others h := by
    simp only [entries, List.map_cons, List.map_nil, List.mem_cons, not_or] at h
    simp [refused, h]
  takes hentry hfits hfresh := by
    simp only [entries, List.mem_cons, List.not_mem_nil, or_false] at hentry
    rcases hentry with rfl | rfl | rfl | rfl | rfl | rfl | rfl
    · exact takesMember_of rfl (by simp [draft, hfresh])
        (Json.readsText_stringAs "a string" hfits (room + 1))
        (by simp [draft, refused, Except.map])
    · refine takesMember_of rfl (by simp [draft, hfresh]) (readsText_role hfits room) ?_
      cases hmissing : missing? knobs .title <;>
        simp [draft, refused, role, hmissing, Except.map]
    · refine takesMember_of rfl (by simp [draft, hfresh]) (readsText_role hfits room) ?_
      cases hmissing : missing? knobs .subtitle <;>
        simp [draft, refused, role, hmissing, Except.map]
    · refine takesMember_of rfl (by simp [draft, hfresh]) (readsText_role hfits room) ?_
      cases hmissing : missing? knobs .body <;>
        simp [draft, refused, role, hmissing, Except.map]
    · cases hfits
      exact takesMember_of rfl (by simp [draft, hfresh]) (readsText_bool _ _)
        (by simp [draft, refused, Except.map])
    · cases hfits
      exact takesMember_of rfl (by simp [draft, hfresh]) (readsText_bool _ _)
        (by simp [draft, refused, Except.map])
    · cases hfits
      exact takesMember_of rfl (by simp [draft, hfresh]) (readsText_bool _ _)
        (by simp [draft, refused, Except.map])

theorem refused_name (knobs : Finset Knob) (of : Sized) :
    refused knobs of.name = (missing? knobs of).map .missingField := by
  cases of <;> rfl

theorem mem_entries_role (style : Style) (knobs : Finset Knob) (named : Finset Sized)
    (of : Sized) :
    ⟨of.name, of ∈ named, Presents (style.roleEntries knobs of)⟩ ∈ style.entries knobs named := by
  cases of <;> simp [entries, Sized.name]

theorem exists_role_of_refused {entry : Entry} (hentry : entry ∈ style.entries knobs named)
    {reason : Reason} (h : refused knobs entry.name = some reason) :
    ∃ of, entry = ⟨of.name, of ∈ named, Presents (style.roleEntries knobs of)⟩ := by
  simp only [entries, List.mem_cons, List.not_mem_nil, or_false] at hentry
  rcases hentry with rfl | rfl | rfl | rfl | rfl | rfl | rfl
  · cases h
  · exact ⟨.title, rfl⟩
  · exact ⟨.subtitle, rfl⟩
  · exact ⟨.body, rfl⟩
  · cases h
  · cases h
  · cases h

/-- The style that is read if each kind of text that is named has both of its knobs. -/
def kept (style : Style) (knobs : Finset Knob) (named : Finset Sized) : Style :=
  (style.draft (((style.entries knobs named).filter (·.given)).map Entry.name)).style

theorem readsText_style {text : List Char} (h : Presents (style.entries knobs named) text)
    (room : Nat) :
    (∀ of ∈ named, missing? knobs of = none) ∧
        ReadsText (Style.reader (room + 2)) text (.ok (style.kept knobs named)) ∨
      ∃ of ∈ named, ∃ name, missing? knobs of = some name ∧
        ReadsText (Style.reader (room + 2)) text (.error (.missingField name)) := by
  obtain ⟨members, outcome, hobject, htakes, hcase⟩ :=
    h.exists_takes (tracks style knobs named room)
  have hstart : style.draft [] = Style.shape.start := by
    simp [draft, Style.shape]
  rw [hstart] at htakes
  have hread := ReadsText.record hobject htakes
  rcases hcase with ⟨hnone, rfl⟩ | ⟨entry, hentry, hgiven, reason, hreason, rfl⟩
  · refine .inl ⟨fun of hof => ?_, hread⟩
    have hrefused := hnone _ (mem_entries_role style knobs named of) (by simpa using hof)
    simpa [refused_name] using hrefused
  · obtain ⟨of, rfl⟩ := exists_role_of_refused hentry hreason
    have hof : of ∈ named := by simpa using hgiven
    rw [refused_name, Option.map_eq_some_iff] at hreason
    obtain ⟨name, hmissing, rfl⟩ := hreason
    exact .inr ⟨of, hof, name, hmissing, hread⟩

theorem getD_ite_some {α : Type} (p : Prop) [Decidable p] (a b : α) :
    (if p then some a else none).getD b = if p then a else b := by
  split <;> rfl

theorem kept_eq (style : Style) (knobs : Finset Knob) (named : Finset Sized) :
    style.kept knobs named =
      { fontFamily := if .fontFamily ∈ knobs then style.fontFamily else reference.fontFamily
        title := if .title ∈ named then style.title else reference.title
        subtitle := if .subtitle ∈ named then style.subtitle else reference.subtitle
        body := if .body ∈ named then style.body else reference.body
        subtitleBold :=
          if .subtitleBold ∈ knobs then style.subtitleBold else reference.subtitleBold
        subtitleUnderline :=
          if .subtitleUnderline ∈ knobs then style.subtitleUnderline
          else reference.subtitleUnderline
        justifyBody :=
          if .justifyBody ∈ knobs then style.justifyBody else reference.justifyBody } := by
  simp only [kept, draft, Draft.style, entries, List.mem_map, List.mem_filter, List.mem_cons,
    List.not_mem_nil, or_false, or_and_right, exists_or, and_assoc, exists_eq_left]
  simp [getD_ite_some]

theorem role_kept (style : Style) (knobs : Finset Knob) (named : Finset Sized) (of : Sized) :
    (style.kept knobs named).role of = if of ∈ named then style.role of else reference.role of := by
  cases of <;> rw [kept_eq, role, role, role]

theorem missing?_eq_none_iff {of : Sized} :
    missing? knobs of = none ↔ .size of ∈ knobs ∧ .color of ∈ knobs := by
  unfold missing?
  split_ifs <;> simp_all

theorem agrees_kept (hnamed : ∀ of, .size of ∈ knobs ∨ .color of ∈ knobs → of ∈ named)
    (hcomplete : ∀ of ∈ named, missing? knobs of = none) (knob : Knob) :
    (style.kept knobs named).Agrees (if knob ∈ knobs then style else .reference) knob := by
  have hrole : ∀ of, of ∈ named ↔ .size of ∈ knobs ∧ .color of ∈ knobs := fun of =>
    ⟨fun hof => missing?_eq_none_iff.mp (hcomplete of hof), fun hboth => hnamed of (.inl hboth.1)⟩
  cases knob with
  | size of =>
      by_cases hsize : .size of ∈ knobs
      · simp [Agrees, role_kept, hsize, hnamed of (.inl hsize)]
      · have hof : of ∉ named := fun hof => hsize ((hrole of).mp hof).1
        simp [Agrees, role_kept, hsize, hof]
  | color of =>
      by_cases hcolor : .color of ∈ knobs
      · simp [Agrees, role_kept, hcolor, hnamed of (.inr hcolor)]
      · have hof : of ∉ named := fun hof => hcolor ((hrole of).mp hof).2
        simp [Agrees, role_kept, hcolor, hof]
  | fontFamily | subtitleBold | subtitleUnderline | justifyBody =>
      simp only [kept_eq, Agrees]
      split_ifs <;> rfl

end

theorem IsFit.of_agrees {result : Style}
    (h : ∀ knob, ∃ other : Style, other.IsFit ∧ result.Agrees other knob) : result.IsFit := by
  obtain ⟨other, hfit, hfont⟩ := h .fontFamily
  have hsize : ∀ of, 1 ≤ (result.role of).size.toNat ∧ (result.role of).size.toNat ≤ 3276 := by
    intro of
    obtain ⟨sized, hsized, hsame⟩ := h (.size of)
    have hsame : (result.role of).size = (sized.role of).size := hsame
    rw [hsame]
    exact hsized.sizes _ (by cases of <;> simp [roles, role])
  have hfont : result.fontFamily = other.fontFamily := hfont
  refine ⟨hfont ▸ hfit.font_visible, hfont ▸ hfit.font_plain, fun role hrole => ?_⟩
  simp only [roles, List.mem_cons, List.not_mem_nil, or_false] at hrole
  rcases hrole with rfl | rfl | rfl
  · exact hsize .title
  · exact hsize .subtitle
  · exact hsize .body

theorem isFit_reference : reference.IsFit :=
  (fault?_eq_none_iff reference).mp (by decide)

/-! ## Texts -/

/-- The text of an object that gives some knobs of a fit style, in any order and layout, is
accepted if both knobs of each named kind of text are given.  The given knobs then have their
values, and all others their reference values.  Otherwise the text is refused for the first knob
that is missing in the object of some kind of text. -/
theorem ofJsonText_presents {style : Style} (hfit : style.IsFit) {knobs : Finset Knob}
    {named : Finset Sized} (hnamed : ∀ of, .size of ∈ knobs ∨ .color of ∈ knobs → of ∈ named)
    {object : List Char} (hobject : Presents (style.entries knobs named) object) {text : String}
    (htext : Padded object text.toList) :
    ((∀ of ∈ named, .size of ∈ knobs ∧ .color of ∈ knobs) →
        ∃ result, ofJsonText text = .ok result ∧
          ∀ knob, result.Agrees (if knob ∈ knobs then style else .reference) knob) ∧
      ((∃ of ∈ named, .size of ∉ knobs ∨ .color of ∉ knobs) →
        ∃ of ∈ named, ∃ report, ofJsonText text = .error (.style (.unreadable report)) ∧
          (.size of ∉ knobs ∧ report.reason = .missingField "size" ∨
            .size of ∈ knobs ∧ .color of ∉ knobs ∧ report.reason = .missingField "color")) := by
  rcases readsText_style hobject 125 with ⟨hcomplete, hread⟩ | ⟨of, hof, name, hmissing, hread⟩
  · have hboth : ∀ of ∈ named, .size of ∈ knobs ∧ .color of ∈ knobs := fun of hof =>
      missing?_eq_none_iff.mp (hcomplete of hof)
    refine ⟨fun _ => ⟨style.kept knobs named, ?_, agrees_kept hnamed hcomplete⟩, ?_⟩
    · have hkept : (style.kept knobs named).IsFit := by
        refine .of_agrees fun knob => ⟨_, ?_, agrees_kept hnamed hcomplete knob⟩
        split
        · exact hfit
        · exact isFit_reference
      have hfound : Json.read Style.reader text = .ok (style.kept knobs named) :=
        Json.gives_read htext hread
      rw [ofJsonText, hfound]
      change (do (style.kept knobs named).validate; .ok _) = _
      rw [(validate_eq_ok_iff _).mpr hkept]
      rfl
    · rintro ⟨of, hof, hlacks⟩
      have hgiven := hboth of hof
      tauto
  · have hlacks : ¬ (.size of ∈ knobs ∧ .color of ∈ knobs) := by
      rw [← missing?_eq_none_iff, hmissing]
      simp
    refine ⟨fun hboth => absurd (hboth of hof) hlacks, fun _ => ?_⟩
    obtain ⟨position, hfault⟩ := Json.gives_read htext hread
    refine ⟨of, hof, ⟨.missingField name, some position⟩, by rw [ofJsonText, hfault], ?_⟩
    unfold missing? at hmissing
    split_ifs at hmissing with hsize hcolor
    · cases hmissing
      exact .inr ⟨hsize, hcolor, rfl⟩
    · cases hmissing
      exact .inl ⟨hsize, rfl⟩

theorem isMember_spaced (key : String) (value : List Char) :
    IsMember (key, value) (Json.printString key ++ ':' :: ' ' :: value) := by
  have hspace : Json.IsBlank [' '] := by simp [Json.IsBlank, Json.isSpace]
  have hright : Padded value (' ' :: value) := by simpa using Padded.intro hspace isBlank_nil
  exact .intro (isString_printString key) (padded_self _) hright

theorem ofJsonText_presents_title :
    ∃ result, ofJsonText
        "\x7b\"x\": null,\"title\": \x7b\"color\": \"FF0000\",\"size\": 36\x7d\x7d" = .ok result ∧
      result.title.size = 36 ∧ result.title.color.digits = "FF0000" ∧
      result.subtitle.size = 24 ∧ result.justifyBody = true := by
  let style : Style := { title := ⟨36, ⟨"FF0000", by decide⟩⟩ }
  let knobs : Finset Knob := {.size .title, .color .title}
  let title := "\x7b\"color\": \"FF0000\",\"size\": 36\x7d".toList
  have hsize : Text.decimal 36 = ['3', '6'] := by decide +kernel
  have htitle : Presents (style.roleEntries knobs .title) title := by
    refine @Presents.intro _ _ [("size", ['3', '6']), ("color", "\"FF0000\"".toList)] [] _
      (.parts (.cons (isMember_spaced "color" _) (.one (isMember_spaced "size" _))))
      (.swap _ _ []) ?_ (by simp)
    exact .cons ⟨rfl, hsize.symm⟩ (.cons ⟨rfl, isString_printString "FF0000"⟩ .nil)
  have hobject : Presents (style.entries knobs {.title})
      "\x7b\"x\": null,\"title\": \x7b\"color\": \"FF0000\",\"size\": 36\x7d\x7d".toList := by
    refine @Presents.intro _ _ [("title", title)] [("x", ['n', 'u', 'l', 'l'])] _
      (.parts (.cons (isMember_spaced "x" _) (.one (isMember_spaced "title" _))))
      (.swap _ _ []) (.cons ⟨rfl, htitle⟩ .nil) ?_
    simpa [entries] using IsValue.null
  have hfit : style.IsFit := (fault?_eq_none_iff style).mp (by decide)
  have hnamed : ∀ of, .size of ∈ knobs ∨ .color of ∈ knobs → of ∈ ({.title} : Finset Sized) := by
    intro of
    cases of <;> decide
  obtain ⟨hcomplete, -⟩ := ofJsonText_presents hfit hnamed hobject (padded_self _)
  obtain ⟨result, hresult, hagrees⟩ := hcomplete (by decide)
  exact ⟨result, hresult, hagrees (.size .title), congrArg Color.digits (hagrees (.color .title)),
    hagrees (.size .subtitle), hagrees .justifyBody⟩

/-- A title that is given only its size is refused: its color does not keep the reference value. -/
theorem ofJsonText_size_only :
    ({ title := ⟨36, .black⟩ } : Style).IsFit ∧
      Presents (entries { title := ⟨36, .black⟩ } {.size .title} {.title})
        "\x7b\"title\": \x7b\"size\": 36\x7d\x7d".toList ∧
      ofJsonText "\x7b\"title\": \x7b\"size\": 36\x7d\x7d" =
        .error (.style (.unreadable ⟨.missingField "color", some ⟨1, 22⟩⟩)) := by
  have hsize : Text.decimal 36 = ['3', '6'] := by decide +kernel
  have htitle : Presents (roleEntries { title := ⟨36, .black⟩ } {.size .title} .title)
      "\x7b\"size\": 36\x7d".toList := by
    refine @Presents.intro _ _ [("size", ['3', '6'])] [] _
      (.parts (.one (isMember_spaced "size" _))) (.refl _) ?_ (by simp)
    exact .cons ⟨rfl, hsize.symm⟩ .nil
  refine ⟨(fault?_eq_none_iff _).mp (by decide), ?_, by with_unfolding_all rfl⟩
  exact @Presents.intro _ _ [("title", "\x7b\"size\": 36\x7d".toList)] [] _
    (.parts (.one (isMember_spaced "title" _))) (.refl _) (.cons ⟨rfl, htitle⟩ .nil) (by simp)

end Style

end Manuscript
