import Manuscript.Proofs.Assembly
import Manuscript.Proofs.Dumps

/-!
# Styles are read back

A style that is written in JSON is read back as it was, and then accepted or refused by the same
check.  So what is accepted can be written and accepted again.
-/

namespace Manuscript

open Json (Reader ReadsAs)
open Json.Shape (Fills)

/-- A font with a name that can be seen, and sizes in bounds. -/
structure Style.IsFit (style : Style) : Prop where
  font_visible : ∃ c ∈ style.fontFamily.toList, Text.isBlank c = false
  font_plain : ∀ c ∈ style.fontFamily.toList, Text.isControl c = false
  sizes : ∀ role ∈ style.roles, 1 ≤ role.size.toNat ∧ role.size.toNat ≤ 3276

theorem Style.sizeFault?_of_le {role : RoleStyle} (hlower : 1 ≤ role.size.toNat)
    (hupper : role.size.toNat ≤ 3276) (of : Style.Sized) : Style.sizeFault? of role = none := by
  have hmax : Style.maxSize.toNat = 3276 := rfl
  have hzero : role.size ≠ 0 := by
    intro hzero
    rw [hzero, UInt32.toNat_zero] at hlower
    exact absurd hlower (by decide)
  have hbound : ¬ Style.maxSize < role.size := by
    rw [UInt32.lt_iff_toNat_lt]
    omega
  rw [Style.sizeFault?, if_neg (not_or.mpr ⟨hzero, hbound⟩)]

theorem Style.fault?_eq_none_iff (style : Style) : style.fault? = none ↔ style.IsFit := by
  constructor
  · intro h
    have hsizes : ∀ role ∈ style.roles, 1 ≤ role.size.toNat ∧ role.size.toNat ≤ 3276 :=
      fun _ hrole => Style.size_of_fit h hrole
    unfold Style.fault? at h
    split at h
    · cases h
    split at h
    · cases h
    next hblank hcontrol => exact ⟨by simpa using hblank, by simpa using hcontrol, hsizes⟩
  · rintro ⟨hvisible, hplain, hsizes⟩
    have hfits : ∀ role ∈ style.roles, ∀ of, Style.sizeFault? of role = none :=
      fun role hrole => Style.sizeFault?_of_le (hsizes role hrole).1 (hsizes role hrole).2
    have hblank : ¬ style.fontFamily.toList.all Text.isBlank = true := by simpa using hvisible
    have hcontrol : ¬ style.fontFamily.toList.any Text.isControl = true := by simpa using hplain
    rw [Style.fault?, if_neg hblank, if_neg hcontrol, hfits _ (by simp [Style.roles]),
      hfits _ (by simp [Style.roles]), hfits _ (by simp [Style.roles])]
    rfl

theorem Style.validate_eq_ok_iff (style : Style) : style.validate = .ok () ↔ style.IsFit := by
  rw [← Style.fault?_eq_none_iff, Style.validate]
  cases style.fault? <;> simp

theorem RoleStyle.readsAs (style : RoleStyle) : ReadsAs 1 RoleStyle.reader style.toJson style := by
  have hfills : Fills RoleStyle.shape.fields 0 RoleStyle.shape.start
      [("size", .natural style.size.toNat), ("color", style.color.toJson)]
      ⟨style.size, style.color⟩ :=
    .of rfl rfl (.word32 style.size) <| .of rfl rfl style.color.readsAs <| .nil _
  exact ReadsAs.record hfills rfl

theorem Style.readsAs (style : Style) : ReadsAs 2 Style.reader style.toJson style := by
  have hfills : Fills Style.shape.fields 1 Style.shape.start
      [("font_family", .string style.fontFamily), ("title", style.title.toJson),
        ("subtitle", style.subtitle.toJson), ("body", style.body.toJson),
        ("subtitle_bold", .bool style.subtitleBold),
        ("subtitle_underline", .bool style.subtitleUnderline),
        ("justify_body", .bool style.justifyBody)]
      ⟨style.fontFamily, style.title, style.subtitle, style.body, style.subtitleBold,
        style.subtitleUnderline, style.justifyBody⟩ :=
    .of rfl rfl ((ReadsAs.stringAs _ style.fontFamily).mono (by decide)) <|
      .of rfl rfl style.title.readsAs <| .of rfl rfl style.subtitle.readsAs <|
      .of rfl rfl style.body.readsAs <|
      .of rfl rfl ((ReadsAs.boolean style.subtitleBold).mono (by decide)) <|
      .of rfl rfl ((ReadsAs.boolean style.subtitleUnderline).mono (by decide)) <|
      .of rfl rfl ((ReadsAs.boolean style.justifyBody).mono (by decide)) <| .nil _
  exact ReadsAs.record hfills rfl

theorem Style.read_jsonText (style : Style) : Json.read Style.reader style.jsonText = .ok style :=
  Json.read_render style.readsAs (by decide) .pretty

theorem Style.ofJsonText_eq_validate (style : Style) :
    Style.ofJsonText style.jsonText = style.validate.map fun _ => style := by
  rw [Style.ofJsonText, Style.read_jsonText]
  change (do style.validate; .ok style) = _
  cases style.validate <;> rfl

theorem Style.validate_of_ofJsonText {text : String} {style : Style}
    (h : Style.ofJsonText text = .ok style) : style.validate = .ok () := by
  unfold Style.ofJsonText at h
  split at h
  · cases h
  · next found hread =>
      cases hvalid : found.validate with
      | error error =>
          rw [hvalid] at h
          cases h
      | ok done =>
          rw [hvalid] at h
          cases h
          exact hvalid

/-- A style is accepted from its own text if it passes the check, and is otherwise refused for the
fault that the check finds.  Whatever text a style is accepted from, the style passes the check, and
writing it gives a text that is read and written without change. -/
theorem Style.ofJsonText_jsonText :
    (∀ style : Style,
      (style.validate = .ok () → Style.ofJsonText style.jsonText = .ok style) ∧
        ∀ error, style.validate = .error error →
          Style.ofJsonText style.jsonText = .error error ∧
            ∃ fault, error = .style (.unfit fault)) ∧
      ∀ (text : String) (style : Style), Style.ofJsonText text = .ok style →
        style.validate = .ok () ∧ style.IsFit ∧
          (∀ role ∈ style.roles, role.color.digits.length = 6 ∧
            ∀ c ∈ role.color.digits.toList,
              ('0' ≤ c ∧ c ≤ '9') ∨ ('a' ≤ c ∧ c ≤ 'f') ∨ ('A' ≤ c ∧ c ≤ 'F')) ∧
          Style.ofJsonText style.jsonText = .ok style ∧
          (Style.ofJsonText style.jsonText).map Style.jsonText = .ok style.jsonText := by
  have haccepted : ∀ style : Style, style.validate = .ok () →
      Style.ofJsonText style.jsonText = .ok style := by
    intro style hvalid
    rw [Style.ofJsonText_eq_validate, hvalid]
    rfl
  refine ⟨fun style => ⟨haccepted style, fun error hinvalid => ⟨?_, ?_⟩⟩,
    fun text style hread => ?_⟩
  · rw [Style.ofJsonText_eq_validate, hinvalid]
    rfl
  · rw [Style.validate] at hinvalid
    split at hinvalid
    · cases hinvalid
    · next fault _ =>
        cases hinvalid
        exact ⟨fault, rfl⟩
  · have hvalid := Style.validate_of_ofJsonText hread
    have hagain := haccepted style hvalid
    refine ⟨hvalid, (Style.validate_eq_ok_iff style).mp hvalid,
      fun role _ => role.color.hexadecimal, hagain, ?_⟩
    rw [hagain]
    rfl

theorem Style.ofJsonText_jsonText_font :
    Style.ofJsonText "\x7b\"font_family\": \"\\u00c9t\\u00e9\"\x7d" =
        .ok { fontFamily := "Été" } ∧
      Style.ofJsonText ({ fontFamily := "Été" } : Style).jsonText =
        .ok { fontFamily := "Été" } ∧
      ({ fontFamily := " " } : Style).validate = .error (.style (.unfit .blankFont)) ∧
      Style.ofJsonText ({ fontFamily := " " } : Style).jsonText =
        .error (.style (.unfit .blankFont)) := by
  have hread : Style.ofJsonText "\x7b\"font_family\": \"\\u00c9t\\u00e9\"\x7d" =
      .ok { fontFamily := "Été" } := by
    with_unfolding_all rfl
  have hblank : ({ fontFamily := " " } : Style).validate = .error (.style (.unfit .blankFont)) := by
    cbv
  obtain ⟨hvalid, -⟩ := Style.ofJsonText_jsonText.2 _ _ hread
  have haccepted := (Style.ofJsonText_jsonText.1 { fontFamily := "Été" }).1 hvalid
  have hrefused := (Style.ofJsonText_jsonText.1 { fontFamily := " " }).2 _ hblank
  exact ⟨hread, haccepted, hblank, hrefused.1⟩

end Manuscript
