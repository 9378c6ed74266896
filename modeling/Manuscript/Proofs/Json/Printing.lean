import Manuscript.Proofs.Json.Scanning

/-!
# The characters of printed values

A printed value begins with a character that is neither space nor the end of an array.  It holds
no control character but the line feeds between the items of the pretty layout.
-/

namespace Manuscript.Json

open Text

def isNumberChar (c : Char) : Bool :=
  isDigit c || c == '-' || c == '+' || c == '.' || c == 'e'

theorem toNat_of_isNumberChar {c : Char} (h : isNumberChar c = true) :
    0x20 < c.toNat ∧ c.toNat ≠ 93 := by
  simp only [isNumberChar, Bool.or_eq_true, beq_iff_eq] at h
  rcases h with (((h | rfl) | rfl) | rfl) | rfl
  · have := toNat_of_isSome_decimalValue? h
    omega
  all_goals decide

theorem isNumberChar_of_mem_decimal {n : Nat} {c : Char} (h : c ∈ decimal n) :
    isNumberChar c = true := by
  have hdigit : isDigit c = true := isSome_of_mem_decimal h
  simp [isNumberChar, hdigit]

theorem isNumberChar_of_mem_exponentText {e : Int} {c : Char} (h : c ∈ Real64.exponentText e) :
    isNumberChar c = true := by
  have hdigits : ∀ d ∈ decimal e.natAbs, isNumberChar d = true := fun d =>
    isNumberChar_of_mem_decimal
  have hsigns : isNumberChar '-' = true ∧ isNumberChar '+' = true ∧ isNumberChar '0' = true := by
    decide
  simp only [Real64.exponentText, List.mem_cons] at h
  rcases h with rfl | h
  · split <;> simp [hsigns]
  · split at h
    · rcases List.mem_cons.mp h with rfl | h
      · exact hsigns.2.2
      · exact hdigits c h
    · exact hdigits c h

theorem isNumberChar_of_mem_layout {digits : List Char} {p : Int} {c : Char}
    (hdigits : ∀ d ∈ digits, isNumberChar d = true) (h : c ∈ Real64.layout digits p) :
    isNumberChar c = true := by
  have hchars : isNumberChar '.' = true ∧ isNumberChar 'e' = true ∧ isNumberChar '0' = true := by
    decide
  unfold Real64.layout at h
  dsimp only at h
  split_ifs at h with hpower hwhole hpoint
  · rcases List.mem_append.mp h with h | h
    · rcases digits with _ | ⟨d, _ | ⟨e, ds⟩⟩
      · cases h
      · exact hdigits c h
      · simp only [List.mem_cons] at h hdigits
        rcases h with rfl | rfl | h
        · exact hdigits c (.inl rfl)
        · exact hchars.1
        · exact hdigits c (.inr h)
    · rcases List.mem_cons.mp h with rfl | h
      · exact hchars.2.1
      · exact isNumberChar_of_mem_exponentText h
  · simp only [List.mem_append, List.mem_replicate, List.mem_cons, List.not_mem_nil,
      or_false] at h
    rcases h with (h | ⟨-, rfl⟩) | rfl | rfl
    · exact hdigits c h
    · exact hchars.2.2
    · exact hchars.1
    · exact hchars.2.2
  · rcases List.mem_append.mp h with h | h
    · exact hdigits c (List.mem_of_mem_take h)
    · rcases List.mem_cons.mp h with rfl | h
      · exact hchars.1
      · exact hdigits c (List.mem_of_mem_drop h)
  · simp only [List.cons_append, List.mem_cons, List.mem_append, List.mem_replicate] at h
    rcases h with rfl | rfl | ⟨-, rfl⟩ | h
    · exact hchars.2.2
    · exact hchars.1
    · exact hchars.2.2
    · exact hdigits c h

theorem layout_ne_nil (digits : List Char) (p : Int) : Real64.layout digits p ≠ [] := by
  unfold Real64.layout
  dsimp only
  split_ifs <;> simp

theorem Number.isNumberChar_of_mem_text {n : Number} {c : Char} (h : c ∈ n.text) :
    isNumberChar c = true := by
  have hchars : isNumberChar '-' = true ∧ isNumberChar '0' = true ∧ isNumberChar '.' = true := by
    decide
  cases n with
  | natural n => exact isNumberChar_of_mem_decimal h
  | negative n =>
      rcases List.mem_cons.mp h with rfl | h
      · exact hchars.1
      · exact isNumberChar_of_mem_decimal h
  | real x =>
      have hsign : ∀ d ∈ (if x.negative then ['-'] else []), isNumberChar d = true := by
        split <;> simp [hchars.1]
      simp only [Number.text, Real64.text] at h
      split at h
      · rcases List.mem_append.mp h with h | h
        · exact hsign c h
        · simp only [List.mem_cons, List.not_mem_nil, or_false] at h
          rcases h with rfl | rfl | rfl
          · exact hchars.2.1
          · exact hchars.2.2
          · exact hchars.2.1
      · rcases List.mem_append.mp h with h | h
        · exact hsign c h
        · exact isNumberChar_of_mem_layout (fun d => isNumberChar_of_mem_decimal) h

theorem Number.text_ne_nil (n : Number) : n.text ≠ [] := by
  cases n with
  | natural n => exact decimal_ne_nil n
  | negative n => exact List.cons_ne_nil _ _
  | real x =>
      simp only [Number.text, Real64.text]
      split
      · simp
      · simp [layout_ne_nil]

def Begins (cs : List Char) : Prop :=
  ∃ c rest, cs = c :: rest ∧ isSpace c = false ∧ c ≠ ']'

theorem Begins.append {cs : List Char} (h : Begins cs) (rest : List Char) :
    Begins (cs ++ rest) := by
  obtain ⟨c, tail, rfl, hc⟩ := h
  exact ⟨c, tail ++ rest, rfl, hc⟩

theorem begins_of_isNumberChar {c : Char} (h : isNumberChar c = true) (rest : List Char) :
    Begins (c :: rest) := by
  have hc := toNat_of_isNumberChar h
  refine ⟨c, rest, rfl, ?_, ?_⟩
  · by_contra hspace
    simp only [isSpace, Bool.not_eq_false, Bool.or_eq_true, beq_iff_eq] at hspace
    rcases hspace with ((rfl | rfl) | rfl) | rfl <;> exact absurd hc.1 (by decide)
  · rintro rfl
    exact hc.2 rfl

theorem begins_number (n : Number) : Begins n.text := by
  obtain ⟨c, rest, hcons⟩ := List.exists_cons_of_ne_nil n.text_ne_nil
  have hc := n.isNumberChar_of_mem_text (hcons ▸ List.mem_cons_self)
  rw [hcons]
  exact begins_of_isNumberChar hc rest

theorem begins_print (layout : Layout) (depth : Nat) (value : Json) :
    Begins (print layout depth value) := by
  cases value with
  | null => exact ⟨'n', _, by simp [print]; rfl, rfl, by decide⟩
  | bool b =>
      cases b with
      | false => exact ⟨'f', _, by simp [print]; rfl, rfl, by decide⟩
      | true => exact ⟨'t', _, by simp [print]; rfl, rfl, by decide⟩
  | number n =>
      rw [print]
      exact begins_number n
  | string s => exact ⟨'\x22', _, by simp [print, printString]; rfl, rfl, by decide⟩
  | array items => cases items <;> exact ⟨'[', _, by simp [print]; rfl, rfl, by decide⟩
  | object members =>
      rcases members with _ | ⟨⟨key, value⟩, members⟩ <;>
        exact ⟨'\x7b', _, by simp [print]; rfl, rfl, by decide⟩

/-! ## Control characters -/

def IsPlain (layout : Layout) (cs : List Char) : Prop :=
  ∀ c ∈ cs, c.toNat < 0x20 → layout = .pretty ∧ c = '\n'

namespace IsPlain

variable {layout : Layout} {cs ds : List Char}

theorem of_forall (h : ∀ c ∈ cs, 0x20 ≤ c.toNat) : IsPlain layout cs := fun c hc hcontrol =>
  absurd (h c hc) (by omega)

@[simp] theorem nil : IsPlain layout [] :=
  of_forall (by simp)

@[simp] theorem append_iff :
    IsPlain layout (cs ++ ds) ↔ IsPlain layout cs ∧ IsPlain layout ds := by
  constructor
  · intro h
    exact ⟨fun c hc => h c (by simp [hc]), fun c hc => h c (by simp [hc])⟩
  · rintro ⟨hcs, hds⟩ c hc
    rcases List.mem_append.mp hc with hc | hc
    · exact hcs c hc
    · exact hds c hc

@[simp] theorem cons_iff {c : Char} :
    IsPlain layout (c :: cs) ↔
      (c.toNat < 0x20 → layout = .pretty ∧ c = '\n') ∧ IsPlain layout cs := by
  constructor
  · intro h
    exact ⟨h c (by simp), fun d hd => h d (by simp [hd])⟩
  · rintro ⟨hc, hcs⟩ d hd
    rcases List.mem_cons.mp hd with rfl | hd
    · exact hc
    · exact hcs d hd

@[simp] theorem newline (layout : Layout) (depth : Nat) :
    IsPlain layout (layout.newline depth) := by
  cases layout with
  | compact => exact nil
  | pretty =>
      have hspaces : IsPlain .pretty (List.replicate (2 * depth) ' ') := by
        apply of_forall
        intro c hc
        rw [List.eq_of_mem_replicate hc]
        decide
      simp [Layout.newline, hspaces]

@[simp] theorem colon (layout : Layout) : IsPlain layout layout.colon := by
  cases layout <;> simp [Layout.colon]

@[simp] theorem number (layout : Layout) (n : Number) : IsPlain layout n.text :=
  of_forall fun _ hc => (toNat_of_isNumberChar (n.isNumberChar_of_mem_text hc)).1.le

theorem escapeChar (layout : Layout) (c : Char) : IsPlain layout (escapeChar c) := by
  have hdigit : ∀ d < 16, 0x20 ≤ (digit d).toNat := by decide
  rcases escapeChar_cases c with ⟨d, hescape, hsimple⟩ | ⟨hescape, hcontrol⟩ |
    ⟨hescape, -, -, hcontrol⟩
  · have hd : 0x20 ≤ d.toNat := by
      unfold simpleEscape? at hsimple
      split at hsimple <;> first | decide | cases hsimple
    simp [hescape, Nat.not_lt.mpr hd]
  · have hfirst := hdigit (c.toNat / 16) (by omega)
    have hsecond := hdigit (c.toNat % 16) (by omega)
    simp [hescape, Nat.not_lt.mpr hfirst, Nat.not_lt.mpr hsecond]
  · simp [hescape, Nat.not_lt.mpr hcontrol]

@[simp] theorem printString (layout : Layout) (s : String) : IsPlain layout (printString s) := by
  have hchars : IsPlain layout (s.toList.flatMap Json.escapeChar) := by
    intro d hd
    obtain ⟨c, -, hd⟩ := List.mem_flatMap.mp hd
    exact escapeChar layout c d hd
  simp [Json.printString, hchars]

end IsPlain

mutual

theorem isPlain_print (layout : Layout) : ∀ (depth : Nat) (value : Json),
    IsPlain layout (print layout depth value)
  | _, .null | _, .bool true | _, .bool false | _, .array [] | _, .object [] => by simp [print]
  | _, .number n => by simp [print]
  | _, .string s => by simp [print]
  | depth, .array (item :: items) => by
      have hitem := isPlain_print layout (depth + 1) item
      have hitems := isPlain_printItems layout (depth + 1) items
      simp [print, hitem, hitems]
  | depth, .object ((key, value) :: members) => by
      have hvalue := isPlain_print layout (depth + 1) value
      have hmembers := isPlain_printMembers layout (depth + 1) members
      simp [print, hvalue, hmembers]

theorem isPlain_printItems (layout : Layout) : ∀ (depth : Nat) (items : List Json),
    IsPlain layout (printItems layout depth items)
  | _, [] => .nil
  | depth, item :: items => by
      have hitem := isPlain_print layout depth item
      have hitems := isPlain_printItems layout depth items
      simp [printItems, hitem, hitems]

theorem isPlain_printMembers (layout : Layout) : ∀ (depth : Nat) (members : List (String × Json)),
    IsPlain layout (printMembers layout depth members)
  | _, [] => .nil
  | depth, (key, value) :: members => by
      have hvalue := isPlain_print layout depth value
      have hmembers := isPlain_printMembers layout depth members
      simp [printMembers, hvalue, hmembers]

end

end Manuscript.Json
