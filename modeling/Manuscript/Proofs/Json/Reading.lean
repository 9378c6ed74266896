import Manuscript.Json.Collection
import Manuscript.Proofs.Json.Printing

/-!
# Values are read from their texts

What a reader makes of a text must not depend on the space before it, nor on what follows, as long
as that ends a number.  A reader reads a printed value as `a` if it does so in both layouts and at
every depth, provided that enough arrays and objects may still be opened.
-/

namespace Manuscript.Json

open Text

variable {α β : Type}

def IsBlank (pad : List Char) : Prop :=
  ∀ c ∈ pad, isSpace c = true

theorem isBlank_nil : IsBlank [] := by
  simp [IsBlank]

theorem isBlank_newline (layout : Layout) (depth : Nat) : IsBlank (layout.newline depth) := by
  cases layout with
  | compact => exact isBlank_nil
  | pretty =>
      intro c hc
      simp only [Layout.newline, List.mem_cons, List.mem_replicate] at hc
      rcases hc with rfl | ⟨-, rfl⟩ <;> rfl

theorem skipSpace_append {pad cs : List Char} (hpad : IsBlank pad) :
    skipSpace (pad ++ cs) = skipSpace cs :=
  List.dropWhile_append_of_pos hpad

theorem skipSpace_cons {c : Char} (hc : isSpace c = false) (cs : List Char) :
    skipSpace (c :: cs) = c :: cs := by
  simp [skipSpace, hc]

theorem afterSpace_append {scan : Scan α} {pad : List Char} {c : Char} (hpad : IsBlank pad)
    (hc : isSpace c = false) (cs : List Char) :
    afterSpace scan (pad ++ c :: cs) = scan (c :: cs) := by
  simp only [afterSpace, skipSpace_append hpad, skipSpace_cons hc]

theorem exists_colon (layout : Layout) : ∃ pad, IsBlank pad ∧ layout.colon = ':' :: pad := by
  cases layout with
  | compact => exact ⟨[], isBlank_nil, rfl⟩
  | pretty => exact ⟨[' '], by simp [IsBlank, isSpace], rfl⟩

theorem endsNumber_cons {c : Char} (hc : c = ',' ∨ c = ']' ∨ c = '\x7d' ∨ c = '\n')
    (cs : List Char) : EndsNumber (c :: cs) := by
  rintro d hd
  cases Option.mem_some_iff.mp hd
  rcases hc with rfl | rfl | rfl | rfl <;> decide

def Gives (result : Except Fault (α × List Char)) (rest : List Char) : Except Reason α → Prop
  | .ok a => result = .ok (a, rest)
  | .error reason => ∃ left, result = .error (.placed reason left)

/-- What a reader makes of a text, wherever it stands. -/
def ReadsText (read : ValueScan α) (text : List Char) (outcome : Except Reason α) : Prop :=
  ∀ ⦃pad rest : List Char⦄, IsBlank pad → EndsNumber rest →
    Gives (read (pad ++ (text ++ rest))) rest outcome

theorem ReadsText.map {reader : Reader α} {room : Nat} {text : List Char}
    {outcome : Except Reason α} (f : α → β) (h : ReadsText (reader room) text outcome) :
    ReadsText (reader.map f room) text (outcome.map f) := by
  intro pad rest hpad hrest
  have hread := h hpad hrest
  cases outcome with
  | ok a =>
      change reader room _ = _ at hread
      simp only [Reader.map, hread]
      rfl
  | error reason =>
      obtain ⟨left, hread⟩ := hread
      refine ⟨left, ?_⟩
      simp only [Reader.map, hread]
      rfl

theorem readsText_stringAs (expected : String) {s : String} {text : List Char}
    (h : IsString s text) (room : Nat) :
    ReadsText (Reader.stringAs expected room) text (.ok s) := by
  intro pad rest hpad _
  obtain ⟨hinside⟩ := h
  have hspace : isSpace '\x22' = false := rfl
  simp only [List.cons_append, List.append_assoc, Reader.stringAs, afterSpace_append hpad hspace]
  exact stringBody_of_spells hinside rest

/-- A reader that may open `levels` arrays and objects inside one another gives `a` where `value`
is printed. -/
structure ReadsAs (levels : Nat) (reader : Reader α) (value : Json) (a : α) : Prop where
  read (layout : Layout) (depth : Nat) {room : Nat} {pad rest : List Char} : levels ≤ room →
    IsBlank pad → EndsNumber rest →
      reader room (pad ++ (print layout depth value ++ rest)) = .ok (a, rest)

namespace ReadsAs

variable {levels : Nat} {reader : Reader α} {value : Json} {a : α}

theorem mono (h : ReadsAs levels reader value a) {more : Nat} (hmore : levels ≤ more) :
    ReadsAs more reader value a :=
  ⟨fun layout depth _ _ _ hroom => h.read layout depth (hmore.trans hroom)⟩

theorem readsText (h : ReadsAs levels reader value a) (layout : Layout) (depth : Nat) {room : Nat}
    (hroom : levels ≤ room) : ReadsText (reader room) (print layout depth value) (.ok a) :=
  fun _ _ => h.read layout depth hroom

theorem map (f : α → β) (h : ReadsAs levels reader value a) :
    ReadsAs levels (reader.map f) value (f a) :=
  ⟨fun layout depth _ _ _ hroom hpad hrest =>
    (h.readsText layout depth hroom).map f hpad hrest⟩

theorem stringAs (expected s : String) : ReadsAs 0 (Reader.stringAs expected) (.string s) s := by
  constructor
  intro layout depth room pad rest _ hpad hrest
  rw [print]
  exact readsText_stringAs expected (isString_printString s) room hpad hrest

theorem boolean (b : Bool) : ReadsAs 0 Reader.boolean (.bool b) b := by
  constructor
  intro layout depth room pad rest _ hpad _
  cases b with
  | false =>
      have hprint : print layout depth (.bool false) = ['f', 'a', 'l', 's', 'e'] := by
        simp [print]
      have hspace : isSpace 'f' = false := rfl
      simp only [hprint, List.cons_append, Reader.boolean, afterSpace_append hpad hspace]
      rfl
  | true =>
      have hprint : print layout depth (.bool true) = ['t', 'r', 'u', 'e'] := by
        simp [print]
      have hspace : isSpace 't' = false := rfl
      simp only [hprint, List.cons_append, Reader.boolean, afterSpace_append hpad hspace]
      rfl

theorem natural {limit n : Nat} (expected : String) (hn : n < limit)
    (hlimit : limit ≤ maxSignificand) :
    ReadsAs 0 (Reader.natural limit expected) (.natural n) n := by
  constructor
  intro layout depth room pad rest _ hpad hrest
  obtain ⟨c, cs, hdecimal⟩ := List.exists_cons_of_ne_nil (decimal_ne_nil n)
  have hdigit : isDigit c = true := isSome_of_mem_decimal (n := n) (by simp [hdecimal])
  have hspace : isSpace c = false := by
    obtain ⟨d, ds, hcons, hd, -⟩ := begins_number (.natural n)
    change decimal n = d :: ds at hcons
    rw [hdecimal, List.cons.injEq] at hcons
    exact hcons.1 ▸ hd
  have hminus : c ≠ '-' := by
    rintro rfl
    exact absurd hdigit (by decide)
  have hread := magnitude_decimal (n := n) (by omega) hrest
  have hprint : print layout depth (.natural n) = c :: cs := hdecimal
  rw [hdecimal, List.cons_append] at hread
  simp only [hprint, List.cons_append, Reader.natural, afterSpace_append hpad hspace]
  split
  · rename_i heq
    exact absurd (List.cons.inj heq).1 hminus
  · simp [startsWithDigit, hdigit, naturalMagnitude, hread, bind, Except.bind, Number.below, hn]

theorem word32 (n : UInt32) : ReadsAs 0 Reader.word32 (.natural n.toNat) n := by
  have h := (natural "u32" n.toNat_lt (by decide)).map UInt32.ofNat
  rwa [UInt32.ofNat_toNat] at h

theorem word8 (n : UInt8) : ReadsAs 0 Reader.word8 (.natural n.toNat) n := by
  have h := (natural "u8" n.toNat_lt (by decide)).map UInt8.ofNat
  rwa [UInt8.ofNat_toNat] at h

theorem known {names : List (String × α)} {s : String} (h : names.lookup s = some a) :
    ReadsAs 0 (Reader.known names) (.string s) a := by
  constructor
  intro layout depth room pad rest hroom hpad hrest
  have hstring := (stringAs "variant identifier" s).read layout depth hroom hpad hrest
  simp [Reader.known, hstring, bind, Except.bind, h]

theorem name {names : List (String × α)} {s : String} (h : names.lookup s = some a) :
    ReadsAs 0 (Reader.name names) (.string s) a := by
  constructor
  intro layout depth room pad rest hroom hpad hrest
  have hknown := (known h).read layout depth hroom isBlank_nil hrest
  have hspace : isSpace '\x22' = false := rfl
  simp only [print, printString, List.cons_append, List.nil_append] at hknown ⊢
  simp only [Reader.name, afterSpace_append hpad hspace]
  exact hknown

end ReadsAs

/-- A value that is read back within the depth that is allowed is read back from its text. -/
theorem read_render {levels : Nat} {reader : Reader α} {value : Json} {a : α}
    (h : ReadsAs levels reader value a) (hlevels : levels ≤ maxDepth) (layout : Layout) :
    read reader (render layout value) = .ok a := by
  have hend : EndsNumber [] := by simp [EndsNumber]
  have hread := h.read layout 0 hlevels isBlank_nil hend
  rw [List.nil_append, List.append_nil] at hread
  simp [read, render, hread, skipSpace]

end Manuscript.Json
