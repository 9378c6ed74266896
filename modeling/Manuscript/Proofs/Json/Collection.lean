import Manuscript.Proofs.Json.Members

/-!
# Printed arrays and records are read back

The items of a printed array are read one after another, up to its end, and so are the members
of a printed object.  A record is read back if each of its members fills a field that is still
missing and the draft is complete at the end.
-/

namespace Manuscript.Json

variable {α δ : Type}

theorem nextItem_first {pad cs : List Char} (hpad : IsBlank pad) (h : Begins cs) :
    nextItem true (pad ++ cs) = .ok (true, cs) := by
  obtain ⟨c, rest, rfl, hspace, hclose⟩ := h
  simp [nextItem, skipSpace_append hpad, skipSpace_cons hspace, hclose]

theorem nextItem_next {pad cs : List Char} (hpad : IsBlank pad) (h : Begins cs) :
    nextItem false (',' :: (pad ++ cs)) = .ok (true, cs) := by
  obtain ⟨c, rest, rfl, hspace, hclose⟩ := h
  have hcomma : isSpace ',' = false := rfl
  simp [nextItem, skipSpace_cons hcomma, skipSpace_append hpad, skipSpace_cons hspace, hclose]

theorem nextItem_end {pad : List Char} (first : Bool) (hpad : IsBlank pad) (rest : List Char) :
    nextItem first (pad ++ ']' :: rest) = .ok (false, ']' :: rest) := by
  have hclose : isSpace ']' = false := rfl
  simp [nextItem, skipSpace_append hpad, skipSpace_cons hclose]

theorem items_end {item : ValueScan α} {first : Bool} {cs rest : List Char}
    (h : nextItem first cs = .ok (false, rest)) : items item first cs = .ok ([], rest) := by
  rw [items]
  split <;> rename_i heq <;> rw [h] at heq <;> cases heq
  rfl

theorem items_cons {item : ValueScan α} {first : Bool} {cs mid rest : List Char} {a : α}
    (h : nextItem first cs = .ok (true, mid)) (hitem : item mid = .ok (a, rest)) :
    items item first cs = (do
      let (as, rest) ← items item false rest
      .ok (a :: as, rest)) := by
  rw [items]
  split <;> rename_i heq <;> rw [h] at heq <;> cases heq
  split <;> rename_i heq <;> rw [hitem] at heq <;> cases heq
  rfl

theorem endsNumber_newline (layout : Layout) (depth : Nat) {c : Char} (hc : c = ']' ∨ c = '\x7d')
    (rest : List Char) : EndsNumber (layout.newline depth ++ c :: rest) := by
  cases layout with
  | compact => exact endsNumber_cons (by tauto) rest
  | pretty => exact endsNumber_cons (by tauto) _

theorem endsNumber_printItems (layout : Layout) (depth : Nat) (values : List Json)
    {rest : List Char} (hrest : EndsNumber rest) :
    EndsNumber (printItems layout depth values ++ rest) := by
  cases values with
  | nil => exact hrest
  | cons value values => exact endsNumber_cons (.inl rfl) _

theorem items_printed (layout : Layout) (depth outer : Nat) {levels room : Nat}
    {item : Reader α} {toJson : α → Json} {as : List α} (hroom : levels ≤ room)
    (h : ∀ a ∈ as, ReadsAs levels item (toJson a) a) (rest : List Char) :
    items (item room) false
        (printItems layout depth (as.map toJson) ++ (layout.newline outer ++ ']' :: rest)) =
      .ok (as, ']' :: rest) := by
  induction as with
  | nil => exact items_end (nextItem_end false (isBlank_newline layout outer) rest)
  | cons a as ih =>
      have hend : EndsNumber (printItems layout depth (as.map toJson) ++
          (layout.newline outer ++ ']' :: rest)) :=
        endsNumber_printItems _ _ _ (endsNumber_newline layout outer (.inl rfl) rest)
      have hitem := (h a (by simp)).read layout depth hroom isBlank_nil hend
      have hnext := nextItem_next (isBlank_newline layout depth)
        ((begins_print layout depth (toJson a)).append
          (printItems layout depth (as.map toJson) ++ (layout.newline outer ++ ']' :: rest)))
      have hall := items_cons hnext hitem
      rw [ih fun b hb => h b (by simp [hb])] at hall
      simpa [printItems, bind, Except.bind] using hall

theorem items_printed_first (layout : Layout) (depth : Nat) {levels room : Nat}
    {item : Reader α} {toJson : α → Json} {as : List α} (hroom : levels ≤ room)
    (h : ∀ a ∈ as, ReadsAs levels item (toJson a) a) (rest : List Char) :
    ∃ inside, print layout depth (.array (as.map toJson)) ++ rest = '[' :: inside ∧
      items (item room) true inside = .ok (as, ']' :: rest) := by
  cases as with
  | nil => exact ⟨']' :: rest, rfl, items_end (nextItem_end true isBlank_nil rest)⟩
  | cons a as =>
      have htail := items_printed layout (depth + 1) depth hroom
        (fun b hb => h b (List.mem_cons_of_mem a hb)) rest
      generalize hafter : printItems layout (depth + 1) (as.map toJson) ++
        (layout.newline depth ++ ']' :: rest) = after at htail
      have hend : EndsNumber after :=
        hafter ▸ endsNumber_printItems _ _ _ (endsNumber_newline layout depth (.inl rfl) rest)
      have hitem := (h a (by simp)).read layout (depth + 1) hroom isBlank_nil hend
      have hnext := nextItem_first (isBlank_newline layout (depth + 1))
        ((begins_print layout (depth + 1) (toJson a)).append after)
      have hall := items_cons hnext hitem
      rw [htail] at hall
      refine ⟨_, ?_, hall⟩
      simp [print, ← hafter]

theorem ReadsAs.list {levels : Nat} {item : Reader α} {toJson : α → Json} {as : List α}
    (h : ∀ a ∈ as, ReadsAs levels item (toJson a) a) :
    ReadsAs (levels + 1) (Reader.list item) (.array (as.map toJson)) as := by
  constructor
  intro layout depth room pad rest hroom hpad _
  have hopen : isSpace '[' = false := rfl
  have hclose : endList (']' :: rest) = .ok rest := rfl
  have hinner : levels ≤ room - 1 := by omega
  obtain ⟨inside, hprint, hitems⟩ := items_printed_first layout depth hinner h rest
  simp only [hprint, Reader.list, afterSpace_append hpad hopen]
  rw [if_neg (by omega)]
  simp [inList, hitems, hclose, bind, Except.bind]

/-! ## Objects -/

theorem colon_bind (layout : Layout) (depth : Nat) {levels room : Nat} {reader : Reader α}
    {value : Json} {a : α} {rest : List Char} (h : ReadsAs levels reader value a)
    (hroom : levels ≤ room) (hrest : EndsNumber rest) :
    (colon (layout.colon ++ (print layout depth value ++ rest)) >>= reader room) =
      .ok (a, rest) := by
  obtain ⟨pad, hpad, hcolon⟩ := exists_colon layout
  rw [hcolon, List.cons_append, ← List.nil_append (':' :: _), colon_append isBlank_nil]
  exact h.read layout depth hroom hpad hrest

theorem isMember_printed (layout : Layout) (depth : Nat) {after : List Char}
    (hafter : IsBlank after) (member : String × Json) :
    IsMember (member.1, print layout depth member.2) (layout.newline depth ++
      (printString member.1 ++ (layout.colon ++ (print layout depth member.2 ++ after)))) := by
  obtain ⟨pad, hpad, hcolon⟩ := exists_colon layout
  have hleft : Padded (printString member.1) _ := .intro (isBlank_newline layout depth) isBlank_nil
  have hright : Padded (print layout depth member.2) _ := .intro hpad hafter
  have hmember : IsMember (member.1, print layout depth member.2) _ :=
    .intro (isString_printString member.1) hleft hright
  simpa [hcolon] using hmember

theorem separated_printed (layout : Layout) (depth : Nat) {after : List Char}
    (hafter : IsBlank after) (member : String × Json) (members : List (String × Json)) :
    Separated IsMember
      ((member :: members).map fun member => (member.1, print layout depth member.2))
      (layout.newline depth ++ (printString member.1 ++ (layout.colon ++
        (print layout depth member.2 ++ (printMembers layout depth members ++ after))))) := by
  induction members generalizing member with
  | nil =>
      simp only [List.map_cons, List.map_nil, printMembers, List.nil_append]
      exact .one (isMember_printed layout depth hafter member)
  | cons next members ih =>
      have hmember := isMember_printed layout depth isBlank_nil member
      have hall := Separated.cons hmember (ih next)
      rw [List.map_cons]
      simpa [printMembers] using hall

theorem isObject_print (layout : Layout) (depth : Nat) (members : List (String × Json)) :
    IsObject (members.map fun member => (member.1, print layout (depth + 1) member.2))
      (print layout depth (.object members)) := by
  cases members with
  | nil =>
      rw [print]
      exact .nothing isBlank_nil
  | cons member members =>
      have hall := separated_printed layout (depth + 1) (isBlank_newline layout depth) member
        members
      rw [print]
      simpa using Encloses.parts hall

namespace Shape

variable {fields : List (Field δ)} {levels : Nat} {draft final : δ}

inductive Fills (fields : List (Field δ)) (levels : Nat) : δ → List (String × Json) → δ → Prop
  | nil (draft : δ) : Fills fields levels draft [] draft
  | cons {draft final : δ} {key : String} {value : Json} {members : List (String × Json)}
      (field : Field δ) (fill : δ → δ)
      (hfind : fields.find? (fun field => field.name == key) = some field)
      (hempty : field.isFilled draft = false) (hread : ReadsAs levels field.read value fill)
      (hmembers : Fills fields levels (fill draft) members final) :
      Fills fields levels draft ((key, value) :: members) final

theorem Fills.of {name : String} {get : δ → Option α} {set : α → δ → δ} {read : Reader α}
    {value : Json} {members : List (String × Json)} {a : α}
    (hfind : fields.find? (fun field => field.name == name) = some (.of name get set read))
    (hempty : get draft = none) (hread : ReadsAs levels read value a)
    (hmembers : Fills fields levels (set a draft) members final) :
    Fills fields levels draft ((name, value) :: members) final := by
  refine .cons (.of name get set read) (set a) hfind ?_ (hread.map set) hmembers
  simp [Field.of, hempty]

theorem Fills.takes {members : List (String × Json)} (h : Fills fields levels draft members final)
    (layout : Layout) (depth : Nat) {room : Nat} (hroom : levels ≤ room) :
    Takes fields room draft
      (members.map fun member => (member.1, print layout depth member.2)) (.ok final) := by
  induction h with
  | nil draft => exact .nil draft
  | cons field fill hfind hempty hread _ ih =>
      have hmember := takesMember_field hfind hempty (hread.readsText layout depth hroom)
      exact .cons hmember ih

end Shape

theorem ReadsAs.enclosed {levels : Nat} {array object : Nat → Scan α}
    {harray : ∀ room, Takes 0 (array room)} {hobject : ∀ room, Takes 0 (object room)}
    {expected : String} {members : List (String × Json)} {a : α}
    (h : ∀ (layout : Layout) (depth : Nat) {room : Nat} (rest : List Char), levels ≤ room →
      ∃ inside, print layout depth (.object members) ++ rest = '\x7b' :: inside ∧
        object room inside = .ok (a, '\x7d' :: rest)) :
    ReadsAs (levels + 1) (Reader.enclosed array object harray hobject expected)
      (.object members) a := by
  constructor
  intro layout depth room pad rest hroom hpad _
  have hopen : isSpace '\x7b' = false := rfl
  have hclose : endObject ('\x7d' :: rest) = .ok rest := rfl
  have hinner : levels ≤ room - 1 := by omega
  obtain ⟨inside, hprint, hinside⟩ := h layout depth rest hinner
  simp only [hprint, Reader.enclosed, afterSpace_append hpad hopen]
  rw [if_neg (by omega)]
  simp [inObject, hinside, hclose, bind, Except.bind]

theorem ReadsAs.record {levels : Nat} {shape : Shape δ α} {members : List (String × Json)}
    {draft : δ} {a : α} (hfills : Shape.Fills shape.fields levels shape.start members draft)
    (hfinish : shape.finish draft = .ok a) :
    ReadsAs (levels + 1) shape.read (.object members) a := by
  constructor
  intro layout depth room pad rest hroom hpad hrest
  obtain ⟨inner, rfl⟩ : ∃ inner, room = inner + 1 := ⟨room - 1, by omega⟩
  have hread := ReadsText.record (isObject_print layout depth members)
    (hfills.takes layout (depth + 1) (by omega : levels ≤ inner)) hpad hrest
  change Gives _ rest ((shape.finish draft).mapError Reason.missingField) at hread
  rwa [hfinish] at hread

end Manuscript.Json
