import Manuscript.Json.Record
import Manuscript.Proofs.Json.Grammar

/-!
# Records are read from the texts of objects

The members of an object are taken one after another, in the order in which they are written.  A
member that no field has the name of is passed over, and the first value that its field refuses
ends the reading.
-/

namespace Manuscript.Json

variable {α δ : Type}

inductive Leads : Bool → List Char → Prop
  | first : Leads true []
  | next {pad : List Char} (hpad : IsBlank pad) : Leads false (pad ++ [','])

theorem nextKey_name {first : Bool} {lead pad name : List Char} {key : String}
    (hlead : Leads first lead) (hpad : IsBlank pad) (hname : IsString key name)
    (rest : List Char) :
    nextKey first (lead ++ (pad ++ (name ++ rest))) = .ok (some key, rest) := by
  obtain ⟨hinside⟩ := hname
  have hcomma : isSpace ',' = false := rfl
  have hquote : isSpace '\x22' = false := rfl
  cases hlead with
  | first =>
      simp [nextKey, skipSpace_append hpad, skipSpace_cons hquote, stringBody_of_spells hinside,
        bind, Except.bind]
  | next hbefore =>
      simp [nextKey, skipSpace_append hbefore, skipSpace_cons hcomma, skipSpace_append hpad,
        skipSpace_cons hquote, stringBody_of_spells hinside, bind, Except.bind]

theorem nextKey_end {pad : List Char} (first : Bool) (hpad : IsBlank pad) (rest : List Char) :
    nextKey first (pad ++ '\x7d' :: rest) = .ok (none, '\x7d' :: rest) := by
  have hclose : isSpace '\x7d' = false := rfl
  simp [nextKey, skipSpace_append hpad, skipSpace_cons hclose]

theorem colon_append {pad : List Char} (hpad : IsBlank pad) (rest : List Char) :
    colon (pad ++ ':' :: rest) = .ok rest := by
  have hcolon : isSpace ':' = false := rfl
  simp [colon, skipSpace_append hpad, skipSpace_cons hcolon]

namespace Shape

variable {fields : List (Field δ)} {room : Nat} {draft : δ}

theorem readMembers_eq (first : Bool) (cs : List Char) :
    readMembers fields room first draft cs =
      match nextKey first cs with
      | .error fault => .error fault
      | .ok (none, rest) => .ok (draft, rest)
      | .ok (some key, rest) =>
        match readMember fields room draft key rest with
        | .error fault => .error fault
        | .ok (next, rest) => readMembers fields room false next rest := by
  rw [readMembers]
  split
  · next hkey => simp only [hkey]
  · next hkey => simp only [hkey]
  · next hkey =>
      simp only [hkey]
      split <;> rename_i hmember <;> simp only [hmember]

def TakesMember (fields : List (Field δ)) (room : Nat) (draft : δ) (member : String × List Char)
    (outcome : Except Reason δ) : Prop :=
  ∀ ⦃cs pad rest : List Char⦄, colon cs = .ok (pad ++ (member.2 ++ rest)) → IsBlank pad →
    EndsNumber rest → Gives (readMember fields room draft member.1 cs) rest outcome

theorem takesMember_other {key : String} {text : List Char}
    (hfind : fields.find? (fun field => field.name == key) = none) (htext : IsValue text) :
    TakesMember fields room draft (key, text) (.ok draft) := by
  intro cs pad rest hcolon hpad hrest
  have hskip := htext.skip hpad hrest
  simp only [readMember, hfind, hcolon]
  change (skip (pad ++ (text ++ rest)) >>= fun rest => .ok (draft, rest)) = _
  rw [hskip]
  rfl

theorem takesMember_field {key : String} {text : List Char} {field : Field δ}
    {outcome : Except Reason (δ → δ)}
    (hfind : fields.find? (fun field => field.name == key) = some field)
    (hempty : field.isFilled draft = false) (hread : ReadsText (field.read room) text outcome) :
    TakesMember fields room draft (key, text) (outcome.map fun fill => fill draft) := by
  intro cs pad rest hcolon hpad hrest
  have hgives := hread hpad hrest
  cases outcome with
  | ok fill =>
      change field.read room _ = _ at hgives
      simp only [readMember, hfind, hempty, hcolon, bind, Except.bind, hgives, Bool.false_eq_true,
        ↓reduceIte]
      rfl
  | error reason =>
      obtain ⟨left, hgives⟩ := hgives
      refine ⟨left, ?_⟩
      simp only [readMember, hfind, hempty, hcolon, bind, Except.bind, hgives, Bool.false_eq_true,
        ↓reduceIte]

/-- What comes of a draft by members in their order: the first value that is refused decides. -/
inductive Takes (fields : List (Field δ)) (room : Nat) :
    δ → List (String × List Char) → Except Reason δ → Prop
  | nil (draft : δ) : Takes fields room draft [] (.ok draft)
  | cons {draft next : δ} {member : String × List Char} {members : List (String × List Char)}
      {outcome : Except Reason δ} (hmember : TakesMember fields room draft member (.ok next))
      (hrest : Takes fields room next members outcome) :
      Takes fields room draft (member :: members) outcome
  | fault {draft : δ} {member : String × List Char} {members : List (String × List Char)}
      {reason : Reason} (hmember : TakesMember fields room draft member (.error reason)) :
      Takes fields room draft (member :: members) (.error reason)

theorem gives_readMember {member : String × List Char} {text : List Char}
    (h : IsMember member text) {first : Bool} {lead : List Char} (hlead : Leads first lead)
    {rest : List Char} (hrest : EndsNumber rest) :
    ∃ mid pad, IsBlank pad ∧ nextKey first (lead ++ (text ++ rest)) = .ok (some member.1, mid) ∧
      ∀ {outcome : Except Reason δ}, TakesMember fields room draft member outcome →
        Gives (readMember fields room draft member.1 mid) (pad ++ rest) outcome := by
  obtain ⟨hname, ⟨hbefore, hafter⟩, ⟨hpad, hlast⟩⟩ := h
  rename_i name before after pad last
  refine ⟨after ++ ':' :: (pad ++ (member.2 ++ (last ++ rest))), last, hlast, ?_, ?_⟩
  · have hkey := nextKey_name hlead hbefore hname
      (after ++ ':' :: (pad ++ (member.2 ++ (last ++ rest))))
    simpa using hkey
  · intro outcome htakes
    exact htakes (colon_append hafter _) hpad (isBlank_append_endsNumber hlast hrest)

theorem gives_readMembers {members : List (String × List Char)} {outcome : Except Reason δ}
    (htakes : Takes fields room draft members outcome) {inside : List Char}
    (h : Separated IsMember members inside) {first : Bool} {lead : List Char}
    (hlead : Leads first lead) (rest : List Char) :
    Gives (readMembers fields room first draft (lead ++ (inside ++ '\x7d' :: rest)))
      ('\x7d' :: rest) outcome := by
  induction htakes generalizing inside first lead with
  | nil => cases h
  | @cons draft next member members outcome hmember hrest ih =>
      cases h with
      | one h =>
          have hend : EndsNumber ('\x7d' :: rest) := endsNumber_cons (by decide) rest
          obtain ⟨mid, pad, hpad, hkey, hread⟩ := gives_readMember h hlead hend
          have hnext : readMember fields room draft member.1 mid = _ := hread hmember
          cases hrest
          simp only [readMembers_eq, hkey, hnext, nextKey_end false hpad]
          rfl
      | @cons _ _ text tail h hseparated =>
          have hend : EndsNumber (',' :: (tail ++ '\x7d' :: rest)) := endsNumber_cons (.inl rfl) _
          obtain ⟨mid, pad, hpad, hkey, hread⟩ := gives_readMember h hlead hend
          have hnext : readMember fields room draft member.1 mid = _ := hread hmember
          have htail := ih hseparated (.next hpad)
          rw [List.append_assoc, List.cons_append, readMembers_eq, hkey]
          simp only [hnext]
          simpa using htail
  | @fault draft member members reason hmember =>
      have hfault : ∀ {text tail : List Char}, IsMember member text → EndsNumber tail →
          Gives (readMembers fields room first draft (lead ++ (text ++ tail))) ('\x7d' :: rest)
            (.error reason) := by
        intro text tail htext hend
        obtain ⟨mid, pad, hpad, hkey, hread⟩ := gives_readMember htext hlead hend
        obtain ⟨left, hplaced⟩ := hread hmember
        exact ⟨left, by rw [readMembers_eq, hkey]; simp only [hplaced]⟩
      cases h with
      | one h => exact hfault h (endsNumber_cons (by decide) rest)
      | cons h _ =>
          rw [List.append_assoc]
          exact hfault h (endsNumber_cons (.inl rfl) _)

end Shape

/-! ## Whole objects -/

theorem Shape.gives_inside {fields : List (Field δ)} {room : Nat} {draft : δ}
    {members : List (String × List Char)} {outcome : Except Reason δ}
    (htakes : Takes fields room draft members outcome) {text : List Char}
    (h : IsObject members text) :
    ∃ inside, text = '\x7b' :: inside ∧ ∀ rest,
      Gives (readMembers fields room true draft (inside ++ rest)) ('\x7d' :: rest) outcome := by
  cases h with
  | @nothing pad hpad =>
      cases htakes
      refine ⟨pad ++ ['\x7d'], rfl, fun rest => ?_⟩
      rw [List.append_assoc, List.cons_append, List.nil_append, readMembers_eq,
        nextKey_end true hpad]
      rfl
  | @parts _ inside h =>
      refine ⟨inside ++ ['\x7d'], rfl, fun rest => ?_⟩
      rw [List.append_assoc]
      exact gives_readMembers htakes h .first rest

theorem ReadsText.record {shape : Shape δ α} {room : Nat} {members : List (String × List Char)}
    {text : List Char} {outcome : Except Reason δ} (h : IsObject members text)
    (htakes : Shape.Takes shape.fields room shape.start members outcome) :
    ReadsText (shape.read (room + 1)) text
      (outcome.bind fun draft => (shape.finish draft).mapError Reason.missingField) := by
  intro pad rest hpad _
  obtain ⟨inside, rfl, hinside⟩ := Shape.gives_inside htakes h
  have hgives := hinside rest
  have hopen : isSpace '\x7b' = false := rfl
  have hread : shape.read (room + 1) (pad ++ ('\x7b' :: inside ++ rest)) =
      inObject (shape.readObject room) (inside ++ rest) := by
    simp only [Shape.read, Reader.enclosed, List.cons_append, afterSpace_append hpad hopen]
    rfl
  rw [hread]
  cases outcome with
  | error reason =>
      obtain ⟨left, hgives⟩ := hgives
      refine ⟨left, ?_⟩
      simp only [inObject, Shape.readObject, hgives, bind, Except.bind, Fault.inObject]
  | ok draft =>
      change Shape.readMembers shape.fields room true shape.start _ = _ at hgives
      have hclose : endObject ('\x7d' :: rest) = .ok rest := rfl
      simp only [inObject, Shape.readObject, hgives, bind, Except.bind]
      cases shape.finish draft with
      | ok a =>
          simp only [hclose]
          rfl
      | error name => exact ⟨_, rfl⟩

theorem gives_read {reader : Reader α} {value : List Char} {outcome : Except Reason α}
    {text : String} (h : Padded value text.toList)
    (hread : ReadsText (reader maxDepth) value outcome) :
    match outcome with
    | .ok a => read reader text = .ok a
    | .error reason => ∃ position, read reader text = .error ⟨reason, some position⟩ := by
  generalize hcs : text.toList = cs at h
  obtain ⟨hbefore, hafter⟩ := h
  rename_i before after
  have hgives := hread hbefore
    (isBlank_append_endsNumber hafter (by simp [EndsNumber] : EndsNumber []))
  rw [List.append_nil] at hgives
  cases outcome with
  | ok a =>
      have hspace : skipSpace after = [] := by
        rw [← List.append_nil after, skipSpace_append hafter]
        rfl
      change reader maxDepth _ = _ at hgives
      simp only [read, hcs, hgives, hspace]
  | error reason =>
      obtain ⟨left, hgives⟩ := hgives
      simp only [read, hcs, hgives]
      exact ⟨_, rfl⟩

end Manuscript.Json
