import Manuscript.Json.Reader
/-!
# Reading JSON arrays and objects

What arrays and objects have in common: the separators of their items, their ends, and the place
of a fault that concerns them as a whole.
-/

namespace Manuscript.Json

def nextItem (first : Bool) (cs : List Char) : Except Fault (Bool × List Char) :=
  match skipSpace cs with
  | [] => .error (.next .endInList [])
  | c :: rest =>
    if c = ']' then .ok (false, c :: rest)
    else if first then .ok (true, c :: rest)
    else if c = ',' then
      match skipSpace rest with
      | [] => .error (.next .endInValue [])
      | d :: rest =>
        if d = ']' then .error (.next .trailingComma (d :: rest)) else .ok (true, d :: rest)
    else .error (.next .expectedListEnd (c :: rest))

theorem length_nextItem {first more : Bool} {cs rest : List Char}
    (h : nextItem first cs = .ok (more, rest)) : rest.length ≤ cs.length := by
  have hs := length_skipSpace cs
  unfold nextItem at h
  split at h
  · cases h
  · next c tail hc =>
    rw [hc] at hs
    split at h
    · cases h; exact hs
    split at h
    · cases h; exact hs
    split at h
    · have ht := length_skipSpace tail
      split at h
      · cases h
      · next hd =>
        rw [hd] at ht
        split at h
        · cases h
        · cases h
          simp only [List.length_cons] at hs ht ⊢
          omega
    · cases h

def endList (cs : List Char) : Except Fault (List Char) :=
  match skipSpace cs with
  | [] => .error (.next .endInList [])
  | c :: rest =>
    if c = ']' then .ok rest
    else if c = ',' then
      match skipSpace rest with
      | ']' :: rest => .error (.next .trailingComma (']' :: rest))
      | rest => .error (.next .trailingCharacters rest)
    else .error (.next .trailingCharacters (c :: rest))

theorem length_endList {cs rest : List Char} (h : endList cs = .ok rest) :
    rest.length < cs.length := by
  have hs := length_skipSpace cs
  unfold endList at h
  split at h
  · cases h
  · next hc =>
    rw [hc] at hs
    split at h
    · cases h; exact hs
    split at h
    · split at h
      · cases h
      · cases h
    · cases h

def pastList (cs : List Char) : List Char :=
  match skipSpace cs with
  | ']' :: rest => rest
  | ',' :: rest => skipSpace rest
  | rest => rest

/-- Gives a fault of an array as a whole its place. -/
def Fault.inList : Fault → Fault
  | placed reason left => .placed reason left
  | unplaced reason rest => .before reason (pastList rest)

def inList {α : Type} (read : Scan α) : Scan α := fun cs =>
  match read cs with
  | .error fault => .error fault.inList
  | .ok (a, rest) => do .ok (a, ← endList rest)

theorem takes_inList {α : Type} {read : Scan α} (hread : Takes 0 read) :
    Takes 1 (inList read) := by
  intro cs rest a h
  unfold inList at h
  split at h
  · cases h
  · next hr =>
    obtain ⟨_, he, h⟩ := ok_of_bind h
    have h₁ := hread hr
    have h₂ := length_endList he
    cases h
    omega

def items {α : Type} (item : ValueScan α) (first : Bool) (cs : List Char) :
    Except Fault (List α × List Char) :=
  match _hn : nextItem first cs with
  | .error fault => .error fault
  | .ok (false, rest) => .ok ([], rest)
  | .ok (true, rest) =>
    match _hi : item rest with
    | .error fault => .error fault
    | .ok (a, rest) => do
      let (as, rest) ← items item false rest
      .ok (a :: as, rest)
termination_by cs.length
decreasing_by exact Nat.lt_of_lt_of_le (item.takes _hi) (length_nextItem _hn)

theorem takes_items {α : Type} (item : ValueScan α) (first : Bool) :
    Takes 0 (items item first) := by
  intro cs rest as h
  fun_induction items item first cs generalizing rest as with
  | case1 => cases h
  | case2 _ _ _ hn => cases h; exact length_nextItem hn
  | case3 => cases h
  | case4 _ _ _ hn _ _ hi ih =>
    obtain ⟨⟨_, _⟩, hr, h⟩ := ok_of_bind h
    have h₁ := length_nextItem hn
    have h₂ := item.takes hi
    have h₃ := ih hr
    cases h
    omega

def Reader.list {α : Type} (item : Reader α) : Reader (List α) := fun room => {
  scan := afterSpace fun cs =>
    match cs with
    | '[' :: rest =>
      if room = 0 then .error (.next .tooDeep cs)
      else inList (items (item (room - 1)) true) rest
    | _ => wrongType "a sequence" cs
  takes := takes_afterSpace (by
    intro cs rest a h
    dsimp only at h
    split at h
    · split at h
      · cases h
      · exact Nat.le_succ_of_le (takes_inList (takes_items _ true) h)
    · exact takes_wrongType 1 "a sequence" h) }

/-! ## Objects -/

def nextKey (first : Bool) (cs : List Char) : Except Fault (Option String × List Char) :=
  let key : List Char → Except Fault (Option String × List Char) := fun rest => do
    let (s, rest) ← stringBody rest
    .ok (some s, rest)
  match skipSpace cs with
  | [] => .error (.next .endInObject [])
  | c :: rest =>
    if c = '\x7d' then .ok (none, c :: rest)
    else if first then
      if c = '\x22' then key rest else .error (.next .expectedKey (c :: rest))
    else if c = ',' then
      match skipSpace rest with
      | [] => .error (.next .endInValue [])
      | d :: rest =>
        if d = '\x22' then key rest
        else if d = '\x7d' then .error (.next .trailingComma (d :: rest))
        else .error (.next .expectedKey (d :: rest))
    else .error (.next .expectedObjectEnd (c :: rest))

theorem length_nextKey {first : Bool} {cs rest : List Char} {key : Option String}
    (h : nextKey first cs = .ok (key, rest)) :
    rest.length + key.toList.length ≤ cs.length := by
  have hs := length_skipSpace cs
  have quoted {tail : List Char} (ht : tail.length < cs.length)
      (h : (do
        let (s, rest) ← stringBody tail
        .ok (some s, rest) : Except Fault (Option String × List Char)) = .ok (key, rest)) :
      rest.length + key.toList.length ≤ cs.length := by
    obtain ⟨⟨_, _⟩, hb, h⟩ := ok_of_bind h
    cases h
    exact Nat.le_trans (takes_stringBody hb) (Nat.le_of_lt ht)
  unfold nextKey at h
  dsimp only at h
  split at h
  · cases h
  · next c tail hc =>
    rw [hc] at hs
    split at h
    · cases h; exact hs
    split at h
    · split at h
      · exact quoted hs h
      · cases h
    split at h
    · have ht := length_skipSpace tail
      split at h
      · cases h
      · next hd =>
        rw [hd] at ht
        split at h
        · exact quoted (Nat.lt_of_lt_of_le ht (Nat.le_of_lt hs)) h
        split at h
        · cases h
        · cases h
    · cases h

def endObject (cs : List Char) : Except Fault (List Char) :=
  match skipSpace cs with
  | [] => .error (.next .endInObject [])
  | c :: rest =>
    if c = '\x7d' then .ok rest
    else if c = ',' then .error (.next .trailingComma (c :: rest))
    else .error (.next .trailingCharacters (c :: rest))

theorem length_endObject {cs rest : List Char} (h : endObject cs = .ok rest) :
    rest.length < cs.length := by
  have hs := length_skipSpace cs
  unfold endObject at h
  split at h
  · cases h
  · next hc =>
    rw [hc] at hs
    split at h
    · cases h; exact hs
    split at h
    · cases h
    · cases h

def pastObject (cs : List Char) : List Char :=
  match skipSpace cs with
  | '\x7d' :: rest => rest
  | rest => rest

def Fault.inObject : Fault → Fault
  | placed reason left => .placed reason left
  | unplaced reason rest => .before reason (pastObject rest)

def inObject {α : Type} (read : Scan α) : Scan α := fun cs =>
  match read cs with
  | .error fault => .error fault.inObject
  | .ok (a, rest) => do .ok (a, ← endObject rest)

theorem takes_inObject {α : Type} {read : Scan α} (hread : Takes 0 read) :
    Takes 1 (inObject read) := by
  intro cs rest a h
  unfold inObject at h
  split at h
  · cases h
  · next hr =>
    obtain ⟨_, he, h⟩ := ok_of_bind h
    have h₁ := hread hr
    have h₂ := length_endObject he
    cases h
    omega

def Reader.enclosed {α : Type} (array object : Nat → Scan α)
    (harray : ∀ room, Takes 0 (array room)) (hobject : ∀ room, Takes 0 (object room))
    (expected : String) : Reader α := fun room => {
  scan := afterSpace fun cs =>
    match cs with
    | '[' :: rest =>
      if room = 0 then .error (.next .tooDeep cs) else inList (array (room - 1)) rest
    | '\x7b' :: rest =>
      if room = 0 then .error (.next .tooDeep cs) else inObject (object (room - 1)) rest
    | _ => wrongType expected cs
  takes := takes_afterSpace (by
    intro cs rest a h
    dsimp only at h
    split at h
    · split at h
      · cases h
      · exact Nat.le_succ_of_le (takes_inList (harray _) h)
    · split at h
      · cases h
      · exact Nat.le_succ_of_le (takes_inObject (hobject _) h)
    · exact takes_wrongType 1 expected h) }

/-! ## Names -/

def Reader.known {α : Type} (names : List (String × α)) : Reader α := fun room => {
  scan := fun cs => do
    let (s, rest) ← Reader.stringAs "variant identifier" room cs
    match names.lookup s with
    | some a => .ok (a, rest)
    | none => .error (.before (.unknownVariant s (names.map Prod.fst)) rest)
  takes := by
    intro cs rest a h
    obtain ⟨⟨_, _⟩, hs, h⟩ := ok_of_bind h
    dsimp only at h
    split at h
    · cases h; exact (Reader.stringAs "variant identifier" room).takes hs
    · cases h }

/-- The inside of an object whose only key is a name and whose only value is `null`, up to and
with its end. -/
def nameKey {α : Type} (names : List (String × α)) (room : Nat) : Scan α := fun cs => do
  let (a, rest) ← Reader.known names room cs
  let rest ← colon rest
  let (_, rest) ← Reader.unit "unit" room rest
  match skipSpace rest with
  | '\x7d' :: rest => .ok (a, rest)
  | [] => .error (.before .endInObject [])
  | c :: rest => .error (.before .expectedValue (c :: rest))

theorem takes_nameKey {α : Type} (names : List (String × α)) (room : Nat) :
    Takes 1 (nameKey names room) := by
  intro cs rest a h
  obtain ⟨⟨_, _⟩, hk, h⟩ := ok_of_bind h
  obtain ⟨_, hc, h⟩ := ok_of_bind h
  obtain ⟨⟨_, left⟩, hu, h⟩ := ok_of_bind h
  have h₁ := (Reader.known names room).takes hk
  have h₂ := length_colon hc
  have h₃ := (Reader.unit "unit" room).takes hu
  have h₄ := length_skipSpace left
  dsimp only at h
  split at h
  · next hs =>
    rw [hs, List.length_cons] at h₄
    cases h
    omega
  · cases h
  · cases h

/-- The value that a name stands for; the name may also be the key of an object that holds
nothing but `null`. -/
def Reader.name {α : Type} (names : List (String × α)) : Reader α := fun room => {
  scan := afterSpace fun cs =>
    match cs with
    | '\x22' :: _ => Reader.known names room cs
    | '\x7b' :: rest =>
      if room = 0 then .error (.next .tooDeep cs) else nameKey names (room - 1) rest
    | _ => .error (.next .expectedValue cs)
  takes := takes_afterSpace (by
    intro cs rest a h
    dsimp only at h
    split at h
    · exact (Reader.known names room).takes h
    · split at h
      · cases h
      · exact Nat.le_succ_of_le (takes_nameKey names _ h)
    · cases h) }

end Manuscript.Json
