import Manuscript.Json.Skip
/-!
# Records

A record is read from an object by the names of its fields, or from an array by their order.
Members with other names are passed over. What has been read so far is a draft, which becomes
the record once it holds everything.
-/

namespace Manuscript.Json

structure Field (δ : Type) where
  name : String
  isFilled : δ → Bool
  read : Reader (δ → δ)

/-- The field that a draft keeps under `get` and receives by `set`. -/
def Field.of {δ α : Type} (name : String) (get : δ → Option α) (set : α → δ → δ)
    (read : Reader α) : Field δ :=
  ⟨name, fun draft => (get draft).isSome, read.map set⟩

structure Shape (δ α : Type) where
  name : String
  fields : List (Field δ)
  start : δ
  /-- The record of a draft, or the name of the first field that is missing. -/
  finish : δ → Except String α

namespace Shape

variable {δ α : Type}

def title (shape : Shape δ α) : String :=
  "struct " ++ shape.name

def arrayTitle (shape : Shape δ α) : String :=
  let n := shape.fields.length
  shape.title ++ " with " ++ Text.showNat n ++ (if n = 1 then " element" else " elements")

/-- Reads as many fields as an array holds, at most the given ones. Gives the draft, how many
there were, and what is left. -/
def readItems (room : Nat) (first : Bool) (draft : δ) (count : Nat) :
    List (Field δ) → List Char → Except Fault (δ × Nat × List Char)
  | [], cs => .ok (draft, count, cs)
  | field :: fields, cs =>
    match nextItem first cs with
    | .error fault => .error fault
    | .ok (false, rest) => .ok (draft, count, rest)
    | .ok (true, rest) => do
      let (fill, rest) ← field.read room rest
      readItems room false (fill draft) (count + 1) fields rest

theorem length_readItems {room count n : Nat} {first : Bool} {draft filled : δ}
    {fields : List (Field δ)} {cs rest : List Char}
    (h : readItems room first draft count fields cs = .ok (filled, n, rest)) :
    rest.length ≤ cs.length := by
  induction fields generalizing first draft count cs with
  | nil => cases h; exact Nat.le_refl _
  | cons field fields ih =>
    unfold readItems at h
    split at h
    · cases h
    · next hn => cases h; exact length_nextItem hn
    · next hn =>
      obtain ⟨⟨_, _⟩, hr, h⟩ := ok_of_bind h
      have h₁ := length_nextItem hn
      have h₂ := (field.read room).takes hr
      have h₃ := ih h
      omega

def readArray (shape : Shape δ α) (room : Nat) : Scan α := fun cs => do
  let (draft, count, rest) ← readItems room true shape.start 0 shape.fields cs
  match shape.finish draft with
  | .ok a => .ok (a, rest)
  | .error _ => .error (.unplaced (.wrongLength count shape.arrayTitle) rest)

theorem takes_readArray (shape : Shape δ α) (room : Nat) : Takes 0 (shape.readArray room) := by
  intro cs rest a h
  obtain ⟨⟨_, _, _⟩, hr, h⟩ := ok_of_bind h
  dsimp only at h
  split at h
  · cases h; exact length_readItems hr
  · cases h

def readMember (fields : List (Field δ)) (room : Nat) (draft : δ) (key : String) : Scan δ :=
  fun cs =>
  match fields.find? fun field => field.name == key with
  | none => do .ok (draft, ← colon cs >>= skip)
  | some field =>
    if field.isFilled draft then .error (.unplaced (.duplicateField key) cs)
    else do
      let (fill, rest) ← colon cs >>= field.read room
      .ok (fill draft, rest)

theorem takes_readMember (fields : List (Field δ)) (room : Nat) (draft : δ) (key : String) :
    Takes 1 (readMember fields room draft key) := by
  intro cs rest filled h
  unfold readMember at h
  split at h
  · obtain ⟨_, hs, h⟩ := ok_of_bind h
    obtain ⟨_, hc, hs⟩ := ok_of_bind hs
    have h₁ := length_colon hc
    have h₂ := length_skip hs
    cases h
    omega
  · next field _ =>
    split at h
    · cases h
    · obtain ⟨⟨_, _⟩, hr, h⟩ := ok_of_bind h
      obtain ⟨_, hc, hr⟩ := ok_of_bind hr
      have h₁ := length_colon hc
      have h₂ := (field.read room).takes hr
      cases h
      omega

def readMembers (fields : List (Field δ)) (room : Nat) (first : Bool) (draft : δ)
    (cs : List Char) : Except Fault (δ × List Char) :=
  match _hk : nextKey first cs with
  | .error fault => .error fault
  | .ok (none, rest) => .ok (draft, rest)
  | .ok (some key, rest) =>
    match _hm : readMember fields room draft key rest with
    | .error fault => .error fault
    | .ok (draft, rest) => readMembers fields room false draft rest
termination_by cs.length
decreasing_by
  have h₁ : _ < cs.length := length_nextKey _hk
  have h₂ := takes_readMember _ _ _ _ _hm
  omega

theorem takes_readMembers (fields : List (Field δ)) (room : Nat) (first : Bool) (draft : δ) :
    Takes 0 (readMembers fields room first draft) := by
  intro cs rest filled h
  fun_induction readMembers fields room first draft cs with
  | case1 => cases h
  | case2 _ _ _ _ hk => cases h; exact length_nextKey hk
  | case3 => cases h
  | case4 _ _ cs _ _ hk _ _ hm ih =>
    have h₁ : _ < cs.length := length_nextKey hk
    have h₂ := takes_readMember _ _ _ _ hm
    have h₃ := ih h
    omega

def readObject (shape : Shape δ α) (room : Nat) : Scan α := fun cs => do
  let (draft, rest) ← readMembers shape.fields room true shape.start cs
  match shape.finish draft with
  | .ok a => .ok (a, rest)
  | .error name => .error (.unplaced (.missingField name) rest)

theorem takes_readObject (shape : Shape δ α) (room : Nat) :
    Takes 0 (shape.readObject room) := by
  intro cs rest a h
  obtain ⟨⟨_, _⟩, hr, h⟩ := ok_of_bind h
  dsimp only at h
  split at h
  · cases h; exact takes_readMembers _ _ _ _ hr
  · cases h

def read (shape : Shape δ α) : Reader α :=
  Reader.enclosed shape.readArray shape.readObject shape.takes_readArray shape.takes_readObject
    shape.title

end Shape

def need {α : Type} (name : String) : Option α → Except String α
  | some a => .ok a
  | none => .error name

end Manuscript.Json
