import Manuscript.Json.Printer
import Manuscript.Json.Record
import Manuscript.Line
/-!
# Source lines in JSON

The kind of a line is an object with the name of the kind as its `type`, and for a heading with
its `level`. The two members may come in either order.
-/

namespace Manuscript

open Json (Reader Scan Fault Found Shape need)

def LineKind.toJson : LineKind → Json
  | blank => .object [("type", .string "blank")]
  | heading level => .object [("type", .string "heading"), ("level", .natural level.toNat)]
  | paragraph => .object [("type", .string "paragraph")]

def Line.toJson (line : Line) : Json :=
  .object [("kind", line.kind.toJson), ("content", .string line.content)]

def Line.listToJson (lines : List Line) : Json :=
  .array (lines.map Line.toJson)

namespace LineKind

inductive Tag where
  | blank
  | heading
  | paragraph
  deriving DecidableEq, Repr

def tagNames : List (String × Tag) :=
  [("blank", .blank), ("heading", .heading), ("paragraph", .paragraph)]

def title : String :=
  "adjacently tagged enum LineKind"

def unitTitle (variant : String) : String :=
  "unit variant LineKind::" ++ variant

/-- Refuses an array or an object in the place of a level, whatever it holds. -/
def refuseLevel (what : Found) (variant : String) : Scan LineKind := fun rest =>
  .error (.unplaced (.wrongType what (unitTitle variant)) rest)

theorem takes_refuseLevel (what : Found) (variant : String) :
    Json.Takes 0 (refuseLevel what variant) := by
  intro cs rest kind h
  cases h

/-- Reads the place of the level of a kind that has none, which may hold nothing but `null`. -/
def noLevel (kind : LineKind) (variant : String) : Reader LineKind := fun room => {
  scan := Json.afterSpace fun cs =>
    match cs with
    | '[' :: rest => Json.inList (refuseLevel .sequence variant) rest
    | '\x7b' :: rest => Json.inObject (refuseLevel .map variant) rest
    | _ => (Reader.unit (unitTitle variant)).map (fun _ => kind) room cs
  takes := Json.takes_afterSpace (by
    intro cs rest kind h
    dsimp only at h
    split at h
    · exact Nat.le_succ_of_le (Json.takes_inList (takes_refuseLevel _ variant) h)
    · exact Nat.le_succ_of_le (Json.takes_inObject (takes_refuseLevel _ variant) h)
    · exact ((Reader.unit (unitTitle variant)).map _ room).takes h) }

def levelReader : Tag → Reader LineKind
  | .blank => noLevel .blank "Blank"
  | .heading => Reader.word8.map .heading
  | .paragraph => noLevel .paragraph "Paragraph"

def ofValue (tag : Tag) (value : Json) : Except Json.Reason LineKind :=
  match tag with
  | .blank => noLevelValue .blank "Blank"
  | .paragraph => noLevelValue .paragraph "Paragraph"
  | .heading =>
    match value with
    | .number n => do .ok (.heading (UInt8.ofNat (← n.below 0x100 "u8")))
    | _ => .error (.wrongType (.ofValue value) "u8")
where
  noLevelValue (kind : LineKind) (variant : String) : Except Json.Reason LineKind :=
    match value with
    | .null => .ok kind
    | _ => .error (.wrongType (.ofValue value) (unitTitle variant))

def ofTag : Tag → Except Json.Reason LineKind
  | .blank => .ok .blank
  | .paragraph => .ok .paragraph
  | .heading => .error (.missingField "level")

inductive Member where
  | tag
  | level
  deriving DecidableEq, Repr

def Member.key : Member → String
  | tag => "type"
  | level => "level"

def nextMember (first : Bool) (cs : List Char) : Except Fault (Option Member × List Char) :=
  match _hk : Json.nextKey first cs with
  | .error fault => .error fault
  | .ok (none, rest) => .ok (none, rest)
  | .ok (some key, rest) =>
    if key = Member.tag.key then .ok (some .tag, rest)
    else if key = Member.level.key then .ok (some .level, rest)
    else
      match _hs : Json.colon rest >>= Json.skip with
      | .error fault => .error fault
      | .ok rest => nextMember false rest
termination_by cs.length
decreasing_by
  have h₁ : _ < cs.length := Json.length_nextKey _hk
  obtain ⟨_, hc, hs⟩ := Json.ok_of_bind _hs
  have h₂ := Json.length_colon hc
  have h₃ := Json.length_skip hs
  omega

theorem takes_nextMember (first : Bool) : Json.Takes 0 (nextMember first) := by
  intro cs rest member h
  fun_induction nextMember first cs with
  | case1 => cases h
  | case2 _ _ _ hk => cases h; exact Json.length_nextKey hk
  | case3 _ cs _ hk =>
    have h₁ : _ < cs.length := Json.length_nextKey hk
    cases h
    exact Nat.le_of_lt h₁
  | case4 _ cs _ hk =>
    have h₁ : _ < cs.length := Json.length_nextKey hk
    cases h
    exact Nat.le_of_lt h₁
  | case5 => cases h
  | case6 _ cs _ _ hk _ _ _ hs ih =>
    have h₁ : _ < cs.length := Json.length_nextKey hk
    obtain ⟨_, hc, hs⟩ := Json.ok_of_bind hs
    have h₂ := Json.length_colon hc
    have h₃ := Json.length_skip hs
    have h₄ := ih h
    omega

def lastly (kind : LineKind) : Scan LineKind := fun cs => do
  match ← nextMember false cs with
  | (none, rest) => .ok (kind, rest)
  | (some member, rest) => .error (.unplaced (.duplicateField member.key) rest)

theorem takes_lastly (kind : LineKind) : Json.Takes 0 (lastly kind) := by
  intro cs rest a h
  obtain ⟨⟨_ | _, _⟩, hn, h⟩ := Json.ok_of_bind h
  · cases h; exact takes_nextMember false hn
  · cases h

def afterTag (room : Nat) : Scan LineKind := fun cs => do
  let (tag, rest) ← Json.colon cs >>= Reader.name tagNames room
  match ← nextMember false rest with
  | (none, rest) =>
    match ofTag tag with
    | .ok kind => .ok (kind, rest)
    | .error reason => .error (.unplaced reason rest)
  | (some .tag, rest) => .error (.unplaced (.duplicateField Member.tag.key) rest)
  | (some .level, rest) => do
    let (kind, rest) ← Json.colon rest >>= levelReader tag room
    lastly kind rest

theorem takes_afterTag (room : Nat) : Json.Takes 0 (afterTag room) := by
  intro cs rest a h
  obtain ⟨⟨tag, _⟩, ht, h⟩ := Json.ok_of_bind h
  obtain ⟨_, hc, ht⟩ := Json.ok_of_bind ht
  obtain ⟨⟨member, _⟩, hn, h⟩ := Json.ok_of_bind h
  have h₁ := Json.length_colon hc
  have h₂ := (Reader.name tagNames room).takes ht
  have h₃ := takes_nextMember false hn
  rcases member with _ | _ | _
  · dsimp only at h
    split at h
    · cases h; omega
    · cases h
  · cases h
  · obtain ⟨⟨_, _⟩, hl, h⟩ := Json.ok_of_bind h
    obtain ⟨_, hc, hl⟩ := Json.ok_of_bind hl
    have h₄ := Json.length_colon hc
    have h₅ := (levelReader tag room).takes hl
    have h₆ := takes_lastly _ h
    omega

def afterLevel (room : Nat) : Scan LineKind := fun cs => do
  let (value, rest) ← Json.colon cs >>= Reader.any room
  match ← nextMember false rest with
  | (none, rest) => .error (.unplaced (.missingField Member.tag.key) rest)
  | (some .level, rest) => .error (.unplaced (.duplicateField Member.level.key) rest)
  | (some .tag, rest) => do
    let (tag, rest) ← Json.colon rest >>= Reader.name tagNames room
    match ofValue tag value with
    | .ok kind => lastly kind rest
    | .error reason => .error (.unplaced reason rest)

theorem takes_afterLevel (room : Nat) : Json.Takes 0 (afterLevel room) := by
  intro cs rest a h
  obtain ⟨⟨_, _⟩, hv, h⟩ := Json.ok_of_bind h
  obtain ⟨_, hc, hv⟩ := Json.ok_of_bind hv
  obtain ⟨⟨member, _⟩, hn, h⟩ := Json.ok_of_bind h
  have h₁ := Json.length_colon hc
  have h₂ := (Reader.any room).takes hv
  have h₃ := takes_nextMember false hn
  rcases member with _ | _ | _
  · cases h
  rotate_left
  · cases h
  · obtain ⟨⟨_, _⟩, ht, h⟩ := Json.ok_of_bind h
    obtain ⟨_, hc, ht⟩ := Json.ok_of_bind ht
    have h₄ := Json.length_colon hc
    have h₅ := (Reader.name tagNames room).takes ht
    dsimp only at h
    split at h
    · have h₆ := takes_lastly _ h
      omega
    · cases h

def readObject (room : Nat) : Scan LineKind := fun cs => do
  match ← nextMember true cs with
  | (none, rest) => .error (.unplaced (.missingField Member.tag.key) rest)
  | (some .tag, rest) => afterTag room rest
  | (some .level, rest) => afterLevel room rest

theorem takes_readObject (room : Nat) : Json.Takes 0 (readObject room) := by
  intro cs rest a h
  obtain ⟨⟨member, _⟩, hn, h⟩ := Json.ok_of_bind h
  have h₁ := takes_nextMember true hn
  rcases member with _ | _ | _
  · cases h
  · exact Nat.le_trans (takes_afterTag room h) h₁
  · exact Nat.le_trans (takes_afterLevel room h) h₁

def readArray (room : Nat) : Scan LineKind := fun cs => do
  match ← Json.nextItem true cs with
  | (false, rest) => .error (.unplaced (.wrongLength 0 title) rest)
  | (true, rest) => do
    let (tag, rest) ← Reader.name tagNames room rest
    match ← Json.nextItem false rest with
    | (false, rest) => .error (.unplaced (.wrongLength 1 title) rest)
    | (true, rest) => levelReader tag room rest

theorem takes_readArray (room : Nat) : Json.Takes 0 (readArray room) := by
  intro cs rest a h
  obtain ⟨⟨more, _⟩, hn, h⟩ := Json.ok_of_bind h
  have h₁ := Json.length_nextItem hn
  cases more
  · cases h
  · obtain ⟨⟨tag, _⟩, ht, h⟩ := Json.ok_of_bind h
    obtain ⟨⟨more, _⟩, hn, h⟩ := Json.ok_of_bind h
    have h₂ := (Reader.name tagNames room).takes ht
    have h₃ := Json.length_nextItem hn
    cases more
    · cases h
    · have h₄ := (levelReader tag room).takes h
      omega

def reader : Reader LineKind :=
  Reader.enclosed readArray readObject takes_readArray takes_readObject title

end LineKind

namespace Line

structure Draft where
  kind : Option LineKind := none
  content : Option String := none

def shape : Shape Draft Line where
  name := "ParsedLine"
  fields := [
    .of "kind" (·.kind) (fun v d => { d with kind := some v }) LineKind.reader,
    .of "content" (·.content) (fun v d => { d with content := some v }) Reader.string]
  start := {}
  finish := fun d => do .ok ⟨← need "kind" d.kind, ← need "content" d.content⟩

def reader : Reader Line :=
  shape.read

end Line

end Manuscript
