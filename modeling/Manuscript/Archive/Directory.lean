import Manuscript.Archive.Crc32
import Manuscript.Archive.End
/-!
# The directory of an archive

The directory lists the entries with their names, sizes and places. Optional fields of an entry
may widen its numbers, rename it or say how it is encrypted.
-/

namespace Manuscript.Archive

structure Entry where
  name : Bytes
  flags : Nat
  method : Nat
  time : Nat
  date : Nat
  checksum : Nat
  packedSize : Nat
  size : Nat
  offset : Nat
  isSealed : Bool
  deriving Repr

namespace Entry

def isEncrypted (entry : Entry) : Bool :=
  entry.flags % 2 == 1

/-- What becomes of an entry when an optional field is read. A field that is cut off ends the
reading, but what it has said by then holds. -/
inductive Extended where
  | read (entry : Entry) (rest : Bytes)
  | cutOff (entry : Entry)
  | bad

def Extended.Within (bs : Bytes) : Extended → Prop
  | read _ rest => rest.length ≤ bs.length
  | cutOff _ | bad => True

theorem Extended.Within.mono {bs bs' : Bytes} {extended : Extended}
    (h : extended.Within bs) (hle : bs.length ≤ bs'.length) : extended.Within bs' := by
  cases extended with
  | read => exact Nat.le_trans h hle
  | cutOff => trivial
  | bad => trivial

def wideNumber (isWide : Bool) (entry : Entry) (set : Nat → Entry) (bs : Bytes)
    (next : Entry → Bytes → Extended) : Extended :=
  if isWide then
    match number? 8 bs with
    | none => .cutOff entry
    | some (n, rest) => next (set n) rest
  else next entry bs

theorem within_wideNumber {isWide : Bool} {entry : Entry} {set : Nat → Entry} {bs : Bytes}
    {next : Entry → Bytes → Extended} (hnext : ∀ entry bs, (next entry bs).Within bs) :
    (wideNumber isWide entry set bs next).Within bs := by
  unfold wideNumber
  split
  · split
    · trivial
    · next hn =>
      have := length_number? hn
      exact (hnext _ _).mono (by omega)
  · exact hnext _ _

def leaveField (length used : Nat) (entry : Entry) (bs : Bytes) : Extended :=
  if length < used then .bad
  else
    match bytes? (length - used) bs with
    | none => .cutOff entry
    | some (_, rest) => .read entry rest

theorem within_leaveField (length used : Nat) (entry : Entry) (bs : Bytes) :
    (leaveField length used entry bs).Within bs := by
  unfold leaveField
  split
  · trivial
  · split
    · trivial
    · next hb =>
      have := length_bytes? hb
      simp only [Extended.Within]
      omega

/-- Widens the numbers that the field has room for or that ask for it. `length` counts what is
left of the field. -/
def widen (length : Nat) (entry : Entry) (bs : Bytes) : Extended :=
  let isWide (n : Nat) := decide (24 ≤ length) || n == 0xFFFFFFFF
  let used := [entry.size, entry.packedSize, entry.offset].countP isWide * 8
  wideNumber (isWide entry.size) entry (fun n => { entry with size := n }) bs
    fun entry bs =>
  wideNumber (isWide entry.packedSize) entry (fun n => { entry with packedSize := n }) bs
    fun entry bs =>
  wideNumber (isWide entry.offset) entry (fun n => { entry with offset := n }) bs
    (leaveField length used)

theorem within_widen (length : Nat) (entry : Entry) (bs : Bytes) :
    (widen length entry bs).Within bs := by
  unfold widen
  exact within_wideNumber fun _ _ => within_wideNumber fun _ _ => within_wideNumber fun _ _ =>
    within_leaveField _ _ _ _

def numbers? : List Nat → Bytes → Option (List Nat × Bytes)
  | [], bs => some ([], bs)
  | k :: ks, bs => do
    let (n, bs) ← number? k bs
    let (ns, bs) ← numbers? ks bs
    some (n :: ns, bs)

theorem length_numbers? {ks ns : List Nat} {bs rest : Bytes}
    (h : numbers? ks bs = some (ns, rest)) : rest.length ≤ bs.length := by
  induction ks generalizing ns bs rest with
  | nil => cases h; exact Nat.le_refl _
  | cons k ks ih =>
    obtain ⟨⟨_, _⟩, hn, h⟩ := Option.bind_eq_some_iff.1 h
    obtain ⟨⟨_, _⟩, hr, h⟩ := Option.bind_eq_some_iff.1 h
    have h₁ := length_number? hn
    have h₂ := ih hr
    cases h
    omega

def fineTimes (length : Nat) (entry : Entry) (bs : Bytes) : Extended :=
  if length ≠ 32 then .bad
  else
    match numbers? [4, 2] bs with
    | none => .cutOff entry
    | some (head, bs) =>
      if head.getLast? ≠ some 1 then .bad
      else
        match number? 2 bs with
        | none => .cutOff entry
        | some (size, bs) =>
          if size ≠ 24 then .bad
          else
            match numbers? [8, 8, 8] bs with
            | none => .cutOff entry
            | some (_, rest) => .read entry rest

theorem within_fineTimes (length : Nat) (entry : Entry) (bs : Bytes) :
    (fineTimes length entry bs).Within bs := by
  unfold fineTimes
  split
  · trivial
  split
  · trivial
  next h₁ =>
  split
  · trivial
  split
  · trivial
  next h₂ =>
  split
  · trivial
  split
  · trivial
  next h₃ =>
  have h₁ := length_numbers? h₁
  have h₂ := length_number? h₂
  have h₃ := length_numbers? h₃
  simp only [Extended.Within]
  omega

def furtherTimes (length : Nat) (entry : Entry) (bs : Bytes) : Extended :=
  match number? 1 bs with
  | none => .cutOff entry
  | some (flags, bs) =>
    let isSet (n : Nat) := flags.testBit n
    let count := (List.range 8).countP isSet
    if length ≠ 5 ∧ length ≠ 1 + 4 * count then .bad
    else if 8 ≤ flags then .bad
    else
      let times := (if isSet 0 || length == 5 then [4] else []) ++
        (if isSet 1 && length > 5 then [4] else []) ++
        (if isSet 2 && length > 5 then [4] else [])
      match numbers? times bs with
      | none => .cutOff entry
      | some (_, rest) => .read entry rest

theorem within_furtherTimes (length : Nat) (entry : Entry) (bs : Bytes) :
    (furtherTimes length entry bs).Within bs := by
  unfold furtherTimes
  split
  · trivial
  next h₁ =>
  dsimp only
  split
  · trivial
  split
  · trivial
  split
  · trivial
  next h₂ =>
  have h₁ := length_number? h₁
  have h₂ := length_numbers? h₂
  simp only [Extended.Within]
  omega

def sealedField (length : Nat) (entry : Entry) (bs : Bytes) : Extended :=
  if length ≠ 7 then .bad
  else
    match numbers? [2, 2, 1, 2] bs with
    | some ([version, vendor, strength, method], rest) =>
      if vendor = 0x4541 ∧ (version = 1 ∨ version = 2) ∧ 1 ≤ strength ∧ strength ≤ 3 then
        .read { entry with method, isSealed := true } rest
      else .bad
    | _ => .cutOff entry

theorem within_sealedField (length : Nat) (entry : Entry) (bs : Bytes) :
    (sealedField length entry bs).Within bs := by
  unfold sealedField
  split
  · trivial
  split
  · next h₁ =>
    split
    · exact length_numbers? h₁
    · trivial
  · trivial

/-- Reads a text that stands for another one, if its checksum is that of the other. -/
def replacement (length : Nat) (entry : Entry) (bs old : Bytes) (use : Bytes → Entry) :
    Extended :=
  match numbers? [1, 4] bs with
  | some ([_, checksum], bs) =>
    if length < 5 then .bad
    else
      match bytes? (length - 5) bs with
      | none => .cutOff entry
      | some (text, rest) =>
        if (Crc32.checksum old).toNat = checksum ∧ (Utf8.decode text).isOk then
          .read (use text) rest
        else .bad
  | _ => .cutOff entry

theorem within_replacement (length : Nat) (entry : Entry) (bs old : Bytes)
    (use : Bytes → Entry) : (replacement length entry bs old use).Within bs := by
  unfold replacement
  split
  · next h₁ =>
    split
    · trivial
    split
    · trivial
    next h₂ =>
    split
    · have h₁ := length_numbers? h₁
      have h₂ := length_bytes? h₂
      simp only [Extended.Within]
      omega
    · trivial
  · trivial

def extendOnce (comment : Bytes) (entry : Entry) (bs : Bytes) : Extended :=
  match number? 2 bs with
  | none => .cutOff entry
  | some (kind, bs) =>
    match number? 2 bs with
    | none => .cutOff entry
    | some (length, bs) =>
      match kind with
      | 0x0001 => widen length entry bs
      | 0x000A => fineTimes length entry bs
      | 0x5455 => furtherTimes length entry bs
      | 0x9901 => sealedField length entry bs
      | 0x6375 => replacement length entry bs comment fun _ => entry
      | 0x7075 => replacement length entry bs entry.name fun name => { entry with name }
      | _ => leaveField length 0 entry bs

theorem length_of_extendOnce {comment bs rest : Bytes} {entry extended : Entry}
    (h : extendOnce comment entry bs = .read extended rest) : rest.length < bs.length := by
  have within {inside : Bytes} {field : Extended} (hfield : field.Within inside)
      (h : field = .read extended rest) : rest.length ≤ inside.length := by
    subst h
    exact hfield
  unfold extendOnce at h
  split at h
  · cases h
  next h₁ =>
  split at h
  · cases h
  next h₂ =>
  have h₁ := length_number? h₁
  have h₂ := length_number? h₂
  split at h
  · have := within (within_widen _ _ _) h
    omega
  · have := within (within_fineTimes _ _ _) h
    omega
  · have := within (within_furtherTimes _ _ _) h
    omega
  · have := within (within_sealedField _ _ _) h
    omega
  · have := within (within_replacement _ _ _ _ _) h
    omega
  · have := within (within_replacement _ _ _ _ _) h
    omega
  · have := within (within_leaveField _ _ _ _) h
    omega

def extend? (comment : Bytes) (entry : Entry) (bs : Bytes) : Option Entry :=
  if bs.isEmpty then some entry
  else
    match _h : extendOnce comment entry bs with
    | .bad => none
    | .cutOff entry => some entry
    | .read entry rest => extend? comment entry rest
termination_by bs.length
decreasing_by exact length_of_extendOnce _h

/-! ## Entries -/

def sealedMethod : Nat := 99

def parse? (start : Nat) (bs : Bytes) : Option (Entry × Bytes) := do
  let bs ← expect? entryMark bs
  let (_, bs) ← numbers? [2, 2] bs
  let (flags, bs) ← number? 2 bs
  let (method, bs) ← number? 2 bs
  let (time, bs) ← number? 2 bs
  let (date, bs) ← number? 2 bs
  let (checksum, bs) ← number? 4 bs
  let (packedSize, bs) ← number? 4 bs
  let (size, bs) ← number? 4 bs
  let (nameLength, bs) ← number? 2 bs
  let (extraLength, bs) ← number? 2 bs
  let (commentLength, bs) ← number? 2 bs
  let (_, bs) ← numbers? [2, 2, 4] bs
  let (offset, bs) ← number? 4 bs
  let (name, bs) ← bytes? nameLength bs
  let (extra, bs) ← bytes? extraLength bs
  let (comment, rest) ← bytes? commentLength bs
  let entry : Entry :=
    { name, flags, method, time, date, checksum, packedSize, size, offset, isSealed := false }
  let entry ← entry.extend? comment extra
  if entry.method = sealedMethod ∧ !entry.isSealed then none
  else if 0x10000000000000000 ≤ entry.offset + start then none
  else some ({ entry with offset := entry.offset + start }, rest)

end Entry

/-- Reads `n` entries of a directory. The entry's own header must come before `bound`. -/
def readEntries? (start bound : Nat) : Nat → Bytes → Option (List Entry)
  | 0, _ => some []
  | n + 1, bs => do
    let (entry, rest) ← Entry.parse? start bs
    if bound ≤ entry.offset then none
    else
      let entries ← readEntries? start bound n rest
      some (entry :: entries)

def Place.position (place : Place) : Nat :=
  place.start + place.offset

def Place.entries? (place : Place) (bs : Bytes) : Option (List Entry) :=
  if place.isSound then
    readEntries? place.start place.position place.files (bs.drop place.position)
  else none

/-- Reads the directory that the first good one of several end records leads to. An end record
that cannot be read does not displace an earlier fault, and one whose directory cannot be read
makes all faults forgotten. -/
def openAt (bs : Bytes) (fault : Option Fault) : List Nat → Except Fault (List Entry)
  | [] => .error (fault.getD .noEnd)
  | position :: positions =>
    match End.parse (bs.drop position) with
    | .error new => openAt bs (some (fault.getD new)) positions
    | .ok record =>
      match record.locate bs position with
      | .error new => openAt bs (some new) positions
      | .ok place =>
        match place.entries? bs with
        | some entries => .ok entries
        | none => openAt bs none positions

def openBytes (bs : Bytes) : Except Fault (List Entry) :=
  openAt bs none (places endMark 0 bs).reverse

/-- The entry of a name; of several, the last. -/
def find? (name : Bytes) (entries : List Entry) : Option Entry :=
  entries.reverse.find? fun entry => entry.name == name

end Manuscript.Archive
