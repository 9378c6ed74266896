import Manuscript.Archive.Fault
/-!
# The end of an archive

An archive is read from its end record, which may be followed by other bytes and preceded by
wide records for large numbers. The record tells how many entries the directory has and where it
starts. All offsets count from the start of the archive, which need not be the start of the
bytes.
-/

namespace Manuscript.Archive

def endMark : Bytes := [0x50, 0x4B, 0x05, 0x06]

def wideEndMark : Bytes := [0x50, 0x4B, 0x06, 0x06]

def locatorMark : Bytes := [0x50, 0x4B, 0x06, 0x07]

def entryMark : Bytes := [0x50, 0x4B, 0x01, 0x02]

def localMark : Bytes := [0x50, 0x4B, 0x03, 0x04]

structure End where
  disk : Nat
  directoryDisk : Nat
  filesHere : Nat
  files : Nat
  directoryOffset : Nat

def End.parse (bs : Bytes) : Except Fault End :=
  let fields : Option (End × Nat × Bytes) := do
    let bs ← expect? endMark bs
    let (disk, bs) ← number? 2 bs
    let (directoryDisk, bs) ← number? 2 bs
    let (filesHere, bs) ← number? 2 bs
    let (files, bs) ← number? 2 bs
    let (_, bs) ← number? 4 bs
    let (directoryOffset, bs) ← number? 4 bs
    let (comment, bs) ← number? 2 bs
    some (⟨disk, directoryDisk, filesHere, files, directoryOffset⟩, comment, bs)
  match fields with
  | none => .error .cutOff
  | some (record, comment, rest) =>
    if comment ≤ rest.length then .ok record else .error .longComment

def End.mayBeWide (record : End) : Bool :=
  record.files == 0xFFFF || record.directoryOffset == 0xFFFFFFFF

structure Locator where
  directoryDisk : Nat
  offset : Nat
  disks : Nat

def Locator.parse? (bs : Bytes) : Option Locator := do
  let bs ← expect? locatorMark bs
  let (directoryDisk, bs) ← number? 4 bs
  let (offset, bs) ← number? 8 bs
  let (disks, _) ← number? 4 bs
  some ⟨directoryDisk, offset, disks⟩

def Locator.size : Nat := 20

structure WideEnd where
  length : Nat
  versionMadeBy : Nat
  versionNeeded : Nat
  disk : Nat
  directoryDisk : Nat
  filesHere : Nat
  files : Nat
  directoryOffset : Nat

/-- Reads a wide end record that must end within the given number of bytes. -/
def WideEnd.parse (space : Nat) (bs : Bytes) : Except Fault WideEnd :=
  let fields : Option WideEnd := do
    let bs ← expect? wideEndMark bs
    let (length, bs) ← number? 8 bs
    let (versionMadeBy, bs) ← number? 2 bs
    let (versionNeeded, bs) ← number? 2 bs
    let (disk, bs) ← number? 4 bs
    let (directoryDisk, bs) ← number? 4 bs
    let (filesHere, bs) ← number? 8 bs
    let (files, bs) ← number? 8 bs
    let (_, bs) ← number? 8 bs
    let (directoryOffset, _) ← number? 8 bs
    some ⟨length, versionMadeBy, versionNeeded, disk, directoryDisk, filesHere, files,
      directoryOffset⟩
  match fields with
  | none => .error .cutOff
  | some record =>
    if record.length < 44 then .error .shortWideEnd
    else if space < record.length + 12 then .error .longWideEnd
    else .ok record

structure Place where
  start : Nat
  offset : Nat
  files : Nat
  /-- Whether the end record contradicts itself or asks for what is not supported. -/
  isSound : Bool

def End.place (bs : Bytes) (position : Nat) (record : End) : Except Fault Place :=
  let offset := record.directoryOffset
  let isSound := record.disk == record.directoryDisk
  if record.files = 0 then .ok ⟨position - offset, offset, record.filesHere, isSound⟩
  else if position ≤ offset then .error .directoryOffset
  else
    match places entryMark offset ((bs.take position).drop offset) with
    | [] => .error .noDirectory
    | first :: _ => .ok ⟨first - offset, offset, record.filesHere, isSound⟩

def WideEnd.place (locator : Locator) (locatorPosition position : Nat) (bs : Bytes) :
    Except Fault Place := do
  let space := locatorPosition - position
  let record ← WideEnd.parse space (bs.drop position)
  if record.directoryDisk ≠ locator.directoryDisk then .error .wideEndDisk
  else if record.length + 12 ≠ space then .error .wideEndLength
  else if position < record.files * 46 + record.directoryOffset then .error .wideEndFiles
  else
    .ok {
      start := position - locator.offset
      offset := record.directoryOffset
      files := record.files
      isSound := record.filesHere ≤ record.files && record.versionNeeded ≤ record.versionMadeBy &&
        record.disk == record.directoryDisk }

/-- The first of several wide end records that points to a directory, or the fault of the
last. -/
def firstWide (locator : Locator) (locatorPosition : Nat) (bs : Bytes) (fault : Fault) :
    List Nat → Except Fault Place
  | [] => .error fault
  | position :: positions =>
    match WideEnd.place locator locatorPosition position bs with
    | .ok place => .ok place
    | .error fault => firstWide locator locatorPosition bs fault positions

def End.locator? (bs : Bytes) (position : Nat) (record : End) : Option Locator :=
  if record.mayBeWide && decide (Locator.size ≤ position) then
    Locator.parse? (bs.drop (position - Locator.size))
  else none

def End.locate (bs : Bytes) (position : Nat) (record : End) : Except Fault Place :=
  match record.locator? bs position with
  | none => record.place bs position
  | some locator =>
    let locatorPosition := position - Locator.size
    if locatorPosition ≤ locator.offset then .error .wideLocatorOffset
    else if 1 < locator.disks then .error .severalDisks
    else
      firstWide locator locatorPosition bs .noWideEnd
        (places wideEndMark locator.offset ((bs.take locatorPosition).drop locator.offset))

end Manuscript.Archive
