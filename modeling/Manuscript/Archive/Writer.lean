import Manuscript.Archive.Codec
import Manuscript.Archive.Directory
/-!
# Writing archives

An archive is the packed contents one after another, each behind a header of its own, then the
directory, then the end record. Places that are too large for a field are given in a wide one beside
it, but the sizes of an entry must fit. Every entry bears the same date, so equal contents give
equal archives.
-/

namespace Manuscript.Archive

def earliestDate : Nat := 0x21

def packedMethod : Nat := 8

def packedVersion : Nat := 20

def wideVersion : Nat := 45

/-- The largest number in a field of four bytes. As a place it says that the place is given in a
wide field. -/
def maxNumber : Nat := 0xFFFFFFFF

def maxCount : Nat := 0xFFFF

structure Item where
  name : Bytes
  content : Bytes

section

variable [Codec]

def Item.fields (extra : Nat) (item : Item) : Bytes :=
  littleEndian 2 packedVersion ++ littleEndian 2 0 ++ littleEndian 2 packedMethod ++
    littleEndian 2 0 ++ littleEndian 2 earliestDate ++
    littleEndian 4 (Crc32.checksum item.content).toNat ++
    littleEndian 4 (Codec.pack item.content).length ++ littleEndian 4 item.content.length ++
    littleEndian 2 item.name.length ++ littleEndian 2 extra

def Item.stored (item : Item) : Bytes :=
  localMark ++ item.fields 0 ++ item.name ++ Codec.pack item.content

def wideNumbers : List Nat → Bytes
  | [] => []
  | n :: ns => (if maxNumber ≤ n then littleEndian 8 n else []) ++ wideNumbers ns

/-- The optional field for the numbers of an entry that fill their own fields. -/
def Item.wide (offset : Nat) (item : Item) : Bytes :=
  let numbers := wideNumbers [item.content.length, (Codec.pack item.content).length, offset]
  if numbers.isEmpty then []
  else littleEndian 2 1 ++ littleEndian 2 numbers.length ++ numbers

def Item.listed (offset : Nat) (item : Item) : Bytes :=
  entryMark ++ littleEndian 2 packedVersion ++ item.fields (item.wide offset).length ++
    littleEndian 2 0 ++ littleEndian 2 0 ++ littleEndian 2 0 ++ littleEndian 4 0 ++
    littleEndian 4 (min offset maxNumber) ++ item.name ++ item.wide offset

def locals (items : List Item) : Bytes :=
  items.flatMap Item.stored

def centrals (offset : Nat) : List Item → Bytes
  | [] => []
  | item :: items => item.listed offset ++ centrals (offset + item.stored.length) items

end

def wideEndRecord (files size offset : Nat) : Bytes :=
  wideEndMark ++ littleEndian 8 44 ++ littleEndian 2 wideVersion ++ littleEndian 2 wideVersion ++
    littleEndian 4 0 ++ littleEndian 4 0 ++ littleEndian 8 files ++ littleEndian 8 files ++
    littleEndian 8 size ++ littleEndian 8 offset

def locatorRecord (offset : Nat) : Bytes :=
  locatorMark ++ littleEndian 4 0 ++ littleEndian 8 offset ++ littleEndian 4 1

def endRecord (files size offset : Nat) : Bytes :=
  endMark ++ littleEndian 2 0 ++ littleEndian 2 0 ++ littleEndian 2 (min files maxCount) ++
    littleEndian 2 (min files maxCount) ++ littleEndian 4 (min size maxNumber) ++
    littleEndian 4 (min offset maxNumber) ++ littleEndian 2 0

def isWide (files size offset : Nat) : Bool :=
  maxCount < files || maxNumber < size || maxNumber < offset

def wideEnding (files size offset : Nat) : Bytes :=
  if isWide files size offset then
    wideEndRecord files size offset ++ locatorRecord (offset + size)
  else []

def bytesOf [Codec] (items : List Item) : Bytes :=
  let contents := locals items
  let directory := centrals 0 items
  contents ++ directory ++ wideEnding items.length directory.length contents.length ++
    endRecord items.length directory.length contents.length

inductive Excess where
  | content
  | packed
  deriving DecidableEq, Repr

def Item.excess? [Codec] (item : Item) : Option Excess :=
  if maxNumber < item.content.length then some .content
  else if maxNumber < (Codec.pack item.content).length then some .packed
  else none

def write [Codec] (items : List Item) : Except Excess Bytes :=
  match items.findSome? Item.excess? with
  | some excess => .error excess
  | none => .ok (bytesOf items)

def write? [Codec] (items : List Item) : Option Bytes :=
  (write items).toOption

end Manuscript.Archive
