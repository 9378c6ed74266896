import Manuscript.Archive.Codec
import Manuscript.Archive.Directory
/-!
# The content of an entry

What the packed bytes of an entry unpack to, whatever size the archive claims. A reader takes
the bytes in order and learns of a fault only when it has taken all that come before it.
-/

namespace Manuscript.Archive

def Entry.packed (bs : Bytes) (entry : Entry) : Except Fault Bytes :=
  match bytes? 30 (bs.drop entry.offset) with
  | none => .error .cutOff
  | some (header, rest) =>
    let lengths : Option (Nat × Nat) := do
      let bs ← expect? localMark header
      let (_, bs) ← bytes? 22 bs
      let (nameLength, bs) ← number? 2 bs
      let (extraLength, _) ← number? 2 bs
      some (nameLength, extraLength)
    match lengths with
    | none => .error .localHeader
    | some (nameLength, extraLength) =>
      .ok ((rest.drop (nameLength + extraLength)).take entry.packedSize)

inductive StreamFault where
  | incomplete
  | corrupt
  | checksum
  deriving DecidableEq, Repr

def StreamFault.message : StreamFault → String
  | incomplete => "incomplete deflate stream"
  | corrupt => "corrupt deflate stream"
  | checksum => "Invalid checksum"

def StreamFault.ofStop : Stop → StreamFault
  | .ended => .incomplete
  | .corrupt => .corrupt

structure Stream where
  bytes : Bytes
  fault : Option StreamFault

def Stream.checked (checksum : Nat) (bytes : Bytes) : Stream :=
  ⟨bytes, if (Crc32.checksum bytes).toNat = checksum then none else some .checksum⟩

/-- The checksum of data is looked at where it ends without a fault. -/
def Stream.ofUnpacked (checksum : Nat) : Bytes × Option StreamFault → Stream
  | (bytes, none) => .checked checksum bytes
  | (bytes, some fault) => ⟨bytes, some fault⟩

/-- The bytes that packed bytes stand for, and the fault that ends them before their checksum is
looked at. -/
def Entry.unpacked [Codec] (entry : Entry) (packed : Bytes) : Bytes × Option StreamFault :=
  if entry.method = 0 then (packed, none)
  else
    let (bytes, stop) := Codec.unpack packed
    (bytes, stop.map .ofStop)

def Entry.open [Codec] (bs : Bytes) (entry : Entry) : Except Fault Stream := do
  if entry.isEncrypted then .error .passwordNeeded
  else
    let packed ← entry.packed bs
    if entry.method ≠ 0 ∧ entry.method ≠ 8 then .error .unsupportedMethod
    else if entry.isSealed then .error .passwordWrong
    else .ok (.ofUnpacked entry.checksum (entry.unpacked packed))

inductive LimitFault where
  | tooLong
  | stream (fault : StreamFault)
  deriving DecidableEq, Repr

/-- All bytes of a stream, if there are at most `limit`. More bytes than that are noticed before
any fault that follows them. A reader has to find this out by taking bytes: see `readWithin`. -/
def Stream.readAtMost (limit : Nat) (stream : Stream) : Except LimitFault Bytes :=
  if limit < stream.bytes.length then .error .tooLong
  else
    match stream.fault with
    | some fault => .error (.stream fault)
    | none => .ok stream.bytes

/-- A single read into a place for `n` bytes. A fault is noticed by a read after the last byte, and
without a fault such a read gives nothing. -/
def Stream.read (n : Nat) (stream : Stream) : Except StreamFault (Bytes × Stream) :=
  match stream.bytes with
  | _ :: _ => .ok (stream.bytes.take n, { stream with bytes := stream.bytes.drop n })
  | [] =>
    match stream.fault with
    | some fault => .error fault
    | none => .ok ([], stream)

def readSize : Nat := 8192

def asked (room n : Nat) : Nat :=
  min n (if room = 0 then readSize else min room readSize)

/-- Reads until there is nothing more, or `n` bytes have been read: then nothing behind them is
looked at. -/
def Stream.collect (room n : Nat) (stream : Stream) : Except StreamFault Bytes :=
  if n = 0 then .ok []
  else
    match stream.read (asked room n) with
    | .error fault => .error fault
    | .ok ([], _) => .ok []
    | .ok (b :: bs, rest) =>
      ((b :: bs) ++ ·) <$> rest.collect (room - (bs.length + 1)) (n - (bs.length + 1))
termination_by n

def maxCollected : Nat := 0xFFFFFFFFFFFFFFFF

/-- The bytes of a stream up to a limit, collected in a buffer that has some room at first. One byte
more than the limit is asked for if there is a number for it, so that a longer stream is told from
one that ends at the limit, and the end of the latter is seen. -/
def Stream.readWithin (room limit : Nat) (stream : Stream) : Except LimitFault Bytes :=
  match stream.collect room (min (limit + 1) maxCollected) with
  | .error fault => .error (.stream fault)
  | .ok bytes => if limit < bytes.length then .error .tooLong else .ok bytes

end Manuscript.Archive
