import Manuscript.Text.Utf8
/-!
# Checksums

The 32-bit cyclic redundancy check that archives keep of every entry.
-/

namespace Manuscript.Archive.Crc32

def shift : Nat → UInt32 → UInt32
  | 0, r => r
  | k + 1, r => shift k (if r &&& 1 = 1 then (r >>> 1) ^^^ 0xEDB88320 else r >>> 1)

def step (r : UInt32) (b : UInt8) : UInt32 :=
  shift 8 (r ^^^ b.toUInt32)

def checksum (bs : Bytes) : UInt32 :=
  bs.foldl step 0xFFFFFFFF ^^^ 0xFFFFFFFF

end Manuscript.Archive.Crc32
