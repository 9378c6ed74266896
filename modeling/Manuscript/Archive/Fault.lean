import Manuscript.Archive.Field
/-!
# Faults of archives

What can be wrong with an archive or with one of its entries.
-/

namespace Manuscript.Archive

inductive Fault where
  | cutOff
  | noEnd
  | longComment
  | directoryOffset
  | noDirectory
  | wideLocatorOffset
  | severalDisks
  | shortWideEnd
  | longWideEnd
  | wideEndDisk
  | wideEndLength
  | wideEndFiles
  | noWideEnd
  | localHeader
  | unsupportedMethod
  | passwordNeeded
  | passwordWrong
  | largePacked
  deriving DecidableEq, Repr

def Fault.message : Fault → String
  | cutOff | largePacked => "i/o error"
  | noEnd => invalid "Could not find EOCD"
  | longComment => invalid "EOCD comment exceeds file boundary"
  | directoryOffset => invalid "Invalid CDFH offset in EOCD"
  | noDirectory => invalid "No CDFH found"
  | wideLocatorOffset => invalid "Invalid EOCD64 Locator CD offset"
  | severalDisks => invalid "Multi-disk ZIP files are not supported"
  | shortWideEnd => invalid "Low EOCD64 record size"
  | longWideEnd => invalid "EOCD64 extends beyond EOCD64 locator"
  | wideEndDisk => invalid "Invalid EOCD64: inconsistency with Locator data"
  | wideEndLength => invalid "Invalid EOCD64: inconsistent length"
  | wideEndFiles => invalid "Invalid EOCD64: inconsistent number of files"
  | noWideEnd => invalid "Could not find EOCD64"
  | localHeader => invalid "Invalid local file header"
  | unsupportedMethod => unsupported "Compression method not supported"
  | passwordNeeded => unsupported "Password required to decrypt file"
  | passwordWrong => "provided password is incorrect"
where
  invalid (what : String) : String := "invalid Zip archive: " ++ what
  unsupported (what : String) : String := "unsupported Zip archive: " ++ what

end Manuscript.Archive
