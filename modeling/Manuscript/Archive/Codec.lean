import Manuscript.Archive.Field
/-!
# Codecs

How contents are packed. A content has many packed forms, and which of them is written is left to
the packer. All that an archive asks for is that unpacking gives the content back, and that packing
makes it not much longer.
-/

namespace Manuscript.Archive

/-- Why unpacking stops before the end of a content: the packed data ends too early or makes no
sense. -/
inductive Stop where
  | ended
  | corrupt
  deriving DecidableEq, Repr

class Codec where
  pack : Bytes → Bytes
  /-- The bytes that come out of packed data before it stops. -/
  unpack : Bytes → Bytes × Option Stop
  unpack_pack (bs : Bytes) : unpack (pack bs) = (bs, none)
  length_pack_le (bs : Bytes) : (pack bs).length ≤ 2 * bs.length + 256

end Manuscript.Archive
