import Manuscript.Text.Utf8
/-!
# Escaping

Text that goes into XML. Characters that would read as markup become entities, and characters
that XML does not allow at all are left out.
-/

namespace Manuscript.Xml

def isAllowed (c : Char) : Bool :=
  (0x20 ≤ c.toNat || c == '\t' || c == '\n' || c == '\r') &&
    !(c == '\ufffe' || c == '\uffff')

def escapeChar (c : Char) : List Char :=
  if c = '&' then "&amp;".toList
  else if c = '<' then "&lt;".toList
  else if c = '>' then "&gt;".toList
  else if c = '\x22' then "&quot;".toList
  else if isAllowed c then [c]
  else []

def escapeChars (cs : List Char) : List Char :=
  cs.flatMap escapeChar

def escape (s : String) : String :=
  String.ofList (escapeChars s.toList)

end Manuscript.Xml
