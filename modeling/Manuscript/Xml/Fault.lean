import Manuscript.Text.Quoted
import Manuscript.Text.Utf8
/-!
# Faults of XML texts

What can be wrong with an XML text. Only what is needed to tell tags from text is checked.
-/

namespace Manuscript.Xml

open Text

def leadingByte (c : Char) : Char :=
  match Utf8.encodeChar c with
  | b :: _ => Char.ofNat b.toNat
  | [] => c

/-- What is wrong with an entity or a character reference. Ranges are counted in bytes of the
text that holds it. -/
inductive EntityFault where
  | unterminated (first last : Nat)
  | unknown (first last : Nat) (name : String)
  | null (first last : Nat)
  | longHexadecimal
  | longDecimal
  | notHexadecimal (c : Char)
  | notDecimal (c : Char)
  | notCharacter (n : Nat)
  deriving DecidableEq, Repr

def inRange (first last : Nat) (what : String) : String :=
  "Error while escaping character at range " ++ showNat first ++ ".." ++ showNat last ++ ": " ++
    what

def EntityFault.message : EntityFault → String
  | unterminated first last => inRange first last "Cannot find ';' after '&'"
  | unknown first last name => inRange first last ("Unrecognized escape symbol: " ++ quote name)
  | null first last => inRange first last "Null character entity not allowed"
  | longHexadecimal => "Cannot convert hexadecimal to utf8"
  | longDecimal => "Cannot convert decimal to utf8"
  | notHexadecimal c => "'" ++ String.singleton c ++ "' is not a valid hexadecimal character"
  | notDecimal c => "'" ++ String.singleton c ++ "' is not a valid decimal character"
  | notCharacter n => "'" ++ showNat n ++ "' is not a valid codepoint"

inductive Construct where
  | bang
  | comment
  | characterData
  | documentType
  | instruction
  deriving DecidableEq, Repr

def Construct.name : Construct → String
  | bang => "Bang"
  | comment => "Comment"
  | characterData => "CData"
  | documentType => "DOCTYPE"
  | instruction => "XmlDecl"

inductive Fault where
  | unfinished (construct : Construct)
  | unknownBang (c : Char)
  | emptyDocumentType
  | wrongEnd (expected found : String)
  | entity (fault : EntityFault)
  deriving DecidableEq, Repr

def Fault.message : Fault → String
  | unfinished construct => "Unexpected EOF during reading " ++ construct.name
  | unknownBang c =>
    "Only Comment (`--`), CDATA (`[CDATA[`) and DOCTYPE (`DOCTYPE`) nodes can start with a '!', " ++
      "but symbol `" ++ String.singleton c ++ "` found"
  | emptyDocumentType => "DOCTYPE declaration must not be empty"
  | wrongEnd expected found => "Expecting </" ++ expected ++ "> found </" ++ found ++ ">"
  | entity fault => fault.message

end Manuscript.Xml
