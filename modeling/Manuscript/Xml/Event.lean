import Manuscript.Xml.Token
/-!
# Events of XML

Tokens become events once every end tag is found to close the innermost open element. Elements
that are never closed are no fault.
-/

namespace Manuscript.Xml

inductive Event where
  | start (name : List Char)
  | empty (name : List Char)
  | finish (name : List Char)
  | text (content : List Char)
  deriving DecidableEq, Repr

def localName (name : List Char) : List Char :=
  match name.dropWhile (· != ':') with
  | _ :: rest => rest
  | [] => name

/-- What may stand after the name in an end tag: space, or a form feed. -/
def isPadding (c : Char) : Bool :=
  isSpace c || c == '\x0c'

def finishName (content : List Char) : List Char :=
  match (content.reverse.dropWhile isPadding).reverse with
  | [] => content
  | c :: cs => c :: cs

/-- The events of tokens under the given open elements, and the fault at which they end. -/
def eventsUnder (opened : List (List Char)) (fault : Option Fault) :
    List Token → List Event × Option Fault
  | [] => ([], fault)
  | .other :: tokens => eventsUnder opened fault tokens
  | .text content :: tokens => (eventsUnder opened fault tokens).map (.text content :: ·) id
  | .empty name :: tokens => (eventsUnder opened fault tokens).map (.empty name :: ·) id
  | .start name :: tokens =>
    (eventsUnder (name :: opened) fault tokens).map (.start name :: ·) id
  | .finish content :: tokens =>
    match opened with
    | [] => ([], some (.wrongEnd "" (String.ofList content)))
    | expected :: outer =>
      let name := finishName content
      if name = expected then (eventsUnder outer fault tokens).map (.finish name :: ·) id
      else ([], some (.wrongEnd (String.ofList expected) (String.ofList name)))

def events (s : String) : List Event × Option Fault :=
  let (tokens, fault) := tokens s
  eventsUnder [] fault tokens

end Manuscript.Xml
