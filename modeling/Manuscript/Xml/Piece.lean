import Manuscript.Xml.Escape
/-!
# Pieces of XML

An XML text is written as a sequence of tags and texts. Values and texts are given as they are
meant, and escaped when they are written.
-/

namespace Manuscript.Xml

/-- An attribute, with its value before escaping. -/
structure Attribute where
  name : String
  value : String
  deriving DecidableEq, Repr

inductive Piece where
  | start (name : String) (attributes : List Attribute)
  | empty (name : String) (attributes : List Attribute)
  | finish (name : String)
  | text (content : String)
  deriving DecidableEq, Repr

def Attribute.render (a : Attribute) : List Char :=
  ' ' :: a.name.toList ++ ['=', '\x22'] ++ escapeChars a.value.toList ++ ['\x22']

def Piece.render : Piece → List Char
  | start name attributes => '<' :: name.toList ++ attributes.flatMap Attribute.render ++ ['>']
  | empty name attributes =>
    '<' :: name.toList ++ attributes.flatMap Attribute.render ++ ['/', '>']
  | finish name => '<' :: '/' :: name.toList ++ ['>']
  | text content => escapeChars content.toList

def renderPieces (pieces : List Piece) : List Char :=
  pieces.flatMap Piece.render

def declaration : String :=
  "<?xml version=\"1.0\" encoding=\"UTF-8\" standalone=\"yes\"?>\n"

def renderText (pieces : List Piece) : String :=
  String.ofList (declaration.toList ++ renderPieces pieces)

end Manuscript.Xml
