import Manuscript.Wordprocessing.Markup
/-!
# The parts of a package

A word-processing package has four parts. Three of them are the same for every document: the
content types and the relationships of the package and of the document.
-/

namespace Manuscript.Wordprocessing

open Xml (Piece)

def contentTypesPart : String := "[Content_Types].xml"

def packageRelationshipsPart : String := "_rels/.rels"

def documentPart : String := "word/document.xml"

def documentRelationshipsPart : String := "word/_rels/document.xml.rels"

def partNames : List String :=
  [contentTypesPart, packageRelationshipsPart, documentPart, documentRelationshipsPart]

def mediaType : String :=
  "application/vnd.openxmlformats-officedocument.wordprocessingml.document"

def packageRelationshipsNamespace : String :=
  "http://schemas.openxmlformats.org/package/2006/relationships"

def contentTypesPieces : List Piece :=
  [.start "Types" [⟨"xmlns", "http://schemas.openxmlformats.org/package/2006/content-types"⟩],
    .empty "Default" [⟨"Extension", "rels"⟩,
      ⟨"ContentType", "application/vnd.openxmlformats-package.relationships+xml"⟩],
    .empty "Default" [⟨"Extension", "xml"⟩, ⟨"ContentType", "application/xml"⟩],
    .empty "Override" [⟨"PartName", "/" ++ documentPart⟩,
      ⟨"ContentType", mediaType ++ ".main+xml"⟩],
    .finish "Types"]

def packageRelationshipsPieces : List Piece :=
  [.start "Relationships" [⟨"xmlns", packageRelationshipsNamespace⟩],
    .empty "Relationship" [⟨"Id", "rId1"⟩,
      ⟨"Type", relationshipsNamespace ++ "/officeDocument"⟩, ⟨"Target", documentPart⟩],
    .finish "Relationships"]

def documentRelationshipsPieces : List Piece :=
  [.start "Relationships" [⟨"xmlns", packageRelationshipsNamespace⟩],
    .finish "Relationships"]

def contentTypesXml : String :=
  Xml.renderText contentTypesPieces

def packageRelationshipsXml : String :=
  Xml.renderText packageRelationshipsPieces

def documentRelationshipsXml : String :=
  Xml.renderText documentRelationshipsPieces

def parts (font : String) (document : Document) : List (String × String) :=
  [(contentTypesPart, contentTypesXml),
    (packageRelationshipsPart, packageRelationshipsXml),
    (documentPart, documentXml font document),
    (documentRelationshipsPart, documentRelationshipsXml)]

end Manuscript.Wordprocessing
