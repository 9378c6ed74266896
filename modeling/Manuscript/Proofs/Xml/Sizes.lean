import Manuscript.Proofs.Text.Utf8
import Manuscript.Xml.Piece
import Mathlib

/-!
# The size of markup

Escaping makes a text at most six times as large, so the size of markup is bounded by the sizes of
the names and values that are written.
-/

namespace Manuscript.Xml

open String (utf8Len)

theorem utf8Len_escapeChar_le (c : Char) : utf8Len (escapeChar c) ≤ 6 * c.utf8Size := by
  have hpos := Char.utf8Size_pos c
  have hamp : utf8Len "&amp;".toList = 5 := by decide
  have hless : utf8Len "&lt;".toList = 4 := by decide
  have hgreater : utf8Len "&gt;".toList = 4 := by decide
  have hquote : utf8Len "&quot;".toList = 6 := by decide
  unfold escapeChar
  split_ifs <;>
    simp only [hamp, hless, hgreater, hquote, String.utf8Len_cons, String.utf8Len_nil] <;> omega

theorem utf8Len_escapeChars_le (cs : List Char) : utf8Len (escapeChars cs) ≤ 6 * utf8Len cs := by
  induction cs with
  | nil => rfl
  | cons c cs ih =>
      have hchar := utf8Len_escapeChar_le c
      rw [escapeChars, List.flatMap_cons, ← escapeChars]
      simp only [String.utf8Len_append, String.utf8Len_cons]
      omega

def Attribute.room (a : Attribute) : Nat :=
  4 + a.name.utf8ByteSize + 6 * a.value.utf8ByteSize

def Piece.room : Piece → Nat
  | start name attributes | empty name attributes =>
    3 + name.utf8ByteSize + (attributes.map Attribute.room).sum
  | finish name => 3 + name.utf8ByteSize
  | text content => 6 * content.utf8ByteSize

theorem utf8Size_delimiters : ' '.utf8Size = 1 ∧ '='.utf8Size = 1 ∧ '\x22'.utf8Size = 1 ∧
    '<'.utf8Size = 1 ∧ '>'.utf8Size = 1 ∧ '/'.utf8Size = 1 := by
  decide

theorem Attribute.utf8Len_render_le (a : Attribute) : utf8Len a.render ≤ a.room := by
  have hvalue := utf8Len_escapeChars_le a.value.toList
  rw [String.utf8Len_toList] at hvalue
  simp [render, room, utf8Size_delimiters]
  omega

theorem utf8Len_attributes_le (attributes : List Attribute) :
    utf8Len (attributes.flatMap Attribute.render) ≤ (attributes.map Attribute.room).sum := by
  induction attributes with
  | nil => rfl
  | cons a attributes ih =>
      have ha := a.utf8Len_render_le
      simp only [List.flatMap_cons, String.utf8Len_append, List.map_cons, List.sum_cons]
      omega

theorem Piece.utf8Len_render_le (piece : Piece) : utf8Len piece.render ≤ piece.room := by
  cases piece with
  | start name attributes | empty name attributes =>
      have hattributes := utf8Len_attributes_le attributes
      simp [render, room, utf8Size_delimiters]
      omega
  | finish name =>
      simp [render, room, utf8Size_delimiters]
      omega
  | text content =>
      have hcontent := utf8Len_escapeChars_le content.toList
      rwa [String.utf8Len_toList] at hcontent

theorem length_bytes_renderText_le (pieces : List Piece) :
    (Utf8.bytes (renderText pieces)).length ≤ 100 + (pieces.map Piece.room).sum := by
  have hdeclaration : declaration.utf8ByteSize ≤ 100 := by decide +kernel
  have hpieces : utf8Len (renderPieces pieces) ≤ (pieces.map Piece.room).sum := by
    induction pieces with
    | nil => rfl
    | cons piece pieces ih =>
        have hpiece := piece.utf8Len_render_le
        rw [renderPieces, List.flatMap_cons, ← renderPieces]
        simp only [String.utf8Len_append, List.map_cons, List.sum_cons]
        omega
  rw [renderText, Utf8.length_bytes, String.utf8ByteSize_ofList, String.utf8Len_append,
    String.utf8Len_toList]
  exact Nat.add_le_add hdeclaration hpieces

end Manuscript.Xml
