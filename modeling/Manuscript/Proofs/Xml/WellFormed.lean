import Manuscript.Proofs.Xml.Tokens
import Mathlib.Data.List.DropRight

/-!
# Well-formed pieces are read as their events

A sequence of pieces is well-formed under some open elements if every end closes the innermost
element, all elements are closed at the end, and no text directly follows another.  Rendering a
well-formed sequence and reading it back gives the events of its pieces and no fault.
-/

namespace Manuscript.Xml

def hasNames (name : String) (attributes : List Attribute) : Bool :=
  isName name && attributes.all fun a => isName a.name

/-- Well-formedness under open elements, the innermost first; `afterText` tells whether a text
has come just before. -/
def isWellFormed (opened : List String) (afterText : Bool) : List Piece → Bool
  | [] => opened.isEmpty
  | .start name attributes :: pieces =>
      hasNames name attributes && isWellFormed (name :: opened) false pieces
  | .empty name attributes :: pieces =>
      hasNames name attributes && isWellFormed opened false pieces
  | .finish name :: pieces =>
      match opened with
      | [] => false
      | innermost :: outer =>
          isName name && name == innermost && isWellFormed outer false pieces
  | .text _ :: pieces => !afterText && isWellFormed opened true pieces

theorem isWellFormed_empties {pieces : List Piece}
    (h : ∀ piece ∈ pieces, ∃ name attributes,
      piece = .empty name attributes ∧ hasNames name attributes = true)
    (opened : List String) (rest : List Piece) :
    isWellFormed opened false (pieces ++ rest) = isWellFormed opened false rest := by
  induction pieces with
  | nil => rfl
  | cons piece pieces ih =>
      rcases h piece (by simp) with ⟨name, attributes, rfl, hnames⟩
      have htail := ih fun other hother => h other (by simp [hother])
      simp [isWellFormed, hnames, htail]

/-- A text that escapes to nothing leaves no trace. -/
def Piece.tokens : Piece → List Token
  | .start name _ => [.start name.toList]
  | .empty name _ => [.empty name.toList]
  | .finish name => [.finish name.toList]
  | .text content =>
      if escapeChars content.toList = [] then [] else [.text (escapeChars content.toList)]

theorem name_cons {name : String} (hname : isName name = true) :
    ∃ d inside, name.toList = d :: inside ∧ d ≠ '!' ∧ d ≠ '?' ∧ d ≠ '/' := by
  rcases (isName_iff name).mp hname with ⟨hne, hchars⟩
  rcases List.exists_cons_of_ne_nil hne with ⟨d, inside, hcons⟩
  have hd := ne_of_isNameChar (hchars d (by simp [hcons]))
  exact ⟨d, inside, hcons, hd.2.2.2.1, hd.2.2.2.2.1, hd.2.2.1⟩

theorem isClosed_tag {name : String} {attributes : List Attribute}
    (h : hasNames name attributes = true) :
    IsClosed (name.toList ++ attributes.flatMap Attribute.render) := by
  simp only [hasNames, Bool.and_eq_true, List.all_eq_true] at h
  exact (isClosed_name h.1).append (isClosed_attributes h.2)

theorem tokensFrom_start {name : String} {attributes : List Attribute}
    (h : hasNames name attributes = true) (rest : List Char) :
    tokensFrom ((Piece.start name attributes).render ++ rest) =
      (tokensFrom rest).map (.start name.toList :: ·) id := by
  have hname : isName name = true := (Bool.and_eq_true _ _ ▸ h).1
  have hclosed := isClosed_tag h
  have htoken := elementToken_start hname attributes
  rcases name_cons hname with ⟨d, inside, hcons, hd⟩
  rw [hcons, List.cons_append] at hclosed htoken
  have hread := tokensFrom_element hclosed hd rest
  rw [htoken, ← hcons] at hread
  rw [← hread]
  simp [Piece.render, hcons]

theorem tokensFrom_empty {name : String} {attributes : List Attribute}
    (h : hasNames name attributes = true) (rest : List Char) :
    tokensFrom ((Piece.empty name attributes).render ++ rest) =
      (tokensFrom rest).map (.empty name.toList :: ·) id := by
  have hname : isName name = true := (Bool.and_eq_true _ _ ▸ h).1
  have hsolidus : IsClosed ['/'] := isClosed_of_forall (by simp)
  have hclosed := (isClosed_tag h).append hsolidus
  have htoken := elementToken_empty hname attributes
  rcases name_cons hname with ⟨d, inside, hcons, hd⟩
  rw [hcons, List.cons_append, List.cons_append] at hclosed htoken
  have hread := tokensFrom_element hclosed hd rest
  rw [htoken, ← hcons] at hread
  rw [← hread]
  simp [Piece.render, hcons]

theorem tokensFrom_finishPiece {name : String} (hname : isName name = true)
    (rest : List Char) :
    tokensFrom ((Piece.finish name).render ++ rest) =
      (tokensFrom rest).map (.finish name.toList :: ·) id := by
  have hchars := ((isName_iff name).mp hname).2
  have hclose : ∀ c ∈ name.toList, c ≠ '>' := fun c hc => (ne_of_isNameChar (hchars c hc)).2.1
  rw [← tokensFrom_finish hclose rest]
  simp [Piece.render]

theorem tokensFrom_textPiece (content : String) {rest : List Char} (hrest : AtMarkup rest) :
    tokensFrom ((Piece.text content).render ++ rest) =
      (tokensFrom rest).map ((Piece.text content).tokens ++ ·) id := by
  by_cases hnone : escapeChars content.toList = []
  · simp [Piece.render, Piece.tokens, hnone, Prod.map]
  · have hopen : ∀ c ∈ escapeChars content.toList, c ≠ '<' := by
      rintro c hc rfl
      exact absurd (isDelimiter_of_mem_escapeChars hc) (by decide)
    simp [Piece.render, Piece.tokens, hnone, tokensFrom_text hnone hopen hrest]

theorem atMarkup_renderPieces {opened : List String} {pieces : List Piece}
    (h : isWellFormed opened true pieces = true) : AtMarkup (renderPieces pieces) := by
  cases pieces with
  | nil => exact .inl rfl
  | cons piece pieces =>
      cases piece with
      | start name attributes | empty name attributes | finish name =>
          exact .inr ⟨_, rfl⟩
      | text content => simp [isWellFormed] at h

theorem tokensFrom_renderPieces {opened : List String} {afterText : Bool} {pieces : List Piece}
    (h : isWellFormed opened afterText pieces = true) :
    tokensFrom (renderPieces pieces) = (pieces.flatMap Piece.tokens, none) := by
  induction pieces generalizing opened afterText with
  | nil => simp [renderPieces, tokensFrom]
  | cons piece pieces ih =>
      have hcons : renderPieces (piece :: pieces) = piece.render ++ renderPieces pieces := rfl
      rw [hcons, List.flatMap_cons]
      cases piece with
      | start name attributes =>
          simp only [isWellFormed, Bool.and_eq_true] at h
          rw [tokensFrom_start h.1, ih h.2]
          rfl
      | empty name attributes =>
          simp only [isWellFormed, Bool.and_eq_true] at h
          rw [tokensFrom_empty h.1, ih h.2]
          rfl
      | finish name =>
          cases opened with
          | nil => simp [isWellFormed] at h
          | cons innermost outer =>
              simp only [isWellFormed, Bool.and_eq_true] at h
              rw [tokensFrom_finishPiece h.1.1, ih h.2]
              rfl
      | text content =>
          simp only [isWellFormed, Bool.and_eq_true] at h
          rw [tokensFrom_textPiece content (atMarkup_renderPieces h.2), ih h.2]
          rfl

def Piece.events : Piece → List Event
  | .start name _ => [.start name.toList]
  | .empty name _ => [.empty name.toList]
  | .finish name => [.finish name.toList]
  | .text content =>
      if escapeChars content.toList = [] then [] else [.text (escapeChars content.toList)]

theorem finishName_name {name : String} (hname : isName name = true) :
    finishName name.toList = name.toList := by
  rcases (isName_iff name).mp hname with ⟨hne, hchars⟩
  have hkeep : name.toList.rdropWhile isPadding = name.toList := by
    rw [List.rdropWhile_eq_self_iff]
    intro hnonempty
    simp [isPadding_of_isNameChar (hchars _ (List.getLast_mem hnonempty))]
  rw [List.rdropWhile] at hkeep
  unfold finishName
  rw [hkeep]
  split
  · rfl
  · rename_i heq
    rw [heq]

theorem eventsUnder_tokens {opened : List String} {afterText : Bool} {pieces : List Piece}
    (h : isWellFormed opened afterText pieces = true) (fault : Option Fault) :
    eventsUnder (opened.map String.toList) fault (pieces.flatMap Piece.tokens) =
      (pieces.flatMap Piece.events, fault) := by
  induction pieces generalizing opened afterText with
  | nil => rfl
  | cons piece pieces ih =>
      rw [List.flatMap_cons, List.flatMap_cons]
      cases piece with
      | start name attributes =>
          simp only [isWellFormed, Bool.and_eq_true] at h
          have htail := ih h.2
          rw [List.map_cons] at htail
          simp [Piece.tokens, Piece.events, eventsUnder, htail, Prod.map]
      | empty name attributes =>
          simp only [isWellFormed, Bool.and_eq_true] at h
          simp [Piece.tokens, Piece.events, eventsUnder, ih h.2, Prod.map]
      | finish name =>
          cases opened with
          | nil => simp [isWellFormed] at h
          | cons innermost outer =>
              simp only [isWellFormed, Bool.and_eq_true, beq_iff_eq] at h
              rcases h with ⟨⟨hname, rfl⟩, htail⟩
              simp [Piece.tokens, Piece.events, eventsUnder, finishName_name hname, ih htail,
                Prod.map]
      | text content =>
          simp only [isWellFormed, Bool.and_eq_true] at h
          by_cases hnone : escapeChars content.toList = []
          · simp [Piece.tokens, Piece.events, hnone, ih h.2]
          · simp [Piece.tokens, Piece.events, hnone, eventsUnder, ih h.2, Prod.map]

/-! ## Whole texts -/

theorem declaration_eq : ∃ inside : List Char,
    declaration.toList = '<' :: '?' :: (inside ++ ['>', '\n']) ∧ (∀ c ∈ inside, c ≠ '>') ∧
      1 < inside.length ∧ inside.getLast? = some '?' := by
  refine ⟨"xml version=\"1.0\" encoding=\"UTF-8\" standalone=\"yes\"?".toList, by decide,
    fun c hc => ?_, by decide, by decide⟩
  have hclose : ("xml version=\"1.0\" encoding=\"UTF-8\" standalone=\"yes\"?".toList.all
      fun c => c != '>') = true := by decide
  simpa using List.all_eq_true.mp hclose c hc

theorem tokens_renderText {pieces : List Piece} (h : isWellFormed [] true pieces = true) :
    tokens (renderText pieces) = (.other :: .text ['\n'] :: pieces.flatMap Piece.tokens, none) := by
  rcases declaration_eq with ⟨inside, hdeclaration, hclose, hlength, hlast⟩
  have hbreak : ∀ c ∈ ['\n'], c ≠ '<' := by simp
  have htext := tokensFrom_text (by simp) hbreak (atMarkup_renderPieces h)
  rw [tokensFrom_renderPieces h, List.singleton_append] at htext
  have hread := tokensFrom_instruction hclose hlength hlast ('\n' :: renderPieces pieces)
  rw [htext] at hread
  simp only [tokens, renderText, String.toList_ofList, hdeclaration]
  simpa [Prod.map] using hread

theorem events_renderText {pieces : List Piece} (h : isWellFormed [] true pieces = true) :
    events (renderText pieces) = (.text ['\n'] :: pieces.flatMap Piece.events, none) := by
  have hevents := eventsUnder_tokens h none
  rw [List.map_nil] at hevents
  simp [events, tokens_renderText h, eventsUnder, hevents, Prod.map]

end Manuscript.Xml
