import Manuscript.Proofs.Xml.WellFormed

/-!
# The tags of markup

Whatever reaches from a `<` to the next `>` is a tag.  Names and escaped values hold neither, so
the tags of rendered pieces are the pieces that are no texts, one by one: they are nested as the
pieces are, and a text or a value cannot add to them.
-/

namespace Manuscript.Xml

def tags : List Char → List (List Char)
  | [] => []
  | c :: cs => if c = '<' ∧ '>' ∈ cs then ('<' :: (beforeClose cs ++ ['>'])) :: tags cs else tags cs

def leadingName (inside : List Char) : List Char :=
  inside.takeWhile fun c => !(isSpace c || c == '>')

/-- Whether tags close one another under open elements, the innermost first. -/
def isNested (opened : List (List Char)) : List (List Char) → Bool
  | [] => opened.isEmpty
  | ('<' :: '/' :: inside) :: tags =>
      match opened with
      | [] => false
      | innermost :: outer => inside == innermost ++ ['>'] && isNested outer tags
  | tag :: tags =>
      if ['/', '>'].isSuffixOf tag then isNested opened tags
      else isNested (leadingName (tag.drop 1) :: opened) tags

def NoTag (cs : List Char) : Prop :=
  ∀ c ∈ cs, c ≠ '<' ∧ c ≠ '>'

theorem NoTag.append {cs ds : List Char} (hcs : NoTag cs) (hds : NoTag ds) : NoTag (cs ++ ds) := by
  intro c hc
  rcases List.mem_append.mp hc with hc | hc
  · exact hcs c hc
  · exact hds c hc

def occurrences (sought cs : List Char) : Nat :=
  cs.tails.countP (sought.isPrefixOf ·)

theorem beforeClose_append {inside : List Char} (h : ∀ c ∈ inside, c ≠ '>') (rest : List Char) :
    beforeClose (inside ++ '>' :: rest) = inside := by
  have hall : ∀ c ∈ inside, (c != '>') = true := fun c hc => by simp [h c hc]
  simp [beforeClose, List.takeWhile_append_of_pos hall]

theorem tags_append_of_forall {cs : List Char} (h : ∀ c ∈ cs, c ≠ '<') (rest : List Char) :
    tags (cs ++ rest) = tags rest := by
  induction cs with
  | nil => rfl
  | cons c cs ih =>
      have hc : c ≠ '<' := h c (by simp)
      rw [List.cons_append, tags, if_neg (by simp [hc]), ih fun d hd => h d (by simp [hd])]

theorem tags_tag {inside : List Char} (h : NoTag inside) (rest : List Char) :
    tags ('<' :: (inside ++ '>' :: rest)) = ('<' :: (inside ++ ['>'])) :: tags rest := by
  have hinside : beforeClose (inside ++ '>' :: rest) = inside :=
    beforeClose_append (fun c hc => (h c hc).2) rest
  have hafter : tags (inside ++ '>' :: rest) = tags rest := by
    rw [tags_append_of_forall fun c hc => (h c hc).1, tags, if_neg (by simp)]
  rw [tags, if_pos (by simp), hinside, hafter]

theorem isPrefix_close_iff {inside : List Char} (h : ∀ c ∈ inside, c ≠ '>') (cs : List Char) :
    inside ++ ['>'] <+: cs ↔ '>' ∈ cs ∧ beforeClose cs = inside := by
  constructor
  · rintro ⟨rest, rfl⟩
    rw [List.append_assoc, List.singleton_append, beforeClose_append h]
    simp
  · rintro ⟨hmem, rfl⟩
    rcases List.eq_append_cons_of_mem hmem with ⟨front, rest, rfl, hfront⟩
    rw [beforeClose_append fun c hc => by rintro rfl; exact hfront hc]
    exact ⟨rest, by simp⟩

theorem occurrences_tag {inside : List Char} (h : ∀ c ∈ inside, c ≠ '>') (cs : List Char) :
    occurrences ('<' :: (inside ++ ['>'])) cs = (tags cs).count ('<' :: (inside ++ ['>'])) := by
  induction cs with
  | nil => rfl
  | cons c cs ih =>
      have hhere : ('<' :: (inside ++ ['>'])).isPrefixOf (c :: cs) = true ↔
          (c = '<' ∧ '>' ∈ cs) ∧ beforeClose cs = inside := by
        rw [List.isPrefixOf_iff_prefix, List.cons_prefix_cons, isPrefix_close_iff h, and_assoc,
          eq_comm]
      have hcons : occurrences ('<' :: (inside ++ ['>'])) (c :: cs) =
          occurrences ('<' :: (inside ++ ['>'])) cs +
            if (c = '<' ∧ '>' ∈ cs) ∧ beforeClose cs = inside then 1 else 0 := by
        simp only [occurrences, List.tails, List.countP_cons, hhere]
      rw [hcons, ih, tags]
      by_cases htag : c = '<' ∧ '>' ∈ cs
      · simp [htag, List.count_cons]
      · simp [htag]

/-! ## Tags of pieces -/

def Piece.inside? : Piece → Option (List Char)
  | start name attributes => some (name.toList ++ attributes.flatMap Attribute.render)
  | empty name attributes => some (name.toList ++ attributes.flatMap Attribute.render ++ ['/'])
  | finish name => some ('/' :: name.toList)
  | text _ => none

def Piece.tags (piece : Piece) : List (List Char) :=
  match piece.inside? with
  | some inside => ['<' :: (inside ++ ['>'])]
  | none => []

def Piece.hasNames : Piece → Bool
  | start name attributes | empty name attributes => Xml.hasNames name attributes
  | finish name => isName name
  | text _ => true

theorem Piece.render_of_inside? {piece : Piece} {inside : List Char}
    (h : piece.inside? = some inside) : piece.render = '<' :: (inside ++ ['>']) := by
  cases piece with
  | start name attributes | empty name attributes | finish name =>
      cases h
      simp [render]
  | text content => cases h

def Piece.isText : Piece → Bool
  | text _ => true
  | start .. | empty .. | finish _ => false

theorem isWellFormed_tail {opened : List String} {afterText : Bool} {piece : Piece}
    {pieces : List Piece} (h : isWellFormed opened afterText (piece :: pieces) = true) :
    piece.hasNames = true ∧ ∃ inner, isWellFormed inner piece.isText pieces = true := by
  cases piece with
  | start name attributes | empty name attributes =>
      simp only [isWellFormed, Bool.and_eq_true] at h
      exact ⟨h.1, _, h.2⟩
  | finish name =>
      cases opened with
      | nil => simp [isWellFormed] at h
      | cons innermost outer =>
          simp only [isWellFormed, Bool.and_eq_true] at h
          exact ⟨h.1.1, _, h.2⟩
  | text content =>
      simp only [isWellFormed, Bool.and_eq_true] at h
      exact ⟨rfl, _, h.2⟩

theorem hasNames_of_isWellFormed {opened : List String} {afterText : Bool} {pieces : List Piece}
    (h : isWellFormed opened afterText pieces = true) :
    ∀ piece ∈ pieces, piece.hasNames = true := by
  induction pieces generalizing opened afterText with
  | nil => simp
  | cons piece pieces ih =>
      rcases isWellFormed_tail h with ⟨hpiece, inner, htail⟩
      exact List.forall_mem_cons.mpr ⟨hpiece, ih htail⟩

theorem noTag_name {name : String} (hname : isName name = true) : NoTag name.toList := by
  intro c hc
  have hne := ne_of_isNameChar (((isName_iff name).mp hname).2 c hc)
  exact ⟨hne.1, hne.2.1⟩

theorem noTag_escapeChars (cs : List Char) : NoTag (escapeChars cs) := by
  intro c hc
  have hdelimiter := isDelimiter_of_mem_escapeChars hc
  constructor <;> rintro rfl <;> exact absurd hdelimiter (by decide)

theorem noTag_attributes {attributes : List Attribute}
    (hnames : ∀ a ∈ attributes, isName a.name = true) :
    NoTag (attributes.flatMap Attribute.render) := by
  have hspace : NoTag [' '] := by simp [NoTag]
  have hopen : NoTag ['=', '\x22'] := by simp [NoTag]
  have hclose : NoTag ['\x22'] := by simp [NoTag]
  intro c hc
  rcases List.mem_flatMap.mp hc with ⟨a, ha, hc⟩
  have hname := noTag_name (hnames a ha)
  exact ((hspace.append hname).append hopen).append (noTag_escapeChars _) |>.append hclose c hc

theorem noTag_inside {piece : Piece} {inside : List Char} (h : piece.inside? = some inside)
    (hnames : piece.hasNames = true) : NoTag inside := by
  have hsolidus : NoTag ['/'] := by simp [NoTag]
  cases piece with
  | start name attributes =>
      cases h
      simp only [Piece.hasNames, hasNames, Bool.and_eq_true, List.all_eq_true] at hnames
      exact (noTag_name hnames.1).append (noTag_attributes hnames.2)
  | empty name attributes =>
      cases h
      simp only [Piece.hasNames, hasNames, Bool.and_eq_true, List.all_eq_true] at hnames
      exact ((noTag_name hnames.1).append (noTag_attributes hnames.2)).append hsolidus
  | finish name =>
      cases h
      exact hsolidus.append (noTag_name hnames)
  | text content => cases h

theorem tags_renderPieces {pieces : List Piece} (h : ∀ piece ∈ pieces, piece.hasNames = true) :
    tags (renderPieces pieces) = pieces.flatMap Piece.tags := by
  induction pieces with
  | nil => rfl
  | cons piece pieces ih =>
      have htail := ih fun other hother => h other (by simp [hother])
      have hcons : renderPieces (piece :: pieces) = piece.render ++ renderPieces pieces := rfl
      rw [hcons, List.flatMap_cons, ← htail]
      cases hinside : piece.inside? with
      | none =>
          cases piece with
          | text content =>
              exact tags_append_of_forall (fun c hc => (noTag_escapeChars _ c hc).1) _
          | start | empty | finish => cases hinside
      | some inside =>
          have hplain := noTag_inside hinside (h piece (by simp))
          rw [Piece.render_of_inside? hinside, Piece.tags, hinside, List.cons_append,
            List.append_assoc]
          exact tags_tag hplain _

theorem declaration_tag : ∃ inside, declaration.toList = '<' :: ('?' :: inside ++ ['>', '\n']) ∧
    NoTag ('?' :: inside) := by
  refine ⟨"xml version=\"1.0\" encoding=\"UTF-8\" standalone=\"yes\"?".toList, by decide, ?_⟩
  simp [NoTag]

theorem tags_renderText {pieces : List Piece} (h : ∀ piece ∈ pieces, piece.hasNames = true) :
    ∃ inside, tags (renderText pieces).toList =
      ('<' :: '?' :: inside) :: pieces.flatMap Piece.tags := by
  obtain ⟨inside, hdeclaration, hinside⟩ := declaration_tag
  have hshape : (renderText pieces).toList =
      '<' :: ('?' :: inside ++ '>' :: (['\n'] ++ renderPieces pieces)) := by
    simp [renderText, hdeclaration]
  refine ⟨inside ++ ['>'], ?_⟩
  rw [hshape, tags_tag hinside, tags_append_of_forall (by simp), tags_renderPieces h]
  rfl

theorem leadingName_append {name : String} (hname : isName name = true) {rest : List Char}
    (hrest : ∃ c tail, rest = c :: tail ∧ (c = ' ' ∨ c = '>')) :
    leadingName (name.toList ++ rest) = name.toList := by
  have hall : ∀ c ∈ name.toList, (!(isSpace c || c == '>')) = true := fun c hc => by
    have hchar := ((isName_iff name).mp hname).2 c hc
    simp [isSpace_of_isNameChar hchar, (ne_of_isNameChar hchar).2.1]
  rw [leadingName, List.takeWhile_append_of_pos hall]
  rcases hrest with ⟨c, tail, rfl, rfl | rfl⟩ <;> simp [isSpace]

theorem isSuffixOf_close_iff (d : Char) (inside : List Char) :
    ['/', '>'].isSuffixOf ('<' :: d :: (inside ++ ['>'])) = true ↔
      (d :: inside).getLast? = some '/' := by
  rw [List.isSuffixOf_iff_suffix]
  constructor
  · rintro ⟨front, hfront⟩
    have hends : (front ++ ['/']) ++ ['>'] = ('<' :: d :: inside) ++ ['>'] := by
      simpa using hfront
    have hcancel := List.append_cancel_right hends
    rw [← List.getLast?_cons_cons (a := '<'), ← hcancel, List.getLast?_concat]
  · intro hlast
    rcases List.getLast?_eq_some_iff.mp hlast with ⟨front, hfront⟩
    have hshape : '<' :: front ++ ['/', '>'] = '<' :: (front ++ ['/'] ++ ['>']) := by simp
    exact ⟨'<' :: front, by rw [hshape, ← hfront, List.cons_append]⟩

theorem isNested_cons {d : Char} (hd : d ≠ '/') (inside : List Char)
    (opened tags : List (List Char)) :
    isNested opened (('<' :: d :: (inside ++ ['>'])) :: tags) =
      if (d :: inside).getLast? = some '/' then isNested opened tags
      else isNested (leadingName (d :: (inside ++ ['>'])) :: opened) tags := by
  simp only [← isSuffixOf_close_iff]
  rw [isNested]
  · rfl
  · simp [hd]

theorem isNested_tags {opened : List String} {afterText : Bool} {pieces : List Piece}
    (h : isWellFormed opened afterText pieces = true) :
    isNested (opened.map String.toList) (pieces.flatMap Piece.tags) = true := by
  induction pieces generalizing opened afterText with
  | nil => simpa [isWellFormed, isNested] using h
  | cons piece pieces ih =>
      rw [List.flatMap_cons]
      cases piece with
      | start name attributes =>
          simp only [isWellFormed, Bool.and_eq_true] at h
          have hname : isName name = true := (Bool.and_eq_true _ _ ▸ h.1).1
          have hlast := getLast?_name_attributes hname attributes
          have hleading :
              leadingName (name.toList ++ attributes.flatMap Attribute.render ++ ['>']) =
                name.toList := by
            rw [List.append_assoc]
            apply leadingName_append hname
            rcases attributes_shape attributes with hnone | ⟨between, hsome⟩
            · exact ⟨_, _, by rw [hnone, List.nil_append], .inr rfl⟩
            · exact ⟨_, _, by rw [hsome, List.cons_append], .inl rfl⟩
          rcases name_cons hname with ⟨d, inside, hcons, -, -, hd⟩
          simp only [Piece.tags, Piece.inside?, hcons, List.cons_append]
            at hlast hleading ⊢
          rw [isNested_cons hd, if_neg hlast, hleading, ← hcons]
          exact ih h.2
      | empty name attributes =>
          simp only [isWellFormed, Bool.and_eq_true] at h
          have hname : isName name = true := (Bool.and_eq_true _ _ ▸ h.1).1
          have hlast : (name.toList ++ attributes.flatMap Attribute.render ++ ['/']).getLast? =
              some '/' := List.getLast?_concat
          rcases name_cons hname with ⟨d, inside, hcons, -, -, hd⟩
          simp only [Piece.tags, Piece.inside?, hcons, List.cons_append]
            at hlast ⊢
          rw [isNested_cons hd, if_pos hlast]
          exact ih h.2
      | finish name =>
          cases opened with
          | nil => simp [isWellFormed] at h
          | cons innermost outer =>
              simp only [isWellFormed, Bool.and_eq_true, beq_iff_eq] at h
              rcases h with ⟨⟨-, rfl⟩, htail⟩
              simp [Piece.tags, Piece.inside?, isNested, ih htail]
      | text content =>
          simp only [isWellFormed, Bool.and_eq_true] at h
          exact ih h.2

end Manuscript.Xml
