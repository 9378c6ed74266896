import Manuscript.Proofs.Xml.Tags

/-!
# Markup determines its pieces

All that rendering loses of a piece are the characters that XML forbids, and texts of which
nothing else is left.  A rendered piece can be taken off the front of what follows it, so two
well-formed sequences have the same markup exactly when the same can be seen of them.
-/

namespace Manuscript.Xml

def Attribute.visible (a : Attribute) : Attribute :=
  ⟨a.name, legal a.value⟩

def Piece.visible : Piece → List Piece
  | start name attributes => [start name (attributes.map Attribute.visible)]
  | empty name attributes => [empty name (attributes.map Attribute.visible)]
  | finish name => [finish name]
  | text content => if legal content = "" then [] else [text (legal content)]

theorem legal_eq_iff (s t : String) :
    legal s = legal t ↔ s.toList.filter isLegal = t.toList.filter isLegal := by
  rw [← String.toList_inj, toList_legal, toList_legal]

theorem legal_legal (s : String) : legal (legal s) = legal s := by
  simp [legal_eq_iff]

theorem escapeChars_filter_isLegal (cs : List Char) :
    escapeChars (cs.filter isLegal) = escapeChars cs := by
  induction cs with
  | nil => rfl
  | cons c cs ih =>
      cases hlegal : isLegal c with
      | true => rw [List.filter_cons_of_pos hlegal, escapeChars_cons, escapeChars_cons, ih]
      | false =>
          have hnone : escapeChar c = [] := by
            rcases escapeChar_cases c with ⟨-, -, -, -, htrue⟩ | ⟨-, -, -, -, -, htrue⟩ | ⟨hnone, -⟩
            · exact absurd htrue (by simp [hlegal])
            · exact absurd htrue (by simp [hlegal])
            · exact hnone
          rw [List.filter_cons_of_neg (by simp [hlegal]), ih, escapeChars_cons, hnone,
            List.nil_append]

theorem escapeChars_eq_iff (s t : String) :
    escapeChars s.toList = escapeChars t.toList ↔ legal s = legal t := by
  rw [legal_eq_iff]
  constructor
  · intro h
    have hread := unescape_escapeChars s.toList
    rw [h, unescape_escapeChars] at hread
    exact (Except.ok.inj hread).symm
  · intro h
    rw [← escapeChars_filter_isLegal, h, escapeChars_filter_isLegal]

theorem Attribute.render_visible (a : Attribute) : a.visible.render = a.render := by
  have hvalue : escapeChars (legal a.value).toList = escapeChars a.value.toList :=
    (escapeChars_eq_iff _ _).mpr (legal_legal _)
  simp only [render, visible, hvalue]

theorem renderPieces_visible (pieces : List Piece) :
    renderPieces (pieces.flatMap Piece.visible) = renderPieces pieces := by
  have hattributes (attributes : List Attribute) :
      (attributes.map Attribute.visible).flatMap Attribute.render =
        attributes.flatMap Attribute.render := by
    simp [List.flatMap_map, Attribute.render_visible]
  have hpiece (piece : Piece) : renderPieces piece.visible = piece.render := by
    cases piece with
    | start name attributes | empty name attributes =>
        simp only [Piece.visible, renderPieces, List.flatMap_singleton, Piece.render, hattributes]
    | finish name => simp [Piece.visible, renderPieces]
    | text content =>
        have hcontent := (escapeChars_eq_iff _ _).mpr (legal_legal content)
        by_cases hnone : legal content = ""
        · rw [hnone] at hcontent
          simp [Piece.visible, hnone, renderPieces, Piece.render, ← hcontent]
        · simpa [Piece.visible, hnone, renderPieces, Piece.render] using hcontent
  rw [renderPieces, List.flatMap_assoc]
  exact List.flatMap_congr fun piece _ => hpiece piece

theorem eq_of_append_mark {mark : Char} {front front' rest rest' : List Char}
    (hfront : mark ∉ front) (hfront' : mark ∉ front')
    (h : front ++ mark :: rest = front' ++ mark :: rest') : front = front' ∧ rest = rest' := by
  have htake := congrArg (List.takeWhile (· != mark)) h
  rw [takeWhile_mark hfront, takeWhile_mark hfront'] at htake
  subst htake
  exact ⟨rfl, (List.cons.inj (List.append_cancel_left h)).2⟩

theorem attributes_visible_eq {as bs : List Attribute} (has : ∀ a ∈ as, isName a.name = true)
    (hbs : ∀ b ∈ bs, isName b.name = true)
    (h : as.flatMap Attribute.render = bs.flatMap Attribute.render) :
    as.map Attribute.visible = bs.map Attribute.visible := by
  induction as generalizing bs with
  | nil =>
      cases bs with
      | nil => rfl
      | cons b bs => simp [Attribute.render] at h
  | cons a as ih =>
      cases bs with
      | nil => simp [Attribute.render] at h
      | cons b bs =>
          simp only [List.flatMap_cons, Attribute.render, List.cons_append, List.append_assoc,
            List.nil_append, List.cons.injEq, true_and] at h
          obtain ⟨hname, h⟩ := eq_of_append_mark (equals_not_mem_name (has a (by simp)))
            (equals_not_mem_name (hbs b (by simp))) h
          obtain ⟨hvalue, h⟩ := eq_of_append_mark (quote_not_mem_escapeChars _)
            (quote_not_mem_escapeChars _) (List.cons.inj h).2
          have hhead : a.visible = b.visible := by
            rw [Attribute.visible, Attribute.visible, String.toList_inj.mp hname,
              (escapeChars_eq_iff _ _).mp hvalue]
          rw [List.map_cons, List.map_cons, hhead, ih (fun c hc => has c (by simp [hc]))
            (fun c hc => hbs c (by simp [hc])) h]

theorem name_attributes_visible_eq {name name' : String} {as bs : List Attribute}
    (h : hasNames name as = true) (h' : hasNames name' bs = true)
    (heq : name.toList ++ as.flatMap Attribute.render =
      name'.toList ++ bs.flatMap Attribute.render) :
    name = name' ∧ as.map Attribute.visible = bs.map Attribute.visible := by
  simp only [hasNames, Bool.and_eq_true, List.all_eq_true] at h h'
  have htoken := elementToken_start h.1 as
  rw [heq, elementToken_start h'.1 bs] at htoken
  obtain rfl := String.toList_inj.mp (Token.start.inj htoken)
  exact ⟨rfl, attributes_visible_eq h.2 h'.2 (List.append_cancel_left heq)⟩

theorem start_ne_empty {name : String} (h : isName name = true) (attributes : List Attribute)
    (front : List Char) : name.toList ++ attributes.flatMap Attribute.render ≠ front ++ ['/'] := by
  intro heq
  apply getLast?_name_attributes h attributes
  rw [heq, List.getLast?_concat]

theorem finish_ne_element {name' : String} (h : isName name' = true) (name rest : List Char) :
    '/' :: name ≠ name'.toList ++ rest := by
  intro heq
  rcases name_cons h with ⟨d, inside, hcons, -, -, hd⟩
  rw [hcons] at heq
  exact hd (List.cons.inj heq).1.symm

theorem visible_eq_of_inside? {piece piece' : Piece} {inside : List Char}
    (h : piece.inside? = some inside) (h' : piece'.inside? = some inside)
    (hnames : piece.hasNames = true) (hnames' : piece'.hasNames = true) :
    piece.visible = piece'.visible := by
  have hname {name : String} {attributes : List Attribute}
      (h : hasNames name attributes = true) : isName name = true := (Bool.and_eq_true _ _ ▸ h).1
  have heq := h.trans h'.symm
  cases piece with
  | start name as =>
      cases piece' with
      | start name' bs =>
          obtain ⟨rfl, hvisible⟩ :=
            name_attributes_visible_eq hnames hnames' (Option.some.inj heq)
          simp [Piece.visible, hvisible]
      | empty name' bs => exact absurd (Option.some.inj heq) (start_ne_empty (hname hnames) as _)
      | finish name' =>
          exact absurd (Option.some.inj heq).symm (finish_ne_element (hname hnames) _ _)
      | text content => cases h'
  | empty name as =>
      cases piece' with
      | start name' bs =>
          exact absurd (Option.some.inj heq).symm (start_ne_empty (hname hnames') bs _)
      | empty name' bs =>
          obtain ⟨rfl, hvisible⟩ := name_attributes_visible_eq hnames hnames'
            (List.append_cancel_right (Option.some.inj heq))
          simp [Piece.visible, hvisible]
      | finish name' =>
          have hinside := (Option.some.inj heq).symm
          rw [List.append_assoc] at hinside
          exact absurd hinside (finish_ne_element (hname hnames) _ _)
      | text content => cases h'
  | finish name =>
      cases piece' with
      | start name' bs =>
          exact absurd (Option.some.inj heq) (finish_ne_element (hname hnames') _ _)
      | empty name' bs =>
          have hinside := Option.some.inj heq
          rw [List.append_assoc] at hinside
          exact absurd hinside (finish_ne_element (hname hnames') _ _)
      | finish name' =>
          obtain rfl := String.toList_inj.mp (List.cons.inj (Option.some.inj heq)).2
          rfl
      | text content => cases h'
  | text content => cases h

theorem render_ne_nil_of_visible {piece : Piece} (h : piece.visible = [piece]) :
    piece.render ≠ [] := by
  cases piece with
  | start | empty | finish => simp [Piece.render]
  | text content =>
      intro hnone
      have hlegal : legal content = "" := by
        rw [← String.toList_inj, toList_legal]
        exact (escapeChars_eq_nil_iff _).mp hnone
      simp [Piece.visible, hlegal] at h

theorem text_ne_tag {content : String} (h : (Piece.text content).visible = [.text content])
    (rest inside : List Char) : (Piece.text content).render ++ rest ≠ '<' :: inside := by
  intro heq
  rcases List.exists_cons_of_ne_nil (render_ne_nil_of_visible h) with ⟨c, cs, hcons⟩
  have hescape : escapeChars content.toList = c :: cs := hcons
  rw [hcons, List.cons_append] at heq
  have hmem : '<' ∈ escapeChars content.toList := by simp [hescape, (List.cons.inj heq).1]
  exact (noTag_escapeChars _ _ hmem).1 rfl

theorem takeWhile_text (content : String) {rest : List Char} (hrest : AtMarkup rest) :
    ((Piece.text content).render ++ rest).takeWhile (· != '<') = escapeChars content.toList := by
  have hall : ∀ c ∈ escapeChars content.toList, (c != '<') = true := fun c hc => by
    simp [(noTag_escapeChars _ c hc).1]
  rw [Piece.render, List.takeWhile_append_of_pos hall]
  rcases hrest with rfl | ⟨tail, rfl⟩ <;> simp

theorem visible_eq_of_append {piece piece' : Piece} {rest rest' : List Char}
    (hnames : piece.hasNames = true) (hnames' : piece'.hasNames = true)
    (hseen : piece.visible = [piece]) (hseen' : piece'.visible = [piece'])
    (hrest : piece.isText = true → AtMarkup rest) (hrest' : piece'.isText = true → AtMarkup rest')
    (h : piece.render ++ rest = piece'.render ++ rest') :
    piece.visible = piece'.visible ∧ rest = rest' := by
  cases hinside : piece.inside? with
  | some inside =>
      rw [Piece.render_of_inside? hinside] at h
      cases hinside' : piece'.inside? with
      | some inside' =>
          rw [Piece.render_of_inside? hinside'] at h
          simp only [List.cons_append, List.append_assoc, List.nil_append] at h
          obtain ⟨rfl, hrest⟩ := eq_of_append_mark
            (fun hmem => (noTag_inside hinside hnames _ hmem).2 rfl)
            (fun hmem => (noTag_inside hinside' hnames' _ hmem).2 rfl) (List.cons.inj h).2
          exact ⟨visible_eq_of_inside? hinside hinside' hnames hnames', hrest⟩
      | none =>
          cases piece' with
          | text content => exact absurd h.symm (text_ne_tag hseen' _ _)
          | start | empty | finish => cases hinside'
  | none =>
      cases piece with
      | start | empty | finish => cases hinside
      | text content =>
          cases hinside' : piece'.inside? with
          | some inside' =>
              rw [Piece.render_of_inside? hinside'] at h
              exact absurd h (text_ne_tag hseen _ _)
          | none =>
              cases piece' with
              | start | empty | finish => cases hinside'
              | text content' =>
                  have hescape := takeWhile_text content (hrest rfl)
                  rw [h, takeWhile_text content' (hrest' rfl)] at hescape
                  have hlegal := (escapeChars_eq_iff _ _).mp hescape
                  simp only [Piece.render, hescape] at h
                  exact ⟨by simp [Piece.visible, hlegal], List.append_cancel_left h⟩

theorem eq_start_of_visible_eq {piece : Piece} {name : String}
    (h : piece.visible = (Piece.start name []).visible) : piece = .start name [] := by
  cases piece with
  | start name' attributes =>
      simp only [Piece.visible, List.singleton_inj, Piece.start.injEq, List.map_nil,
        List.map_eq_nil_iff] at h
      rw [h.1, h.2]
  | empty | finish => simp [Piece.visible] at h
  | text content => by_cases hnone : legal content = "" <;> simp [Piece.visible, hnone] at h

theorem mem_tags_iff {piece : Piece} {name : String} (hpiece : piece.hasNames = true)
    (hname : isName name = true) :
    '<' :: (name.toList ++ ['>']) ∈ piece.tags ↔ piece = .start name [] := by
  have hinside : (Piece.start name []).inside? = some name.toList := by simp [Piece.inside?]
  have hnames : (Piece.start name []).hasNames = true := by
    simp [Piece.hasNames, hasNames, hname]
  constructor
  · intro hmem
    cases hsome : piece.inside? with
    | none => simp [Piece.tags, hsome] at hmem
    | some inside =>
        simp only [Piece.tags, hsome, List.mem_singleton, List.cons.injEq, true_and,
          List.append_cancel_right_eq] at hmem
        subst hmem
        exact eq_start_of_visible_eq (visible_eq_of_inside? hsome hinside hpiece hnames)
  · rintro rfl
    simp [Piece.tags, hinside]

theorem count_tags {pieces : List Piece} (h : ∀ piece ∈ pieces, piece.hasNames = true)
    {name : String} (hname : isName name = true) :
    (pieces.flatMap Piece.tags).count ('<' :: (name.toList ++ ['>'])) =
      pieces.count (.start name []) := by
  induction pieces with
  | nil => rfl
  | cons piece pieces ih =>
      have htail := ih fun other hother => h other (by simp [hother])
      have hmem := mem_tags_iff (h piece (by simp)) hname
      rw [List.flatMap_cons, List.count_append, htail, List.count_cons, Nat.add_comm]
      by_cases heq : piece = .start name []
      · subst heq
        simp [Piece.tags, Piece.inside?]
      · rw [List.count_eq_zero_of_not_mem (mt hmem.mp heq), if_neg (by simpa using heq)]

/-! ## Sequences -/

theorem isWellFormed_of_afterText {opened : List String} {pieces : List Piece}
    (h : isWellFormed opened true pieces = true) (afterText : Bool) :
    isWellFormed opened afterText pieces = true := by
  cases pieces with
  | nil => exact h
  | cons piece pieces =>
      cases piece with
      | start | empty | finish => exact h
      | text content => simp [isWellFormed] at h

theorem isWellFormed_visible {opened : List String} {afterText : Bool} {pieces : List Piece}
    (h : isWellFormed opened afterText pieces = true) :
    isWellFormed opened afterText (pieces.flatMap Piece.visible) = true := by
  have hattributes (attributes : List Attribute) (name : String) :
      hasNames name (attributes.map Attribute.visible) = hasNames name attributes := by
    simp [hasNames, Attribute.visible, Function.comp_def]
  induction pieces generalizing opened afterText with
  | nil => exact h
  | cons piece pieces ih =>
      rw [List.flatMap_cons]
      cases piece with
      | start name attributes | empty name attributes =>
          simp only [isWellFormed, Bool.and_eq_true] at h
          simp [Piece.visible, isWellFormed, hattributes, h.1, ih h.2]
      | finish name =>
          cases opened with
          | nil => simp [isWellFormed] at h
          | cons innermost outer =>
              simp only [isWellFormed, Bool.and_eq_true] at h
              simp [Piece.visible, isWellFormed, h.1, ih h.2]
      | text content =>
          simp only [isWellFormed, Bool.and_eq_true] at h
          by_cases hnone : legal content = ""
          · simpa [Piece.visible, hnone] using isWellFormed_of_afterText (ih h.2) afterText
          · simpa [Piece.visible, hnone, isWellFormed, ih h.2] using h.1

theorem visible_of_mem_visible {pieces : List Piece} {piece : Piece}
    (h : piece ∈ pieces.flatMap Piece.visible) : piece.visible = [piece] := by
  have hattribute (a : Attribute) : a.visible.visible = a.visible := by
    simp [Attribute.visible, legal_legal]
  rcases List.mem_flatMap.mp h with ⟨source, -, hpiece⟩
  cases source with
  | start name attributes | empty name attributes =>
      obtain rfl := List.mem_singleton.mp hpiece
      simp [Piece.visible, Function.comp_def, hattribute]
  | finish name =>
      obtain rfl := List.mem_singleton.mp hpiece
      rfl
  | text content =>
      by_cases hnone : legal content = ""
      · simp [Piece.visible, hnone] at hpiece
      · simp only [Piece.visible, if_neg hnone, List.mem_singleton] at hpiece
        subst hpiece
        simp [Piece.visible, legal_legal, hnone]

theorem eq_of_renderPieces_eq {opened opened' : List String} {afterText afterText' : Bool}
    {pieces pieces' : List Piece} (h : isWellFormed opened afterText pieces = true)
    (h' : isWellFormed opened' afterText' pieces' = true)
    (hseen : ∀ piece ∈ pieces, piece.visible = [piece])
    (hseen' : ∀ piece ∈ pieces', piece.visible = [piece])
    (heq : renderPieces pieces = renderPieces pieces') : pieces = pieces' := by
  induction pieces generalizing opened opened' afterText afterText' pieces' with
  | nil =>
      cases pieces' with
      | nil => rfl
      | cons piece' pieces' =>
          have hnone := (List.append_eq_nil_iff.mp heq.symm).1
          exact absurd hnone (render_ne_nil_of_visible (hseen' piece' (by simp)))
  | cons piece pieces ih =>
      cases pieces' with
      | nil =>
          have hnone := (List.append_eq_nil_iff.mp heq).1
          exact absurd hnone (render_ne_nil_of_visible (hseen piece (by simp)))
      | cons piece' pieces' =>
          rcases isWellFormed_tail h with ⟨hnames, inner, htail⟩
          rcases isWellFormed_tail h' with ⟨hnames', inner', htail'⟩
          have hpiece := hseen piece (by simp)
          have hpiece' := hseen' piece' (by simp)
          obtain ⟨hvisible, hrest⟩ := visible_eq_of_append hnames hnames' hpiece hpiece'
            (fun htext => atMarkup_renderPieces (htext ▸ htail))
            (fun htext => atMarkup_renderPieces (htext ▸ htail')) heq
          rw [hpiece, hpiece'] at hvisible
          rw [List.singleton_inj.mp hvisible, ih htail htail'
            (fun p hp => hseen p (by simp [hp])) (fun p hp => hseen' p (by simp [hp])) hrest]

/-- Well-formed sequences have the same markup exactly if the same can be seen of them. -/
theorem renderPieces_eq_iff {opened opened' : List String} {afterText afterText' : Bool}
    {pieces pieces' : List Piece} (h : isWellFormed opened afterText pieces = true)
    (h' : isWellFormed opened' afterText' pieces' = true) :
    renderPieces pieces = renderPieces pieces' ↔
      pieces.flatMap Piece.visible = pieces'.flatMap Piece.visible := by
  constructor
  · intro heq
    rw [← renderPieces_visible pieces, ← renderPieces_visible pieces'] at heq
    exact eq_of_renderPieces_eq (isWellFormed_visible h) (isWellFormed_visible h')
      (fun _ hmem => visible_of_mem_visible hmem) (fun _ hmem => visible_of_mem_visible hmem) heq
  · intro hvisible
    rw [← renderPieces_visible pieces, hvisible, renderPieces_visible]

end Manuscript.Xml
