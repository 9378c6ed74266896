import Manuscript.Proofs.Wordprocessing.RoundTrip
import Manuscript.Proofs.Xml.Tree

/-!
# Reading is a recursion over the tree

The reader takes one event after another, with a stack of open paragraphs and one flag for text
elements.  On the events of a tree it computes what a recursion over the tree gives: the
paragraphs in the order in which they end, each with the texts, tabs and line breaks that have it
as their innermost paragraph.
-/

namespace Manuscript.Wordprocessing

open Xml (Event Name Node Spelling)

def mark (name : Name) : List Char :=
  if name.base = "tab" then ['\t']
  else if name.base = "br" ∨ name.base = "cr" then ['\n']
  else []

mutual

/-- The text of a node that belongs to the innermost paragraph around the node; `inText` tells
whether the node lies in a text element. -/
def ownText (inText : Bool) : Node → List Char
  | .element name _ children =>
    if name.base = "p" then [] else mark name ++ allOwnText (inText || name.base = "t") children
  | .empty name _ => mark name
  | .text spellings => if inText then spellings.filterMap Spelling.char? else []
  | .aside _ => []

def allOwnText (inText : Bool) : List Node → List Char
  | [] => []
  | node :: nodes => ownText inText node ++ allOwnText inText nodes

end

mutual

/-- The texts of the paragraphs in a node, in the order in which these end. -/
def paragraphs (inText : Bool) : Node → List (List Char)
  | .element name _ children =>
    allParagraphs (inText || name.base = "t") children ++
      if name.base = "p" then [allOwnText inText children] else []
  | .empty name _ => if name.base = "p" then [[]] else []
  | .text _ | .aside _ => []

def allParagraphs (inText : Bool) : List Node → List (List Char)
  | [] => []
  | node :: nodes => paragraphs inText node ++ allParagraphs inText nodes

end

mutual

/-- Whether `p` holds of a node and of all nodes in it, given for each of them whether it lies in
a text element. -/
def Everywhere (p : Bool → Node → Prop) (inText : Bool) : Node → Prop
  | .element name attributes children =>
    p inText (.element name attributes children) ∧
      AllEverywhere p (inText || name.base = "t") children
  | .empty name attributes => p inText (.empty name attributes)
  | .text spellings => p inText (.text spellings)
  | .aside a => p inText (.aside a)

def AllEverywhere (p : Bool → Node → Prop) (inText : Bool) : List Node → Prop
  | [] => True
  | node :: nodes => Everywhere p inText node ∧ AllEverywhere p inText nodes

end

/-- Texts hold nothing but characters, predefined entities and references to characters. -/
def IsSpelled (_ : Bool) : Node → Prop
  | .text spellings => ∀ s ∈ spellings, s.char?.isSome
  | _ => True

/-- No text element lies in another one. -/
def IsFlat (inText : Bool) : Node → Prop
  | .element name _ _ | .empty name _ => inText = true → name.base ≠ "t"
  | _ => True

/-- No reference in a text element has too many digits. -/
def IsShort (inText : Bool) : Node → Prop
  | .text spellings => inText = true → ∀ s ∈ spellings, s.isShort = true
  | _ => True

mutual

theorem everywhere_isSpelled : ∀ {afterText inText : Bool} {node : Node},
    node.IsWritable afterText → Everywhere IsSpelled inText node
  | _, _, .element _ _ _, h => ⟨trivial, allEverywhere_isSpelled h.2⟩
  | _, _, .empty _ _, _ => trivial
  | _, _, .text _, h => h.2.2
  | _, _, .aside _, _ => trivial

theorem allEverywhere_isSpelled : ∀ {afterText inText : Bool} {nodes : List Node},
    Xml.AllWritable afterText nodes → AllEverywhere IsSpelled inText nodes
  | _, _, [], _ => trivial
  | _, _, _ :: _, h => ⟨everywhere_isSpelled h.1, allEverywhere_isSpelled h.2⟩

end

theorem meaning_text (name : Name) :
    meaning name.text.toList =
      if name.base = "p" then .paragraph
      else if name.base = "t" then .text
      else if name.base = "tab" then .char '\t'
      else if name.base = "br" ∨ name.base = "cr" then .char '\n'
      else .nothing := by
  have hbase : ∀ (s : String) (cs : List Char), s.toList = cs →
      (name.base.toList = cs ↔ name.base = s) := by
    rintro s _ rfl
    exact String.toList_inj
  simp only [meaning, Name.localName_text, hbase "p" ['p'] (by decide),
    hbase "t" ['t'] (by decide), hbase "tab" ['t', 'a', 'b'] (by decide),
    hbase "br" ['b', 'r'] (by decide), hbase "cr" ['c', 'r'] (by decide)]

theorem meaning_cases (name : Name) :
    (name.base = "p" ∧ meaning name.text.toList = .paragraph ∧ mark name = []) ∨
    (name.base = "t" ∧ meaning name.text.toList = .text ∧ mark name = []) ∨
    (name.base ≠ "p" ∧ name.base ≠ "t" ∧
      ∃ c, meaning name.text.toList = .char c ∧ mark name = [c]) ∨
    (name.base ≠ "p" ∧ name.base ≠ "t" ∧ meaning name.text.toList = .nothing ∧ mark name = []) := by
  rw [meaning_text]
  by_cases hp : name.base = "p"
  · exact .inl ⟨hp, by simp [hp], by simp [mark, hp]⟩
  by_cases ht : name.base = "t"
  · exact .inr (.inl ⟨ht, by simp [ht], by simp [mark, ht]⟩)
  by_cases htab : name.base = "tab"
  · exact .inr (.inr (.inl ⟨hp, ht, '\t', by simp [htab], by simp [mark, htab]⟩))
  by_cases hbreak : name.base = "br" ∨ name.base = "cr"
  · exact .inr (.inr (.inl ⟨hp, ht, '\n', by simp [hp, ht, htab, hbreak],
      by simp [mark, htab, hbreak]⟩))
  · exact .inr (.inr (.inr ⟨hp, ht, by simp [hp, ht, htab, hbreak], by simp [mark, htab, hbreak]⟩))

namespace Progress

/-! ## What events add -/

def grow (cs : List Char) : List (List Char) → List (List Char)
  | [] => []
  | current :: outer => (current ++ cs) :: outer

@[simp] theorem grow_nil (opened : List (List Char)) : grow [] opened = opened := by
  cases opened <;> simp [grow]

@[simp] theorem grow_grow (cs ds : List Char) (opened : List (List Char)) :
    grow ds (grow cs opened) = grow (cs ++ ds) opened := by
  cases opened <;> simp [grow]

theorem add_eq_grow (done opened : List (List Char)) (inText : Bool) (warnings : List Warning)
    (cs : List Char) :
    add ⟨done, opened, inText, warnings⟩ cs = ⟨done, grow cs opened, inText, warnings⟩ := by
  cases opened <;> rfl

/-- Some events add paragraphs to those that are done and a text to the innermost open one, and
leave the flag as it was. -/
def Reads (inText : Bool) (events : List Event) (paragraphs : List (List Char))
    (own : List Char) : Prop :=
  ∀ done opened warnings, ∃ warnings', ∀ rest,
    run ⟨done, opened, inText, warnings⟩ (events ++ rest) =
      run ⟨paragraphs.reverse ++ done, grow own opened, inText, warnings'⟩ rest

namespace Reads

variable {inText : Bool} {events events' : List Event} {paragraphs paragraphs' : List (List Char)}
  {own own' : List Char} {name : List Char}

theorem nil : Reads inText [] [] [] :=
  fun done opened warnings => ⟨warnings, fun rest => by simp⟩

theorem append (h : Reads inText events paragraphs own)
    (h' : Reads inText events' paragraphs' own') :
    Reads inText (events ++ events') (paragraphs ++ paragraphs') (own ++ own') := by
  intro done opened warnings
  obtain ⟨warnings₁, hfirst⟩ := h done opened warnings
  obtain ⟨warnings₂, hsecond⟩ := h' (paragraphs.reverse ++ done) (grow own opened) warnings₁
  refine ⟨warnings₂, fun rest => ?_⟩
  rw [List.append_assoc, hfirst, hsecond]
  simp

theorem of_step {event : Event}
    (h : ∀ done opened warnings, step ⟨done, opened, inText, warnings⟩ event =
      .ok ⟨paragraphs.reverse ++ done, grow own opened, inText, warnings⟩) :
    Reads inText [event] paragraphs own :=
  fun done opened warnings => ⟨warnings, run_cons (h done opened warnings)⟩

theorem text {content cs : List Char} (h : Xml.unescape content = .ok cs) :
    Reads true [.text content] [] cs := by
  intro done opened warnings
  cases opened with
  | nil =>
      have hstep : step ⟨done, [], true, warnings⟩ (.text content) =
          .ok ⟨done, [], true, .strayText :: warnings⟩ := by
        simp only [step, ↓reduceIte, h]
        rfl
      exact ⟨_, run_cons hstep⟩
  | cons current outer =>
      have hstep : step ⟨done, current :: outer, true, warnings⟩ (.text content) =
          .ok ⟨done, (current ++ cs) :: outer, true, warnings⟩ := by
        simp only [step, ↓reduceIte, h]
        rfl
      exact ⟨_, run_cons hstep⟩

theorem other_text (content : List Char) : Reads false [.text content] [] [] :=
  of_step fun _ _ _ => by simp [step]

theorem start_mark {c : Char} (h : meaning name = .char c) :
    Reads inText [.start name] [] [c] :=
  of_step fun _ _ _ => by simp [step, h, add_eq_grow]

theorem empty_mark {c : Char} (h : meaning name = .char c) :
    Reads inText [.empty name] [] [c] :=
  of_step fun _ _ _ => by simp [step, h, add_eq_grow]

theorem start_nothing (h : meaning name = .nothing) : Reads inText [.start name] [] [] :=
  of_step fun _ _ _ => by simp [step, h]

theorem empty_nothing (h : meaning name = .text ∨ meaning name = .nothing) :
    Reads inText [.empty name] [] [] :=
  of_step fun _ _ _ => by rcases h with h | h <;> simp [step, h]

theorem empty_paragraph (h : meaning name = .paragraph) :
    Reads inText [.empty name] [[]] [] :=
  of_step fun _ _ _ => by simp [step, h]

theorem finish_silent (h : meaning name = .nothing ∨ ∃ c, meaning name = .char c) :
    Reads inText [.finish name] [] [] :=
  of_step fun _ _ _ => by rcases h with h | ⟨c, h⟩ <;> simp [step, h]

theorem element {cs : List Char} (hstart : Reads inText [.start name] [] cs)
    (hfinish : Reads inText [.finish name] [] []) (hchildren : Reads inText events paragraphs own) :
    Reads inText (.start name :: (events ++ [.finish name])) paragraphs (cs ++ own) := by
  simpa using hstart.append (hchildren.append hfinish)

theorem element_text (h : meaning name = .text) (hchildren : Reads true events paragraphs own) :
    Reads false (.start name :: (events ++ [.finish name])) paragraphs own := by
  intro done opened warnings
  obtain ⟨warnings', hrun⟩ := hchildren done opened warnings
  refine ⟨warnings', fun rest => ?_⟩
  have hstart : step ⟨done, opened, false, warnings⟩ (.start name) =
      .ok ⟨done, opened, true, warnings⟩ := by
    simp [step, h]
  have hfinish : step ⟨paragraphs.reverse ++ done, grow own opened, true, warnings'⟩
      (.finish name) = .ok ⟨paragraphs.reverse ++ done, grow own opened, false, warnings'⟩ := by
    simp [step, h]
  rw [List.cons_append, List.append_assoc, run_cons hstart, hrun]
  exact run_cons hfinish rest

theorem element_paragraph (h : meaning name = .paragraph)
    (hchildren : Reads inText events paragraphs own) :
    Reads inText (.start name :: (events ++ [.finish name])) (paragraphs ++ [own]) [] := by
  intro done opened warnings
  obtain ⟨warnings', hrun⟩ := hchildren done ([] :: opened) warnings
  refine ⟨warnings', fun rest => ?_⟩
  have hstart : step ⟨done, opened, inText, warnings⟩ (.start name) =
      .ok ⟨done, [] :: opened, inText, warnings⟩ := by
    simp [step, h]
  have hfinish : step ⟨paragraphs.reverse ++ done, grow own ([] :: opened), inText, warnings'⟩
      (.finish name) = .ok ⟨own :: (paragraphs.reverse ++ done), opened, inText, warnings'⟩ := by
    simp [step, h, grow]
  rw [List.cons_append, List.append_assoc, run_cons hstart, hrun]
  simpa using run_cons hfinish rest

end Reads

-- What a tag does depends on the meaning of its name alone, so the cases are those of the meaning.
theorem reads_empty (inText : Bool) (name : Name) (attributes : List Xml.Attribute) :
    Reads inText (Node.events (.empty name attributes)) (paragraphs inText (.empty name attributes))
      (ownText inText (.empty name attributes)) := by
  simp only [Node.events, paragraphs, ownText]
  rcases meaning_cases name with ⟨hp, hmeaning, hmark⟩ | ⟨ht, hmeaning, hmark⟩ |
    ⟨hp, -, c, hmeaning, hmark⟩ | ⟨hp, -, hmeaning, hmark⟩
  · simpa [hp, hmark] using Reads.empty_paragraph hmeaning
  · simpa [ht, hmark] using Reads.empty_nothing (.inl hmeaning)
  · simpa [hp, hmark] using Reads.empty_mark hmeaning
  · simpa [hp, hmark] using Reads.empty_nothing (.inr hmeaning)

theorem reads_element {inText : Bool} {name : Name} {attributes : List Xml.Attribute}
    {children : List Node} (hflat : inText = true → name.base ≠ "t")
    (hchildren : Reads (inText || name.base = "t") (Xml.allEvents children)
      (allParagraphs (inText || name.base = "t") children)
      (allOwnText (inText || name.base = "t") children)) :
    Reads inText (Node.events (.element name attributes children))
      (paragraphs inText (.element name attributes children))
      (ownText inText (.element name attributes children)) := by
  simp only [Node.events, paragraphs, ownText]
  rcases meaning_cases name with ⟨hp, hmeaning, -⟩ | ⟨ht, hmeaning, hmark⟩ |
    ⟨hp, ht, c, hmeaning, hmark⟩ | ⟨hp, ht, hmeaning, hmark⟩
  · have hnot : name.base ≠ "t" := by simp [hp]
    simp only [hnot, decide_false, Bool.or_false] at hchildren
    simpa [hp] using Reads.element_paragraph hmeaning hchildren
  · have houter : inText = false := by
      cases inText with
      | false => rfl
      | true => exact absurd ht (hflat rfl)
    simp only [ht, decide_true, Bool.or_true] at hchildren
    simpa [ht, houter, hmark] using Reads.element_text hmeaning hchildren
  · simp only [ht, decide_false, Bool.or_false] at hchildren
    have helement := Reads.element (.start_mark hmeaning) (.finish_silent (.inr ⟨c, hmeaning⟩))
      hchildren
    simpa [hp, ht, hmark] using helement
  · simp only [ht, decide_false, Bool.or_false] at hchildren
    have helement := Reads.element (.start_nothing hmeaning) (.finish_silent (.inl hmeaning))
      hchildren
    simpa [hp, ht, hmark] using helement

-- The state before is general in `Reads`: the children of a paragraph are read on a new text, what
-- follows the paragraph on the old one again.
mutual

theorem reads_node : ∀ {inText : Bool} {node : Node}, Everywhere IsSpelled inText node →
    Everywhere IsFlat inText node → Everywhere IsShort inText node →
      Reads inText node.events (paragraphs inText node) (ownText inText node)
  | _, .element _ _ _, hspelled, hflat, hshort =>
    reads_element hflat.1 (reads_nodes hspelled.2 hflat.2 hshort.2)
  | inText, .empty name attributes, _, _, _ => reads_empty inText name attributes
  | true, .text _, hspelled, _, hshort => Reads.text (Xml.unescape_written hspelled (hshort rfl))
  | false, .text _, _, _, _ => Reads.other_text _
  | _, .aside _, _, _, _ => Reads.nil

theorem reads_nodes : ∀ {inText : Bool} {nodes : List Node}, AllEverywhere IsSpelled inText nodes →
    AllEverywhere IsFlat inText nodes → AllEverywhere IsShort inText nodes →
      Reads inText (Xml.allEvents nodes) (allParagraphs inText nodes) (allOwnText inText nodes)
  | _, [], _, _, _ => Reads.nil
  | _, _ :: _, hspelled, hflat, hshort =>
    (reads_node hspelled.1 hflat.1 hshort.1).append (reads_nodes hspelled.2 hflat.2 hshort.2)

end

end Progress

/-! ## Whole documents -/

section

variable {nodes : List Node} (hflat : AllEverywhere IsFlat false nodes)
  (hshort : AllEverywhere IsShort false nodes)

include hflat hshort

theorem exists_paragraphTexts_of_events {xml : String}
    (hevents : Xml.events xml = (Xml.allEvents nodes, none))
    (hspelled : AllEverywhere IsSpelled false nodes) :
    ∃ warnings, paragraphTexts xml =
      ⟨.ok ((allParagraphs false nodes).map String.ofList), warnings⟩ := by
  obtain ⟨warnings, hreads⟩ := Progress.reads_nodes hspelled hflat hshort [] [] []
  have hrun := hreads []
  rw [List.append_nil] at hrun
  have hread := paragraphTexts_of_run hevents hrun
  have htexts : Progress.texts ⟨(allParagraphs false nodes).reverse ++ [],
      Progress.grow (allOwnText false nodes) [], false, warnings⟩ = allParagraphs false nodes := by
    simp [Progress.texts, Progress.grow]
  rw [htexts] at hread
  exact ⟨_, hread⟩

/-- A document that is written out is read as the paragraphs of its nodes. -/
theorem value_paragraphTexts_writeAll (hwritable : Xml.AllWritable true nodes) :
    (paragraphTexts (String.ofList (Xml.writeAll nodes))).value =
      .ok ((allParagraphs false nodes).map String.ofList) := by
  obtain ⟨warnings, hread⟩ := exists_paragraphTexts_of_events hflat hshort
    (Xml.events_writeAll hwritable) (allEverywhere_isSpelled hwritable)
  rw [hread]

end

/-- A text whose events are those of a tree is read as the paragraphs of the tree. -/
theorem value_paragraphTexts_of_events {xml : String} {nodes : List Node}
    (hevents : Xml.events xml = (Xml.allEvents nodes, none))
    (hspelled : AllEverywhere IsSpelled false nodes) (hflat : AllEverywhere IsFlat false nodes)
    (hshort : AllEverywhere IsShort false nodes) :
    (paragraphTexts xml).value = .ok ((allParagraphs false nodes).map String.ofList) := by
  obtain ⟨warnings, hread⟩ := exists_paragraphTexts_of_events hflat hshort hevents hspelled
  rw [hread]

def nestedParagraphs : List Node :=
  [.element ⟨none, "p", by decide, by decide⟩ []
    [.element ⟨none, "t", by decide, by decide⟩ []
      [.text [.plain 'a', .entity ['a', 'm', 'p'], .hexadecimal ['4', '2']]],
    .empty ⟨none, "tab", by decide, by decide⟩ [],
    .element ⟨some "w", "p", by decide, by decide⟩ []
      [.element ⟨some "w", "t", by decide, by decide⟩ [] [.text [.plain 'c']]],
    .element ⟨none, "br", by decide, by decide⟩ [] [],
    .element ⟨none, "t", by decide, by decide⟩ []
      [.text [.plain 'd'], .aside (.comment ['e']), .aside (.characterData ['f'])]]]

theorem value_paragraphTexts_nestedParagraphs :
    Xml.events ("<p><t>a&amp;&#x42;</t><tab/><w:p><w:t>c</w:t></w:p><br></br>" ++
        "<t>d<!--e--><![CDATA[f]]></t></p>") = (Xml.allEvents nestedParagraphs, none) ∧
      AllEverywhere IsSpelled false nestedParagraphs ∧
      AllEverywhere IsFlat false nestedParagraphs ∧
      AllEverywhere IsShort false nestedParagraphs ∧
      (paragraphTexts ("<p><t>a&amp;&#x42;</t><tab/><w:p><w:t>c</w:t></w:p><br></br>" ++
        "<t>d<!--e--><![CDATA[f]]></t></p>")).value = .ok ["c", "a&B\t\nd"] := by
  have hwritten : String.ofList (Xml.writeAll nestedParagraphs) =
      "<p><t>a&amp;&#x42;</t><tab/><w:p><w:t>c</w:t></w:p><br></br>" ++
        "<t>d<!--e--><![CDATA[f]]></t></p>" := by
    decide
  have hwritable : Xml.AllWritable true nestedParagraphs := by
    simp [nestedParagraphs, Xml.AllWritable, Node.IsWritable, Xml.Aside.IsWritable]
    decide
  have hevents := Xml.events_writeAll hwritable
  rw [hwritten] at hevents
  have hspelled : AllEverywhere IsSpelled false nestedParagraphs :=
    allEverywhere_isSpelled hwritable
  have hflat : AllEverywhere IsFlat false nestedParagraphs := by
    simp [nestedParagraphs, AllEverywhere, Everywhere, IsFlat]
  have hshort : AllEverywhere IsShort false nestedParagraphs := by
    simp [nestedParagraphs, AllEverywhere, Everywhere, IsShort]
    decide
  have hparagraphs : (allParagraphs false nestedParagraphs).map String.ofList =
      ["c", "a&B\t\nd"] := by
    decide
  refine ⟨hevents, hspelled, hflat, hshort, ?_⟩
  rw [← hparagraphs]
  exact value_paragraphTexts_of_events hevents hspelled hflat hshort

def longReference : List Node :=
  [.element ⟨none, "p", by decide, by decide⟩ []
    [.element ⟨none, "t", by decide, by decide⟩ []
      [.text [.decimal ['0', '0', '0', '0', '0', '0', '6', '5']]]]]

/-- Without the condition on references a well-formed tree may not be read at all. -/
theorem value_paragraphTexts_longReference :
    Xml.events "<p><t>&#00000065;</t></p>" = (Xml.allEvents longReference, none) ∧
      AllEverywhere IsSpelled false longReference ∧ AllEverywhere IsFlat false longReference ∧
      (allParagraphs false longReference).map String.ofList = ["A"] ∧
      (paragraphTexts "<p><t>&#00000065;</t></p>").value = .error (.entity .longDecimal) := by
  have hwritten : String.ofList (Xml.writeAll longReference) = "<p><t>&#00000065;</t></p>" := by
    decide
  have hwritable : Xml.AllWritable true longReference := by
    simp [longReference, Xml.AllWritable, Node.IsWritable]
    decide
  have hevents := Xml.events_writeAll hwritable
  rw [hwritten] at hevents
  refine ⟨hevents, allEverywhere_isSpelled hwritable, ?_, by decide, ?_⟩
  · simp [longReference, AllEverywhere, Everywhere, IsFlat]
  · simp only [paragraphTexts, hevents]
    cbv

end Manuscript.Wordprocessing
