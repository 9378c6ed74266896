import Manuscript.Proofs.Xml.References
import Manuscript.Proofs.Xml.WellFormed

/-!
# Trees of XML

A document is a list of nodes: elements, texts, and what stands aside of these.  A node has its
events, in the order of the document, and it can be written out; the events of a document that is
written out are those of its nodes.
-/

namespace Manuscript.Xml

def isSimpleName (name : String) : Bool :=
  isName name && name.toList.all (· != ':')

structure Name where
  space : Option String
  base : String
  isSimpleName_space : ∀ s ∈ space, isSimpleName s = true
  isSimpleName_base : isSimpleName base = true

namespace Name

def text (name : Name) : String :=
  match name.space with
  | some s => s ++ ":" ++ name.base
  | none => name.base

theorem isName_text (name : Name) : isName name.text = true := by
  have hbase := name.isSimpleName_base
  have hspace := name.isSimpleName_space
  simp only [isSimpleName, Bool.and_eq_true] at hbase hspace
  cases hs : name.space with
  | none => simpa only [text, hs] using hbase.1
  | some s =>
      have hfront := (isName_iff s).mp (hspace s hs).1
      have hrest := (isName_iff name.base).mp hbase.1
      have hcolon : isNameChar ':' = true := by decide
      simp only [text, hs, isName_iff, String.toList_append]
      refine ⟨by simp [hfront.1], fun c hc => ?_⟩
      simp only [List.mem_append] at hc
      rcases hc with (hc | hc) | hc
      · exact hfront.2 c hc
      · rw [List.mem_singleton.mp hc]
        exact hcolon
      · exact hrest.2 c hc

theorem localName_text (name : Name) : localName name.text.toList = name.base.toList := by
  have hbase := name.isSimpleName_base
  have hspace := name.isSimpleName_space
  simp only [isSimpleName, Bool.and_eq_true, List.all_eq_true] at hbase hspace
  cases hs : name.space with
  | none =>
      have hnone : name.base.toList.dropWhile (· != ':') = [] :=
        List.dropWhile_eq_nil_iff.mpr hbase.2
      simp [text, hs, localName, hnone]
  | some s =>
      have hshape : (s ++ ":" ++ name.base).toList = s.toList ++ ':' :: name.base.toList := by
        simp
      simp only [text, hs, localName, hshape]
      rw [List.dropWhile_append_of_pos (hspace s hs).2]
      simp

end Name

/-- What contributes nothing to the text of a document. -/
inductive Aside where
  | comment (content : List Char)
  | characterData (content : List Char)
  | instruction (content : List Char)
  deriving DecidableEq, Repr

/-- An element without children may be written as an empty tag or as two tags. -/
inductive Node where
  | element (name : Name) (attributes : List Attribute) (children : List Node)
  | empty (name : Name) (attributes : List Attribute)
  | text (spellings : List Spelling)
  | aside (aside : Aside)

mutual

def Node.events : Node → List Event
  | .element name _ children =>
    .start name.text.toList :: (allEvents children ++ [.finish name.text.toList])
  | .empty name _ => [.empty name.text.toList]
  | .text spellings => [.text (spellings.flatMap Spelling.written)]
  | .aside _ => []

def allEvents : List Node → List Event
  | [] => []
  | node :: nodes => node.events ++ allEvents nodes

end

/-! ## Written nodes -/

def Aside.write : Aside → List Char
  | comment content => ['<', '!', '-', '-'] ++ content ++ ['-', '-', '>']
  | characterData content =>
    ['<', '!', '[', 'C', 'D', 'A', 'T', 'A', '['] ++ content ++ [']', ']', '>']
  | instruction content => ['<', '?'] ++ content ++ ['?', '>']

mutual

def Node.write : Node → List Char
  | .element name attributes children =>
    (Piece.start name.text attributes).render ++
      (writeAll children ++ (Piece.finish name.text).render)
  | .empty name attributes => (Piece.empty name.text attributes).render
  | .text spellings => spellings.flatMap Spelling.written
  | .aside a => a.write

def writeAll : List Node → List Char
  | [] => []
  | node :: nodes => node.write ++ writeAll nodes

end

/-- The end of something aside is where it is first found.  An instruction is cut off at its
first `>`, so it may hold none. -/
def Aside.IsWritable : Aside → Prop
  | comment content => ¬ ['-', '-'] <:+: content ++ ['-']
  | characterData content => ¬ [']', ']', '>'] <:+: content
  | instruction content => content ≠ [] ∧ ∀ c ∈ content, c ≠ '>'

def Node.isText : Node → Bool
  | .text _ => true
  | _ => false

mutual

/-- Well-formedness of a node, where `afterText` tells whether a text has come just before. -/
def Node.IsWritable (afterText : Bool) : Node → Prop
  | .element name attributes children =>
    hasNames name.text attributes = true ∧ AllWritable false children
  | .empty name attributes => hasNames name.text attributes = true
  | .text spellings =>
    afterText = false ∧ spellings ≠ [] ∧ ∀ s ∈ spellings, s.char?.isSome
  | .aside a => a.IsWritable

def AllWritable (afterText : Bool) : List Node → Prop
  | [] => True
  | node :: nodes => node.IsWritable afterText ∧ AllWritable node.isText nodes

end

theorem cutWhere?_append {p : List Char → Bool} {before cs : List Char}
    (hearly : ∀ first last, cs = first ++ '>' :: last → p (first.reverse ++ before) = false)
    (hlate : p (cs.reverse ++ before) = true) (rest : List Char) :
    cutWhere? p before (cs ++ '>' :: rest) = some (before.reverse ++ cs, rest) := by
  induction cs generalizing before with
  | nil =>
      have hbefore : p before = true := hlate
      simp [cutWhere?, hbefore]
  | cons c cs ih =>
      have hskip : (c = '>' && p before) = false := by
        by_cases hc : c = '>'
        · have hnow := hearly [] cs (by simp [hc])
          simpa [hc] using hnow
        · simp [hc]
      have htail := @ih (c :: before)
        (fun first last hsplit => by
          have hfirst := hearly (c :: first) last (by simp [hsplit])
          simpa using hfirst)
        (by simpa using hlate)
      rw [List.cons_append, cutWhere?, if_neg (by simpa using hskip), htail]
      simp

theorem content_of_split {content mark first last : List Char} (hmark : '>' ∉ mark)
    (h : content ++ mark = first ++ '>' :: last) : ∃ inner, content = first ++ '>' :: inner := by
  rcases List.append_eq_append_iff.mp h with ⟨after, -, hafter⟩ | ⟨after, hcontent, hafter⟩
  · exact absurd (by simp [hafter] : '>' ∈ mark) hmark
  · cases after with
    | nil =>
        rw [List.nil_append] at hafter
        exact absurd (by simp [← hafter] : '>' ∈ mark) hmark
    | cons c inner =>
        rw [List.cons_append, List.cons.injEq] at hafter
        exact ⟨inner, by rw [hcontent, ← hafter.1]⟩

theorem comment_content {content : List Char} (h : ¬ ['-', '-'] <:+: content ++ ['-'])
    (rest : List Char) :
    comment ('-' :: '-' :: (content ++ '-' :: '-' :: '>' :: rest)) = .ok (.other, rest) := by
  have hcut := @cutWhere?_append (fun before => 4 ≤ before.length && ['-', '-'].isPrefixOf before)
    [] ('-' :: '-' :: (content ++ ['-', '-'])) ?early (by simp) rest
  · have hshape : '-' :: '-' :: (content ++ ['-', '-']) ++ '>' :: rest =
        '-' :: '-' :: (content ++ '-' :: '-' :: '>' :: rest) := by
      simp
    rw [hshape] at hcut
    simp [comment, hcut]
  case early =>
    intro first last hsplit
    by_contra hfound
    simp only [List.append_nil, List.length_reverse, Bool.not_eq_false, Bool.and_eq_true,
      decide_eq_true_eq, List.isPrefixOf_iff_prefix] at hfound
    rcases hfound with ⟨hlength, hmark⟩
    have hmark : ['-', '-'] <:+ first := List.reverse_prefix.mp hmark
    rcases first with _ | ⟨c, _ | ⟨d, inner⟩⟩
    · simp at hlength
    · simp at hlength
    · -- The mark that is found comes after the two hyphens of the beginning.
      simp only [List.length_cons] at hlength
      have hinner : ['-', '-'] <:+ inner := by
        refine List.suffix_of_suffix_length_le hmark ⟨[c, d], rfl⟩ ?_
        simp only [List.length_cons, List.length_nil]
        omega
      simp only [List.cons_append, List.cons.injEq] at hsplit
      rcases content_of_split (by simp) hsplit.2.2 with ⟨after, rfl⟩
      refine h (hinner.isInfix.trans (List.IsPrefix.isInfix ⟨'>' :: after ++ ['-'], ?_⟩))
      simp

theorem characterData_content {content : List Char} (h : ¬ [']', ']', '>'] <:+: content)
    (rest : List Char) :
    characterData ('[' :: 'C' :: 'D' :: 'A' :: 'T' :: 'A' :: '[' ::
      (content ++ ']' :: ']' :: '>' :: rest)) = .ok (.other, rest) := by
  have hcut := @cutWhere?_append (fun before => [']', ']'].isPrefixOf before)
    [] (['[', 'C', 'D', 'A', 'T', 'A', '['] ++ content ++ [']', ']']) ?early (by simp) rest
  · simp only [List.cons_append, List.nil_append, List.append_assoc] at hcut
    simp [characterData, hcut, startsWith]
  case early =>
    intro first last hsplit
    by_contra hfound
    simp only [List.append_nil, Bool.not_eq_false, List.isPrefixOf_iff_prefix] at hfound
    have hmark : [']', ']'] <:+ first := List.reverse_prefix.mp hfound
    rcases hmark with ⟨front, rfl⟩
    rcases content_of_split (by simp) hsplit with ⟨inner, hinner⟩
    have hclose : [']', ']', '>'] <:+: ['[', 'C', 'D', 'A', 'T', 'A', '['] ++ content :=
      ⟨front, inner, by rw [hinner]; simp⟩
    simp [List.infix_cons_iff, h] at hclose

theorem tag_hyphen (cs : List Char) : tag '!' ('-' :: cs) = comment ('-' :: cs) := by
  simp [tag, bang]

theorem tag_bracket (cs : List Char) : tag '!' ('[' :: cs) = characterData ('[' :: cs) := by
  simp [tag, bang]

theorem tokensFrom_aside {a : Aside} (h : a.IsWritable) (rest : List Char) :
    tokensFrom (a.write ++ rest) = (tokensFrom rest).map (.other :: ·) id := by
  cases a with
  | comment content =>
      have htag := (tag_hyphen _).trans (comment_content h rest)
      rw [← tokensFrom_tag htag]
      simp [Aside.write]
  | characterData content =>
      have htag := (tag_bracket _).trans (characterData_content h rest)
      rw [← tokensFrom_tag htag]
      simp [Aside.write]
  | instruction content =>
      have hclose : ∀ c ∈ content ++ ['?'], c ≠ '>' := by
        intro c hc
        rcases List.mem_append.mp hc with hc | hc
        · exact h.2 c hc
        · simp [List.mem_singleton.mp hc]
      have hlength : 1 < (content ++ ['?']).length := by
        have := List.length_pos_iff.mpr h.1
        simp only [List.length_append, List.length_singleton]
        omega
      rw [← tokensFrom_instruction hclose hlength (by simp) rest]
      simp [Aside.write]

mutual

def Node.tokens : Node → List Token
  | .element name _ children =>
    .start name.text.toList :: (allTokens children ++ [.finish name.text.toList])
  | .empty name _ => [.empty name.text.toList]
  | .text spellings => [.text (spellings.flatMap Spelling.written)]
  | .aside _ => [.other]

def allTokens : List Node → List Token
  | [] => []
  | node :: nodes => node.tokens ++ allTokens nodes

end

theorem Node.atMarkup_write {node : Node} (h : node.isText = false) (rest : List Char) :
    AtMarkup (node.write ++ rest) := by
  right
  cases node with
  | element name attributes children | empty name attributes => exact ⟨_, rfl⟩
  | text spellings => cases h
  | aside a => cases a <;> exact ⟨_, rfl⟩

theorem atMarkup_writeAll {nodes : List Node} (h : AllWritable true nodes) {rest : List Char}
    (hrest : AtMarkup rest) : AtMarkup (writeAll nodes ++ rest) := by
  cases nodes with
  | nil => exact hrest
  | cons node nodes =>
      rw [writeAll, List.append_assoc]
      apply Node.atMarkup_write
      cases node with
      | text spellings => simp [AllWritable, Node.IsWritable] at h
      | element name attributes children | empty name attributes | aside a => rfl

theorem tokensFrom_spellings {spellings : List Spelling} (hne : spellings ≠ [])
    (hspelled : ∀ s ∈ spellings, s.char?.isSome) {rest : List Char} (hrest : AtMarkup rest) :
    tokensFrom (spellings.flatMap Spelling.written ++ rest) =
      (tokensFrom rest).map (.text (spellings.flatMap Spelling.written) :: ·) id := by
  apply tokensFrom_text ?_ ?_ hrest
  · rcases List.exists_cons_of_ne_nil hne with ⟨s, spellings, rfl⟩
    simp [s.written_ne_nil]
  · intro d hd
    rcases List.mem_flatMap.mp hd with ⟨s, hs, hd⟩
    exact s.ne_of_mem_written (hspelled s hs) d hd

mutual

theorem Node.tokensFrom_write {afterText : Bool} :
    ∀ {node : Node}, node.IsWritable afterText → ∀ {rest : List Char},
      (node.isText = true → AtMarkup rest) →
      tokensFrom (node.write ++ rest) = (tokensFrom rest).map (node.tokens ++ ·) id
  | .element name attributes children, h, rest, _ => by
      have hname : isName name.text = true := name.isName_text
      have hfinish : AtMarkup ((Piece.finish name.text).render ++ rest) := .inr ⟨_, rfl⟩
      rw [Node.write, List.append_assoc, tokensFrom_start h.1, List.append_assoc,
        tokensFrom_writeAll h.2 hfinish, tokensFrom_finishPiece hname]
      simp [Node.tokens, Prod.map]
  | .empty name attributes, h, rest, _ => tokensFrom_empty h rest
  | .text spellings, h, rest, hrest => tokensFrom_spellings h.2.1 h.2.2 (hrest rfl)
  | .aside a, h, rest, _ => tokensFrom_aside h rest

theorem tokensFrom_writeAll {afterText : Bool} :
    ∀ {nodes : List Node}, AllWritable afterText nodes → ∀ {rest : List Char}, AtMarkup rest →
      tokensFrom (writeAll nodes ++ rest) = (tokensFrom rest).map (allTokens nodes ++ ·) id
  | [], _, rest, _ => by simp [writeAll, allTokens, Prod.map]
  | node :: nodes, h, rest, hrest => by
      have hnext : node.isText = true → AtMarkup (writeAll nodes ++ rest) := fun htext =>
        atMarkup_writeAll (htext ▸ h.2) hrest
      rw [writeAll, List.append_assoc, Node.tokensFrom_write h.1 hnext,
        tokensFrom_writeAll h.2 hrest]
      simp [allTokens, Prod.map]

end

mutual

theorem Node.eventsUnder_tokens (opened : List (List Char)) (fault : Option Fault) :
    ∀ (node : Node) (tokens : List Token),
      eventsUnder opened fault (node.tokens ++ tokens) =
        (eventsUnder opened fault tokens).map (node.events ++ ·) id
  | .element name attributes children, tokens => by
      have hname : finishName name.text.toList = name.text.toList :=
        finishName_name name.isName_text
      simp only [Node.tokens, List.cons_append, List.append_assoc, eventsUnder,
        eventsUnder_allTokens, List.nil_append, hname, ↓reduceIte]
      simp [Node.events, Prod.map]
  | .empty name attributes, tokens => rfl
  | .text spellings, tokens => rfl
  | .aside a, tokens => rfl

theorem eventsUnder_allTokens (opened : List (List Char)) (fault : Option Fault) :
    ∀ (nodes : List Node) (tokens : List Token),
      eventsUnder opened fault (allTokens nodes ++ tokens) =
        (eventsUnder opened fault tokens).map (allEvents nodes ++ ·) id
  | [], tokens => rfl
  | node :: nodes, tokens => by
      rw [allTokens, List.append_assoc, Node.eventsUnder_tokens, eventsUnder_allTokens]
      simp [allEvents, Prod.map]

end

/-- A document that does not begin with a text is read as the events of its nodes. -/
theorem events_writeAll {nodes : List Node} (h : AllWritable true nodes) :
    events (String.ofList (writeAll nodes)) = (allEvents nodes, none) := by
  have hread := tokensFrom_writeAll h (.inl rfl)
  have htokens : tokens (String.ofList (writeAll nodes)) = (allTokens nodes, none) := by
    have hmarkup := atMarkup_writeAll h (.inl rfl)
    simp only [List.append_nil, tokensFrom, Prod.map, id_eq] at hread hmarkup
    simp only [tokens, String.toList_ofList]
    rcases hmarkup with hnone | ⟨tail, htail⟩
    · rwa [hnone] at hread ⊢
    · rwa [htail] at hread ⊢
  have hevents := eventsUnder_allTokens [] none nodes []
  simp only [List.append_nil, eventsUnder, Prod.map, id_eq] at hevents
  simp only [events, htokens, hevents]

end Manuscript.Xml
