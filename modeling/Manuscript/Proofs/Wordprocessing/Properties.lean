import Mathlib.Data.List.Forall2
import Manuscript.Proofs.Wordprocessing.Reading
import Manuscript.Proofs.Xml.Omission

/-!
# What properties add to a text

Properties of paragraphs and runs hold no text, but they may hold elements that stand for tabs in a
text, as tab stops do.  The reader takes these for tabs.  So a document is read as the document
without its properties would be, with the same faults and warnings, but for one more character in
a paragraph for each tab or line break in its properties.
-/

namespace Manuscript.Wordprocessing

open Xml (EntityFault Event Name Node)

inductive WithMarks : List Char → List Char → Prop
  | nil : WithMarks [] []
  | keep (c : Char) {cs ds : List Char} : WithMarks cs ds → WithMarks (c :: cs) (c :: ds)
  | mark {c : Char} (hc : c = '\t' ∨ c = '\n') {cs ds : List Char} :
      WithMarks cs ds → WithMarks cs (c :: ds)

namespace WithMarks

variable {cs ds cs' ds' : List Char}

theorem refl : ∀ cs : List Char, WithMarks cs cs
  | [] => .nil
  | c :: cs => .keep c (refl cs)

theorem append (h : WithMarks cs ds) (h' : WithMarks cs' ds') :
    WithMarks (cs ++ cs') (ds ++ ds') := by
  induction h with
  | nil => exact h'
  | keep c _ ih => exact .keep c ih
  | mark hc _ ih => exact .mark hc ih

theorem length_le (h : WithMarks cs ds) : cs.length ≤ ds.length := by
  induction h with
  | nil => exact Nat.le_refl _
  | keep c _ ih => exact Nat.succ_le_succ ih
  | mark hc _ ih => exact Nat.le_succ_of_le ih

theorem eq_of_length_eq (h : WithMarks cs ds) (hlength : ds.length = cs.length) : cs = ds := by
  induction h with
  | nil => rfl
  | keep c _ ih => rw [ih (Nat.succ_inj.mp hlength)]
  | mark hc h' _ =>
      have hle := h'.length_le
      rw [List.length_cons] at hlength
      omega

end WithMarks

def size (texts : List (List Char)) : Nat :=
  (texts.map List.length).sum

@[simp] theorem size_nil : size [] = 0 := rfl

@[simp] theorem size_cons (text : List Char) (texts : List (List Char)) :
    size (text :: texts) = text.length + size texts := rfl

theorem eq_of_size_eq {short long : List (List Char)} (h : List.Forall₂ WithMarks short long)
    (hsize : size long = size short) : short = long := by
  have hle : ∀ {short long : List (List Char)}, List.Forall₂ WithMarks short long →
      size short ≤ size long := by
    intro short long h
    induction h with
    | nil => exact Nat.le_refl _
    | cons htext _ ih =>
        rw [size_cons, size_cons]
        exact Nat.add_le_add htext.length_le ih
  induction h with
  | nil => rfl
  | cons htext hrest ih =>
      have hfirst := htext.length_le
      have hothers := hle hrest
      rw [size_cons, size_cons] at hsize
      rw [htext.eq_of_length_eq (by omega), ih (by omega)]

namespace Progress

/-! ## Two readings side by side -/

/-- The second reading has got as far as the first one, with `depth` open paragraphs and in or
outside of a text element, and has found `n` tabs and line breaks more. -/
inductive Extends (depth : Nat) (inText : Bool) (n : Nat) : Progress → Progress → Prop
  | intro {done done' opened opened' : List (List Char)} {warnings : List Warning}
      (hdone : List.Forall₂ WithMarks done done') (hopened : List.Forall₂ WithMarks opened opened')
      (hdepth : opened'.length = depth)
      (hsize : size done' + size opened' = size done + size opened + n) :
      Extends depth inText n ⟨done, opened, inText, warnings⟩ ⟨done', opened', inText, warnings⟩

/-- Two runs that end in the same way. -/
inductive SameCourse (depth : Nat) (inText : Bool) (n : Nat) :
    Progress × Option EntityFault → Progress × Option EntityFault → Prop
  | fault {bare whole : Progress} (fault : EntityFault) (h : bare.warnings = whole.warnings) :
      SameCourse depth inText n (bare, some fault) (whole, some fault)
  | progress {bare whole : Progress} (h : Extends depth inText n bare whole) :
      SameCourse depth inText n (bare, none) (whole, none)

theorem run_append (progress : Progress) (events events' : List Event) :
    progress.run (events ++ events') =
      match progress.run events with
      | (next, none) => next.run events'
      | (next, some fault) => (next, some fault) := by
  induction events generalizing progress with
  | nil => rfl
  | cons event events ih =>
      rw [List.cons_append, run, run]
      cases progress.step event with
      | ok next => exact ih next
      | error fault => rfl

variable {depth depth' n n' : Nat} {inText inText' : Bool} {bare whole : Progress}
  {events events' more more' : List Event} {name : List Char}

theorem SameCourse.append
    (h : SameCourse depth inText n (bare.run events) (whole.run events'))
    (hmore : ∀ {bare whole : Progress}, Extends depth inText n bare whole →
      SameCourse depth' inText' n' (bare.run more) (whole.run more')) :
    SameCourse depth' inText' n' (bare.run (events ++ more)) (whole.run (events' ++ more')) := by
  rw [run_append, run_append]
  generalize bare.run events = first at h
  generalize whole.run events' = second at h
  cases h with
  | fault fault h => exact .fault fault h
  | progress h => exact hmore h

namespace Extends

theorem start_paragraph (h : Extends depth inText n bare whole)
    (hname : meaning name = .paragraph) :
    SameCourse (depth + 1) inText n (bare.run [.start name]) (whole.run [.start name]) := by
  obtain ⟨hdone, hopened, rfl, hsize⟩ := h
  simp only [run, step, hname]
  exact .progress ⟨hdone, .cons .nil hopened, rfl, by simpa using hsize⟩

theorem finish_paragraph (h : Extends (depth + 1) inText n bare whole)
    (hname : meaning name = .paragraph) :
    SameCourse depth inText n (bare.run [.finish name]) (whole.run [.finish name]) := by
  obtain ⟨hdone, hopened, hdepth, hsize⟩ := h
  cases hopened with
  | nil => cases hdepth
  | cons htext hrest =>
      simp only [run, step, hname]
      refine .progress ⟨.cons htext hdone, hrest, Nat.succ_inj.mp hdepth, ?_⟩
      simp only [size_cons] at hsize ⊢
      omega

theorem empty_paragraph (h : Extends depth inText n bare whole)
    (hname : meaning name = .paragraph) :
    SameCourse depth inText n (bare.run [.empty name]) (whole.run [.empty name]) := by
  obtain ⟨hdone, hopened, rfl, hsize⟩ := h
  simp only [run, step, hname]
  exact .progress ⟨.cons .nil hdone, hopened, rfl, by simpa using hsize⟩

theorem start_text (h : Extends depth inText n bare whole) (hname : meaning name = .text) :
    SameCourse depth true n (bare.run [.start name]) (whole.run [.start name]) := by
  obtain ⟨hdone, hopened, rfl, hsize⟩ := h
  simp only [run, step, hname]
  exact .progress ⟨hdone, hopened, rfl, hsize⟩

theorem finish_text (h : Extends depth inText n bare whole) (hname : meaning name = .text) :
    SameCourse depth false n (bare.run [.finish name]) (whole.run [.finish name]) := by
  obtain ⟨hdone, hopened, rfl, hsize⟩ := h
  simp only [run, step, hname]
  exact .progress ⟨hdone, hopened, rfl, hsize⟩

theorem grow_both (h : Extends depth inText n bare whole) (cs : List Char) :
    Extends depth inText n (bare.add cs) (whole.add cs) := by
  obtain ⟨hdone, hopened, rfl, hsize⟩ := h
  rw [add_eq_grow, add_eq_grow]
  cases hopened with
  | nil => exact ⟨hdone, .nil, rfl, hsize⟩
  | cons htext hrest =>
      refine ⟨hdone, .cons (htext.append (.refl cs)) hrest, rfl, ?_⟩
      simp only [grow, size_cons, List.length_append] at hsize ⊢
      omega

theorem grow_mark (h : Extends depth inText n bare whole) {c : Char} (hc : c = '\t' ∨ c = '\n') :
    Extends depth inText (n + if 0 < depth then 1 else 0) bare (whole.add [c]) := by
  obtain ⟨hdone, hopened, rfl, hsize⟩ := h
  rw [add_eq_grow]
  cases hopened with
  | nil => exact ⟨hdone, .nil, rfl, hsize⟩
  | @cons text text' outer outer' htext hrest =>
      have hlast : WithMarks text (text' ++ [c]) := by
        simpa using htext.append (.mark hc .nil)
      refine ⟨hdone, .cons hlast hrest, rfl, ?_⟩
      simp only [grow, size_cons, List.length_append, List.length_cons, List.length_nil,
        Nat.zero_lt_succ, ↓reduceIte] at hsize ⊢
      omega

theorem char_both (h : Extends depth inText n bare whole) {c : Char}
    (hname : meaning name = .char c) {event : Event}
    (hevent : event = .start name ∨ event = .empty name) :
    SameCourse depth inText n (bare.run [event]) (whole.run [event]) := by
  rcases hevent with rfl | rfl <;>
    simp only [run, step, hname] <;>
    exact .progress (h.grow_both [c])

theorem silent (h : Extends depth inText n bare whole) {event : Event}
    (hevent : ∀ p : Progress, p.step event = .ok p) :
    SameCourse depth inText n (bare.run [event]) (whole.run [event]) := by
  simp only [run, hevent]
  exact .progress h

theorem text (h : Extends depth inText n bare whole) (content : List Char) :
    SameCourse depth inText n (bare.run [.text content]) (whole.run [.text content]) := by
  have hboth := fun cs => h.grow_both cs
  obtain ⟨hdone, hopened, rfl, hsize⟩ := h
  cases inText with
  | false =>
      simp only [run, step, Bool.false_eq_true, ↓reduceIte]
      exact .progress ⟨hdone, hopened, rfl, hsize⟩
  | true =>
      simp only [run, step, ↓reduceIte]
      cases Xml.unescape content with
      | error fault => exact .fault fault rfl
      | ok cs =>
          -- Both readings have an open paragraph for the text, or both warn of it.
          cases hopened with
          | nil => exact .progress ⟨hdone, .nil, rfl, hsize⟩
          | cons htext hrest => exact .progress (hboth cs)

end Extends

end Progress

/-! ## Trees -/

mutual

def markCount : Node → Nat
  | .element name _ children => (mark name).length + allMarkCount children
  | .empty name _ => (mark name).length
  | .text _ | .aside _ => 0

def allMarkCount : List Node → Nat
  | [] => 0
  | node :: nodes => markCount node + allMarkCount nodes

end

mutual

/-- The number of tabs and line breaks that the elements left out of a node stand for, as far as
these elements lie in a paragraph. -/
def omittedMarks (omitted : Name → Bool) (inParagraph : Bool) : Node → Nat
  | .element name _ children => allOmittedMarks omitted (inParagraph || name.base = "p") children
  | .empty _ _ | .text _ | .aside _ => 0

def allOmittedMarks (omitted : Name → Bool) (inParagraph : Bool) : List Node → Nat
  | [] => 0
  | node :: nodes =>
    (if node.isOmitted omitted then (if inParagraph then markCount node else 0)
      else omittedMarks omitted inParagraph node) + allOmittedMarks omitted inParagraph nodes

end

def IsQuiet (_ : Bool) (node : Node) : Prop :=
  ∀ name ∈ node.name?, name.base ≠ "p" ∧ name.base ≠ "t"

def IsQuietIfOmitted (omitted : Name → Bool) (_ : Bool) (node : Node) : Prop :=
  node.isOmitted omitted = true → Everywhere IsQuiet false node

def HoldsTexts (inText : Bool) (node : Node) : Prop :=
  inText = true → node.name? = none

theorem Everywhere.self {p : Bool → Node → Prop} {inText : Bool} {node : Node}
    (h : Everywhere p inText node) : p inText node := by
  cases node with
  | element name attributes children => exact h.1
  | empty name attributes | text spellings | aside a => exact h

theorem isTextual_of_holdsTexts {nodes : List Node} (h : AllEverywhere HoldsTexts true nodes) :
    Xml.IsTextual nodes := by
  induction nodes with
  | nil => simp [Xml.IsTextual]
  | cons node nodes ih => exact List.forall_mem_cons.mpr ⟨h.1.self rfl, ih h.2⟩

theorem allOmittedMarks_of_isTextual {nodes : List Node} (h : Xml.IsTextual nodes)
    (omitted : Name → Bool) (inParagraph : Bool) :
    allOmittedMarks omitted inParagraph nodes = 0 := by
  induction nodes with
  | nil => rfl
  | cons node nodes ih =>
      have hname : node.name? = none := h node (by simp)
      rw [allOmittedMarks, ih fun other hother => h other (by simp [hother])]
      cases node with
      | text spellings | aside a => simp [Node.isOmitted, Node.name?, omittedMarks]
      | element name attributes children | empty name attributes => cases hname

namespace Progress

def Adds (k : Nat) (events : List Event) : Prop :=
  ∀ depth n bare whole, Extends depth false n bare whole →
    ∃ next, whole.run events = (next, none) ∧
      Extends depth false (n + if 0 < depth then k else 0) bare next

namespace Adds

variable {j k : Nat} {events events' : List Event}

theorem nil : Adds 0 [] := by
  intro depth n bare whole h
  refine ⟨whole, rfl, ?_⟩
  rwa [ite_self, Nat.add_zero]

theorem append (h : Adds j events) (h' : Adds k events') : Adds (j + k) (events ++ events') := by
  intro depth n bare whole hboth
  obtain ⟨middle, hrun, hfirst⟩ := h _ _ _ _ hboth
  obtain ⟨next, hrun', hsecond⟩ := h' _ _ _ _ hfirst
  refine ⟨next, by simp [run_append, hrun, hrun'], ?_⟩
  convert hsecond using 1
  split <;> omega

theorem of_silent {event : Event} (h : ∀ p : Progress, p.inText = false → p.step event = .ok p) :
    Adds 0 [event] := by
  intro depth n bare whole hboth
  have hflag : whole.inText = false := by
    cases hboth
    rfl
  refine ⟨whole, by simp [run, h whole hflag], ?_⟩
  rwa [ite_self, Nat.add_zero]

theorem of_char {event : Event} {c : Char} (hc : c = '\t' ∨ c = '\n')
    (h : ∀ p : Progress, p.step event = .ok (p.add [c])) : Adds 1 [event] := by
  intro depth n bare whole hboth
  exact ⟨whole.add [c], by simp [run, h], hboth.grow_mark hc⟩

end Adds

theorem mem_mark {name : Name} {c : Char} (h : c ∈ mark name) : c = '\t' ∨ c = '\n' := by
  unfold mark at h
  split_ifs at h with htab hbreak
  · exact .inl (List.mem_singleton.mp h)
  · exact .inr (List.mem_singleton.mp h)
  · cases h

theorem adds_tag {name : Name} (hquiet : name.base ≠ "p" ∧ name.base ≠ "t") {event : Event}
    (hevent : event = .start name.text.toList ∨ event = .empty name.text.toList) :
    Adds (mark name).length [event] := by
  rcases meaning_cases name with ⟨hp, -⟩ | ⟨ht, -⟩ | ⟨-, -, c, hmeaning, hmark⟩ |
    ⟨-, -, hmeaning, hmark⟩
  · exact absurd hp hquiet.1
  · exact absurd ht hquiet.2
  · have hmem : c ∈ mark name := by simp [hmark]
    have hc := mem_mark hmem
    rw [hmark]
    apply Adds.of_char hc
    rcases hevent with rfl | rfl <;> intro p <;> simp [step, hmeaning]
  · rw [hmark]
    apply Adds.of_silent
    rcases hevent with rfl | rfl <;> intro p _ <;> simp [step, hmeaning]

theorem adds_finish {name : Name} (hquiet : name.base ≠ "p" ∧ name.base ≠ "t") :
    Adds 0 [.finish name.text.toList] := by
  apply Adds.of_silent
  intro p _
  rcases meaning_cases name with ⟨hp, -⟩ | ⟨ht, -⟩ | ⟨-, -, c, hmeaning, -⟩ | ⟨-, -, hmeaning, -⟩
  · exact absurd hp hquiet.1
  · exact absurd ht hquiet.2
  · simp [step, hmeaning]
  · simp [step, hmeaning]

mutual

theorem adds_node : ∀ {inText : Bool} {node : Node}, Everywhere IsQuiet inText node →
    Adds (markCount node) node.events
  | _, .element name _ _, hquiet => by
      have hname := hquiet.1 name rfl
      exact (adds_tag hname (.inl rfl)).append
        ((adds_nodes hquiet.2).append (adds_finish hname))
  | _, .empty name _, hquiet => adds_tag (hquiet name rfl) (.inr rfl)
  | _, .text _, _ => .of_silent fun p hp => by simp [step, hp]
  | _, .aside _, _ => .nil

theorem adds_nodes : ∀ {inText : Bool} {nodes : List Node}, AllEverywhere IsQuiet inText nodes →
    Adds (allMarkCount nodes) (Xml.allEvents nodes)
  | _, [], _ => .nil
  | _, _ :: _, hquiet => (adds_node hquiet.1).append (adds_nodes hquiet.2)

end

/-- Where the first reading takes some events and the second one takes others, they stay side by
side, and the second one finds `k` tabs and line breaks more. -/
def Matches (depth : Nat) (inText : Bool) (depth' : Nat) (inText' : Bool) (k : Nat)
    (events events' : List Event) : Prop :=
  ∀ n bare whole, Extends depth inText n bare whole →
    SameCourse depth' inText' (n + k) (bare.run events) (whole.run events')

namespace Matches

variable {depth depth' depth'' j k : Nat} {inText inText' inText'' : Bool}
  {events events' more more' : List Event} {name : Name} {nodes : List Node}

theorem nil : Matches depth inText depth inText 0 [] [] :=
  fun _ _ _ h => .progress h

theorem append (h : Matches depth inText depth' inText' j events events')
    (h' : Matches depth' inText' depth'' inText'' k more more') :
    Matches depth inText depth'' inText'' (j + k) (events ++ more) (events' ++ more') := by
  intro n bare whole hboth
  rw [← Nat.add_assoc]
  exact (h n bare whole hboth).append fun hnext => h' _ _ _ hnext

theorem of_adds (h : Adds k events) :
    Matches depth false depth false (if 0 < depth then k else 0) [] events := by
  intro n bare whole hboth
  obtain ⟨next, hrun, hnext⟩ := h _ _ _ _ hboth
  rw [hrun]
  exact .progress hnext

theorem of_isTextual (h : Xml.IsTextual nodes) :
    Matches depth inText depth inText 0 (Xml.allEvents nodes) (Xml.allEvents nodes) := by
  induction nodes with
  | nil => exact nil
  | cons node nodes ih =>
      have hname : node.name? = none := h node (by simp)
      have hrest := ih fun other hother => h other (by simp [hother])
      cases node with
      | text spellings =>
          have hfirst : Matches depth inText depth inText 0 (Node.events (.text spellings))
              (Node.events (.text spellings)) := fun n bare whole hboth => hboth.text _
          exact hfirst.append hrest
      | aside a => exact hrest
      | element name attributes children | empty name attributes => cases hname

theorem empty (name : Name) :
    Matches depth inText depth inText 0 [.empty name.text.toList] [.empty name.text.toList] := by
  intro n bare whole h
  rcases meaning_cases name with ⟨-, hname, -⟩ | ⟨-, hname, -⟩ | ⟨-, -, c, hname, -⟩ |
    ⟨-, -, hname, -⟩
  · exact h.empty_paragraph hname
  · exact h.silent fun p => by simp [step, hname]
  · exact h.char_both hname (.inr rfl)
  · exact h.silent fun p => by simp [step, hname]

theorem element (hstart : Matches depth inText depth' inText' 0 [.start name.text.toList]
      [.start name.text.toList])
    (hfinish : Matches depth' inText' depth inText 0 [.finish name.text.toList]
      [.finish name.text.toList])
    (h : Matches depth' inText' depth' inText' k events events') :
    Matches depth inText depth inText k
      (.start name.text.toList :: (events ++ [.finish name.text.toList]))
      (.start name.text.toList :: (events' ++ [.finish name.text.toList])) := by
  simpa using hstart.append (h.append hfinish)

theorem element_paragraph (hname : meaning name.text.toList = .paragraph)
    (h : Matches (depth + 1) inText (depth + 1) inText k events events') :
    Matches depth inText depth inText k
      (.start name.text.toList :: (events ++ [.finish name.text.toList]))
      (.start name.text.toList :: (events' ++ [.finish name.text.toList])) :=
  element (fun _ _ _ hboth => hboth.start_paragraph hname)
    (fun _ _ _ hboth => hboth.finish_paragraph hname) h

theorem element_text (hname : meaning name.text.toList = .text)
    (h : Matches depth true depth true k events events') :
    Matches depth false depth false k
      (.start name.text.toList :: (events ++ [.finish name.text.toList]))
      (.start name.text.toList :: (events' ++ [.finish name.text.toList])) :=
  element (fun _ _ _ hboth => hboth.start_text hname) (fun _ _ _ hboth => hboth.finish_text hname) h

theorem element_other
    (hname : (∃ c, meaning name.text.toList = .char c) ∨ meaning name.text.toList = .nothing)
    (h : Matches depth inText depth inText k events events') :
    Matches depth inText depth inText k
      (.start name.text.toList :: (events ++ [.finish name.text.toList]))
      (.start name.text.toList :: (events' ++ [.finish name.text.toList])) := by
  rcases hname with ⟨c, hname⟩ | hname
  · exact element (fun _ _ _ hboth => hboth.char_both hname (.inl rfl))
      (fun _ _ _ hboth => hboth.silent fun p => by simp [step, hname]) h
  · exact element (fun _ _ _ hboth => hboth.silent fun p => by simp [step, hname])
      (fun _ _ _ hboth => hboth.silent fun p => by simp [step, hname]) h

theorem before {node : Node} (h : Matches depth false depth' inText' k
      (node.events ++ Xml.allEvents nodes) events') :
    Matches depth false depth' inText' k (Xml.allEvents (node.before nodes)) events' := by
  intro n bare whole hboth
  have hrun : bare.run (Xml.allEvents (node.before nodes)) =
      bare.run (node.events ++ Xml.allEvents nodes) := by
    cases hboth
    unfold Node.before
    split
    · simp [Xml.allEvents, Node.events, run, step]
    · rfl
  rw [hrun]
  exact h n bare whole hboth

end Matches

section

variable {omitted : Name → Bool}

mutual

theorem matches_node : ∀ {afterText : Bool} {node : Node}, node.IsWritable afterText →
    Everywhere HoldsTexts false node → Everywhere (IsQuietIfOmitted omitted) false node →
    ∀ depth, Matches depth false depth false (omittedMarks omitted (0 < depth) node)
      (node.without omitted).joined.events node.events
  | _, .element name attributes children, hwritable, ⟨_, htexts⟩, ⟨_, hquiet⟩, depth => by
      simp only [Node.without, Node.joined, Node.events, omittedMarks]
      rcases meaning_cases name with ⟨hp, hname, -⟩ | ⟨ht, hname, -⟩ | ⟨hp, ht, c, hname, -⟩ |
        ⟨hp, ht, hname, -⟩
      · have ht : name.base ≠ "t" := by simp [hp]
        simp only [ht, decide_false, Bool.or_false] at htexts hquiet
        have hchildren := matches_nodes hwritable.2 htexts hquiet (depth + 1)
        simpa [hp] using Matches.element_paragraph hname hchildren
      · simp only [ht, decide_true, Bool.or_true] at htexts
        have htextual := isTextual_of_holdsTexts htexts
        rw [Xml.withoutAll_of_isTextual omitted htextual,
          Xml.joinAll_of_isTextual htextual hwritable.2, allOmittedMarks_of_isTextual htextual]
        exact Matches.element_text hname (.of_isTextual htextual)
      · simp only [ht, decide_false, Bool.or_false] at htexts hquiet
        have hchildren := matches_nodes hwritable.2 htexts hquiet depth
        simpa [hp] using Matches.element_other (.inl ⟨c, hname⟩) hchildren
      · simp only [ht, decide_false, Bool.or_false] at htexts hquiet
        have hchildren := matches_nodes hwritable.2 htexts hquiet depth
        simpa [hp] using Matches.element_other (.inr hname) hchildren
  | _, .empty name attributes, _, _, _, depth => by
      simp only [Node.without, Node.joined, Node.events, omittedMarks]
      exact .empty name
  | _, .text spellings, _, _, _, depth => by
      simp only [Node.without, Node.joined, Node.events, omittedMarks]
      exact fun n bare whole hboth => hboth.text _
  | _, .aside a, _, _, _, depth => by
      simp only [Node.without, Node.joined, Node.events, omittedMarks]
      exact .nil

theorem matches_nodes : ∀ {afterText : Bool} {nodes : List Node},
    Xml.AllWritable afterText nodes → AllEverywhere HoldsTexts false nodes →
    AllEverywhere (IsQuietIfOmitted omitted) false nodes →
    ∀ depth, Matches depth false depth false (allOmittedMarks omitted (0 < depth) nodes)
      (Xml.allEvents (Xml.joinAll (Xml.withoutAll omitted nodes))) (Xml.allEvents nodes)
  | _, [], _, _, _, depth => .nil
  | _, node :: nodes, hwritable, htexts, hquiet, depth => by
      have hrest := matches_nodes hwritable.2 htexts.2 hquiet.2 depth
      simp only [Xml.withoutAll, Xml.allEvents, allOmittedMarks]
      split
      · next homitted =>
        have hnode : Matches depth false depth false _ _ _ :=
          .of_adds (adds_node (hquiet.1.self homitted))
        simpa using hnode.append hrest
      · rw [Xml.joinAll]
        exact .before ((matches_node hwritable.1 htexts.1 hquiet.1 depth).append hrest)

end

end

end Progress

/-! ## Whole documents -/

def isProperty (name : Name) : Bool :=
  name.base = "pPr" || name.base = "rPr"

def isMark (name : Name) : Bool :=
  mark name ≠ []

/-- What the schema of such documents prescribes, as far as it matters here: properties, tabs and
line breaks lie inside of other elements and hold no paragraph and no text element, and text
elements hold nothing but texts. -/
structure IsWordDocument (nodes : List Node) : Prop where
  isWritable : Xml.AllWritable true nodes
  inside : ∀ node ∈ nodes, node.isOmitted (fun name => isProperty name || isMark name) = false
  quiet : AllEverywhere (IsQuietIfOmitted fun name => isProperty name || isMark name) false nodes
  texts : AllEverywhere HoldsTexts false nodes

/-- Two readings that end in the same way and with the same warnings, where the paragraphs of the
second one are those of the first one with `n` tabs and line breaks put in. -/
inductive MarkedBy (n : Nat) : Noted (Except Xml.Fault (List String)) →
    Noted (Except Xml.Fault (List String)) → Prop
  | fault (fault : Xml.Fault) (warnings : List Warning) :
      MarkedBy n ⟨.error fault, warnings⟩ ⟨.error fault, warnings⟩
  | texts {short long : List (List Char)} (warnings : List Warning)
      (htexts : List.Forall₂ WithMarks short long) (hsize : size long = size short + n) :
      MarkedBy n ⟨.ok (short.map String.ofList), warnings⟩ ⟨.ok (long.map String.ofList), warnings⟩

theorem MarkedBy.eq_iff {n : Nat} {bare whole : Noted (Except Xml.Fault (List String))}
    (h : MarkedBy n bare whole) :
    bare = whole ↔ n = 0 ∨ ∃ fault, whole.value = .error fault := by
  cases h with
  | fault fault warnings => simp
  | texts warnings htexts hsize =>
      simp only [Noted.mk.injEq, Except.ok.injEq, and_true, reduceCtorEq, exists_false, or_false]
      constructor
      · intro heq
        have hsame := List.map_injective_iff.mpr (fun _ _ => String.ofList_inj.mp) heq
        rw [hsame] at hsize
        omega
      · rintro rfl
        rw [eq_of_size_eq htexts hsize]

mutual

theorem Everywhere.imp {p q : Bool → Node → Prop}
    (h : ∀ inText node, p inText node → q inText node) :
    ∀ {inText : Bool} {node : Node}, Everywhere p inText node → Everywhere q inText node
  | _, .element _ _ _, hp => ⟨h _ _ hp.1, AllEverywhere.imp h hp.2⟩
  | _, .empty _ _, hp => h _ _ hp
  | _, .text _, hp => h _ _ hp
  | _, .aside _, hp => h _ _ hp

theorem AllEverywhere.imp {p q : Bool → Node → Prop}
    (h : ∀ inText node, p inText node → q inText node) :
    ∀ {inText : Bool} {nodes : List Node},
      AllEverywhere p inText nodes → AllEverywhere q inText nodes
  | _, [], _ => trivial
  | _, _ :: _, hp => ⟨Everywhere.imp h hp.1, AllEverywhere.imp h hp.2⟩

end

theorem markedBy_of_matches {xml xml' : String} {events events' : List Event} {k : Nat}
    (hevents : Xml.events xml = (events, none)) (hevents' : Xml.events xml' = (events', none))
    (h : Progress.Matches 0 false 0 false k events events') :
    MarkedBy k (paragraphTexts xml) (paragraphTexts xml') := by
  have hcourse := h 0 {} {} ⟨.nil, .nil, rfl, rfl⟩
  rw [Nat.zero_add] at hcourse
  simp only [paragraphTexts, hevents, hevents']
  generalize Progress.run {} events = first at hcourse
  generalize Progress.run {} events' = second at hcourse
  cases hcourse with
  | @fault bare whole fault hwarnings =>
      simp only [hwarnings]
      exact .fault _ _
  | progress hboth =>
      obtain ⟨hdone, hopened, hdepth, hsize⟩ := hboth
      cases List.length_eq_zero_iff.mp hdepth
      cases hopened
      simp only [Progress.texts, Progress.allWarnings, List.reverse_nil, List.append_nil]
      refine .texts _ (List.forall₂_reverse_iff.mpr hdone) ?_
      simpa [size] using hsize

/-- Without properties, or without tabs and line breaks, a document is read in the same way, but
that one character is missing for each tab or line break left out in a paragraph.  So properties
give a text their tabs and line breaks and nothing else. -/
theorem paragraphTexts_withoutAll {nodes : List Node} (h : IsWordDocument nodes)
    {omitted : Name → Bool}
    (homitted : ∀ name, omitted name = true → isProperty name ∨ isMark name) :
    MarkedBy (allOmittedMarks omitted false nodes)
        (paragraphTexts (String.ofList (Xml.writeAll (Xml.withoutAll omitted nodes))))
        (paragraphTexts (String.ofList (Xml.writeAll nodes))) ∧
      (paragraphTexts (String.ofList (Xml.writeAll (Xml.withoutAll omitted nodes))) =
          paragraphTexts (String.ofList (Xml.writeAll nodes)) ↔
        allOmittedMarks omitted false nodes = 0 ∨
          ∃ fault, (paragraphTexts (String.ofList (Xml.writeAll nodes))).value = .error fault) := by
  have hkept : ∀ node : Node, node.isOmitted omitted = true →
      node.isOmitted (fun name => isProperty name || isMark name) = true := by
    intro node hout
    cases node with
    | element name attributes children | empty name attributes =>
        simpa [Node.isOmitted, Node.name?] using homitted name hout
    | text spellings | aside a => cases hout
  have hinside : ∀ node ∈ nodes, node.isOmitted omitted = false := by
    intro node hnode
    by_contra hout
    have hfound := hkept node (by simpa using hout)
    rw [h.inside node hnode] at hfound
    cases hfound
  have hquiet : AllEverywhere (IsQuietIfOmitted omitted) false nodes :=
    h.quiet.imp fun inText node hnode hout => hnode (hkept node hout)
  have hmatches := Progress.matches_nodes h.isWritable h.texts hquiet 0
  have hmarked := markedBy_of_matches (Xml.events_withoutAll h.isWritable hinside)
    (Xml.events_writeAll h.isWritable) hmatches
  exact ⟨hmarked, hmarked.eq_iff⟩

theorem isSimpleName_word : ∀ space ∈ some "w", Xml.isSimpleName space = true := by
  decide

def tabStop : List Node :=
  [.element ⟨some "w", "document", isSimpleName_word, .refl true⟩
    [⟨"xmlns:w", "http://schemas.openxmlformats.org/wordprocessingml/2006/main"⟩]
    [.element ⟨some "w", "body", isSimpleName_word, .refl true⟩ []
      [.element ⟨some "w", "p", isSimpleName_word, .refl true⟩ []
        [.element ⟨some "w", "pPr", isSimpleName_word, .refl true⟩ []
          [.element ⟨some "w", "tabs", isSimpleName_word, .refl true⟩ []
            [.empty ⟨some "w", "tab", isSimpleName_word, .refl true⟩
              [⟨"w:val", "left"⟩, ⟨"w:pos", "720"⟩]]],
        .element ⟨some "w", "r", isSimpleName_word, .refl true⟩ []
          [.element ⟨some "w", "t", isSimpleName_word, .refl true⟩ [] [.text [.plain 'a']]]]]]]

theorem isWordDocument_tabStop : IsWordDocument tabStop where
  isWritable := by
    simp [tabStop, Xml.AllWritable, Node.IsWritable]
    decide
  inside := by
    simp [tabStop, Node.isOmitted, Node.name?, isProperty, isMark, mark]
  quiet := by
    simp [tabStop, AllEverywhere, Everywhere, IsQuietIfOmitted, IsQuiet, Node.isOmitted, Node.name?,
      isProperty, isMark, mark]
  texts := by
    simp [tabStop, AllEverywhere, Everywhere, HoldsTexts, Node.name?]

theorem paragraphTexts_withoutAll_tabStop :
    IsWordDocument tabStop ∧
      (∀ name, isProperty name = true → isProperty name ∨ isMark name) ∧
      MarkedBy 1 (paragraphTexts (String.ofList (Xml.writeAll (Xml.withoutAll isProperty tabStop))))
        (paragraphTexts (String.ofList (Xml.writeAll tabStop))) := by
  have hproperty : ∀ name, isProperty name = true → isProperty name ∨ isMark name :=
    fun _ h => .inl h
  refine ⟨isWordDocument_tabStop, hproperty, ?_⟩
  have hcount : allOmittedMarks isProperty false tabStop = 1 := by
    decide
  rw [← hcount]
  exact (paragraphTexts_withoutAll isWordDocument_tabStop hproperty).1

/-- Properties can add to a text: a tab stop is read as a tab. -/
theorem value_paragraphTexts_tabStop :
    IsWordDocument tabStop ∧
      (paragraphTexts (String.ofList (Xml.writeAll (Xml.withoutAll isProperty tabStop)))).value =
        .ok ["a"] ∧
      (paragraphTexts (String.ofList (Xml.writeAll tabStop))).value = .ok ["\ta"] := by
  have hbare : Xml.AllWritable true (Xml.withoutAll isProperty tabStop) := by
    simp [tabStop, Xml.withoutAll, Node.without, Node.isOmitted, Node.name?, isProperty,
      Xml.AllWritable, Node.IsWritable]
    decide
  refine ⟨isWordDocument_tabStop, ?_, ?_⟩
  · rw [value_paragraphTexts_writeAll ?_ ?_ hbare]
    · decide
    · simp [tabStop, Xml.withoutAll, Node.without, Node.isOmitted, Node.name?, isProperty,
        AllEverywhere, Everywhere, IsFlat]
    · simp [tabStop, Xml.withoutAll, Node.without, Node.isOmitted, Node.name?, isProperty,
        AllEverywhere, Everywhere, IsShort]
      decide
  · rw [value_paragraphTexts_writeAll ?_ ?_ isWordDocument_tabStop.isWritable]
    · decide
    · simp [tabStop, AllEverywhere, Everywhere, IsFlat]
    · simp [tabStop, AllEverywhere, Everywhere, IsShort]
      decide

end Manuscript.Wordprocessing
