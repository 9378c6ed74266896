import Manuscript.Proofs.Xml.Tree

/-!
# Trees without some of their elements

Elements of certain names are left out of a tree together with all that is in them.  Texts that
come to stand side by side are one text once the tree is written out, so the events of what is
written are those of the tree whose texts are joined.
-/

namespace Manuscript.Xml

def Node.name? : Node → Option Name
  | .element name _ _ | .empty name _ => some name
  | .text _ | .aside _ => none

def Node.isOmitted (omitted : Name → Bool) (node : Node) : Bool :=
  node.name?.any omitted

mutual

def Node.without (omitted : Name → Bool) : Node → Node
  | .element name attributes children => .element name attributes (withoutAll omitted children)
  | .empty name attributes => .empty name attributes
  | .text spellings => .text spellings
  | .aside a => .aside a

def withoutAll (omitted : Name → Bool) : List Node → List Node
  | [] => []
  | node :: nodes =>
    if node.isOmitted omitted then withoutAll omitted nodes
    else node.without omitted :: withoutAll omitted nodes

end

def Node.before (node : Node) (nodes : List Node) : List Node :=
  match node, nodes with
  | .text spellings, .text more :: rest => .text (spellings ++ more) :: rest
  | node, nodes => node :: nodes

mutual

def Node.joined : Node → Node
  | .element name attributes children => .element name attributes (joinAll children)
  | .empty name attributes => .empty name attributes
  | .text spellings => .text spellings
  | .aside a => .aside a

def joinAll : List Node → List Node
  | [] => []
  | node :: nodes => node.joined.before (joinAll nodes)

end

theorem Node.before_of_not_text {node : Node} (h : node.isText = false) (nodes : List Node) :
    node.before nodes = node :: nodes := by
  cases node with
  | text spellings => cases h
  | element name attributes children | empty name attributes | aside a => rfl

theorem writeAll_before (node : Node) (nodes : List Node) :
    writeAll (node.before nodes) = node.write ++ writeAll nodes := by
  unfold Node.before
  split
  · simp [writeAll, Node.write]
  · rfl

mutual

theorem Node.write_joined : ∀ node : Node, node.joined.write = node.write
  | .element name attributes children => by
      simp [Node.joined, Node.write, writeAll_joinAll children]
  | .empty _ _ | .text _ | .aside _ => by simp [Node.joined]

theorem writeAll_joinAll : ∀ nodes : List Node, writeAll (joinAll nodes) = writeAll nodes
  | [] => rfl
  | node :: nodes => by
      rw [joinAll, writeAll_before, Node.write_joined node, writeAll_joinAll nodes, writeAll]

end

@[simp] theorem Node.isText_without (omitted : Name → Bool) (node : Node) :
    (node.without omitted).isText = node.isText := by
  cases node <;> simp [Node.without, Node.isText]

@[simp] theorem Node.isText_joined (node : Node) : node.joined.isText = node.isText := by
  cases node <;> simp [Node.joined, Node.isText]

theorem Node.IsWritable.of_not_text {node : Node} {afterText : Bool}
    (h : node.IsWritable afterText) (htext : node.isText = false) (before : Bool) :
    node.IsWritable before := by
  cases node with
  | text spellings => cases htext
  | element name attributes children | empty name attributes | aside a => exact h

theorem AllWritable.of_head {nodes : List Node} {afterText : Bool} (h : AllWritable afterText nodes)
    (hhead : ∀ node ∈ nodes.head?, node.isText = false) (before : Bool) :
    AllWritable before nodes := by
  cases nodes with
  | nil => trivial
  | cons node nodes => exact ⟨h.1.of_not_text (hhead node rfl) before, h.2⟩

theorem allWritable_before {node : Node} {nodes : List Node} (hnode : node.IsWritable false)
    (hnodes : AllWritable false nodes) : AllWritable false (node.before nodes) := by
  unfold Node.before
  split
  · next spellings more rest =>
    obtain ⟨-, hne, hspelled⟩ := hnode
    obtain ⟨⟨-, -, hmore⟩, hrest⟩ := hnodes
    refine ⟨⟨rfl, by simp [hne], fun s hs => ?_⟩, hrest⟩
    rcases List.mem_append.mp hs with hs | hs
    · exact hspelled s hs
    · exact hmore s hs
  · next hpair =>
    refine ⟨hnode, ?_⟩
    cases node with
    | element name attributes children | empty name attributes | aside a => exact hnodes
    | text spellings =>
        apply hnodes.of_head
        intro next hnext
        obtain ⟨rest, rfl⟩ := List.head?_eq_some_iff.mp hnext
        cases next with
        | text more => exact absurd rfl (hpair spellings more rest rfl)
        | element name attributes children | empty name attributes | aside a => rfl

mutual

theorem Node.isWritable_without {omitted : Name → Bool} {afterText : Bool} :
    ∀ {node : Node}, node.IsWritable afterText → (node.without omitted).joined.IsWritable false
  | .element name attributes children, h => by
      simp only [Node.without, Node.joined]
      exact ⟨h.1, allWritable_withoutAll h.2⟩
  | .empty name attributes, h => by
      simp only [Node.without, Node.joined]
      exact h
  | .text spellings, h => by
      simp only [Node.without, Node.joined]
      exact ⟨rfl, h.2⟩
  | .aside a, h => by
      simp only [Node.without, Node.joined]
      exact h

theorem allWritable_withoutAll {omitted : Name → Bool} {afterText : Bool} :
    ∀ {nodes : List Node}, AllWritable afterText nodes →
      AllWritable false (joinAll (withoutAll omitted nodes))
  | [], _ => trivial
  | node :: nodes, h => by
      rw [withoutAll]
      split
      · exact allWritable_withoutAll h.2
      · exact allWritable_before (Node.isWritable_without h.1) (allWritable_withoutAll h.2)

end

/-- The events of a document without some elements, none of which is at the top. -/
theorem events_withoutAll {omitted : Name → Bool} {nodes : List Node} (h : AllWritable true nodes)
    (htop : ∀ node ∈ nodes, node.isOmitted omitted = false) :
    events (String.ofList (writeAll (withoutAll omitted nodes))) =
      (allEvents (joinAll (withoutAll omitted nodes)), none) := by
  have hjoined : AllWritable true (joinAll (withoutAll omitted nodes)) := by
    apply (allWritable_withoutAll h).of_head
    cases nodes with
    | nil => simp [withoutAll, joinAll]
    | cons node nodes =>
        have htext : node.isText = false := by
          cases node with
          | text spellings => exact absurd h.1.1 (by simp)
          | element name attributes children | empty name attributes | aside a => rfl
        have hkept : node.isOmitted omitted = false := htop node (by simp)
        simp [withoutAll, hkept, joinAll, Node.before_of_not_text, htext]
  rw [← writeAll_joinAll]
  exact events_writeAll hjoined

def IsTextual (nodes : List Node) : Prop :=
  ∀ node ∈ nodes, node.name? = none

theorem withoutAll_of_isTextual (omitted : Name → Bool) {nodes : List Node} (h : IsTextual nodes) :
    withoutAll omitted nodes = nodes := by
  induction nodes with
  | nil => rfl
  | cons node nodes ih =>
      have hname : node.name? = none := h node (by simp)
      have htail : withoutAll omitted nodes = nodes :=
        ih fun other hother => h other (by simp [hother])
      cases node with
      | text spellings | aside a =>
          simp [withoutAll, Node.isOmitted, Node.name?, Node.without, htail]
      | element name attributes children | empty name attributes => cases hname

theorem joinAll_of_isTextual {nodes : List Node} (h : IsTextual nodes) {afterText : Bool}
    (hwritable : AllWritable afterText nodes) : joinAll nodes = nodes := by
  induction nodes generalizing afterText with
  | nil => rfl
  | cons node nodes ih =>
      have hname : node.name? = none := h node (by simp)
      rw [joinAll, ih (fun other hother => h other (by simp [hother])) hwritable.2]
      cases node with
      | text spellings =>
          cases nodes with
          | nil => rfl
          | cons other rest =>
              cases other with
              | text more => exact absurd hwritable.2.1.1 (by simp [Node.isText])
              | element name attributes children | empty name attributes | aside a =>
                  simp [Node.joined, Node.before]
      | aside a => simp [Node.joined, Node.before]
      | element name attributes children | empty name attributes => cases hname

end Manuscript.Xml
