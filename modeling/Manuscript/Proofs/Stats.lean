import Manuscript.Proofs.Text.Lines
import Manuscript.Stats
import Mathlib.Algebra.Ring.Nat

/-!
# Statistics count what a document holds

Counting a paragraph or a text is merging with its own statistics, and merging adds counter by
counter.  So the statistics of a document are the sum of those of its paragraphs, and each counter
is the number that the document itself gives, as long as that is below 2³².  However statistics come
about, the paragraphs counted are those counted by their roles.
-/

namespace Manuscript

namespace Text

theorem countP_joinLines {p : Char → Bool} (hfeed : p '\n' = false) (lines : List (List Char)) :
    (joinLines lines).countP p = (lines.map (List.countP p)).sum := by
  induction lines with
  | nil => rfl
  | cons line lines ih =>
      cases lines with
      | nil => simp [joinLines]
      | cons next rest =>
          rw [joinLines, List.countP_append, List.countP_cons_of_neg (by simp [hfeed]), ih]
          rfl

theorem inkCount_join (ss : List String) : inkCount (String.join ss) = (ss.map inkCount).sum := by
  rw [inkCount, String.toList_join, List.countP_flatMap]
  rfl

theorem inkCount_unlines (ss : List String) : inkCount (unlines ss) = (ss.map inkCount).sum := by
  rw [inkCount, unlines, String.toList_ofList, countP_joinLines (by decide), List.map_map]
  rfl

end Text

open Text (inkCount wordCount)

theorem Document.inkCount_plainText (document : Document) :
    inkCount document.plainText =
      (document.paragraphs.map fun paragraph => inkCount paragraph.plainText).sum := by
  rw [plainText, Text.inkCount_unlines, List.map_map]
  rfl

theorem Paragraph.inkCount_plainText (paragraph : Paragraph) :
    inkCount paragraph.plainText = (paragraph.runs.map fun run => inkCount run.text).sum := by
  rw [plainText, Text.inkCount_join, List.map_map]
  rfl

namespace Stats

theorem merge_comm (a b : Stats) : a.merge b = b.merge a := by
  simp only [merge, mk.injEq]
  exact ⟨UInt32.add_comm .., UInt32.add_comm .., UInt32.add_comm .., UInt32.add_comm ..,
    UInt32.add_comm .., UInt32.add_comm .., UInt32.add_comm .., UInt32.add_comm ..⟩

theorem merge_assoc (a b c : Stats) : (a.merge b).merge c = a.merge (b.merge c) := by
  simp only [merge, UInt32.add_assoc]

@[simp] theorem empty_merge (a : Stats) : empty.merge a = a := by
  simp [merge, empty]

@[simp] theorem merge_empty (a : Stats) : a.merge empty = a := by
  simp [merge, empty]

theorem addParagraph_eq_merge (stats : Stats) (role : Role) :
    stats.addParagraph role = stats.merge (empty.addParagraph role) := by
  cases role <;> simp [addParagraph, merge, empty]

theorem foldl_countText (stats : Stats) (runs : List Run) :
    runs.foldl (fun stats run => stats.countText run.text) stats =
      { stats with
        words := stats.words + UInt32.ofNat (runs.map fun run => wordCount run.text).sum
        chars := stats.chars + UInt32.ofNat (runs.map fun run => inkCount run.text).sum } := by
  induction runs generalizing stats with
  | nil => simp
  | cons run runs ih =>
      rw [List.foldl_cons, ih]
      simp [countText, UInt32.ofNat_add, UInt32.add_assoc]

theorem countParagraph_eq_addParagraph (stats : Stats) (paragraph : Paragraph) :
    stats.countParagraph paragraph =
      (stats.addParagraph paragraph.role).merge
        { runs := UInt32.ofNat paragraph.runs.length
          words := UInt32.ofNat (paragraph.runs.map fun run => wordCount run.text).sum
          chars := UInt32.ofNat (inkCount paragraph.plainText) } := by
  rw [countParagraph, foldl_countText, paragraph.inkCount_plainText]
  simp [merge]

theorem countParagraph_eq_merge (stats : Stats) (paragraph : Paragraph) :
    stats.countParagraph paragraph = stats.merge (empty.countParagraph paragraph) := by
  rw [countParagraph_eq_addParagraph, addParagraph_eq_merge, merge_assoc,
    ← countParagraph_eq_addParagraph]

theorem foldl_countParagraph_eq_merge (stats : Stats) (paragraphs : List Paragraph) :
    paragraphs.foldl countParagraph stats = stats.merge (ofDocument ⟨paragraphs⟩) := by
  induction paragraphs generalizing stats with
  | nil => simp [ofDocument]
  | cons paragraph paragraphs ih =>
      rw [ofDocument, List.foldl_cons, List.foldl_cons, ih, ih (empty.countParagraph paragraph),
        countParagraph_eq_merge, merge_assoc]

theorem ofDocument_cons (paragraph : Paragraph) (paragraphs : List Paragraph) :
    ofDocument ⟨paragraph :: paragraphs⟩ =
      (empty.countParagraph paragraph).merge (ofDocument ⟨paragraphs⟩) :=
  foldl_countParagraph_eq_merge _ paragraphs

theorem ofDocument_append (paragraphs others : List Paragraph) :
    ofDocument ⟨paragraphs ++ others⟩ = (ofDocument ⟨paragraphs⟩).merge (ofDocument ⟨others⟩) := by
  rw [ofDocument, List.foldl_append, foldl_countParagraph_eq_merge]
  rfl

def ofRole (stats : Stats) : Role → UInt32
  | .title => stats.titles
  | .subtitle => stats.subtitles
  | .body => stats.bodies
  | .blank => stats.blanks

@[simp] theorem ofRole_merge (a b : Stats) (role : Role) :
    (a.merge b).ofRole role = a.ofRole role + b.ofRole role := by
  cases role <;> rfl

theorem ofRole_addParagraph (stats : Stats) (added role : Role) :
    (stats.addParagraph added).ofRole role =
      stats.ofRole role + if added = role then 1 else 0 := by
  cases added <;> cases role <;> simp [addParagraph, ofRole]

theorem paragraphs_addParagraph (stats : Stats) (role : Role) :
    (stats.addParagraph role).paragraphs = stats.paragraphs + 1 := by
  cases role <;> rfl

structure CountsRoles (stats : Stats) (roles : List Role) : Prop where
  paragraphs : stats.paragraphs = UInt32.ofNat roles.length
  ofRole : ∀ role, stats.ofRole role = UInt32.ofNat (roles.count role)

section

variable {stats other : Stats} {roles others : List Role}

theorem CountsRoles.empty : CountsRoles empty [] :=
  ⟨rfl, fun role => by cases role <;> rfl⟩

theorem CountsRoles.addParagraph (h : CountsRoles stats roles) (role : Role) :
    CountsRoles (stats.addParagraph role) (roles ++ [role]) := by
  constructor
  · rw [paragraphs_addParagraph, h.paragraphs, List.length_append, UInt32.ofNat_add]
    rfl
  · intro counted
    rw [ofRole_addParagraph, h.ofRole, List.count_append, UInt32.ofNat_add]
    by_cases heq : role = counted <;> simp [heq]

theorem CountsRoles.countText (h : CountsRoles stats roles) (text : String) :
    CountsRoles (stats.countText text) roles :=
  ⟨h.paragraphs, fun role => by rw [← h.ofRole]; cases role <;> rfl⟩

theorem CountsRoles.merge (h : CountsRoles stats roles) (h' : CountsRoles other others) :
    CountsRoles (stats.merge other) (roles ++ others) := by
  constructor
  · rw [List.length_append, UInt32.ofNat_add, ← h.paragraphs, ← h'.paragraphs]
    rfl
  · intro role
    rw [ofRole_merge, List.count_append, UInt32.ofNat_add, h.ofRole, h'.ofRole]

end

theorem countsRoles_runs (runs words chars : UInt32) : CountsRoles { runs, words, chars } [] :=
  ⟨rfl, fun role => by cases role <;> rfl⟩

theorem countsRoles_ofDocument (paragraphs : List Paragraph) :
    CountsRoles (ofDocument ⟨paragraphs⟩) (paragraphs.map Paragraph.role) := by
  induction paragraphs with
  | nil => exact .empty
  | cons paragraph paragraphs ih =>
      rw [ofDocument_cons, countParagraph_eq_addParagraph]
      have hfirst := CountsRoles.empty.addParagraph paragraph.role
      exact (hfirst.merge (countsRoles_runs _ _ _)).merge ih

theorem runs_ofDocument (document : Document) :
    (ofDocument document).runs = UInt32.ofNat document.runCount := by
  rcases document with ⟨paragraphs⟩
  induction paragraphs with
  | nil => rfl
  | cons paragraph paragraphs ih =>
      have hcons : Document.runCount ⟨paragraph :: paragraphs⟩ =
          paragraph.runs.length + Document.runCount ⟨paragraphs⟩ := by
        simp [Document.runCount]
      have hruns : (empty.countParagraph paragraph).runs = UInt32.ofNat paragraph.runs.length := by
        rw [countParagraph_eq_addParagraph]
        cases paragraph.role <;> exact UInt32.zero_add _
      rw [ofDocument_cons, hcons, UInt32.ofNat_add, ← ih, ← hruns]
      rfl

theorem chars_ofDocument (document : Document) :
    (ofDocument document).chars = UInt32.ofNat (inkCount document.plainText) := by
  rw [document.inkCount_plainText]
  rcases document with ⟨paragraphs⟩
  induction paragraphs with
  | nil => rfl
  | cons paragraph paragraphs ih =>
      have hchars : (empty.countParagraph paragraph).chars =
          UInt32.ofNat (inkCount paragraph.plainText) := by
        rw [countParagraph_eq_addParagraph]
        cases paragraph.role <;> exact UInt32.zero_add _
      rw [ofDocument_cons, List.map_cons, List.sum_cons, UInt32.ofNat_add, ← ih, ← hchars]
      rfl

/-! ## Histories -/

/-- How statistics come about. -/
inductive History where
  | empty
  | ofDocument (document : Document)
  | addParagraph (history : History) (role : Role)
  | countText (history : History) (text : String)
  | merge (history other : History)

namespace History

def stats : History → Stats
  | empty => Stats.empty
  | ofDocument document => Stats.ofDocument document
  | addParagraph history role => history.stats.addParagraph role
  | countText history text => history.stats.countText text
  | merge history other => history.stats.merge other.stats

def roles : History → List Role
  | empty => []
  | ofDocument document => document.paragraphs.map Paragraph.role
  | addParagraph history role => history.roles ++ [role]
  | countText history _ => history.roles
  | merge history other => history.roles ++ other.roles

theorem countsRoles (history : History) : CountsRoles history.stats history.roles := by
  induction history with
  | empty => exact .empty
  | ofDocument document => exact countsRoles_ofDocument document.paragraphs
  | addParagraph history role ih => exact ih.addParagraph role
  | countText history text ih => exact ih.countText text
  | merge history other ih ih' => exact ih.merge ih'

end History

theorem length_eq_sum_count (roles : List Role) :
    roles.length =
      roles.count .title + roles.count .subtitle + roles.count .body + roles.count .blank := by
  induction roles with
  | nil => rfl
  | cons role roles ih =>
      rw [List.length_cons, ih]
      cases role <;> simp <;> omega

section

variable {stats : Stats} {roles : List Role}

theorem CountsRoles.sum (h : CountsRoles stats roles) :
    stats.paragraphs = stats.titles + stats.subtitles + stats.bodies + stats.blanks := by
  rw [h.paragraphs, length_eq_sum_count, UInt32.ofNat_add, UInt32.ofNat_add, UInt32.ofNat_add,
    ← h.ofRole, ← h.ofRole, ← h.ofRole, ← h.ofRole]
  rfl

theorem CountsRoles.toNat_paragraphs (h : CountsRoles stats roles)
    (hsize : roles.length < UInt32.size) : stats.paragraphs.toNat = roles.length := by
  rw [h.paragraphs, UInt32.toNat_ofNat_of_lt' hsize]

theorem CountsRoles.toNat_ofRole (h : CountsRoles stats roles) (hsize : roles.length < UInt32.size)
    (role : Role) : (stats.ofRole role).toNat = roles.count role := by
  rw [h.ofRole, UInt32.toNat_ofNat_of_lt' (Nat.lt_of_le_of_lt List.count_le_length hsize)]

theorem CountsRoles.toNat_headings (h : CountsRoles stats roles)
    (hsize : roles.length < UInt32.size) :
    stats.headings.toNat = roles.count .title + roles.count .subtitle := by
  have hsum := length_eq_sum_count roles
  have hheadings : stats.headings = UInt32.ofNat (roles.count .title + roles.count .subtitle) := by
    rw [UInt32.ofNat_add, ← h.ofRole, ← h.ofRole]
    rfl
  rw [hheadings, UInt32.toNat_ofNat_of_lt' (by omega)]

/-- Counters that do not overflow add up as numbers. -/
theorem CountsRoles.toNat_sum (h : CountsRoles stats roles) (hsize : roles.length < UInt32.size) :
    stats.paragraphs.toNat =
      stats.titles.toNat + stats.subtitles.toNat + stats.bodies.toNat + stats.blanks.toNat := by
  rw [h.toNat_paragraphs hsize, length_eq_sum_count, ← h.toNat_ofRole hsize, ← h.toNat_ofRole hsize,
    ← h.toNat_ofRole hsize, ← h.toNat_ofRole hsize]
  rfl

end

theorem count_map_role (paragraphs : List Paragraph) (role : Role) :
    (paragraphs.map Paragraph.role).count role = Document.roleCount ⟨paragraphs⟩ role := by
  rw [List.count, List.countP_map]
  rfl

theorem countP_isHeading (paragraphs : List Paragraph) :
    paragraphs.countP Paragraph.isHeading =
      (paragraphs.map Paragraph.role).count .title +
        (paragraphs.map Paragraph.role).count .subtitle := by
  induction paragraphs with
  | nil => rfl
  | cons paragraph paragraphs ih =>
      rw [List.map_cons, List.countP_cons, ih]
      cases hrole : paragraph.role <;> simp [Paragraph.isHeading, hrole] <;> omega

/-! ## Documents and their statistics -/

/-- Below 2³² the statistics of a document are its own numbers of paragraphs, of each role, of
headings, of runs and of visible characters.  Those of two documents in a row are merged from
theirs, where merging is associative and commutative, and nothing is added by what is empty.
However statistics come about, the paragraphs are those counted by their roles. -/
theorem counts_ofDocument :
    (∀ document : Document,
      (document.paragraphCount < UInt32.size →
        (ofDocument document).paragraphs.toNat = document.paragraphCount ∧
        (∀ role, ((ofDocument document).ofRole role).toNat = document.roleCount role) ∧
        (ofDocument document).headings.toNat = document.paragraphs.countP Paragraph.isHeading) ∧
      (document.runCount < UInt32.size →
        (ofDocument document).runs.toNat = document.runCount) ∧
      (inkCount document.plainText < UInt32.size →
        (ofDocument document).chars.toNat = inkCount document.plainText)) ∧
    (∀ document other : Document,
      ofDocument ⟨document.paragraphs ++ other.paragraphs⟩ =
        (ofDocument document).merge (ofDocument other)) ∧
    (∀ a b c : Stats, (a.merge b).merge c = a.merge (b.merge c)) ∧
    (∀ a b : Stats, a.merge b = b.merge a) ∧
    (∀ a : Stats, empty.merge a = a ∧ a.merge empty = a) ∧
    ∀ history : History,
      history.stats.paragraphs =
        history.stats.titles + history.stats.subtitles + history.stats.bodies +
          history.stats.blanks ∧
      (history.roles.length < UInt32.size →
        history.stats.paragraphs.toNat =
          history.stats.titles.toNat + history.stats.subtitles.toNat +
            history.stats.bodies.toNat + history.stats.blanks.toNat) := by
  refine ⟨fun document => ⟨fun hsize => ?_, fun hsize => ?_, fun hsize => ?_⟩, ?_, merge_assoc,
    merge_comm, fun a => ⟨empty_merge a, merge_empty a⟩, ?_⟩
  · have hroles := countsRoles_ofDocument document.paragraphs
    have hlength : (document.paragraphs.map Paragraph.role).length < UInt32.size := by
      rw [List.length_map]
      exact hsize
    refine ⟨?_, fun role => ?_, ?_⟩
    · rw [hroles.toNat_paragraphs hlength, List.length_map]
      rfl
    · rw [hroles.toNat_ofRole hlength, count_map_role]
    · rw [hroles.toNat_headings hlength, countP_isHeading]
  · rw [runs_ofDocument, UInt32.toNat_ofNat_of_lt' hsize]
  · rw [chars_ofDocument, UInt32.toNat_ofNat_of_lt' hsize]
  · intro document other
    exact ofDocument_append document.paragraphs other.paragraphs
  · intro history
    exact ⟨history.countsRoles.sum, history.countsRoles.toNat_sum⟩

theorem counts_ofDocument_mixed :
    let document : Document :=
      ⟨[⟨[⟨"A b", false, false, false, 28, .black⟩, ⟨"\u3000c", true, false, false, 28, .black⟩],
          .left, .title⟩,
        .blank, ⟨[⟨" ", true, false, true, 24, .black⟩], .left, .subtitle⟩]⟩
    let history : History :=
      .merge (.countText (.addParagraph .empty .body) "a b") (.ofDocument document)
    (ofDocument document).paragraphs.toNat = 3 ∧ (ofDocument document).headings.toNat = 2 ∧
      (ofDocument document).runs.toNat = 3 ∧ (ofDocument document).chars.toNat = 3 ∧
      history.stats.paragraphs.toNat =
        history.stats.titles.toNat + history.stats.subtitles.toNat +
          history.stats.bodies.toNat + history.stats.blanks.toNat := by
  intro document history
  obtain ⟨hcounts, -, -, -, -, hhistory⟩ := counts_ofDocument
  obtain ⟨hparagraphs, hruns, hchars⟩ := hcounts document
  obtain ⟨hcount, -, hheadings⟩ := hparagraphs (by decide)
  have hink : inkCount document.plainText = 3 := by decide
  exact ⟨hcount, hheadings, hruns (by decide), (hchars (by rw [hink]; decide)).trans hink,
    (hhistory history).2 (by decide)⟩

end Stats

end Manuscript
