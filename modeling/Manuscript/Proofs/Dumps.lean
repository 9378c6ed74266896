import Manuscript.Document.Json
import Manuscript.Line.Json
import Manuscript.Proofs.Json.Collection
import Manuscript.Stats.Json

/-!
# Dumps are read back

Documents, source lines and statistics are written in JSON so that they can be read back, in
either layout.
-/

namespace Manuscript

open Json (Layout Reader ReadsAs Shape)
open Json.Shape (Fills)

theorem Color.readsText (color : Color) {text : List Char}
    (h : Json.IsString color.digits text) (room : Nat) :
    Json.ReadsText (Color.reader room) text (.ok color) := by
  intro pad rest hpad hrest
  have hstring : Reader.string room (pad ++ (text ++ rest)) = .ok (color.digits, rest) :=
    Json.readsText_stringAs "a string" h room hpad hrest
  have hparse : Color.parse color.digits = .ok color := by
    simp [Color.parse, Color.ofString?_digits]
  change Color.reader room (pad ++ (text ++ rest)) = .ok (color, rest)
  simp [Color.reader, hstring, hparse, bind, Except.bind]

theorem Color.readsAs (color : Color) : ReadsAs 0 Color.reader color.toJson color := by
  constructor
  intro layout depth room pad rest _ hpad hrest
  rw [Color.toJson, Json.print]
  exact color.readsText (Json.isString_printString color.digits) room hpad hrest

theorem Alignment.readsAs (alignment : Alignment) :
    ReadsAs 0 (Reader.name Alignment.names) (.string alignment.name) alignment := by
  apply ReadsAs.name
  cases alignment <;> rfl

theorem Role.readsAs (role : Role) :
    ReadsAs 0 (Reader.name Role.names) (.string role.name) role := by
  apply ReadsAs.name
  cases role <;> rfl

theorem Run.readsAs (run : Run) : ReadsAs 1 Run.reader run.toJson run := by
  have hfills : Fills Run.shape.fields 0 Run.shape.start
      [("text", .string run.text), ("bold", .bool run.bold), ("italic", .bool run.italic),
        ("underline", .bool run.underline),
        ("font_size_half_points", .natural run.size.toNat), ("color", run.color.toJson)]
      ⟨run.text, run.bold, run.italic, run.underline, run.size, run.color⟩ :=
    .of rfl rfl (.stringAs _ run.text) <| .of rfl rfl (.boolean run.bold) <|
      .of rfl rfl (.boolean run.italic) <| .of rfl rfl (.boolean run.underline) <|
      .of rfl rfl (.word32 run.size) <| .of rfl rfl run.color.readsAs <| .nil _
  exact ReadsAs.record hfills rfl

theorem Paragraph.readsAs (paragraph : Paragraph) :
    ReadsAs 3 Paragraph.reader paragraph.toJson paragraph := by
  have hruns : ReadsAs 2 (Reader.list Run.reader) (.array (paragraph.runs.map Run.toJson))
      paragraph.runs :=
    .list fun run _ => run.readsAs
  have hfills : Fills Paragraph.shape.fields 2 Paragraph.shape.start
      [("runs", .array (paragraph.runs.map Run.toJson)),
        ("alignment", .string paragraph.alignment.name), ("role", .string paragraph.role.name)]
      ⟨paragraph.runs, paragraph.alignment, paragraph.role⟩ :=
    .of rfl rfl hruns <| .of rfl rfl (paragraph.alignment.readsAs.mono (by decide)) <|
      .of rfl rfl (paragraph.role.readsAs.mono (by decide)) <| .nil _
  exact ReadsAs.record hfills rfl

theorem Document.readsAs (document : Document) :
    ReadsAs 5 Document.reader document.toJson document := by
  have hparagraphs : ReadsAs 4 (Reader.list Paragraph.reader)
      (.array (document.paragraphs.map Paragraph.toJson)) document.paragraphs :=
    .list fun paragraph _ => paragraph.readsAs
  have hfills : Fills Document.shape.fields 4 Document.shape.start
      [("paragraphs", .array (document.paragraphs.map Paragraph.toJson))]
      ⟨document.paragraphs⟩ :=
    .of rfl rfl hparagraphs <| .nil _
  exact ReadsAs.record hfills rfl

namespace LineKind

theorem nextMember_end {first : Bool} {cs rest : List Char}
    (h : Json.nextKey first cs = .ok (none, rest)) : nextMember first cs = .ok (none, rest) := by
  rw [nextMember]
  split <;> rename_i heq <;> rw [h] at heq <;> cases heq
  rfl

theorem nextMember_key {first : Bool} {member : Member} {cs rest : List Char}
    (h : Json.nextKey first cs = .ok (some member.key, rest)) :
    nextMember first cs = .ok (some member, rest) := by
  rw [nextMember]
  split <;> rename_i heq <;> rw [h] at heq <;> cases heq
  cases member <;> simp [Member.key]

theorem readObject_tag {room : Nat} {cs mid : List Char}
    (h : Json.nextKey true cs = .ok (some Member.tag.key, mid)) :
    readObject room cs = afterTag room mid := by
  unfold readObject
  rw [nextMember_key h]
  rfl

theorem afterTag_end {room : Nat} {tag : Tag} {kind : LineKind} {cs mid rest : List Char}
    (htag : (Json.colon cs >>= Reader.name tagNames room) = .ok (tag, mid))
    (hend : nextMember false mid = .ok (none, rest)) (hkind : ofTag tag = .ok kind) :
    afterTag room cs = .ok (kind, rest) := by
  unfold afterTag
  rw [htag]
  simp [hend, hkind, bind, Except.bind]

theorem afterTag_level {room : Nat} {tag : Tag} {kind : LineKind}
    {cs mid level last rest : List Char}
    (htag : (Json.colon cs >>= Reader.name tagNames room) = .ok (tag, mid))
    (hmember : nextMember false mid = .ok (some .level, level))
    (hlevel : (Json.colon level >>= levelReader tag room) = .ok (kind, last))
    (hend : nextMember false last = .ok (none, rest)) : afterTag room cs = .ok (kind, rest) := by
  unfold afterTag
  rw [htag]
  simp only [Except.bind, bind, hmember] at hlevel ⊢
  rw [hlevel]
  simp [lastly, hend, bind, Except.bind]

theorem readsAs_plain {name : String} {tag : Tag} {kind : LineKind}
    (hname : tagNames.lookup name = some tag) (hkind : ofTag tag = .ok kind) :
    ReadsAs 1 reader (.object [("type", .string name)]) kind := by
  apply ReadsAs.enclosed
  intro layout depth room rest hroom
  have hclose := Json.isBlank_newline layout depth
  have htag := Json.colon_bind layout (depth + 1) (ReadsAs.name hname) hroom
    (Json.endsNumber_newline layout depth (.inr rfl) rest)
  have hend := nextMember_end (Json.nextKey_end false hclose rest)
  have hkey := Json.nextKey_name .first (Json.isBlank_newline layout (depth + 1))
    (Json.isString_printString Member.tag.key)
    (layout.colon ++ (Json.print layout (depth + 1) (.string name) ++
      (layout.newline depth ++ '\x7d' :: rest)))
  refine ⟨_, ?_, (readObject_tag hkey).trans (afterTag_end htag hend hkind)⟩
  simp [Json.print, Json.printMembers, Member.key]

theorem readsAs_heading (level : UInt8) :
    ReadsAs 1 reader (.object [("type", .string "heading"), ("level", .natural level.toNat)])
      (.heading level) := by
  apply ReadsAs.enclosed
  intro layout depth room rest hroom
  have hopen := Json.isBlank_newline layout (depth + 1)
  have hclose := Json.isBlank_newline layout depth
  have hvalue : ReadsAs 0 (levelReader .heading) (.natural level.toNat) (.heading level) :=
    (ReadsAs.word8 level).map LineKind.heading
  have hlevel := Json.colon_bind layout (depth + 1) hvalue hroom
    (Json.endsNumber_newline layout depth (.inr rfl) rest)
  have hend := nextMember_end (Json.nextKey_end false hclose rest)
  generalize hafter : layout.colon ++ (Json.print layout (depth + 1) (.natural level.toNat) ++
    (layout.newline depth ++ '\x7d' :: rest)) = after at hlevel
  have hmember := nextMember_key (Json.nextKey_name (.next Json.isBlank_nil) hopen
    (Json.isString_printString Member.level.key) after)
  have htag := Json.colon_bind layout (depth + 1)
    (ReadsAs.name (rfl : tagNames.lookup "heading" = some .heading)) hroom
    (Json.endsNumber_cons (.inl rfl)
      (layout.newline (depth + 1) ++ (Json.printString Member.level.key ++ after)))
  have hkey := Json.nextKey_name .first hopen (Json.isString_printString Member.tag.key)
    (layout.colon ++ (Json.print layout (depth + 1) (.string "heading") ++
      ',' :: (layout.newline (depth + 1) ++ (Json.printString Member.level.key ++ after))))
  refine ⟨_, ?_, (readObject_tag hkey).trans (afterTag_level htag hmember hlevel hend)⟩
  simp [Json.print, Json.printMembers, Member.key, ← hafter]

theorem readsAs (kind : LineKind) : ReadsAs 1 reader kind.toJson kind := by
  cases kind with
  | blank => exact readsAs_plain (rfl : tagNames.lookup "blank" = some .blank) rfl
  | heading level => exact readsAs_heading level
  | paragraph => exact readsAs_plain (rfl : tagNames.lookup "paragraph" = some .paragraph) rfl

end LineKind

theorem Line.readsAs (line : Line) : ReadsAs 2 Line.reader line.toJson line := by
  have hfills : Fills Line.shape.fields 1 Line.shape.start
      [("kind", line.kind.toJson), ("content", .string line.content)]
      ⟨line.kind, line.content⟩ :=
    .of rfl rfl line.kind.readsAs <|
      .of rfl rfl ((ReadsAs.stringAs _ line.content).mono (by decide)) <| .nil _
  exact ReadsAs.record hfills rfl

theorem Line.readsAs_list (lines : List Line) :
    ReadsAs 3 (Reader.list Line.reader) (Line.listToJson lines) lines :=
  .list fun line _ => line.readsAs

theorem Stats.readsAs (stats : Stats) : ReadsAs 1 Stats.reader stats.toJson stats := by
  have hfills : Fills Stats.shape.fields 0 Stats.shape.start
      [("paragraph_count", .natural stats.paragraphs.toNat),
        ("title_count", .natural stats.titles.toNat),
        ("subtitle_count", .natural stats.subtitles.toNat),
        ("body_count", .natural stats.bodies.toNat),
        ("blank_count", .natural stats.blanks.toNat), ("run_count", .natural stats.runs.toNat),
        ("word_count", .natural stats.words.toNat), ("char_count", .natural stats.chars.toNat)]
      ⟨stats.paragraphs, stats.titles, stats.subtitles, stats.bodies, stats.blanks, stats.runs,
        stats.words, stats.chars⟩ :=
    .of rfl rfl (.word32 _) <| .of rfl rfl (.word32 _) <| .of rfl rfl (.word32 _) <|
      .of rfl rfl (.word32 _) <| .of rfl rfl (.word32 _) <| .of rfl rfl (.word32 _) <|
      .of rfl rfl (.word32 _) <| .of rfl rfl (.word32 _) <| .nil _
  exact ReadsAs.record hfills rfl

theorem dumps_read_back (layout : Layout) (document : Document) (lines : List Line)
    (stats : Stats) :
    Json.read Document.reader (Json.render layout document.toJson) = .ok document ∧
      Json.read (Reader.list Line.reader) (Json.render layout (Line.listToJson lines)) =
        .ok lines ∧
      Json.read Stats.reader (Json.render layout stats.toJson) = .ok stats ∧
      ∀ value ∈ [document.toJson, Line.listToJson lines, stats.toJson],
        ∀ c ∈ (Json.render layout value).toList, c.toNat < 0x20 → layout = .pretty ∧ c = '\n' := by
  refine ⟨?_, ?_, ?_, ?_⟩
  · exact Json.read_render document.readsAs (by decide) layout
  · exact Json.read_render (Line.readsAs_list lines) (by decide) layout
  · exact Json.read_render stats.readsAs (by decide) layout
  · intro value _ c hc
    rw [Json.render, String.toList_ofList] at hc
    exact Json.isPlain_print layout 0 value c hc

end Manuscript
