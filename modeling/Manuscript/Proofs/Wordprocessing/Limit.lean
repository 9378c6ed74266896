import Manuscript.Archive.Packing
import Manuscript.Proofs.Text.Utf8Heads
import Manuscript.Proofs.Wordprocessing.Package

/-!
# How much of a document part is read

A reader is told how many bytes it may take of the document part of a package.  What it makes of the
part depends on the bytes that the part unpacks to and on their checksum only: a part with more
bytes is refused whatever they are, one with fewer is read to its end, where its checksum must be
right.  The size that the package claims for the part changes nothing, and a part that has been read
under one limit is read the same way under every higher one.
-/

namespace Manuscript.Wordprocessing

open Archive (Codec Entry Stream StreamFault LimitFault maxCollected littleEndian)

def limitError (limit : Nat) : LimitFault → Error
  | .tooLong => .package (.largePart limit)
  | .stream fault => .package (.unreadablePart fault)

def textOfMarkup (xml : String) : Noted (Except Error String) :=
  match (paragraphTexts xml).value with
  | .error fault => ⟨.error (.markup fault), (paragraphTexts xml).warnings⟩
  | .ok paragraphs => ⟨.ok (Text.unlines paragraphs), (paragraphTexts xml).warnings⟩

section

variable [Codec]

/-- The document part of a package can be opened: its entry is found, and its stream begins. -/
structure OpensPart (bs : Bytes) (entry : Entry) (stream : Stream) : Prop where
  listed : ∃ entries, Archive.openBytes bs = .ok entries ∧
    Archive.find? (Utf8.bytes documentPart) entries = some entry
  opened : entry.open bs = .ok stream

theorem extract_of_documentPartXml {limit : Nat} {bs : Bytes} {xml : String}
    (h : documentPartXml limit bs = .ok xml) : extract limit bs = textOfMarkup xml := by
  rw [extract, h]
  rfl

theorem extract_of_encoding {limit : Nat} {bs content : Bytes} {fault : Utf8.Fault}
    (hbytes : documentPartBytes limit bs = .ok content) (h : Utf8.decode content = .error fault) :
    extract limit bs = ⟨.error (.encoding .documentPart fault), []⟩ := by
  simp only [extract, documentPartXml, hbytes, bind, Except.bind, h]

namespace OpensPart

variable {bs bs' : Bytes} {entry entry' : Entry} {stream stream' : Stream} {limit : Nat}

theorem documentPartBytes_eq (h : OpensPart bs entry stream)
    (hsize : stream.bytes.length < maxCollected) (limit : Nat) :
    documentPartBytes limit bs = (stream.readAtMost limit).mapError (limitError limit) := by
  obtain ⟨⟨entries, hentries, hfind⟩, hopened⟩ := h
  simp only [documentPartBytes, hentries, hfind, hopened, Stream.readWithin_eq (.inr hsize)]
  cases stream.readAtMost limit with
  | ok content => rfl
  | error fault => cases fault <;> rfl

section

variable (h : OpensPart bs entry stream) (hsize : stream.bytes.length < maxCollected)

include h hsize

theorem extract_of_long (hlong : limit < stream.bytes.length) :
    extract limit bs = ⟨.error (.package (.largePart limit)), []⟩ := by
  apply extract_of_error
  rw [h.documentPartBytes_eq hsize, Stream.readAtMost, if_pos hlong]
  rfl

theorem extract_of_fault (hshort : stream.bytes.length ≤ limit) {fault : StreamFault}
    (hfault : stream.fault = some fault) :
    extract limit bs = ⟨.error (.package (.unreadablePart fault)), []⟩ := by
  apply extract_of_error
  rw [h.documentPartBytes_eq hsize, Stream.readAtMost, if_neg (Nat.not_lt.mpr hshort), hfault]
  rfl

theorem documentPartBytes_of_sound (hshort : stream.bytes.length ≤ limit)
    (hsound : stream.fault = none) : documentPartBytes limit bs = .ok stream.bytes := by
  rw [h.documentPartBytes_eq hsize, Stream.readAtMost, if_neg (Nat.not_lt.mpr hshort), hsound]
  rfl

theorem extract_of_text (hshort : stream.bytes.length ≤ limit) (hsound : stream.fault = none)
    {xml : String} (hxml : stream.bytes = Utf8.bytes xml) :
    extract limit bs = textOfMarkup xml := by
  have hbytes := h.documentPartBytes_of_sound hsize hshort hsound
  rw [hxml] at hbytes
  exact extract_of_documentPartXml (documentPartXml_of_bytes hbytes)

theorem sound_of_extract {text : String} (htext : (extract limit bs).value = .ok text) :
    stream.bytes.length ≤ limit ∧ stream.fault = none ∧
      ∃ xml, stream.bytes = Utf8.bytes xml := by
  by_cases hlong : limit < stream.bytes.length
  · rw [h.extract_of_long hsize hlong] at htext
    cases htext
  have hshort := Nat.not_lt.mp hlong
  cases hfault : stream.fault with
  | some fault =>
      rw [h.extract_of_fault hsize hshort hfault] at htext
      cases htext
  | none =>
      refine ⟨hshort, rfl, ?_⟩
      have hbytes := h.documentPartBytes_of_sound hsize hshort hfault
      cases hdecode : Utf8.decode stream.bytes with
      | error fault =>
          rw [extract_of_encoding hbytes hdecode] at htext
          cases htext
      | ok xml => exact ⟨xml, Utf8.decode_eq_ok_iff.mp hdecode⟩

theorem extract_of_le {text : String} (htext : (extract limit bs).value = .ok text) {other : Nat}
    (hle : limit ≤ other) : extract other bs = extract limit bs := by
  obtain ⟨hshort, hsound, xml, hxml⟩ := h.sound_of_extract hsize htext
  rw [h.extract_of_text hsize hshort hsound hxml,
    h.extract_of_text hsize (Nat.le_trans hshort hle) hsound hxml]

end

theorem stream_unique (h : OpensPart bs entry stream) (h' : OpensPart bs' entry' stream')
    (hpacked : entry'.packed bs' = entry.packed bs) (hmethod : entry'.method = entry.method)
    (hchecksum : entry'.checksum = entry.checksum) : stream' = stream := by
  obtain ⟨packed, hbytes, rfl⟩ := Entry.open_eq_ok h.opened
  obtain ⟨packed', hbytes', rfl⟩ := Entry.open_eq_ok h'.opened
  rw [hpacked, hbytes, Except.ok.injEq] at hbytes'
  subst hbytes'
  simp only [Entry.unpacked, hmethod, hchecksum]

theorem extract_eq (h : OpensPart bs entry stream) (h' : OpensPart bs' entry' stream)
    (hsize : stream.bytes.length < maxCollected) : extract limit bs' = extract limit bs := by
  rw [extract, extract, documentPartXml, documentPartXml, h.documentPartBytes_eq hsize,
    h'.documentPartBytes_eq hsize]

theorem fault_eq_none_iff (h : OpensPart bs entry stream) :
    ∃ packed, entry.packed bs = .ok packed ∧ stream.bytes = (entry.unpacked packed).1 ∧
      (stream.fault = none ↔ (entry.unpacked packed).2 = none ∧
        (Archive.Crc32.checksum stream.bytes).toNat = entry.checksum) := by
  obtain ⟨packed, hpacked, rfl⟩ := Entry.open_eq_ok h.opened
  refine ⟨packed, hpacked, ?_⟩
  rcases entry.unpacked packed with ⟨bytes, _ | fault⟩
  · simp [Stream.ofUnpacked, Stream.checked]
  · simp [Stream.ofUnpacked]

end OpensPart

/-- What is made of a document part that can be opened, under any limit.  A part with more bytes is
refused whatever follows them.  One with fewer is unreadable if its data or its checksum is wrong,
refused if it is no text, and otherwise read as what it unpacks to, under every higher limit as
well.  Two packages whose parts have the same packed bytes, method and checksum are read alike,
whatever sizes they claim. -/
theorem extract_within {bs : Bytes} {entry : Entry} {stream : Stream}
    (h : OpensPart bs entry stream) (hsize : stream.bytes.length < maxCollected) (limit : Nat) :
    (limit < stream.bytes.length →
      extract limit bs = ⟨.error (.package (.largePart limit)), []⟩) ∧
    (stream.bytes.length ≤ limit →
      (∀ fault, stream.fault = some fault →
        extract limit bs = ⟨.error (.package (.unreadablePart fault)), []⟩) ∧
      (stream.fault = none → ∀ fault, Utf8.decode stream.bytes = .error fault →
        extract limit bs = ⟨.error (.encoding .documentPart fault), []⟩) ∧
      (stream.fault = none → ∀ xml, stream.bytes = Utf8.bytes xml →
        extract limit bs = textOfMarkup xml)) ∧
    (∃ packed, entry.packed bs = .ok packed ∧ stream.bytes = (entry.unpacked packed).1 ∧
      (stream.fault = none ↔ (entry.unpacked packed).2 = none ∧
        (Archive.Crc32.checksum stream.bytes).toNat = entry.checksum)) ∧
    (∀ text, (extract limit bs).value = .ok text →
      (Archive.Crc32.checksum stream.bytes).toNat = entry.checksum ∧
      ∀ other, limit ≤ other → extract other bs = extract limit bs) ∧
    ∀ bs' entry' stream', OpensPart bs' entry' stream' → entry'.packed bs' = entry.packed bs →
      entry'.method = entry.method → entry'.checksum = entry.checksum →
      extract limit bs' = extract limit bs := by
  obtain ⟨packed, hpacked, hbytes, hsound⟩ := h.fault_eq_none_iff
  refine ⟨h.extract_of_long hsize, fun hshort => ⟨?_, ?_, ?_⟩, ⟨packed, hpacked, hbytes, hsound⟩,
    ?_, ?_⟩
  · exact fun fault => h.extract_of_fault hsize hshort
  · intro hnone fault hdecode
    exact extract_of_encoding (h.documentPartBytes_of_sound hsize hshort hnone) hdecode
  · exact fun hnone xml => h.extract_of_text hsize hshort hnone
  · intro text htext
    obtain ⟨-, hnone, -⟩ := h.sound_of_extract hsize htext
    exact ⟨(hsound.mp hnone).2, fun other => h.extract_of_le hsize htext⟩
  · intro bs' entry' stream' h' hpacked' hmethod hchecksum
    obtain rfl := h.stream_unique h' hpacked' hmethod hchecksum
    exact h.extract_eq h' hsize

end

def claiming (checksum size : Nat) : Bytes :=
  let sizes := fun claimed =>
    littleEndian 4 checksum ++ (littleEndian 4 16 ++ littleEndian 4 claimed)
  List.flatten [Archive.localMark, [20, 0, 0, 0, 0, 0, 0, 0, 33, 0], sizes 16, [17, 0, 0, 0],
    Utf8.bytes documentPart, Utf8.bytes "<p><t>hi</t></p>",
    Archive.entryMark, [45, 0, 45, 0, 0, 0, 0, 0, 0, 0, 33, 0], sizes 0xFFFFFFFF, [17, 0, 12, 0],
    List.replicate 14 0, Utf8.bytes documentPart, [1, 0, 8, 0], littleEndian 8 size,
    Archive.endMark, [0, 0, 0, 0, 1, 0, 1, 0, 75, 0, 0, 0, 63, 0, 0, 0, 0, 0]]

def claimingEntry (checksum size : Nat) : Entry :=
  ⟨Utf8.bytes documentPart, 0, 0, 0, 33, checksum, 16, size, 0, false⟩

theorem opensPart_claiming : OpensPart (claiming 745836342 0x7FFFFFFFFFFFFFFF)
    (claimingEntry 745836342 0x7FFFFFFFFFFFFFFF) ⟨Utf8.bytes "<p><t>hi</t></p>", none⟩ :=
  ⟨⟨[claimingEntry 745836342 0x7FFFFFFFFFFFFFFF], by cbv, by cbv⟩, by cbv⟩

theorem opensPart_claiming_wrong : OpensPart (claiming 0 16) (claimingEntry 0 16)
    ⟨Utf8.bytes "<p><t>hi</t></p>", some .checksum⟩ :=
  ⟨⟨[claimingEntry 0 16], by cbv, by cbv⟩, by cbv⟩

theorem textOfMarkup_hi : textOfMarkup "<p><t>hi</t></p>" = ⟨.ok "hi", []⟩ := by
  have hevents : Xml.events "<p><t>hi</t></p>" =
      ([.start ['p'], .start ['t'], .text ['h', 'i'], .finish ['t'], .finish ['p']], none) := by
    decide +kernel
  simp only [textOfMarkup, paragraphTexts, hevents]
  cbv

theorem extract_within_claiming :
    extract 16 (claiming 745836342 0x7FFFFFFFFFFFFFFF) = ⟨.ok "hi", []⟩ ∧
      extract 15 (claiming 745836342 0x7FFFFFFFFFFFFFFF) =
        ⟨.error (.package (.largePart 15)), []⟩ ∧
      extract 16 (claiming 0 16) = ⟨.error (.package (.unreadablePart .checksum)), []⟩ ∧
      extract 15 (claiming 0 16) = ⟨.error (.package (.largePart 15)), []⟩ := by
  have hlength : (Utf8.bytes "<p><t>hi</t></p>").length = 16 := by decide
  have hsize : (Utf8.bytes "<p><t>hi</t></p>").length < maxCollected := by
    rw [hlength]
    decide
  have hlong : 15 < (Utf8.bytes "<p><t>hi</t></p>").length := by
    rw [hlength]
    decide
  obtain ⟨-, hread, -⟩ := extract_within opensPart_claiming hsize 16
  obtain ⟨-, hwrong, -⟩ := extract_within opensPart_claiming_wrong hsize 16
  refine ⟨?_, (extract_within opensPart_claiming hsize 15).1 hlong, (hwrong hlength.le).1 _ rfl,
    (extract_within opensPart_claiming_wrong hsize 15).1 hlong⟩
  rw [← textOfMarkup_hi]
  exact (hread hlength.le).2.2 rfl _ rfl

end Manuscript.Wordprocessing
