import Manuscript.Proofs.Archive.RoundTrip
import Manuscript.Proofs.Archive.Streams
import Manuscript.Proofs.Text.Lines
import Manuscript.Proofs.Text.Utf8
import Manuscript.Proofs.Wordprocessing.RoundTrip
import Manuscript.Proofs.Wordprocessing.Sizes
import Manuscript.Wordprocessing.Package

/-!
# Reading back a package

A package is an archive of four parts, of which only the document part can be too large for it. The
document part is found in it, and its text is that of the document, or it has more bytes than the
reader takes.
-/

namespace Manuscript.Wordprocessing

open Archive (Codec Item bytesOf maxNumber)
open Xml (Piece legal)

-- The names and the fixed parts are closed terms, which must never be evaluated together with the
-- sizes of an archive. So they stand behind definitions, and all that is counted is stated of
-- arbitrary items first.

def documentItem (font : String) (document : Document) : Item :=
  ⟨Utf8.bytes documentPart, Utf8.bytes (documentXml font document)⟩

def fixedItem (name : String) (pieces : List Piece) : Item :=
  ⟨Utf8.bytes name, Utf8.bytes (Xml.renderText pieces)⟩

def firstItems : List Item :=
  [fixedItem contentTypesPart contentTypesPieces,
    fixedItem packageRelationshipsPart packageRelationshipsPieces]

def lastItem : Item :=
  fixedItem documentRelationshipsPart documentRelationshipsPieces

theorem items_eq (font : String) (document : Document) :
    items font document = firstItems ++ documentItem font document :: [lastItem] := rfl

theorem name_documentItem (font : String) (document : Document) :
    (documentItem font document).name = Utf8.bytes documentPart := by
  simp only [documentItem]

theorem content_documentItem (font : String) (document : Document) :
    (documentItem font document).content = Utf8.bytes (documentXml font document) := by
  simp only [documentItem]

theorem name_lastItem : lastItem.name = Utf8.bytes documentRelationshipsPart := by
  simp only [lastItem, fixedItem]

theorem length_partName_le {name : String} (h : name ∈ partNames) :
    (Utf8.bytes name).length ≤ 100 := by
  have hnames : ∀ name ∈ partNames, name.utf8ByteSize ≤ 100 := by decide +kernel
  rw [Utf8.length_bytes]
  exact hnames name h

theorem room_le : ∀ pieces ∈ [contentTypesPieces, packageRelationshipsPieces,
    documentRelationshipsPieces], (pieces.map Piece.room).sum ≤ 3000 := by
  decide +kernel

theorem length_content_fixedItem_le {name : String} {pieces : List Piece}
    (h : (pieces.map Piece.room).sum ≤ 3000) : (fixedItem name pieces).content.length ≤ 3100 := by
  have hbytes := Xml.length_bytes_renderText_le pieces
  simp only [fixedItem]
  omega

theorem length_content_lastItem_lt : lastItem.content.length < maxNumber := by
  have hle : lastItem.content.length ≤ 3100 := length_content_fixedItem_le (room_le _ (by simp))
  rw [maxNumber]
  omega

theorem unmistaken_lastItem : Archive.Locator.size ≤ lastItem.name.length ∧
    ¬ Archive.locatorMark <+:
      lastItem.name.drop (lastItem.name.length - Archive.Locator.size) := by
  rw [name_lastItem]
  decide +kernel

theorem unlines_map_legal (ss : List String) :
    Text.unlines (ss.map legal) = legal (Text.unlines ss) := by
  have hfeed : Xml.isLegal '\n' := by decide
  simp [Text.unlines, legal, Text.filter_joinLines hfeed, Function.comp_def]

theorem legal_plainText_of_documentXml_eq {font font' : String} {document document' : Document}
    (h : documentXml font document = documentXml font' document') :
    legal document.plainText = legal document'.plainText := by
  have htexts := paragraphTexts_of_run (events_documentXml font document)
    (Progress.run_documentPieces font document)
  have htexts' := paragraphTexts_of_run (events_documentXml font' document')
    (Progress.run_documentPieces font' document')
  rw [h, htexts'] at htexts
  simp only [Progress.texts, Noted.mk.injEq, Except.ok.injEq] at htexts
  rw [Document.plainText, ← unlines_map_legal, Document.plainText, ← unlines_map_legal]
  simpa [legal, Function.comp_def] using congrArg Text.unlines htexts.1.symm

section

variable [Codec]

theorem fits_fixedItem {name : String} {pieces : List Piece} (hname : name ∈ partNames)
    (hpieces : (pieces.map Piece.room).sum ≤ 3000) : (fixedItem name pieces).Fits where
  name := Nat.lt_of_le_of_lt (length_partName_le hname) (by decide)
  content := (length_content_fixedItem_le hpieces).trans (by decide)
  packed := by
    have hcontent : (fixedItem name pieces).content.length ≤ 3100 :=
      length_content_fixedItem_le hpieces
    have hpack := Codec.length_pack_le (fixedItem name pieces).content
    rw [maxNumber]
    omega

theorem fits_firstItems : ∀ item ∈ firstItems, item.Fits := by
  have htypes : (fixedItem contentTypesPart contentTypesPieces).Fits :=
    fits_fixedItem (by simp [partNames]) (room_le _ (by simp))
  have hpackage : (fixedItem packageRelationshipsPart packageRelationshipsPieces).Fits :=
    fits_fixedItem (by simp [partNames]) (room_le _ (by simp))
  exact List.forall_mem_cons.mpr ⟨htypes, List.forall_mem_singleton.mpr hpackage⟩

theorem fits_lastItem : lastItem.Fits :=
  fits_fixedItem (by simp [partNames]) (room_le _ (by simp))

structure HasRoom (font : String) (document : Document) : Prop where
  part : (Utf8.bytes (documentXml font document)).length ≤ maxNumber
  packed : (Codec.pack (Utf8.bytes (documentXml font document))).length ≤ maxNumber

variable {font : String} {document : Document}

theorem HasRoom.of_length_le (h : (Utf8.bytes (documentXml font document)).length ≤ 0x7FFFFF00) :
    HasRoom font document where
  part := h.trans (by decide)
  packed := by
    have hpack := Codec.length_pack_le (Utf8.bytes (documentXml font document))
    rw [maxNumber]
    omega

theorem HasRoom.fits (h : HasRoom font document) : (documentItem font document).Fits where
  name := by
    rw [name_documentItem]
    exact Nat.lt_of_le_of_lt (length_partName_le (by simp [partNames])) (by decide)
  content := by
    rw [content_documentItem]
    exact h.part
  packed := by
    rw [content_documentItem]
    exact h.packed

theorem HasRoom.fit_items (h : HasRoom font document) : Archive.Fit (items font document) where
  fits := by
    rw [items_eq]
    exact List.forall_mem_append.mpr ⟨fits_firstItems, List.forall_mem_cons.mpr
      ⟨h.fits, List.forall_mem_singleton.mpr fits_lastItem⟩⟩
  count := by
    rw [items_eq]
    simp [firstItems, Archive.maxCount]
  unmistaken := by
    have hitems : items font document =
        (firstItems ++ [documentItem font document]) ++ [lastItem] := by
      rw [items_eq, List.append_assoc, List.singleton_append]
    rw [hitems]
    exact Archive.unmistaken_of_name _ length_content_lastItem_lt unmistaken_lastItem.1
      unmistaken_lastItem.2

/-! ## Writing -/

theorem archive_of_content {stored : List Item} (h : Archive.write stored = .error .content) :
    archive stored = .error (.transfer .tooLarge) := by
  simp only [archive, h]

theorem archive_of_packed {stored : List Item} (h : Archive.write stored = .error .packed) :
    archive stored = .error (.archive .largePacked) := by
  simp only [archive, h]

theorem archive_of_ok {stored : List Item} {bs : Bytes} (h : Archive.write stored = .ok bs) :
    archive stored = .ok bs := by
  simp only [archive, h]

theorem write_items_of_excess {excess : Archive.Excess}
    (h : (documentItem font document).excess? = some excess) :
    Archive.write (items font document) = .error excess := by
  rw [items_eq]
  exact Archive.write_eq_error fits_firstItems h

theorem archive_items :
    archive (items font document) =
      if maxNumber < (Utf8.bytes (documentXml font document)).length then
        .error (.transfer .tooLarge)
      else if maxNumber < (Codec.pack (Utf8.bytes (documentXml font document))).length then
        .error (.archive .largePacked)
      else .ok (bytesOf (items font document)) := by
  rw [← content_documentItem]
  by_cases hpart : maxNumber < (documentItem font document).content.length
  · rw [if_pos hpart]
    apply archive_of_content
    apply write_items_of_excess
    rw [Item.excess?, if_pos hpart]
  rw [if_neg hpart]
  by_cases hpacked : maxNumber < (Codec.pack (documentItem font document).content).length
  · rw [if_pos hpacked]
    apply archive_of_packed
    apply write_items_of_excess
    rw [Item.excess?, if_neg hpart, if_pos hpacked]
  rw [if_neg hpacked]
  apply archive_of_ok
  rw [content_documentItem] at hpart hpacked
  have hroom : HasRoom font document := ⟨Nat.le_of_not_lt hpart, Nat.le_of_not_lt hpacked⟩
  exact Archive.write_eq_ok hroom.fit_items.fits

/-- Measuring the document part beforehand changes nothing. -/
theorem package_eq_archive : package font document = archive (items font document) := by
  rw [package, ← length_bytes_documentXml, archive_items]
  split
  · rfl
  · rfl

/-! ## Reading -/

theorem documentPartBytes_of_item {before after : List Item} {item : Item} {content : Bytes}
    (hfit : Archive.Fit (before ++ item :: after)) (hname : item.name = Utf8.bytes documentPart)
    (hcontent : item.content = content)
    (hafter : ∀ other ∈ after, other.name ≠ Utf8.bytes documentPart) (limit : Nat) :
    documentPartBytes limit (bytesOf (before ++ item :: after)) =
      if content.length ≤ limit then .ok content else .error (.package (.largePart limit)) := by
  rw [← hname] at hafter
  obtain ⟨entries, entry, hopen, hfind, hread⟩ := Archive.find_open_bytesOf hfit hafter
  rw [hname] at hfind
  have hfits : item.Fits := hfit.fits item (by simp)
  have hshort : item.content.length < Archive.maxCollected :=
    Nat.lt_of_le_of_lt hfits.content (by decide)
  rw [hcontent] at hread hshort
  have hwithin : ∀ room, Archive.Stream.readWithin room limit ⟨content, none⟩ =
      Archive.Stream.readAtMost limit ⟨content, none⟩ :=
    Archive.Stream.readWithin_eq (.inr hshort)
  simp only [documentPartBytes, hopen, hfind, hread, hwithin, Archive.Stream.readAtMost]
  by_cases hlimit : content.length ≤ limit
  · simp [hlimit, Nat.not_lt.mpr hlimit]
  · simp [hlimit, Nat.lt_of_not_le hlimit]

theorem documentPartBytes_items (h : HasRoom font document) (limit : Nat) :
    documentPartBytes limit (bytesOf (items font document)) =
      if (Utf8.bytes (documentXml font document)).length ≤ limit then
        .ok (Utf8.bytes (documentXml font document))
      else .error (.package (.largePart limit)) := by
  have hnames : Utf8.bytes documentRelationshipsPart ≠ Utf8.bytes documentPart := by
    decide +kernel
  have hfit := h.fit_items
  rw [items_eq] at hfit ⊢
  apply documentPartBytes_of_item hfit (name_documentItem _ _) (content_documentItem _ _)
  rw [List.forall_mem_singleton, name_lastItem]
  exact hnames

theorem documentPartXml_of_bytes {limit : Nat} {bs : Bytes} {xml : String}
    (h : documentPartBytes limit bs = .ok (Utf8.bytes xml)) :
    documentPartXml limit bs = .ok xml := by
  simp [documentPartXml, h, bind, Except.bind, Utf8.decode_bytes]

theorem extract_of_xml {limit : Nat} {bs : Bytes} {xml : String} {texts : List String}
    {warnings : List Warning} (hxml : documentPartXml limit bs = .ok xml)
    (htexts : paragraphTexts xml = ⟨.ok texts, warnings⟩) :
    extract limit bs = ⟨.ok (Text.unlines texts), warnings⟩ := by
  simp only [extract, hxml, htexts]

theorem extract_of_error {limit : Nat} {bs : Bytes} {error : Error}
    (h : documentPartBytes limit bs = .error error) : extract limit bs = ⟨.error error, []⟩ := by
  simp [extract, documentPartXml, h, bind, Except.bind]

/-- Reading a package gives the legal characters of its document's text, unless the document part
has more bytes than are taken. -/
theorem extract_items (h : HasRoom font document) (limit : Nat) :
    extract limit (bytesOf (items font document)) =
      if (Utf8.bytes (documentXml font document)).length ≤ limit then
        ⟨.ok (legal document.plainText), []⟩
      else ⟨.error (.package (.largePart limit)), []⟩ := by
  have hbytes := documentPartBytes_items h limit
  by_cases hlimit : (Utf8.bytes (documentXml font document)).length ≤ limit
  · have htexts := paragraphTexts_of_run (events_documentXml font document)
      (Progress.run_documentPieces font document)
    rw [if_pos hlimit] at hbytes ⊢
    rw [extract_of_xml (documentPartXml_of_bytes hbytes) htexts, Document.plainText,
      ← unlines_map_legal]
    simp [Progress.texts, Progress.allWarnings, legal, Function.comp_def]
  · rw [if_neg hlimit] at hbytes ⊢
    exact extract_of_error hbytes

end

end Manuscript.Wordprocessing
