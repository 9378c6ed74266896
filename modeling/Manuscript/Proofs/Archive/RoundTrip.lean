import Manuscript.Proofs.Archive.Records

/-!
# Reading undoes writing

An archive is found from its end record, which is the last place that can hold one. It leads to the
directory, if need be through a wide one, and the entries of the directory are those of the stored
items, each of which leads to its item's content.
-/

namespace Manuscript.Archive

theorem openAt_append {bs : Bytes} {skipped : List Nat}
    (h : ∀ position ∈ skipped, ∃ fault, End.parse (bs.drop position) = .error fault)
    (fault : Option Fault) (positions : List Nat) :
    ∃ fault', openAt bs fault (skipped ++ positions) = openAt bs fault' positions := by
  induction skipped generalizing fault with
  | nil => exact ⟨fault, rfl⟩
  | cons position skipped ih =>
      rcases h position (by simp) with ⟨new, hnew⟩
      rw [List.cons_append, openAt, hnew]
      exact ih (fun other hother => h other (by simp [hother])) _

theorem End.locate_of_locator?_none {record : End} {bs : Bytes} {position : Nat}
    (h : record.locator? bs position = none) :
    record.locate bs position = record.place bs position := by
  simp only [locate, h]

theorem Locator.parse?_of_not_prefix {bs : Bytes} (h : ¬ locatorMark <+: bs) :
    Locator.parse? bs = none := by
  have hmark : expect? locatorMark bs = none := by
    simp only [expect?, List.isPrefixOf_iff_prefix, if_neg h]
  simp only [parse?, hmark, Option.bind_eq_bind, Option.bind_none]

section

variable {front rest : Bytes} {files size offset : Nat}

theorem WideEnd.place_wideEndRecord (hfront : front.length = offset + size)
    (hfiles : files * 46 ≤ size) (hsize : front.length < 256 ^ 8) :
    WideEnd.place ⟨0, front.length, 1⟩ (front.length + 56) front.length
        (front ++ (wideEndRecord files size offset ++ rest)) =
      .ok ⟨0, offset, files, true⟩ := by
  have hrecord : WideEnd.parse 56 (wideEndRecord files size offset ++ rest) =
      .ok ⟨44, wideVersion, wideVersion, 0, 0, files, files, offset⟩ :=
    WideEnd.parse_wideEndRecord size (by omega) (by omega) rest
  have hinside : ¬ front.length < files * 46 + offset := by omega
  simp only [place, List.drop_left, Nat.add_sub_cancel_left, hrecord, bind, Except.bind, hinside,
    Nat.sub_self]
  simp

theorem End.locate_wideEnding {record : End} (hrecord : record.mayBeWide = true)
    (hfront : front.length = offset + size) (hfiles : files * 46 ≤ size)
    (hsize : front.length < 256 ^ 8) :
    record.locate (front ++ (wideEndRecord files size offset ++
        (locatorRecord front.length ++ rest))) (front.length + 76) =
      .ok ⟨0, offset, files, true⟩ := by
  have hwide := length_wideEndRecord files size offset
  have hlocator : record.locator? (front ++ (wideEndRecord files size offset ++
      (locatorRecord front.length ++ rest))) (front.length + 76) =
        some ⟨0, front.length, 1⟩ := by
    have hdrop : (front ++ (wideEndRecord files size offset ++
        (locatorRecord front.length ++ rest))).drop (front.length + 76 - Locator.size) =
          locatorRecord front.length ++ rest := by
      have hposition : front.length + 76 - Locator.size =
          (front ++ wideEndRecord files size offset).length := by
        simp [hwide, Locator.size]
      rw [hposition, ← List.append_assoc front, List.drop_left]
    have hroom : Locator.size ≤ front.length + 76 := by
      simp [Locator.size]
    simp only [locator?, hrecord, hroom, decide_true, Bool.and_self, ↓reduceIte, hdrop,
      Locator.parse?_locatorRecord hsize]
  have hslice : ((front ++ (wideEndRecord files size offset ++
      (locatorRecord front.length ++ rest))).take (front.length + 56)).drop front.length =
        wideEndRecord files size offset := by
    rw [List.take_append, List.take_of_length_le (by omega), List.drop_left,
      Nat.add_sub_cancel_left, ← hwide, List.take_left]
  obtain ⟨tail, htail⟩ : ∃ tail, wideEndRecord files size offset = wideEndMark ++ tail := by
    simp only [wideEndRecord, List.append_assoc]
    exact ⟨_, rfl⟩
  obtain ⟨later, hplaces, -⟩ := places_of_marked (show wideEndMark ≠ [] by decide) front.length tail
  have hposition : front.length + 76 - Locator.size = front.length + 56 := rfl
  have hbehind : ¬ front.length + 56 ≤ front.length := by omega
  rw [← htail] at hplaces
  simp only [locate, hlocator, hposition, hbehind, ↓reduceIte, hslice, hplaces, firstWide,
    WideEnd.place_wideEndRecord hfront hfiles hsize]
  simp

end

/-! ## Parts of an archive -/

section

variable [Codec]

def entriesFrom (offset : Nat) : List Item → List Entry
  | [] => []
  | item :: items => item.entry offset :: entriesFrom (offset + item.stored.length) items

/-- An archive up to its end records. -/
def body (items : List Item) : Bytes :=
  locals items ++ centrals 0 items

/-- Items that have room in an archive and in its directory. A directory after so many contents that
it has no room for a locator must not end in what looks like one. -/
structure Fit (items : List Item) : Prop where
  fits : ∀ item ∈ items, item.Fits
  count : items.length < maxCount
  unmistaken : (locals items).length = maxNumber →
    ¬ locatorMark <+: (body items).drop ((body items).length - Locator.size)

@[simp] theorem locals_cons (item : Item) (items : List Item) :
    locals (item :: items) = item.stored ++ locals items := rfl

theorem locals_append (items others : List Item) :
    locals (items ++ others) = locals items ++ locals others := by
  simp [locals]

theorem centrals_append (offset : Nat) (items others : List Item) :
    centrals offset (items ++ others) =
      centrals offset items ++ centrals (offset + (locals items).length) others := by
  induction items generalizing offset with
  | nil => rfl
  | cons item items ih => simp [centrals, ih, Nat.add_assoc]

theorem entriesFrom_append (offset : Nat) (items others : List Item) :
    entriesFrom offset (items ++ others) =
      entriesFrom offset items ++ entriesFrom (offset + (locals items).length) others := by
  induction items generalizing offset with
  | nil => rfl
  | cons item items ih => simp [entriesFrom, ih, Nat.add_assoc]

theorem bytesOf_eq (items : List Item) :
    bytesOf items = body items ++
      (wideEnding items.length (centrals 0 items).length (locals items).length ++
        endRecord items.length (centrals 0 items).length (locals items).length) := by
  simp [bytesOf, body]

theorem length_body (items : List Item) :
    (body items).length = (locals items).length + (centrals 0 items).length := by
  simp [body]

theorem length_locals_le {items : List Item} (h : ∀ item ∈ items, item.Fits) :
    (locals items).length ≤ items.length * 0x100010100 := by
  induction items with
  | nil => simp [locals]
  | cons item items ih =>
      have hfits := h item (by simp)
      have hname := hfits.name
      have hpacked := hfits.packed
      have hstored := item.length_stored
      have htail := ih fun other hother => h other (by simp [hother])
      simp only [maxNumber] at hpacked
      simp only [locals_cons, List.length_append, List.length_cons]
      omega

theorem length_centrals_ge (offset : Nat) (items : List Item) :
    items.length * 46 ≤ (centrals offset items).length := by
  induction items generalizing offset with
  | nil => simp
  | cons item items ih =>
      have htail := ih (offset + item.stored.length)
      have hlisted := item.length_listed offset
      simp only [centrals, List.length_append, List.length_cons]
      omega

theorem length_centrals_le {items : List Item} (h : ∀ item ∈ items, item.Fits) (offset : Nat) :
    (centrals offset items).length ≤ items.length * 0x10100 := by
  induction items generalizing offset with
  | nil => simp [centrals]
  | cons item items ih =>
      have hname := (h item (by simp)).name
      have htail := ih (fun other hother => h other (by simp [hother]))
        (offset + item.stored.length)
      have hlisted := item.length_listed offset
      have hwide := item.length_wide_le offset
      simp only [centrals, List.length_append, List.length_cons]
      omega

theorem Fit.length_body_lt {items : List Item} (h : Fit items) :
    (body items).length < 256 ^ 8 := by
  have hlocals := length_locals_le h.fits
  have hcentrals := length_centrals_le h.fits 0
  have hcount := h.count
  simp only [maxCount] at hcount
  rw [length_body]
  omega

theorem unmistaken_of_name (before : List Item) {last : Item}
    (hcontent : last.content.length < maxNumber) (hlength : Locator.size ≤ last.name.length)
    (hname : ¬ locatorMark <+: last.name.drop (last.name.length - Locator.size))
    (hlocals : (locals (before ++ [last])).length = maxNumber) :
    ¬ locatorMark <+: (body (before ++ [last])).drop
      ((body (before ++ [last])).length - Locator.size) := by
  have hstored := last.length_stored
  simp only [locals_append, locals_cons, List.length_append] at hlocals
  have hwide : last.wide (locals before).length = [] :=
    Item.wide_of_lt hcontent (by omega) (by omega)
  obtain ⟨front, hfront⟩ : ∃ front, body (before ++ [last]) = front ++ last.name := by
    simp only [body, centrals_append, centrals, Item.listed, Nat.zero_add, hwide, List.append_nil,
      ← List.append_assoc]
    exact ⟨_, rfl⟩
  have hdrop : (front ++ last.name).length - Locator.size =
      front.length + (last.name.length - Locator.size) := by
    rw [List.length_append]
    omega
  rw [hfront, hdrop, List.drop_append, List.drop_of_length_le (by omega), List.nil_append,
    Nat.add_sub_cancel_left]
  exact hname

theorem write_eq_ok {items : List Item} (h : ∀ item ∈ items, item.Fits) :
    write items = .ok (bytesOf items) := by
  have hnone : items.findSome? Item.excess? = none :=
    List.findSome?_eq_none_iff.mpr fun item hitem =>
      Item.excess?_eq_none.mpr ⟨(h item hitem).content, (h item hitem).packed⟩
  simp only [write, hnone]

theorem write_eq_error {before after : List Item} {item : Item} {excess : Excess}
    (hbefore : ∀ other ∈ before, other.Fits) (h : item.excess? = some excess) :
    write (before ++ item :: after) = .error excess := by
  have hnone : before.findSome? Item.excess? = none :=
    List.findSome?_eq_none_iff.mpr fun other hother =>
      Item.excess?_eq_none.mpr ⟨(hbefore other hother).content, (hbefore other hother).packed⟩
  simp [write, List.findSome?_append, hnone, h]

theorem readEntries?_centrals {items : List Item} (h : ∀ item ∈ items, item.Fits)
    {offset bound : Nat} (hend : offset + (locals items).length ≤ bound)
    (hbound : bound < 256 ^ 8) (rest : Bytes) :
    readEntries? 0 bound items.length (centrals offset items ++ rest) =
      some (entriesFrom offset items) := by
  induction items generalizing offset with
  | nil => rfl
  | cons item items ih =>
      have hstored := item.length_stored
      simp only [locals_cons, List.length_append] at hend
      have hbefore : ¬ bound ≤ (item.entry offset).offset := by
        simp only [Item.entry]
        omega
      have hoffset : offset < 256 ^ 8 := by omega
      have hnext : offset + item.stored.length + (locals items).length ≤ bound := by omega
      have hparse := Item.parse?_listed (h item (by simp)) hoffset
        (centrals (offset + item.stored.length) items ++ rest)
      have htail := ih (fun other hother => h other (by simp [hother])) hnext
      simp only [centrals, List.length_cons, List.append_assoc, readEntries?, hparse,
        Option.bind_eq_bind, Option.bind_some, if_neg hbefore, htail, entriesFrom]

theorem Place.entries?_bytesOf {items : List Item} (h : Fit items) :
    Place.entries? ⟨0, (locals items).length, items.length, true⟩ (bytesOf items) =
      some (entriesFrom 0 items) := by
  have hbody := h.length_body_lt
  rw [length_body] at hbody
  simp only [Place.entries?, Place.position, ↓reduceIte, Nat.zero_add, bytesOf_eq, body,
    List.append_assoc, List.drop_left]
  exact readEntries?_centrals h.fits (by omega) (by omega) _

def endPosition (items : List Item) : Nat :=
  (body items ++
    wideEnding items.length (centrals 0 items).length (locals items).length).length

theorem centrals_marked (offset : Nat) (item : Item) (items : List Item) :
    ∃ tail, centrals offset (item :: items) = entryMark ++ tail := by
  simp only [centrals, Item.listed, List.append_assoc]
  exact ⟨_, rfl⟩

theorem End.place_bytesOf (items : List Item) :
    End.place (bytesOf items) (endPosition items)
        ⟨0, 0, items.length, items.length, (locals items).length⟩ =
      .ok ⟨0, (locals items).length, items.length, true⟩ := by
  cases items with
  | nil => rfl
  | cons item items =>
      obtain ⟨tail, htail⟩ := centrals_marked 0 item items
      obtain ⟨later, hplaces, -⟩ := places_of_marked (show entryMark ≠ [] by decide)
        (locals (item :: items)).length (tail ++ wideEnding (item :: items).length
          (centrals 0 (item :: items)).length (locals (item :: items)).length)
      have hslice : ((bytesOf (item :: items)).take (endPosition (item :: items))).drop
            (locals (item :: items)).length =
          entryMark ++ (tail ++ wideEnding (item :: items).length
            (centrals 0 (item :: items)).length (locals (item :: items)).length) := by
        rw [bytesOf_eq, endPosition, ← List.append_assoc, List.take_left, body, List.append_assoc,
          List.drop_left, ← List.append_assoc entryMark, ← htail]
      have hfiles : ¬ (item :: items).length = 0 := by simp
      have hafter : ¬ endPosition (item :: items) ≤ (locals (item :: items)).length := by
        have hcentrals := length_centrals_ge 0 (item :: items)
        simp only [endPosition, List.length_append, length_body, List.length_cons] at hcentrals ⊢
        omega
      simp only [End.place, if_neg hfiles, if_neg hafter, hslice, hplaces, Nat.sub_self,
        beq_self_eq_true]

theorem End.locate_of_isWide {items : List Item} (h : Fit items) {record : End}
    (hrecord : record.mayBeWide = true)
    (hwide : isWide items.length (centrals 0 items).length (locals items).length = true) :
    record.locate (bytesOf items) (endPosition items) =
      .ok ⟨0, (locals items).length, items.length, true⟩ := by
  have hending : wideEnding items.length (centrals 0 items).length (locals items).length =
      wideEndRecord items.length (centrals 0 items).length (locals items).length ++
        locatorRecord (body items).length := by
    rw [wideEnding, if_pos hwide, length_body]
  have hposition : endPosition items = (body items).length + 76 := by
    simp [endPosition, hending, length_wideEndRecord, length_locatorRecord, Locator.size]
  rw [hposition, bytesOf_eq, hending, List.append_assoc (wideEndRecord _ _ _)]
  exact End.locate_wideEnding hrecord (length_body items) (length_centrals_ge 0 items)
    h.length_body_lt

/-- Without a wide end record, what stands before the end record is the end of the directory. -/
theorem End.locator?_of_full {items : List Item} (h : Fit items)
    (hfull : (locals items).length = maxNumber)
    (hwide : isWide items.length (centrals 0 items).length (locals items).length = false)
    (record : End) : record.locator? (bytesOf items) (endPosition items) = none := by
  have hending : wideEnding items.length (centrals 0 items).length (locals items).length = [] := by
    rw [wideEnding, hwide, if_neg Bool.false_ne_true]
  have hposition : endPosition items = (body items).length := by
    simp [endPosition, hending]
  have hroom : Locator.size ≤ (body items).length := by
    rw [length_body]
    exact (show Locator.size ≤ maxNumber by decide).trans (by omega)
  have hdrop : (bytesOf items).drop ((body items).length - Locator.size) =
      (body items).drop ((body items).length - Locator.size) ++
        endRecord items.length (centrals 0 items).length (locals items).length := by
    rw [bytesOf_eq, hending, List.nil_append, List.drop_append_of_le_length (by omega)]
  have hmark : ¬ locatorMark <+: (bytesOf items).drop ((body items).length - Locator.size) := by
    intro hmark
    rw [hdrop] at hmark
    refine h.unmistaken hfull (List.prefix_of_prefix_length_le hmark (List.prefix_append _ _) ?_)
    rw [List.length_drop, Nat.sub_sub_self hroom]
    decide
  simp only [End.locator?, hposition, Locator.parse?_of_not_prefix hmark, ite_self]

theorem End.locate_bytesOf {items : List Item} (h : Fit items) :
    End.locate (bytesOf items) (endPosition items)
        ⟨0, 0, items.length, items.length, min (locals items).length maxNumber⟩ =
      .ok ⟨0, (locals items).length, items.length, true⟩ := by
  have hcount : ¬ items.length = 0xFFFF := Nat.ne_of_lt h.count
  have hmax : maxNumber = 0xFFFFFFFF := rfl
  rcases Nat.lt_or_ge (locals items).length maxNumber with hnarrow | hlarge
  · have hclear : End.mayBeWide
        ⟨0, 0, items.length, items.length, (locals items).length⟩ = false := by
      simp only [End.mayBeWide, Bool.or_eq_false_iff, beq_eq_false_iff_ne]
      omega
    rw [Nat.min_eq_left (Nat.le_of_lt hnarrow), End.locate_of_locator?_none, End.place_bytesOf]
    simp only [End.locator?, hclear, Bool.false_and, Bool.false_eq_true, ↓reduceIte]
  cases hwide : isWide items.length (centrals 0 items).length (locals items).length with
  | true =>
      apply End.locate_of_isWide h _ hwide
      rw [Nat.min_eq_right hlarge]
      simp [End.mayBeWide, hmax]
  | false =>
      have hfull : (locals items).length = maxNumber := by
        simp only [isWide, Bool.or_eq_false_iff, decide_eq_false_iff_not] at hwide
        omega
      rw [End.locate_of_locator?_none (End.locator?_of_full h hfull hwide _),
        Nat.min_eq_left hfull.le, End.place_bytesOf]

/-! ## Whole archives -/

theorem openBytes_bytesOf {items : List Item} (h : Fit items) :
    openBytes (bytesOf items) = .ok (entriesFrom 0 items) := by
  have hcount := h.count
  have hbytes : bytesOf items = (body items ++
      wideEnding items.length (centrals 0 items).length (locals items).length) ++
        endRecord items.length (centrals 0 items).length (locals items).length := by
    rw [bytesOf_eq, List.append_assoc]
  have hrecord : (bytesOf items).drop (endPosition items) =
      endRecord items.length (centrals 0 items).length (locals items).length := by
    rw [hbytes, endPosition, List.drop_left]
  obtain ⟨tail, htail⟩ : ∃ tail, endRecord items.length (centrals 0 items).length
      (locals items).length = endMark ++ tail := by
    simp only [endRecord, List.append_assoc]
    exact ⟨_, rfl⟩
  obtain ⟨earlier, hearlier⟩ := places_append endMark 0 (body items ++
    wideEnding items.length (centrals 0 items).length (locals items).length)
    (endRecord items.length (centrals 0 items).length (locals items).length)
  obtain ⟨later, hlater, hafter⟩ := places_of_marked (show endMark ≠ [] by decide)
    (endPosition items) tail
  have hplaces : (places endMark 0 (bytesOf items)).reverse =
      later.reverse ++ endPosition items :: earlier.reverse := by
    rw [hbytes, hearlier, ← endPosition, htail, Nat.zero_add, hlater]
    simp
  -- a mark inside the end record is too close to the end of the archive to begin another one
  have hskip : ∀ position ∈ later.reverse, ∃ fault,
      End.parse ((bytesOf items).drop position) = .error fault := by
    intro position hposition
    have hlt := hafter position (List.mem_reverse.mp hposition)
    have hlength := length_endRecord items.length (centrals 0 items).length (locals items).length
    refine ⟨.cutOff, End.parse_of_length_lt ?_⟩
    rw [List.length_drop, hbytes, List.length_append, ← endPosition]
    omega
  obtain ⟨fault, hopen⟩ := openAt_append hskip none (endPosition items :: earlier.reverse)
  have hparse := End.parse_endRecord items.length (centrals 0 items).length (locals items).length
  rw [Nat.min_eq_left (Nat.le_of_lt hcount)] at hparse
  rw [openBytes, hplaces, hopen, openAt, hrecord, hparse]
  simp only [End.locate_bytesOf h, Place.entries?_bytesOf h]

theorem name_of_mem_entriesFrom {offset : Nat} {items : List Item} {entry : Entry}
    (h : entry ∈ entriesFrom offset items) : ∃ item ∈ items, entry.name = item.name := by
  induction items generalizing offset with
  | nil => simp [entriesFrom] at h
  | cons item items ih =>
      rcases List.mem_cons.mp h with rfl | h
      · exact ⟨item, by simp, rfl⟩
      · rcases ih h with ⟨other, hother, hname⟩
        exact ⟨other, by simp [hother], hname⟩

theorem find?_entriesFrom (before : List Item) (item : Item) {after : List Item}
    (h : ∀ other ∈ after, other.name ≠ item.name) :
    find? item.name (entriesFrom 0 (before ++ item :: after)) =
      some (item.entry (locals before).length) := by
  have hafter : (entriesFrom ((locals before).length + item.stored.length) after).reverse.find?
      (fun entry => entry.name == item.name) = none := by
    rw [List.find?_eq_none]
    intro entry hentry
    rcases name_of_mem_entriesFrom (List.mem_reverse.mp hentry) with ⟨other, hother, hname⟩
    simp [hname, h other hother]
  have hname : (item.entry (locals before).length).name == item.name := by simp [Item.entry]
  simp [find?, entriesFrom_append, entriesFrom, List.find?_append, hafter, hname]

/-- The content of an item is found in an archive under the item's name, provided that no later
item has this name too. -/
theorem find_open_bytesOf {before after : List Item} {item : Item}
    (hfit : Fit (before ++ item :: after)) (h : ∀ other ∈ after, other.name ≠ item.name) :
    ∃ entries entry, openBytes (bytesOf (before ++ item :: after)) = .ok entries ∧
      find? item.name entries = some entry ∧
      entry.open (bytesOf (before ++ item :: after)) = .ok ⟨item.content, none⟩ := by
  obtain ⟨rest, hrest⟩ : ∃ rest, (bytesOf (before ++ item :: after)).drop (locals before).length =
      item.stored ++ rest := by
    simp only [bytesOf_eq, body, locals_append, locals_cons, List.append_assoc, List.drop_left]
    exact ⟨_, rfl⟩
  exact ⟨_, _, openBytes_bytesOf hfit, find?_entriesFrom before item h,
    Item.open_entry (hfit.fits item (by simp)) hrest⟩

end

end Manuscript.Archive
