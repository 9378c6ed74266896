import Manuscript.Archive.Content
import Manuscript.Archive.Writer
import Manuscript.Proofs.Archive.Fields

/-!
# Reading back records

The records that an item leaves in an archive are read back: its header with its packed content, its
entry in the directory, and the end records. A number that fills its field is found in a wide one.
-/

namespace Manuscript.Archive

theorem lt_of_le_maxNumber {n : Nat} (h : n ≤ maxNumber) : n < 256 ^ 4 :=
  Nat.lt_of_le_of_lt h (by decide)

theorem length_wideNumbers (ns : List Nat) :
    (wideNumbers ns).length = ns.countP (fun n => decide (maxNumber ≤ n)) * 8 := by
  induction ns with
  | nil => rfl
  | cons n ns ih =>
      by_cases hn : maxNumber ≤ n
      · simp [wideNumbers, hn, ih]
        omega
      · simp [wideNumbers, hn, ih]

theorem length_wideNumbers_le (ns : List Nat) : (wideNumbers ns).length ≤ ns.length * 8 := by
  rw [length_wideNumbers]
  exact Nat.mul_le_mul_right 8 List.countP_le_length

namespace Entry

theorem extend?_nil (comment : Bytes) (entry : Entry) : entry.extend? comment [] = some entry := by
  rw [extend?]
  simp

theorem extend?_of_read {comment bs : Bytes} {entry extended : Entry} (hsome : bs ≠ [])
    (h : entry.extendOnce comment bs = .read extended []) :
    entry.extend? comment bs = some extended := by
  rw [extend?, if_neg (by simpa using hsome)]
  split
  · rename_i hbad
    cases h.symm.trans hbad
  · rename_i hcut
    cases h.symm.trans hcut
  · rename_i hread
    cases h.symm.trans hread
    exact extend?_nil comment _

theorem extendOnce_widen (comment : Bytes) (entry : Entry) {bs : Bytes} (h : bs.length < 256 ^ 2) :
    entry.extendOnce comment (littleEndian 2 1 ++ littleEndian 2 bs.length ++ bs) =
      widen bs.length entry bs := by
  have hkind : 1 % 256 ^ 2 = 1 := rfl
  simp only [extendOnce, List.append_assoc, number?_littleEndian, hkind, Nat.mod_eq_of_lt h]

theorem wideNumber_wideNumbers {isWide : Bool} {n : Nat} {ns : List Nat} {entry : Entry}
    {set : Nat → Entry} {next : Entry → Bytes → Extended} (hwide : isWide = decide (maxNumber ≤ n))
    (hn : n < 256 ^ 8) (hset : n < maxNumber → set n = entry) :
    wideNumber isWide entry set (wideNumbers (n :: ns)) next = next (set n) (wideNumbers ns) := by
  subst hwide
  by_cases hwide : maxNumber ≤ n
  · simp only [wideNumber, wideNumbers, hwide, decide_true, ↓reduceIte, number?_littleEndian,
      Nat.mod_eq_of_lt hn]
  · simp only [wideNumber, wideNumbers, hwide, decide_false, Bool.false_eq_true, ↓reduceIte,
      List.nil_append, hset (Nat.lt_of_not_le hwide)]

theorem asks_narrow {ns : List Nat} (hcount : ns.length = 3) {n : Nat} (hn : n ∈ ns) :
    (decide (24 ≤ (wideNumbers ns).length) || min n maxNumber == 0xFFFFFFFF) =
      decide (maxNumber ≤ n) := by
  by_cases hwide : maxNumber ≤ n
  · have hfull : (min n maxNumber == 0xFFFFFFFF) = true := by
      rw [Nat.min_eq_right hwide]
      rfl
    rw [hfull, Bool.or_true, decide_eq_true hwide]
  · have hless : ns.countP (fun n => decide (maxNumber ≤ n)) < ns.length :=
      List.countP_lt_length_iff.mpr ⟨n, hn, by simpa using hwide⟩
    have hshort : ¬ 24 ≤ (wideNumbers ns).length := by
      rw [length_wideNumbers]
      omega
    have hfree : ¬ min n maxNumber = 0xFFFFFFFF := by
      simp only [maxNumber] at hwide ⊢
      omega
    simp [hfree, hwide, hshort]

theorem widen_wideNumbers (entry : Entry) {size packed offset : Nat} (hsize : size ≤ maxNumber)
    (hpacked : packed ≤ maxNumber) (hoffset : offset < 256 ^ 8) :
    widen (wideNumbers [size, packed, offset]).length
        { entry with size, packedSize := packed, offset := min offset maxNumber }
        (wideNumbers [size, packed, offset]) =
      .read { entry with size, packedSize := packed, offset } [] := by
  have hasks : ∀ n ∈ [size, packed, offset],
      (decide (24 ≤ (wideNumbers [size, packed, offset]).length) ||
        min n maxNumber == 0xFFFFFFFF) = decide (maxNumber ≤ n) :=
    fun n => asks_narrow rfl
  have hasksSize := hasks size (by simp)
  have hasksPacked := hasks packed (by simp)
  have hasksOffset := hasks offset (by simp)
  have hfits : ∀ {n}, n ≤ maxNumber → n < 256 ^ 8 := fun h => Nat.lt_of_le_of_lt h (by decide)
  rw [Nat.min_eq_left hsize] at hasksSize
  rw [Nat.min_eq_left hpacked] at hasksPacked
  generalize hlength : (wideNumbers [size, packed, offset]).length = length at *
  have hused : [size, packed, min offset maxNumber].countP
      (fun n => decide (24 ≤ length) || n == 0xFFFFFFFF) * 8 = length := by
    simp only [List.countP_cons, List.countP_nil, hasksSize, hasksPacked, hasksOffset]
    rw [← hlength, length_wideNumbers]
    simp only [List.countP_cons, List.countP_nil]
  simp only [widen, hused]
  rw [wideNumber_wideNumbers hasksSize (hfits hsize), wideNumber_wideNumbers hasksPacked
    (hfits hpacked), wideNumber_wideNumbers hasksOffset hoffset]
  · simp [leaveField, wideNumbers, bytes?]
  · intro hnarrow
    rw [Nat.min_eq_left (Nat.le_of_lt hnarrow)]
  · exact fun _ => rfl
  · exact fun _ => rfl

section

variable {α : Type}

theorem numbers?_nil_bind (bs : Bytes) (next : List Nat × Bytes → Option α) :
    (numbers? [] bs >>= next) = next ([], bs) := rfl

theorem numbers?_cons_bind (k n : Nat) (ks : List Nat) (rest : Bytes)
    (next : List Nat × Bytes → Option α) :
    (numbers? (k :: ks) (littleEndian k n ++ rest) >>= next) =
      (numbers? ks rest >>= fun (ns, bs) => next (n % 256 ^ k :: ns, bs)) := by
  simp only [numbers?, number?_bind]
  cases numbers? ks rest <;> rfl

end

end Entry

/-! ## Items -/

namespace Item

variable [Codec]

def entry (offset : Nat) (item : Item) : Entry where
  name := item.name
  flags := 0
  method := packedMethod
  time := 0
  date := earliestDate
  checksum := (Crc32.checksum item.content).toNat
  packedSize := (Codec.pack item.content).length
  size := item.content.length
  offset
  isSealed := false

structure Fits (item : Item) : Prop where
  name : item.name.length < 256 ^ 2
  content : item.content.length ≤ maxNumber
  packed : (Codec.pack item.content).length ≤ maxNumber

theorem excess?_eq_none {item : Item} :
    item.excess? = none ↔
      item.content.length ≤ maxNumber ∧ (Codec.pack item.content).length ≤ maxNumber := by
  unfold excess?
  split
  · simp
    omega
  · split
    · simp
      omega
    · simp
      omega

@[simp] theorem length_fields (extra : Nat) (item : Item) : (item.fields extra).length = 26 := by
  simp [fields]

theorem length_stored (item : Item) :
    item.stored.length = 30 + item.name.length + (Codec.pack item.content).length := by
  simp [stored, localMark]
  omega

theorem length_listed (item : Item) (offset : Nat) :
    (item.listed offset).length = 46 + item.name.length + (item.wide offset).length := by
  simp [listed, entryMark]
  omega

theorem length_wide_le (item : Item) (offset : Nat) : (item.wide offset).length ≤ 28 := by
  have hnumbers := length_wideNumbers_le
    [item.content.length, (Codec.pack item.content).length, offset]
  simp only [List.length_cons, List.length_nil] at hnumbers
  simp only [wide]
  split
  · simp
  · simp only [List.length_append, length_littleEndian]
    omega

theorem wide_of_lt {item : Item} {offset : Nat} (hcontent : item.content.length < maxNumber)
    (hpacked : (Codec.pack item.content).length < maxNumber) (hoffset : offset < maxNumber) :
    item.wide offset = [] := by
  simp [wide, wideNumbers, Nat.not_le.mpr hcontent, Nat.not_le.mpr hpacked, Nat.not_le.mpr hoffset]

theorem extend?_wide {item : Item} (h : item.Fits) {offset : Nat} (hoffset : offset < 256 ^ 8)
    (comment : Bytes) :
    (item.entry (min offset maxNumber)).extend? comment (item.wide offset) =
      some (item.entry offset) := by
  have hwiden := Entry.widen_wideNumbers (item.entry offset) h.content h.packed hoffset
  have hnumbers := length_wideNumbers_le
    [item.content.length, (Codec.pack item.content).length, offset]
  simp only [List.length_cons, List.length_nil] at hnumbers
  simp only [wide]
  split
  · rename_i hnone
    have hnarrow : offset ≤ maxNumber := by
      by_contra hwide
      simp [wideNumbers, Nat.le_of_not_le hwide, littleEndian] at hnone
    rw [Entry.extend?_nil, Nat.min_eq_left hnarrow]
  · apply Entry.extend?_of_read
    · simp [littleEndian]
    · rw [Entry.extendOnce_widen _ _ (by omega)]
      exact hwiden

theorem parse?_listed {item : Item} (h : item.Fits) {offset : Nat} (hoffset : offset < 256 ^ 8)
    (rest : Bytes) :
    Entry.parse? 0 (item.listed offset ++ rest) = some (item.entry offset, rest) := by
  have hchecksum : (Crc32.checksum item.content).toNat % 256 ^ 4 =
      (Crc32.checksum item.content).toNat := Nat.mod_eq_of_lt (Crc32.checksum _).toNat_lt
  have hpacked := Nat.mod_eq_of_lt (lt_of_le_maxNumber h.packed)
  have hsize := Nat.mod_eq_of_lt (lt_of_le_maxNumber h.content)
  have hname := Nat.mod_eq_of_lt h.name
  have hextra : (item.wide offset).length % 256 ^ 2 = (item.wide offset).length :=
    Nat.mod_eq_of_lt (Nat.lt_of_le_of_lt (item.length_wide_le offset) (by decide))
  have hplace : min offset maxNumber % 256 ^ 4 = min offset maxNumber :=
    Nat.mod_eq_of_lt (lt_of_le_maxNumber (Nat.min_le_right _ _))
  have hmethod : packedMethod % 256 ^ 2 = packedMethod := rfl
  have hdate : earliestDate % 256 ^ 2 = earliestDate := rfl
  have hextend := extend?_wide h hoffset []
  have hunsealed : ¬ (packedMethod = Entry.sealedMethod ∧ (!false) = true) := by decide
  have hsmall : ¬ 0x10000000000000000 ≤ offset + 0 := by omega
  simp only [entry] at hextend ⊢
  simp only [listed, fields, List.append_assoc]
  rw [Entry.parse?]
  simp only [↓expect?_bind, ↓number?_bind, ↓Entry.numbers?_cons_bind, ↓Entry.numbers?_nil_bind,
    bytes?_append, hchecksum, hpacked, hsize, hname, hextra, hplace, hmethod, hdate, Nat.zero_mod,
    bytes?_zero, Option.bind_eq_bind, Option.bind_some, hextend]
  rw [if_neg hunsealed, if_neg hsmall]
  rfl

theorem fields_eq (extra : Nat) (item : Item) :
    ∃ first : Bytes, first.length = 22 ∧
      item.fields extra = first ++ (littleEndian 2 item.name.length ++ littleEndian 2 extra) := by
  refine ⟨littleEndian 2 packedVersion ++ littleEndian 2 0 ++ littleEndian 2 packedMethod ++
    littleEndian 2 0 ++ littleEndian 2 earliestDate ++
    littleEndian 4 (Crc32.checksum item.content).toNat ++
    littleEndian 4 (Codec.pack item.content).length ++ littleEndian 4 item.content.length,
    ?_, ?_⟩
  · simp
  · simp [fields]

theorem packed_entry {item : Item} (h : item.Fits) {offset : Nat} {bs rest : Bytes}
    (hbs : bs.drop offset = item.stored ++ rest) :
    (item.entry offset).packed bs = .ok (Codec.pack item.content) := by
  obtain ⟨first, hfirst, hfields⟩ := item.fields_eq 0
  have hname := Nat.mod_eq_of_lt h.name
  have hstored : bs.drop (item.entry offset).offset =
      (localMark ++ item.fields 0) ++ (item.name ++ (Codec.pack item.content ++ rest)) := by
    rw [← List.append_assoc, ← List.append_assoc, ← stored]
    exact hbs
  have hheader : (localMark ++ item.fields 0).length = 30 := by simp [localMark]
  have hextra : number? 2 (littleEndian 2 0) = some (0, []) := rfl
  have hlengths : expect? localMark (localMark ++ item.fields 0) = some (item.fields 0) :=
    expect?_append _ _
  simp only [Entry.packed, hstored, bytes?_of_length hheader, hlengths]
  simp only [hfields, bytes?_of_length hfirst, number?_littleEndian, Option.bind_eq_bind,
    Option.bind_some, hname, hextra]
  simp [entry]

theorem open_entry {item : Item} (h : item.Fits) {offset : Nat} {bs rest : Bytes}
    (hbs : bs.drop offset = item.stored ++ rest) :
    (item.entry offset).open bs = .ok ⟨item.content, none⟩ := by
  have hpacked := packed_entry h hbs
  have hclear : ¬ (item.entry offset).isEncrypted := by simp [Entry.isEncrypted, entry]
  have hmethod : (item.entry offset).method = 8 := rfl
  have hunsealed : (item.entry offset).isSealed = false := rfl
  have hchecksum : (item.entry offset).checksum = (Crc32.checksum item.content).toNat := rfl
  simp only [Entry.open, if_neg hclear, hpacked, bind, Except.bind, hmethod, hunsealed,
    Entry.unpacked, Codec.unpack_pack]
  simp [Stream.ofUnpacked, Stream.checked, hchecksum]

end Item

/-! ## End records -/

theorem length_wideEndRecord (files size offset : Nat) :
    (wideEndRecord files size offset).length = 56 := by
  simp [wideEndRecord, wideEndMark]

theorem length_locatorRecord (offset : Nat) : (locatorRecord offset).length = Locator.size := by
  simp [locatorRecord, locatorMark, Locator.size]

theorem length_endRecord (files size offset : Nat) : (endRecord files size offset).length = 22 := by
  simp [endRecord, endMark]

theorem End.parse_endRecord (files size offset : Nat) :
    End.parse (endRecord files size offset) =
      .ok ⟨0, 0, min files maxCount, min files maxCount, min offset maxNumber⟩ := by
  have hfiles : min files maxCount % 256 ^ 2 = min files maxCount :=
    Nat.mod_eq_of_lt (Nat.lt_of_le_of_lt (Nat.min_le_right _ _) (by decide))
  have hoffset : min offset maxNumber % 256 ^ 4 = min offset maxNumber :=
    Nat.mod_eq_of_lt (lt_of_le_maxNumber (Nat.min_le_right _ _))
  have hcomment : number? 2 (littleEndian 2 0) = some (0, []) := rfl
  simp only [End.parse, endRecord, List.append_assoc, expect?_append, number?_littleEndian,
    Option.bind_eq_bind, Option.bind_some, hfiles, hoffset, hcomment]
  rfl

theorem Locator.parse?_locatorRecord {offset : Nat} (h : offset < 256 ^ 8) (rest : Bytes) :
    Locator.parse? (locatorRecord offset ++ rest) = some ⟨0, offset, 1⟩ := by
  have hdisks : 1 % 256 ^ 4 = 1 := rfl
  simp only [parse?, locatorRecord, List.append_assoc, expect?_append, number?_littleEndian,
    Option.bind_eq_bind, Option.bind_some, Nat.mod_eq_of_lt h, hdisks, Nat.zero_mod]

theorem WideEnd.parse_wideEndRecord {files offset : Nat} (size : Nat) (hfiles : files < 256 ^ 8)
    (hoffset : offset < 256 ^ 8) (rest : Bytes) :
    WideEnd.parse 56 (wideEndRecord files size offset ++ rest) =
      .ok ⟨44, wideVersion, wideVersion, 0, 0, files, files, offset⟩ := by
  have hlength : 44 % 256 ^ 8 = 44 := rfl
  have hversion : wideVersion % 256 ^ 2 = wideVersion := rfl
  simp only [parse, wideEndRecord, List.append_assoc, expect?_append, number?_littleEndian,
    Option.bind_eq_bind, Option.bind_some, Nat.mod_eq_of_lt hfiles, Nat.mod_eq_of_lt hoffset,
    hlength, hversion, Nat.zero_mod]
  rfl

theorem End.parse_of_length_lt {bs : Bytes} (h : bs.length < 22) :
    End.parse bs = .error .cutOff := by
  simp only [End.parse]
  split
  · rfl
  · rename_i record comment rest hfields
    simp only [Option.bind_eq_bind, Option.bind_eq_some_iff] at hfields
    obtain ⟨_, hmark, ⟨_, _⟩, hdisk, ⟨_, _⟩, hdirectory, ⟨_, _⟩, hhere, ⟨_, _⟩, hfiles, ⟨_, _⟩,
      hsize, ⟨_, _⟩, hoffset, ⟨_, _⟩, hcomment, -⟩ := hfields
    have hmark := length_of_expect? hmark
    have hdisk := length_number? hdisk
    have hdirectory := length_number? hdirectory
    have hhere := length_number? hhere
    have hfiles := length_number? hfiles
    have hsize := length_number? hsize
    have hoffset := length_number? hoffset
    have hcomment := length_number? hcomment
    simp only [endMark, List.length_cons, List.length_nil] at *
    omega

end Manuscript.Archive
