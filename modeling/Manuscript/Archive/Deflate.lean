import Manuscript.Archive.Codec
/-!
# Compressed data

A deflated stream is a sequence of blocks: plain bytes, or literals and copies of earlier bytes
under prefix codes that are fixed or given with the block. Unpacking keeps what it has produced
when the stream ends too early or makes no sense.
-/

namespace Manuscript.Archive.Deflate

structure Bits where
  /-- Bits already taken from the bytes, as a number. -/
  held : Nat
  count : Nat
  rest : Bytes

namespace Bits

def ofBytes (bs : Bytes) : Bits := ⟨0, 0, bs⟩

def left (bits : Bits) : Nat :=
  bits.count + 8 * bits.rest.length

def takeFrom? (n held count : Nat) : Bytes → Option (Nat × Bits)
  | [] => if n ≤ count then some (held % (1 <<< n), ⟨held >>> n, count - n, []⟩) else none
  | b :: bs =>
    if n ≤ count then some (held % (1 <<< n), ⟨held >>> n, count - n, b :: bs⟩)
    else takeFrom? n (held + b.toNat <<< count) (count + 8) bs

def take? (n : Nat) (bits : Bits) : Option (Nat × Bits) :=
  takeFrom? n bits.held bits.count bits.rest

def align (bits : Bits) : Bits :=
  let n := bits.count % 8
  ⟨bits.held >>> n, bits.count - n, bits.rest⟩

theorem left_of_takeFrom? {n held count v : Nat} {bs : Bytes} {next : Bits}
    (h : takeFrom? n held count bs = some (v, next)) :
    next.left + n = count + 8 * bs.length := by
  fun_induction takeFrom? n held count bs with
  | case1 _ _ hn => cases h; simp only [left, List.length_nil]; omega
  | case2 => cases h
  | case3 _ _ _ _ hn => cases h; simp only [left]; omega
  | case4 _ _ _ _ _ ih =>
    have := ih h
    simp only [List.length_cons]
    omega

theorem left_of_take? {n v : Nat} {bits next : Bits} (h : bits.take? n = some (v, next)) :
    next.left + n = bits.left :=
  left_of_takeFrom? h

theorem left_align_le (bits : Bits) : bits.align.left ≤ bits.left := by
  simp only [left, align]
  omega

end Bits

def need (n : Nat) (bits : Bits) : Except Stop (Nat × Bits) :=
  match bits.take? n with
  | some r => .ok r
  | none => .error .ended

theorem ok_of_bind {α β : Type} {x : Except Stop α} {f : α → Except Stop β} {r : β}
    (h : x >>= f = .ok r) : ∃ a, x = .ok a ∧ f a = .ok r := by
  cases x with
  | error => cases h
  | ok a => exact ⟨a, rfl, h⟩

theorem left_of_need {n v : Nat} {bits next : Bits} (h : need n bits = .ok (v, next)) :
    next.left + n = bits.left := by
  unfold need at h
  split at h
  · next ht => cases h; exact Bits.left_of_take? ht
  · cases h

/-! ## Prefix codes -/

/-- A canonical prefix code: how many symbols there are of each length, from length one, and
the symbols in the order of their codes. -/
structure Code where
  counts : List Nat
  symbols : Array Nat

namespace Code

def maxLength : Nat := 15

/-- The code in which each symbol has the given length; symbols of length zero have none. -/
def ofLengths (lengths : List Nat) : Code :=
  let byLength := (List.range maxLength).map fun n =>
    lengths.zipIdx.filterMap fun (length, symbol) =>
      if length = n + 1 then some symbol else none
  ⟨byLength.map List.length, byLength.flatten.toArray⟩

/-- The share of all codes that a code uses, in parts of `1 <<< 15`. -/
def weight (code : Code) : Nat :=
  code.counts.zipIdx.foldr (fun (count, n) total => count <<< (maxLength - 1 - n) + total) 0

def isComplete (code : Code) : Bool :=
  code.weight == 1 <<< maxLength

/-- Whether a code may be used for literals or distances: it is complete, or has one symbol at
most. -/
def isUsable (code : Code) : Bool :=
  code.isComplete || code.symbols.size ≤ 1

/-- Reads a symbol, given the bits read so far as a number, the first code of this length, and
the number of symbols with shorter codes. -/
def readFrom (symbols : Array Nat) (path first before : Nat) :
    List Nat → Bits → Except Stop (Nat × Bits)
  | [], _ => .error .corrupt
  | count :: counts, bits => do
    let (bit, bits) ← need 1 bits
    let path := 2 * path + bit
    let first := 2 * first
    if path < first + count then
      match symbols[before + (path - first)]? with
      | some symbol => .ok (symbol, bits)
      | none => .error .corrupt
    else readFrom symbols path (first + count) (before + count) counts bits

theorem left_of_readFrom {symbols : Array Nat} {path first before symbol : Nat}
    {counts : List Nat} {bits next : Bits}
    (h : readFrom symbols path first before counts bits = .ok (symbol, next)) :
    next.left < bits.left := by
  induction counts generalizing path first before bits with
  | nil => cases h
  | cons count counts ih =>
    obtain ⟨⟨bit, b₁⟩, hn, h⟩ := ok_of_bind h
    have h₁ := left_of_need hn
    dsimp only at h
    split at h
    · split at h
      · cases h; omega
      · cases h
    · have h₂ := ih h
      omega

def read (code : Code) (bits : Bits) : Except Stop (Nat × Bits) :=
  readFrom code.symbols 0 0 0 code.counts bits

theorem left_of_read {code : Code} {bits next : Bits} {symbol : Nat}
    (h : code.read bits = .ok (symbol, next)) : next.left < bits.left :=
  left_of_readFrom h

def fixedLiterals : Code :=
  ofLengths (List.replicate 144 8 ++ List.replicate 112 9 ++ List.replicate 24 7 ++
    List.replicate 8 8)

def fixedDistances : Code :=
  ofLengths (List.replicate 32 5)

end Code

def lengthOrder : List Nat :=
  [16, 17, 18, 0, 8, 7, 9, 6, 10, 5, 11, 4, 12, 3, 13, 2, 14, 1, 15]

def readTriples : Nat → Bits → Except Stop (List Nat × Bits)
  | 0, bits => .ok ([], bits)
  | n + 1, bits => do
    let (length, bits) ← need 3 bits
    let (lengths, bits) ← readTriples n bits
    .ok (length :: lengths, bits)

theorem left_of_readTriples {n : Nat} {lengths : List Nat} {bits next : Bits}
    (h : readTriples n bits = .ok (lengths, next)) : next.left ≤ bits.left := by
  induction n generalizing lengths bits next with
  | zero => cases h; exact Nat.le_refl _
  | succ n ih =>
    obtain ⟨⟨_, b₁⟩, hn, h⟩ := ok_of_bind h
    obtain ⟨⟨_, b₂⟩, hr, h⟩ := ok_of_bind h
    have h₁ := left_of_need hn
    have h₂ := ih hr
    cases h
    omega

/-- Reads code lengths until there are `wanted` of them, the latest first in `lengths`. A
repetition must not go beyond the wanted number. Every symbol adds a length, so as many symbols
as lengths suffice. -/
def readLengths (code : Code) (wanted : Nat) : Nat → List Nat → Bits →
    Except Stop (List Nat × Bits)
  | 0, lengths, bits => .ok (lengths.reverse, bits)
  | fuel + 1, lengths, bits =>
    if wanted ≤ lengths.length then
      if lengths.length = wanted then .ok (lengths.reverse, bits) else .error .corrupt
    else do
      let (symbol, bits) ← code.read bits
      if symbol < 16 then readLengths code wanted fuel (symbol :: lengths) bits
      else if symbol = 16 then
        match lengths with
        | [] => .error .corrupt
        | last :: _ =>
          let (n, bits) ← need 2 bits
          readLengths code wanted fuel (List.replicate (n + 3) last ++ lengths) bits
      else if symbol = 17 then
        let (n, bits) ← need 3 bits
        readLengths code wanted fuel (List.replicate (n + 3) 0 ++ lengths) bits
      else
        let (n, bits) ← need 7 bits
        readLengths code wanted fuel (List.replicate (n + 11) 0 ++ lengths) bits

theorem left_of_readLengths {code : Code} {wanted fuel : Nat} {lengths all : List Nat}
    {bits next : Bits} (h : readLengths code wanted fuel lengths bits = .ok (all, next)) :
    next.left ≤ bits.left := by
  induction fuel generalizing lengths bits with
  | zero => cases h; exact Nat.le_refl _
  | succ fuel ih =>
    unfold readLengths at h
    split at h
    · split at h
      · cases h; exact Nat.le_refl _
      · cases h
    obtain ⟨⟨symbol, b₁⟩, hr, h⟩ := ok_of_bind h
    have h₁ := Code.left_of_read hr
    dsimp only at h
    split at h
    · have h₂ := ih h
      omega
    split at h
    · split at h
      · cases h
      · obtain ⟨⟨_, b₂⟩, hn, h⟩ := ok_of_bind h
        dsimp only at h
        have h₂ := left_of_need hn
        have h₃ := ih h
        omega
    split at h <;>
    · obtain ⟨⟨_, b₂⟩, hn, h⟩ := ok_of_bind h
      dsimp only at h
      have h₂ := left_of_need hn
      have h₃ := ih h
      omega

def readCodes (bits : Bits) : Except Stop (Code × Code × Bits) := do
  let (literals, bits) ← need 5 bits
  let (distances, bits) ← need 5 bits
  let (triples, bits) ← need 4 bits
  let literals := literals + 257
  let distances := distances + 1
  let (given, bits) ← readTriples (triples + 4) bits
  if 286 < literals ∨ 30 < distances then .error .corrupt
  else
    let lengthOf := lengthOrder.zip given
    let lengthCode := Code.ofLengths ((List.range 19).map fun n => (lengthOf.lookup n).getD 0)
    if !lengthCode.isComplete then .error .corrupt
    else
      let wanted := literals + distances
      let (lengths, bits) ← readLengths lengthCode wanted (wanted + 1) [] bits
      let literalCode := Code.ofLengths (lengths.take literals)
      let distanceCode := Code.ofLengths (lengths.drop literals)
      if literalCode.isUsable && distanceCode.isUsable then
        .ok (literalCode, distanceCode, bits)
      else .error .corrupt

theorem left_of_readCodes {literals distances : Code} {bits next : Bits}
    (h : readCodes bits = .ok (literals, distances, next)) : next.left ≤ bits.left := by
  obtain ⟨⟨_, b₁⟩, h₁, h⟩ := ok_of_bind h
  obtain ⟨⟨_, b₂⟩, h₂, h⟩ := ok_of_bind h
  obtain ⟨⟨_, b₃⟩, h₃, h⟩ := ok_of_bind h
  obtain ⟨⟨_, b₄⟩, h₄, h⟩ := ok_of_bind h
  dsimp only at h
  split at h
  · cases h
  split at h
  · cases h
  obtain ⟨⟨_, b₅⟩, h₅, h⟩ := ok_of_bind h
  dsimp only at h
  split at h
  · have h₁ := left_of_need h₁
    have h₂ := left_of_need h₂
    have h₃ := left_of_need h₃
    have h₄ := left_of_readTriples h₄
    have h₅ := left_of_readLengths h₅
    cases h
    omega
  · cases h

/-! ## Copies -/

def lengthTable : Array (Nat × Nat) :=
  #[(3, 0), (4, 0), (5, 0), (6, 0), (7, 0), (8, 0), (9, 0), (10, 0), (11, 1), (13, 1), (15, 1),
    (17, 1), (19, 2), (23, 2), (27, 2), (31, 2), (35, 3), (43, 3), (51, 3), (59, 3), (67, 4),
    (83, 4), (99, 4), (115, 4), (131, 5), (163, 5), (195, 5), (227, 5), (258, 0)]

def distanceTable : Array (Nat × Nat) :=
  #[(1, 0), (2, 0), (3, 0), (4, 0), (5, 1), (7, 1), (9, 2), (13, 2), (17, 3), (25, 3), (33, 4),
    (49, 4), (65, 5), (97, 5), (129, 6), (193, 6), (257, 7), (385, 7), (513, 8), (769, 8),
    (1025, 9), (1537, 9), (2049, 10), (3073, 10), (4097, 11), (6145, 11), (8193, 12),
    (12289, 12), (16385, 13), (24577, 13)]

def readAmount (table : Array (Nat × Nat)) (symbol : Nat) (bits : Bits) :
    Except Stop (Nat × Bits) :=
  match table[symbol]? with
  | none => .error .corrupt
  | some (least, extra) => do
    let (n, bits) ← need extra bits
    .ok (least + n, bits)

theorem left_of_readAmount {table : Array (Nat × Nat)} {symbol amount : Nat} {bits next : Bits}
    (h : readAmount table symbol bits = .ok (amount, next)) : next.left ≤ bits.left := by
  unfold readAmount at h
  split at h
  · cases h
  · obtain ⟨⟨_, b₁⟩, hn, h⟩ := ok_of_bind h
    have h₁ := left_of_need hn
    cases h
    omega

/-- Appends a copy of `length` bytes from `distance` bytes back; before the first byte there are
zeros. -/
def copy (distance : Nat) : Nat → Array UInt8 → Array UInt8
  | 0, out => out
  | length + 1, out =>
    let b := if distance ≤ out.size then out.getD (out.size - distance) 0 else 0
    copy distance length (out.push b)

/-! ## Blocks -/

inductive Symbol where
  | literal (b : UInt8)
  | copy (length distance : Nat)
  | endOfBlock

def readSymbol (literals distances : Code) (bits : Bits) : Except Stop (Symbol × Bits) := do
  let (symbol, bits) ← literals.read bits
  if symbol < 256 then .ok (.literal (UInt8.ofNat symbol), bits)
  else if symbol = 256 then .ok (.endOfBlock, bits)
  else
    let (length, bits) ← readAmount lengthTable (symbol - 257) bits
    let (symbol, bits) ← distances.read bits
    let (distance, bits) ← readAmount distanceTable symbol bits
    .ok (.copy length distance, bits)

theorem left_of_readSymbol {literals distances : Code} {bits next : Bits} {symbol : Symbol}
    (h : readSymbol literals distances bits = .ok (symbol, next)) : next.left < bits.left := by
  obtain ⟨⟨s, b₁⟩, h₁, h⟩ := ok_of_bind h
  have h₁ := Code.left_of_read h₁
  dsimp only at h
  split at h
  · cases h; exact h₁
  split at h
  · cases h; exact h₁
  obtain ⟨⟨_, b₂⟩, h₂, h⟩ := ok_of_bind h
  obtain ⟨⟨_, b₃⟩, h₃, h⟩ := ok_of_bind h
  obtain ⟨⟨_, b₄⟩, h₄, h⟩ := ok_of_bind h
  dsimp only at h₃ h₄ h
  have h₂ := left_of_readAmount h₂
  have h₃ := Code.left_of_read h₃
  have h₄ := left_of_readAmount h₄
  cases h
  omega

abbrev Step := Array UInt8 × Except Stop Bits

def unpackCoded (literals distances : Code) (out : Array UInt8) (bits : Bits) : Step :=
  match _h : readSymbol literals distances bits with
  | .error stop => (out, .error stop)
  | .ok (.endOfBlock, next) => (out, .ok next)
  | .ok (.literal b, next) => unpackCoded literals distances (out.push b) next
  | .ok (.copy length distance, next) =>
    unpackCoded literals distances (copy distance length out) next
termination_by bits.left
decreasing_by all_goals exact left_of_readSymbol _h

theorem left_of_unpackCoded {literals distances : Code} {out out' : Array UInt8}
    {bits next : Bits} (h : unpackCoded literals distances out bits = (out', .ok next)) :
    next.left < bits.left := by
  fun_induction unpackCoded literals distances out bits with
  | case1 => cases h
  | case2 _ _ _ hs => cases h; exact left_of_readSymbol hs
  | case3 _ _ _ _ hs ih => exact Nat.lt_trans (ih h) (left_of_readSymbol hs)
  | case4 _ _ _ _ _ hs ih => exact Nat.lt_trans (ih h) (left_of_readSymbol hs)

def unpackBytes : Nat → Array UInt8 → Bits → Step
  | 0, out, bits => (out, .ok bits)
  | n + 1, out, bits =>
    match bits.take? 8 with
    | none => (out, .error .ended)
    | some (b, bits) => unpackBytes n (out.push (UInt8.ofNat b)) bits

theorem left_of_unpackBytes {n : Nat} {out out' : Array UInt8} {bits next : Bits}
    (h : unpackBytes n out bits = (out', .ok next)) : next.left ≤ bits.left := by
  fun_induction unpackBytes n out bits with
  | case1 => cases h; exact Nat.le_refl _
  | case2 => cases h
  | case3 _ _ _ _ _ ht ih =>
    have h₁ := Bits.left_of_take? ht
    have h₂ := ih h
    omega

def unpackPlain (out : Array UInt8) (bits : Bits) : Step :=
  match need 16 bits.align with
  | .error stop => (out, .error stop)
  | .ok (length, bits) =>
    match need 16 bits with
    | .error stop => (out, .error stop)
    | .ok (inverse, bits) =>
      if length + inverse = 0xFFFF then unpackBytes length out bits
      else (out, .error .corrupt)

theorem left_of_unpackPlain {out out' : Array UInt8} {bits next : Bits}
    (h : unpackPlain out bits = (out', .ok next)) : next.left ≤ bits.left := by
  unfold unpackPlain at h
  split at h
  · cases h
  · next h₁ =>
    split at h
    · cases h
    · next h₂ =>
      split at h
      · have h₁ := left_of_need h₁
        have h₂ := left_of_need h₂
        have h₃ := left_of_unpackBytes h
        have h₄ := Bits.left_align_le bits
        omega
      · cases h

def unpackBlock (kind : Nat) (out : Array UInt8) (bits : Bits) : Step :=
  match kind with
  | 0 => unpackPlain out bits
  | 1 => unpackCoded Code.fixedLiterals Code.fixedDistances out bits
  | 2 =>
    match readCodes bits with
    | .error stop => (out, .error stop)
    | .ok (literals, distances, bits) => unpackCoded literals distances out bits
  | _ => (out, .error .corrupt)

theorem left_of_unpackBlock {kind : Nat} {out out' : Array UInt8} {bits next : Bits}
    (h : unpackBlock kind out bits = (out', .ok next)) : next.left ≤ bits.left := by
  unfold unpackBlock at h
  split at h
  · exact left_of_unpackPlain h
  · exact Nat.le_of_lt (left_of_unpackCoded h)
  · split at h
    · cases h
    · next hc =>
      exact Nat.le_trans (Nat.le_of_lt (left_of_unpackCoded h)) (left_of_readCodes hc)
  · cases h

def unpackBlocks (out : Array UInt8) (bits : Bits) : Array UInt8 × Option Stop :=
  match _ht : bits.take? 3 with
  | none => (out, some .ended)
  | some (header, after) =>
    match _hb : unpackBlock (header / 2) out after with
    | (out, .error stop) => (out, some stop)
    | (out, .ok next) => if header % 2 = 1 then (out, none) else unpackBlocks out next
termination_by bits.left
decreasing_by
  have h₁ := Bits.left_of_take? _ht
  have h₂ := left_of_unpackBlock _hb
  omega

def unpackAll (bs : Bytes) : Array UInt8 × Option Stop :=
  unpackBlocks #[] (Bits.ofBytes bs)

/-! ## Delivery -/

def portion : Nat := 8192

def window : Nat := 32768

/-- How many of the bytes before a place that makes no sense are handed on: what the portions before
that place unpack to, and what has filled the window since. -/
def delivered (bs : Bytes) (size : Nat) : Nat :=
  let earlier := (List.range (bs.length / portion + 1)).map fun n =>
    match unpackAll (bs.take (n * portion)) with
    | (_, some .corrupt) => 0
    | (out, _) => out.size
  max (earlier.foldl max 0) ((size - 1) / window * window)

def unpack (bs : Bytes) : Bytes × Option Stop :=
  match unpackAll bs with
  | (out, some .corrupt) => (out.toList.take (delivered bs out.size), some .corrupt)
  | (out, stop) => (out.toList, stop)

end Manuscript.Archive.Deflate
