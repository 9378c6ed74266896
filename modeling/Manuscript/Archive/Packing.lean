import Manuscript.Archive.Deflate
/-!
# Plain packing

The simplest packer only makes plain blocks. Each of them starts and ends on a whole byte, so
unpacking one leaves the bits of the bytes after it and adds its content to what has been produced.
-/

namespace Manuscript.Archive.Deflate

def maxPlain : Nat := 65535

def plainBlock (last : Bool) (bs : Bytes) : Bytes :=
  (if last then 1 else 0) :: littleEndian 2 bs.length ++
    littleEndian 2 (maxPlain - bs.length) ++ bs

def pack (bs : Bytes) : Bytes :=
  if _h : bs.length ≤ maxPlain then plainBlock true bs
  else plainBlock false (bs.take maxPlain) ++ pack (bs.drop maxPlain)
termination_by bs.length
decreasing_by
  simp only [List.length_drop, maxPlain] at *
  omega

theorem takeFrom?_littleEndian (k : Nat) {held count : Nat} (hheld : held < 1 <<< count) (n : Nat)
    (rest : Bytes) :
    Bits.takeFrom? (count + 8 * k) held count (littleEndian k n ++ rest) =
      some (held + (n % 1 <<< (8 * k)) <<< count, Bits.ofBytes rest) := by
  induction k generalizing held count n with
  | zero =>
      have hmod : held % 1 <<< count = held := Nat.mod_eq_of_lt hheld
      have hdiv : held >>> count = 0 := by
        rw [Nat.shiftRight_eq_div_pow, ← Nat.one_shiftLeft, Nat.div_eq_of_lt hheld]
      cases rest <;>
        simp [littleEndian, Bits.takeFrom?, Bits.ofBytes, hmod, hdiv, Nat.mod_one]
  | succ k ih =>
      have hmore : ¬ count + 8 * (k + 1) ≤ count := by omega
      have hcount : count + 8 * (k + 1) = count + 8 + 8 * k := by omega
      have hbyte : (UInt8.ofNat n).toNat = n % 256 := by simp
      have hnext : held + (n % 256) <<< count < 1 <<< (count + 8) := by
        have hdigit : n % 256 ≤ 255 := by omega
        have hmul := Nat.mul_le_mul_right (2 ^ count) hdigit
        simp only [Nat.shiftLeft_eq, Nat.one_mul, Nat.pow_add] at hheld ⊢
        omega
      have hdigits : n % 1 <<< (8 * (k + 1)) = n % 256 + (n / 256 % 1 <<< (8 * k)) <<< 8 := by
        have hpow : 1 <<< (8 * (k + 1)) = 256 * 1 <<< (8 * k) := by
          rw [Nat.mul_succ, Nat.shiftLeft_add, Nat.shiftLeft_eq _ 8, Nat.mul_comm]
        rw [hpow, Nat.mod_mul, Nat.shiftLeft_eq _ 8, Nat.mul_comm 256]
      have hshift (low high : Nat) :
          (low + high <<< 8) <<< count = low <<< count + high <<< (count + 8) := by
        rw [Nat.add_comm count, Nat.shiftLeft_add]
        simp only [Nat.shiftLeft_eq _ count, Nat.add_mul]
      rw [littleEndian, List.cons_append, Bits.takeFrom?, if_neg hmore, hcount, hbyte, ih hnext,
        hdigits, hshift, Nat.add_assoc]

theorem take?_littleEndian (k n : Nat) (rest : Bytes) :
    (Bits.ofBytes (littleEndian k n ++ rest)).take? (8 * k) =
      some (n % 1 <<< (8 * k), Bits.ofBytes rest) := by
  have htake := takeFrom?_littleEndian k (show 0 < 1 <<< 0 by decide) n rest
  simpa [Bits.take?, Bits.ofBytes] using htake

theorem need_littleEndian {n : Nat} (h : n < 65536) (rest : Bytes) :
    need 16 (Bits.ofBytes (littleEndian 2 n ++ rest)) = .ok (n, Bits.ofBytes rest) := by
  have htake := take?_littleEndian 2 n rest
  have hmod : n % 1 <<< (8 * 2) = n := Nat.mod_eq_of_lt h
  simp only [hmod] at htake
  simp [need, htake]

theorem take?_byte (b : UInt8) (rest : Bytes) :
    (Bits.ofBytes (b :: rest)).take? 8 = some (b.toNat, Bits.ofBytes rest) := by
  have hbyte : littleEndian 1 b.toNat = [b] := by simp [littleEndian]
  have htake := take?_littleEndian 1 b.toNat rest
  have hmod : b.toNat % 1 <<< (8 * 1) = b.toNat := Nat.mod_eq_of_lt b.toNat_lt
  rw [hmod, hbyte] at htake
  exact htake

theorem unpackBytes_append (out : Array UInt8) (bs rest : Bytes) :
    unpackBytes bs.length out (Bits.ofBytes (bs ++ rest)) =
      (out ++ bs.toArray, .ok (Bits.ofBytes rest)) := by
  induction bs generalizing out with
  | nil => simp [unpackBytes]
  | cons b bs ih =>
      rw [List.length_cons, List.cons_append, unpackBytes, take?_byte]
      simp only [UInt8.ofNat_toNat, ih]
      simp

/-- The header of a block is the lowest three bits of a byte; the other five are dropped. -/
theorem take?_header (b : UInt8) (rest : Bytes) :
    (Bits.ofBytes (b :: rest)).take? 3 = some (b.toNat % 8, ⟨b.toNat / 8, 5, rest⟩) := by
  have hshift : b.toNat >>> 3 = b.toNat / 8 := Nat.shiftRight_eq_div_pow _ _
  cases rest <;> simp [Bits.take?, Bits.ofBytes, Bits.takeFrom?, hshift]

theorem align_header {b : UInt8} (h : b.toNat < 8) (rest : Bytes) :
    Bits.align ⟨b.toNat / 8, 5, rest⟩ = Bits.ofBytes rest := by
  have hzero : b.toNat / 8 = 0 := by omega
  simp [Bits.align, Bits.ofBytes, hzero]

theorem unpackPlain_plain (out : Array UInt8) {bs : Bytes} (hlength : bs.length ≤ maxPlain)
    {bits : Bits} {rest : Bytes}
    (hbits : bits.align = Bits.ofBytes (littleEndian 2 bs.length ++
      (littleEndian 2 (maxPlain - bs.length) ++ (bs ++ rest)))) :
    unpackPlain out bits = (out ++ bs.toArray, .ok (Bits.ofBytes rest)) := by
  simp only [maxPlain] at hlength hbits
  have hinverse : bs.length + (65535 - bs.length) = 0xFFFF := by omega
  rw [unpackPlain, hbits, need_littleEndian (by omega)]
  simp only
  rw [need_littleEndian (by omega)]
  simp only [hinverse, ↓reduceIte, unpackBytes_append]

theorem unpackBlocks_of_block {out produced : Array UInt8} {bits after next : Bits} {header : Nat}
    (hheader : bits.take? 3 = some (header, after))
    (hblock : unpackBlock (header / 2) out after = (produced, .ok next)) :
    unpackBlocks out bits =
      if header % 2 = 1 then (produced, none) else unpackBlocks produced next := by
  rw [unpackBlocks]
  split
  · rename_i hnone
    simp [hheader] at hnone
  · rename_i header' after' hsome
    obtain ⟨rfl, rfl⟩ : header' = header ∧ after' = after := by simpa [hheader] using hsome.symm
    split
    · rename_i hstop
      simp [hblock] at hstop
    · rename_i produced' next' hok
      obtain ⟨rfl, rfl⟩ : produced' = produced ∧ next' = next := by simpa [hblock] using hok.symm
      rfl

theorem unpackBlocks_plain (out : Array UInt8) {b : UInt8} (hb : b.toNat < 2) {bs : Bytes}
    (hlength : bs.length ≤ maxPlain) (rest : Bytes) :
    unpackBlocks out (Bits.ofBytes (b :: (littleEndian 2 bs.length ++
        (littleEndian 2 (maxPlain - bs.length) ++ (bs ++ rest))))) =
      if b.toNat = 1 then (out ++ bs.toArray, none)
      else unpackBlocks (out ++ bs.toArray) (Bits.ofBytes rest) := by
  have hkind : b.toNat % 8 / 2 = 0 := by omega
  have hlast : b.toNat % 8 % 2 = b.toNat := by omega
  have halign := align_header (show b.toNat < 8 by omega) (littleEndian 2 bs.length ++
    (littleEndian 2 (maxPlain - bs.length) ++ (bs ++ rest)))
  have hblock : unpackBlock (b.toNat % 8 / 2) out ⟨b.toNat / 8, 5, littleEndian 2 bs.length ++
      (littleEndian 2 (maxPlain - bs.length) ++ (bs ++ rest))⟩ =
        (out ++ bs.toArray, .ok (Bits.ofBytes rest)) := by
    rw [hkind, unpackBlock]
    exact unpackPlain_plain out hlength halign
  rw [unpackBlocks_of_block (take?_header b _) hblock, hlast]

theorem unpackBlocks_plainBlock (out : Array UInt8) (last : Bool) {bs : Bytes}
    (hlength : bs.length ≤ maxPlain) (rest : Bytes) :
    unpackBlocks out (Bits.ofBytes (plainBlock last bs ++ rest)) =
      if last then (out ++ bs.toArray, none)
      else unpackBlocks (out ++ bs.toArray) (Bits.ofBytes rest) := by
  have hblock := fun b hb => unpackBlocks_plain out (b := b) hb hlength rest
  cases last with
  | true => simpa [plainBlock] using hblock 1 (by decide)
  | false => simpa [plainBlock] using hblock 0 (by decide)

theorem unpackBlocks_pack (out : Array UInt8) (bs : Bytes) :
    unpackBlocks out (Bits.ofBytes (pack bs)) = (out ++ bs.toArray, none) := by
  induction bs using pack.induct generalizing out with
  | case1 bs hlast =>
      have hblock := unpackBlocks_plainBlock out true hlast []
      rw [pack, dif_pos hlast]
      simpa using hblock
  | case2 bs hmore ih =>
      have htake : (bs.take maxPlain).length ≤ maxPlain := List.length_take_le _ _
      have hall : (bs.take maxPlain).toArray ++ (bs.drop maxPlain).toArray = bs.toArray := by
        simp
      rw [pack, dif_neg hmore, unpackBlocks_plainBlock out false htake, ih]
      simp [hall]

theorem unpack_pack (bs : Bytes) : unpack (pack bs) = (bs, none) := by
  simp [unpack, unpackAll, unpackBlocks_pack]

theorem length_plainBlock (last : Bool) (bs : Bytes) :
    (plainBlock last bs).length = bs.length + 5 := by
  simp [plainBlock]
  omega

theorem length_pack_le (bs : Bytes) :
    (pack bs).length ≤ bs.length + 5 * (bs.length / maxPlain + 1) := by
  induction bs using pack.induct with
  | case1 bs hlast =>
      rw [pack, dif_pos hlast, length_plainBlock]
      simp only [maxPlain]
      omega
  | case2 bs hmore ih =>
      rw [pack, dif_neg hmore, List.length_append, length_plainBlock]
      simp only [List.length_take, List.length_drop, maxPlain] at ih hmore ⊢
      omega

/-- Any other packer of deflated data may take its place. -/
instance codec : Codec where
  pack := pack
  unpack := unpack
  unpack_pack := unpack_pack
  length_pack_le bs := by
    have hlength := length_pack_le bs
    simp only [maxPlain] at hlength
    omega

end Manuscript.Archive.Deflate
