import Manuscript.Proofs.Text.Utf8

/-!
# Texts and their heads as bytes

Each character has one sequence of bytes, so what is decoded is encoded as the same bytes again.  A
head of a text is a text with the beginning of another character behind it, and the decoder finds
just that: nothing is wrong with it but that it ends too early.  It never says so of other bytes.
-/

namespace Manuscript.Utf8

/-- The bytes of one character: a leading byte, which tells how many there are, and what continues
it. -/
inductive Sequence : Bytes → Prop
  | one {b : UInt8} (lead : b.toNat < 0x80) : Sequence [b]
  | two {b b₁ : UInt8} (low : 0xC2 ≤ b.toNat) (high : b.toNat < 0xE0)
      (second : isSecond b.toNat b₁) : Sequence [b, b₁]
  | three {b b₁ b₂ : UInt8} (low : 0xE0 ≤ b.toNat) (high : b.toNat < 0xF0)
      (second : isSecond b.toNat b₁) (third : isContinuation b₂) : Sequence [b, b₁, b₂]
  | four {b b₁ b₂ b₃ : UInt8} (low : 0xF0 ≤ b.toNat) (high : b.toNat ≤ 0xF4)
      (second : isSecond b.toNat b₁) (third : isContinuation b₂) (fourth : isContinuation b₃) :
      Sequence [b, b₁, b₂, b₃]

theorem isContinuation_iff {b : UInt8} :
    isContinuation b = true ↔ 0x80 ≤ b.toNat ∧ b.toNat ≤ 0xBF := by
  simp [isContinuation]

theorem isSecond_iff {lead : Nat} {b : UInt8} :
    isSecond lead b = true ↔ (0x80 ≤ b.toNat ∧ b.toNat ≤ 0xBF) ∧
      (lead = 0xE0 → 0xA0 ≤ b.toNat) ∧ (lead = 0xED → b.toNat ≤ 0x9F) ∧
      (lead = 0xF0 → 0x90 ≤ b.toNat) ∧ (lead = 0xF4 → b.toNat ≤ 0x8F) := by
  simp only [isSecond, secondRange]
  split_ifs <;> simp only [beq_iff_eq] at * <;>
    simp only [Bool.and_eq_true, decide_eq_true_eq] <;> omega

theorem toNat_char_ofNat {n : Nat} (h : n.isValidChar) : (Char.ofNat n).toNat = n := by
  rw [Char.ofNat, dif_pos h]
  rfl

theorem ofNat_of_toNat_eq {b : UInt8} {n : Nat} (h : b.toNat = n) : UInt8.ofNat n = b := by
  rw [← h, UInt8.ofNat_toNat]

section

variable {b b₁ b₂ b₃ : UInt8}

theorem encodeChar_one (hlead : b.toNat < 0x80) : encodeChar (Char.ofNat b.toNat) = [b] := by
  have hchar := toNat_char_ofNat (n := b.toNat) (.inl (by omega))
  simp only [encodeChar, hchar, if_pos hlead, UInt8.ofNat_toNat]

theorem encodeChar_two (hlow : 0xC2 ≤ b.toNat) (hhigh : b.toNat < 0xE0)
    (hsecond : isSecond b.toNat b₁) :
    encodeChar (Char.ofNat (b.toNat % 32 * 64 + b₁.toNat % 64)) = [b, b₁] := by
  obtain ⟨hb₁, -⟩ := isSecond_iff.mp hsecond
  generalize hn : b.toNat % 32 * 64 + b₁.toNat % 64 = n
  have hchar := toNat_char_ofNat (n := n) (.inl (by omega))
  have hone : ¬ n < 0x80 := by omega
  have htwo : n < 0x800 := by omega
  simp only [encodeChar, hchar, if_neg hone, if_pos htwo, continuation]
  rw [ofNat_of_toNat_eq (b := b) (by omega), ofNat_of_toNat_eq (b := b₁) (by omega)]

theorem encodeChar_three (hlow : 0xE0 ≤ b.toNat) (hhigh : b.toNat < 0xF0)
    (hsecond : isSecond b.toNat b₁) (hthird : isContinuation b₂) :
    encodeChar (Char.ofNat (b.toNat % 16 * 4096 + (b₁.toNat % 64 * 64 + b₂.toNat % 64))) =
      [b, b₁, b₂] := by
  obtain ⟨hb₁, hE0, hED, -⟩ := isSecond_iff.mp hsecond
  have hb₂ := isContinuation_iff.mp hthird
  generalize hn : b.toNat % 16 * 4096 + (b₁.toNat % 64 * 64 + b₂.toNat % 64) = n
  -- the second byte rules out overlong forms and surrogates
  have hvalid : n.isValidChar := by
    unfold Nat.isValidChar
    omega
  have hone : ¬ n < 0x80 := by omega
  have htwo : ¬ n < 0x800 := by omega
  have hthree : n < 0x10000 := by omega
  simp only [encodeChar, toNat_char_ofNat hvalid, if_neg hone, if_neg htwo, if_pos hthree,
    continuation]
  rw [ofNat_of_toNat_eq (b := b) (by omega), ofNat_of_toNat_eq (b := b₁) (by omega),
    ofNat_of_toNat_eq (b := b₂) (by omega)]

theorem encodeChar_four (hlow : 0xF0 ≤ b.toNat) (hhigh : b.toNat ≤ 0xF4)
    (hsecond : isSecond b.toNat b₁) (hthird : isContinuation b₂) (hfourth : isContinuation b₃) :
    encodeChar (Char.ofNat (b.toNat % 8 * 262144 +
      (b₁.toNat % 64 * 64 + b₂.toNat % 64) * 64 + b₃.toNat % 64)) = [b, b₁, b₂, b₃] := by
  obtain ⟨hb₁, -, -, hF0, hF4⟩ := isSecond_iff.mp hsecond
  have hb₂ := isContinuation_iff.mp hthird
  have hb₃ := isContinuation_iff.mp hfourth
  generalize hn : b.toNat % 8 * 262144 +
      (b₁.toNat % 64 * 64 + b₂.toNat % 64) * 64 + b₃.toNat % 64 = n
  have hvalid : n.isValidChar := by
    unfold Nat.isValidChar
    omega
  have hone : ¬ n < 0x80 := by omega
  have htwo : ¬ n < 0x800 := by omega
  have hthree : ¬ n < 0x10000 := by omega
  simp only [encodeChar, toNat_char_ofNat hvalid, if_neg hone, if_neg htwo, if_neg hthree,
    continuation]
  rw [ofNat_of_toNat_eq (b := b) (by omega), ofNat_of_toNat_eq (b := b₁) (by omega),
    ofNat_of_toNat_eq (b := b₂) (by omega), ofNat_of_toNat_eq (b := b₃) (by omega)]

end

structure Begins (bs : Bytes) (cs : List Char) (c : Char) (front rest : Bytes) : Prop where
  bytes : bs = front ++ rest
  sequence : Sequence front
  encoded : encodeChar c = front
  others : ∃ next ds, decodeFrom next rest = .ok ds ∧ cs = c :: ds

theorem begins_of_map {next : Nat} {c : Char} {cs : List Char} {front rest : Bytes}
    (hsequence : Sequence front) (hencoded : encodeChar c = front)
    (h : (c :: ·) <$> decodeFrom next rest = .ok cs) : Begins (front ++ rest) cs c front rest := by
  cases hrest : decodeFrom next rest with
  | error fault =>
      rw [hrest] at h
      cases h
  | ok ds =>
      rw [hrest] at h
      cases h
      exact ⟨rfl, hsequence, hencoded, next, ds, hrest, rfl⟩

theorem begins_of_decodeFrom {before : Nat} {bs : Bytes} {cs : List Char}
    (h : decodeFrom before bs = .ok cs) :
    (bs = [] ∧ cs = []) ∨ ∃ c front rest, Begins bs cs c front rest := by
  revert h
  fun_cases decodeFrom before bs with
  | case1 =>
      rintro ⟨⟩
      exact .inl ⟨rfl, rfl⟩
  | case2 =>
      rename_i hlead
      intro h
      exact .inr ⟨_, _, _, begins_of_map (.one hlead) (encodeChar_one hlead) h⟩
  | case6 =>
      rename_i hmany _ _ hsecond _ htwo
      simp only [Bool.or_eq_true, decide_eq_true_eq, not_or, Bool.not_eq_true',
        Bool.not_eq_false] at hmany hsecond
      have hlow := Nat.not_lt.mp hmany.1
      intro h
      exact .inr ⟨_, _, _, begins_of_map (.two hlow htwo hsecond)
        (encodeChar_two hlow htwo hsecond) h⟩
  | case9 =>
      rename_i hsecond _ htwo _ _ hthird _ hthree
      simp only [Bool.not_eq_true', Bool.not_eq_false] at hsecond hthird
      have hlow := Nat.not_lt.mp htwo
      intro h
      exact .inr ⟨_, _, _, begins_of_map (.three hlow hthree hsecond hthird)
        (encodeChar_three hlow hthree hsecond hthird) h⟩
  | case12 =>
      rename_i hmany _ hsecond _ htwo _ hthird _ hthree _ _ hfourth
      simp only [Bool.or_eq_true, decide_eq_true_eq, not_or, Bool.not_eq_true',
        Bool.not_eq_false] at hmany hsecond hthird hfourth
      have hlow := Nat.not_lt.mp hthree
      have hhigh := Nat.not_lt.mp hmany.2
      intro h
      exact .inr ⟨_, _, _, begins_of_map (.four hlow hhigh hsecond hthird hfourth)
        (encodeChar_four hlow hhigh hsecond hthird hfourth) h⟩
  | _ => rintro ⟨⟩

theorem encode_cons (c : Char) (cs : List Char) : encode (c :: cs) = encodeChar c ++ encode cs :=
  rfl

theorem encode_of_decodeFrom {before : Nat} {bs : Bytes} {cs : List Char}
    (h : decodeFrom before bs = .ok cs) : encode cs = bs := by
  induction cs generalizing before bs with
  | nil =>
      rcases begins_of_decodeFrom h with ⟨rfl, -⟩ | ⟨c, front, rest, hbegins⟩
      · rfl
      · obtain ⟨next, ds, -, hcs⟩ := hbegins.others
        cases hcs
  | cons c cs ih =>
      rcases begins_of_decodeFrom h with ⟨-, hcs⟩ | ⟨d, front, rest, hbegins⟩
      · cases hcs
      · obtain ⟨next, ds, hrest, hcs⟩ := hbegins.others
        cases hcs
        rw [encode_cons, hbegins.encoded, ih hrest, hbegins.bytes]

/-- A text has one form in bytes. -/
theorem decode_eq_ok_iff {bs : Bytes} {text : String} :
    decode bs = .ok text ↔ bs = bytes text := by
  constructor
  · intro h
    cases hchars : decodeFrom 0 bs with
    | error fault =>
        rw [decode, hchars] at h
        cases h
    | ok cs =>
        rw [decode, hchars] at h
        cases h
        rw [bytes, String.toList_ofList, encode_of_decodeFrom hchars]
  · rintro rfl
    exact decode_bytes text

theorem sequence_encodeChar (c : Char) : Sequence (encodeChar c) := by
  have hdecoded := decodeFrom_encode 0 [c]
  rcases begins_of_decodeFrom hdecoded with ⟨-, hcs⟩ | ⟨d, front, rest, hbegins⟩
  · cases hcs
  · obtain ⟨next, ds, -, hcs⟩ := hbegins.others
    cases hcs
    rw [hbegins.encoded]
    exact hbegins.sequence

theorem encodeChar_prefix_encode_iff {c : Char} {cs : List Char} :
    encodeChar c <+: encode cs ↔ cs.head? = some c := by
  cases cs with
  | nil =>
      have hne : encodeChar c ≠ [] := by
        intro hnil
        have hsequence := sequence_encodeChar c
        rw [hnil] at hsequence
        cases hsequence
      simpa [encode] using hne
  | cons d ds =>
      rw [List.head?_cons, Option.some_inj]
      constructor
      · rintro ⟨rest, hrest⟩
        have hdecoded := decodeFrom_encode 0 (d :: ds)
        rw [← hrest, decodeFrom_encodeChar] at hdecoded
        cases hafter : decodeFrom (0 + (encodeChar c).length) rest with
        | error fault =>
            rw [hafter] at hdecoded
            cases hdecoded
        | ok es =>
            rw [hafter] at hdecoded
            cases hdecoded
            rfl
      · rintro rfl
        exact List.prefix_append _ _

theorem Sequence.eq_or_high {bs : Bytes} (h : Sequence bs) {b : UInt8} (hb : b ∈ bs) :
    bs = [b] ∨ 0x80 ≤ b.toNat := by
  cases h with
  | one lead => exact .inl (by rw [List.mem_singleton.mp hb])
  | two low high second =>
      have hsecond := (isSecond_iff.mp second).1
      simp only [List.mem_cons, List.not_mem_nil, or_false] at hb
      rcases hb with rfl | rfl <;> omega
  | three low high second third =>
      have hsecond := (isSecond_iff.mp second).1
      have hthird := isContinuation_iff.mp third
      simp only [List.mem_cons, List.not_mem_nil, or_false] at hb
      rcases hb with rfl | rfl | rfl <;> omega
  | four low high second third fourth =>
      have hsecond := (isSecond_iff.mp second).1
      have hthird := isContinuation_iff.mp third
      have hfourth := isContinuation_iff.mp fourth
      simp only [List.mem_cons, List.not_mem_nil, or_false] at hb
      rcases hb with rfl | rfl | rfl | rfl <;> omega

theorem encode_injective {cs ds : List Char} (h : encode cs = encode ds) : cs = ds := by
  have hdecoded := decodeFrom_encode 0 cs
  rw [h, decodeFrom_encode, Except.ok.injEq] at hdecoded
  exact hdecoded.symm

theorem bytes_injective {s t : String} (h : bytes s = bytes t) : s = t :=
  String.toList_inj.mp (encode_injective h)

theorem zero_mem_encodeChar_iff (c : Char) : 0 ∈ encodeChar c ↔ c = '\x00' := by
  constructor
  · intro h
    rcases (sequence_encodeChar c).eq_or_high h with hsingle | hhigh
    · have hencode : encode [c] = encode ['\x00'] := by
        rw [encode_cons, hsingle]
        rfl
      exact List.singleton_inj.mp (encode_injective hencode)
    · exact absurd hhigh (by decide)
  · rintro rfl
    decide

theorem zero_mem_encode_iff (cs : List Char) : 0 ∈ encode cs ↔ '\x00' ∈ cs := by
  rw [encode, List.mem_flatMap]
  constructor
  · rintro ⟨c, hc, hzero⟩
    rw [← (zero_mem_encodeChar_iff c).mp hzero]
    exact hc
  · intro h
    exact ⟨'\x00', h, (zero_mem_encodeChar_iff _).mpr rfl⟩

/-! ## Heads -/

/-- The beginning of a character's bytes: there are some of them, but not all. -/
structure IsCut (cut : Bytes) : Prop where
  ne_nil : cut ≠ []
  begins : ∃ c rest, rest ≠ [] ∧ encodeChar c = cut ++ rest

/-- A head of a text is a text with the beginning of a character behind it, if it does not end
between two characters. -/
theorem exists_head (cs : List Char) (n : Nat) :
    ∃ whole cut, (encode cs).take n = encode whole ++ cut ∧ (cut = [] ∨ IsCut cut) := by
  induction cs generalizing n with
  | nil => exact ⟨[], [], List.take_nil, .inl rfl⟩
  | cons c cs ih =>
      rw [encode_cons]
      by_cases hn : (encodeChar c).length ≤ n
      · obtain ⟨whole, cut, hhead, hcut⟩ := ih (n - (encodeChar c).length)
        refine ⟨c :: whole, cut, ?_, hcut⟩
        rw [List.take_append, List.take_of_length_le hn, hhead, encode_cons, List.append_assoc]
      · refine ⟨[], (encodeChar c).take n, ?_, ?_⟩
        · rw [List.take_append_of_le_length (by omega)]
          rfl
        · by_cases hzero : n = 0
          · exact .inl (by rw [hzero, List.take_zero])
          · have hne : encodeChar c ≠ [] := List.ne_nil_of_length_pos (by omega)
            refine .inr ⟨by simp [hzero, hne], c, (encodeChar c).drop n, ?_, ?_⟩
            · rw [ne_eq, List.drop_eq_nil_iff]
              exact hn
            · exact (List.take_append_drop n _).symm

section

variable {b b₁ b₂ : UInt8} (before : Nat)

theorem decodeFrom_cut_one (hlow : 0xC2 ≤ b.toNat) (hhigh : b.toNat ≤ 0xF4) :
    decodeFrom before [b] = .error ⟨before, none⟩ := by
  have hone : ¬ b.toNat < 0x80 := by omega
  have hmany : ¬ b.toNat < 0xC2 ∧ ¬ 0xF4 < b.toNat := by omega
  simp [decodeFrom, hone, hmany]

theorem decodeFrom_cut_two (hlow : 0xE0 ≤ b.toNat) (hhigh : b.toNat ≤ 0xF4)
    (hsecond : isSecond b.toNat b₁) :
    decodeFrom before [b, b₁] = .error ⟨before, none⟩ := by
  have hone : ¬ b.toNat < 0x80 := by omega
  have hmany : ¬ b.toNat < 0xC2 ∧ ¬ 0xF4 < b.toNat := by omega
  have htwo : ¬ b.toNat < 0xE0 := by omega
  simp [decodeFrom, hone, hmany, hsecond, htwo]

theorem decodeFrom_cut_three (hlow : 0xF0 ≤ b.toNat) (hhigh : b.toNat ≤ 0xF4)
    (hsecond : isSecond b.toNat b₁) (hthird : isContinuation b₂) :
    decodeFrom before [b, b₁, b₂] = .error ⟨before, none⟩ := by
  have hone : ¬ b.toNat < 0x80 := by omega
  have hmany : ¬ b.toNat < 0xC2 ∧ ¬ 0xF4 < b.toNat := by omega
  have htwo : ¬ b.toNat < 0xE0 := by omega
  have hthree : ¬ b.toNat < 0xF0 := by omega
  simp [decodeFrom, hone, hmany, hsecond, htwo, hthird, hthree]

end

theorem IsCut.decodeFrom_eq {cut : Bytes} (h : IsCut cut) (before : Nat) :
    decodeFrom before cut = .error ⟨before, none⟩ := by
  obtain ⟨c, rest, hrest, hsplit⟩ := h.begins
  have hsequence := sequence_encodeChar c
  have hshort : cut.length < (encodeChar c).length := by
    rw [hsplit, List.length_append]
    exact Nat.lt_add_of_pos_right (List.length_pos_iff.mpr hrest)
  have hcut : cut = (encodeChar c).take cut.length := by rw [hsplit, List.take_left]
  have hlong := List.length_pos_iff.mpr h.ne_nil
  generalize encodeChar c = bs at hsequence hshort hcut
  generalize cut.length = n at hshort hcut hlong
  subst hcut
  cases hsequence with
  | one lead => simp at hshort; omega
  | two low high second =>
      obtain rfl : n = 1 := by simp at hshort; omega
      exact decodeFrom_cut_one before low (by omega)
  | three low high second third =>
      simp at hshort
      obtain rfl | rfl : n = 1 ∨ n = 2 := by omega
      · exact decodeFrom_cut_one before (by omega) (by omega)
      · exact decodeFrom_cut_two before low (by omega) second
  | four low high second third fourth =>
      simp at hshort
      obtain rfl | rfl | rfl : n = 1 ∨ n = 2 ∨ n = 3 := by omega
      · exact decodeFrom_cut_one before (by omega) high
      · exact decodeFrom_cut_two before (by omega) high second
      · exact decodeFrom_cut_three before low high second third

theorem IsCut.zero_not_mem {cut : Bytes} (h : IsCut cut) : 0 ∉ cut := by
  intro hzero
  obtain ⟨c, rest, hrest, hsplit⟩ := h.begins
  have hmem : 0 ∈ encodeChar c := by
    rw [hsplit]
    exact List.mem_append_left rest hzero
  rw [(zero_mem_encodeChar_iff c).mp hmem] at hsplit
  have hlength := congrArg List.length hsplit
  have hnul : (encodeChar '\x00').length = 1 := by decide
  have hcut := List.length_pos_iff.mpr h.ne_nil
  have hrest := List.length_pos_iff.mpr hrest
  rw [hnul, List.length_append] at hlength
  omega

theorem decodeFrom_encode_append (before : Nat) (whole : List Char) {cut : Bytes}
    (hcut : IsCut cut) :
    decodeFrom before (encode whole ++ cut) =
      .error ⟨before + (encode whole).length, none⟩ := by
  induction whole generalizing before with
  | nil => exact hcut.decodeFrom_eq before
  | cons c whole ih =>
      rw [encode_cons, List.append_assoc, decodeFrom_encodeChar, ih, List.length_append,
        ← Nat.add_assoc]
      rfl

/-! ## Bytes that end too early -/

theorem Sequence.exists_char {bs : Bytes} (h : Sequence bs) : ∃ c, encodeChar c = bs := by
  cases h with
  | one lead => exact ⟨_, encodeChar_one lead⟩
  | two low high second => exact ⟨_, encodeChar_two low high second⟩
  | three low high second third => exact ⟨_, encodeChar_three low high second third⟩
  | four low high second third fourth =>
      exact ⟨_, encodeChar_four low high second third fourth⟩

theorem Sequence.isCut {cut rest : Bytes} (h : Sequence (cut ++ rest)) (hcut : cut ≠ [])
    (hrest : rest ≠ []) : IsCut cut := by
  obtain ⟨c, hc⟩ := h.exists_char
  exact ⟨hcut, c, rest, hrest, hc⟩

section

variable {b b₁ b₂ : UInt8}

theorem isCut_three (hlow : 0xF0 ≤ b.toNat) (hhigh : b.toNat ≤ 0xF4)
    (hsecond : isSecond b.toNat b₁) (hthird : isContinuation b₂) : IsCut [b, b₁, b₂] := by
  have hwhole : Sequence ([b, b₁, b₂] ++ [0x80]) := .four hlow hhigh hsecond hthird (by decide)
  exact hwhole.isCut (by simp) (by simp)

theorem isCut_two (hlow : 0xE0 ≤ b.toNat) (hhigh : b.toNat ≤ 0xF4)
    (hsecond : isSecond b.toNat b₁) : IsCut [b, b₁] := by
  by_cases hthree : b.toNat < 0xF0
  · have hwhole : Sequence ([b, b₁] ++ [0x80]) := .three hlow hthree hsecond (by decide)
    exact hwhole.isCut (by simp) (by simp)
  · have hwhole : Sequence ([b, b₁] ++ [0x80, 0x80]) :=
      .four (Nat.not_lt.mp hthree) hhigh hsecond (by decide) (by decide)
    exact hwhole.isCut (by simp) (by simp)

theorem exists_isSecond (lead : Nat) : ∃ b : UInt8, isSecond lead b = true := by
  unfold isSecond secondRange
  split_ifs
  · exact ⟨0xA0, by decide⟩
  · exact ⟨0x80, by decide⟩
  · exact ⟨0x90, by decide⟩
  · exact ⟨0x80, by decide⟩
  · exact ⟨0x80, by decide⟩

theorem isCut_one (hlow : 0xC2 ≤ b.toNat) (hhigh : b.toNat ≤ 0xF4) : IsCut [b] := by
  obtain ⟨b₁, hsecond⟩ := exists_isSecond b.toNat
  by_cases htwo : b.toNat < 0xE0
  · have hwhole : Sequence ([b] ++ [b₁]) := .two hlow htwo hsecond
    exact hwhole.isCut (by simp) (by simp)
  · obtain ⟨-, c, rest, hrest, hc⟩ := isCut_two (Nat.not_lt.mp htwo) hhigh hsecond
    exact ⟨by simp, c, b₁ :: rest, by simp, hc⟩

end

/-- Bytes after the first `before` ones are a text up to `validUpTo`, and what follows is the
beginning of a character. -/
def EndsEarly (before validUpTo : Nat) (bs : Bytes) : Prop :=
  ∃ whole cut, bs = encode whole ++ cut ∧ IsCut cut ∧ validUpTo = before + (encode whole).length

theorem IsCut.endsEarly {cut : Bytes} (h : IsCut cut) (before : Nat) :
    EndsEarly before before cut :=
  ⟨[], cut, rfl, h, rfl⟩

theorem endsEarly_of_map {before next validUpTo : Nat} {c : Char} {front bs : Bytes}
    (hfront : encodeChar c = front) (hnext : next = before + front.length)
    (ih : decodeFrom next bs = .error ⟨validUpTo, none⟩ → EndsEarly next validUpTo bs)
    (h : (c :: ·) <$> decodeFrom next bs = .error ⟨validUpTo, none⟩) :
    EndsEarly before validUpTo (front ++ bs) := by
  cases hrest : decodeFrom next bs with
  | ok cs =>
      rw [hrest] at h
      cases h
  | error fault =>
      rw [hrest] at h
      cases h
      obtain ⟨whole, cut, rfl, hcut, hvalid⟩ := ih hrest
      refine ⟨c :: whole, cut, ?_, hcut, ?_⟩
      · rw [encode_cons, hfront, List.append_assoc]
      · rw [encode_cons, hfront, List.length_append, hvalid, hnext, Nat.add_assoc]

theorem endsEarly_of_decodeFrom {before validUpTo : Nat} {bs : Bytes}
    (h : decodeFrom before bs = .error ⟨validUpTo, none⟩) : EndsEarly before validUpTo bs := by
  revert h
  fun_induction decodeFrom before bs with
  | case2 =>
      rename_i hlead ih
      exact endsEarly_of_map (encodeChar_one hlead) rfl ih
  | case4 =>
      rename_i hmany
      simp only [Bool.or_eq_true, decide_eq_true_eq, not_or] at hmany
      rintro ⟨⟩
      exact (isCut_one (Nat.not_lt.mp hmany.1) (Nat.not_lt.mp hmany.2)).endsEarly _
  | case6 =>
      rename_i hmany _ _ hsecond _ htwo ih
      simp only [Bool.or_eq_true, decide_eq_true_eq, not_or, Bool.not_eq_true',
        Bool.not_eq_false] at hmany hsecond
      exact endsEarly_of_map (encodeChar_two (Nat.not_lt.mp hmany.1) htwo hsecond) rfl ih
  | case7 =>
      rename_i hmany _ hsecond htwo
      simp only [Bool.or_eq_true, decide_eq_true_eq, not_or, Bool.not_eq_true',
        Bool.not_eq_false] at hmany hsecond
      rintro ⟨⟩
      exact (isCut_two (Nat.not_lt.mp htwo) (Nat.not_lt.mp hmany.2) hsecond).endsEarly _
  | case9 =>
      rename_i hsecond _ htwo _ _ hthird _ hthree ih
      simp only [Bool.not_eq_true', Bool.not_eq_false] at hsecond hthird
      exact endsEarly_of_map (encodeChar_three (Nat.not_lt.mp htwo) hthree hsecond hthird) rfl ih
  | case10 =>
      rename_i hmany _ hsecond htwo _ hthird hthree
      simp only [Bool.or_eq_true, decide_eq_true_eq, not_or, Bool.not_eq_true',
        Bool.not_eq_false] at hmany hsecond hthird
      rintro ⟨⟩
      exact (isCut_three (Nat.not_lt.mp hthree) (Nat.not_lt.mp hmany.2) hsecond hthird).endsEarly _
  | case12 =>
      rename_i hmany _ hsecond _ htwo _ hthird _ hthree _ _ hfourth ih
      simp only [Bool.or_eq_true, decide_eq_true_eq, not_or, Bool.not_eq_true',
        Bool.not_eq_false] at hmany hsecond hthird hfourth
      exact endsEarly_of_map (encodeChar_four (Nat.not_lt.mp hthree) (Nat.not_lt.mp hmany.2)
        hsecond hthird hfourth) rfl ih
  | _ => rintro ⟨⟩

theorem decodeFrom_eq_error_none_iff {before validUpTo : Nat} {bs : Bytes} :
    decodeFrom before bs = .error ⟨validUpTo, none⟩ ↔ EndsEarly before validUpTo bs := by
  constructor
  · exact endsEarly_of_decodeFrom
  · rintro ⟨whole, cut, rfl, hcut, rfl⟩
    exact decodeFrom_encode_append before whole hcut

end Manuscript.Utf8
