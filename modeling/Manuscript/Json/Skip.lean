import Manuscript.Json.Collection
/-!
# Passing over values

A value that nobody asks for is only followed to its end. Its strings and numbers need not make
sense, and it may be nested to any depth.
-/

namespace Manuscript.Json

inductive Frame where
  | list
  | object
  deriving DecidableEq, Repr

namespace Frame

def close : Frame → Char
  | list => ']'
  | object => '\x7d'

def unfinished : Frame → Reason
  | list => .endInList
  | object => .endInObject

def unseparated : Frame → Reason
  | list => .expectedListEnd
  | object => .expectedObjectEnd

def skipKey (frame : Frame) (cs : List Char) : Except Fault (List Char) :=
  match frame with
  | list => .ok cs
  | object =>
    match skipSpace cs with
    | '\x22' :: rest => skipString rest >>= colon
    | [] => .error (.next .endInObject [])
    | c :: rest => .error (.next .expectedKey (c :: rest))

theorem length_skipKey {frame : Frame} {cs rest : List Char}
    (h : frame.skipKey cs = .ok rest) : rest.length ≤ cs.length := by
  have hs := length_skipSpace cs
  unfold skipKey at h
  split at h
  · cases h; exact Nat.le_refl _
  · split at h
    · next hq =>
      obtain ⟨_, hk, h⟩ := ok_of_bind h
      have h₁ := length_skipString hk
      have h₂ := length_colon h
      rw [hq, List.length_cons] at hs
      omega
    · cases h
    · cases h

end Frame

/-- Passes over the ends of frames, up to the next value. Gives the frames that are still open,
none if everything is closed. `after` tells whether a value has just been passed. -/
def skipEnds (after : Bool) : List Frame → List Char → Except Fault (List Frame × List Char)
  | [], cs => .ok ([], cs)
  | frame :: outer, cs =>
    match skipSpace cs with
    | [] => .error (.next frame.unfinished [])
    | c :: rest =>
      if after && c == ',' then do .ok (frame :: outer, ← frame.skipKey rest)
      else if c = frame.close then skipEnds true outer rest
      else if after then .error (.next frame.unseparated (c :: rest))
      else do .ok (frame :: outer, ← frame.skipKey (c :: rest))

theorem length_skipEnds {after : Bool} {frames frames' : List Frame} {cs rest : List Char}
    (h : skipEnds after frames cs = .ok (frames', rest)) : rest.length ≤ cs.length := by
  induction frames generalizing after cs with
  | nil => cases h; exact Nat.le_refl _
  | cons frame outer ih =>
    have hs := length_skipSpace cs
    unfold skipEnds at h
    split at h
    · cases h
    · next hc =>
      rw [hc, List.length_cons] at hs
      split at h
      · obtain ⟨_, hk, h⟩ := ok_of_bind h
        have := Frame.length_skipKey hk
        cases h
        omega
      split at h
      · have := ih h
        omega
      split at h
      · cases h
      · obtain ⟨_, hk, h⟩ := ok_of_bind h
        have := Frame.length_skipKey hk
        cases h
        simp only [List.length_cons] at this
        omega

def skipHead (frames : List Frame) (cs : List Char) :
    Except Fault (List Frame × List Char) :=
  match cs with
  | [] => .error (.next .endInValue [])
  | 'n' :: rest => word ['u', 'l', 'l'] rest >>= skipEnds true frames
  | 't' :: rest => word ['r', 'u', 'e'] rest >>= skipEnds true frames
  | 'f' :: rest => word ['a', 'l', 's', 'e'] rest >>= skipEnds true frames
  | '-' :: rest => skipNumber rest >>= skipEnds true frames
  | '\x22' :: rest => skipString rest >>= skipEnds true frames
  | '[' :: rest => skipEnds false (.list :: frames) rest
  | '\x7b' :: rest => skipEnds false (.object :: frames) rest
  | c :: rest =>
    if isDigit c then skipNumber (c :: rest) >>= skipEnds true frames
    else .error (.next .expectedValue (c :: rest))

theorem length_skipHead {frames frames' : List Frame} {cs rest : List Char}
    (h : skipHead frames cs = .ok (frames', rest)) : rest.length < cs.length := by
  unfold skipHead at h
  split at h
  · cases h
  · obtain ⟨_, hw, h⟩ := ok_of_bind h
    exact Nat.lt_succ_of_le (Nat.le_trans (length_skipEnds h) (length_word hw))
  · obtain ⟨_, hw, h⟩ := ok_of_bind h
    exact Nat.lt_succ_of_le (Nat.le_trans (length_skipEnds h) (length_word hw))
  · obtain ⟨_, hw, h⟩ := ok_of_bind h
    exact Nat.lt_succ_of_le (Nat.le_trans (length_skipEnds h) (length_word hw))
  · obtain ⟨_, hn, h⟩ := ok_of_bind h
    exact Nat.lt_succ_of_lt (Nat.lt_of_le_of_lt (length_skipEnds h) (length_skipNumber hn))
  · obtain ⟨_, hq, h⟩ := ok_of_bind h
    exact Nat.lt_succ_of_lt (Nat.lt_of_le_of_lt (length_skipEnds h) (length_skipString hq))
  · exact Nat.lt_succ_of_le (length_skipEnds h)
  · exact Nat.lt_succ_of_le (length_skipEnds h)
  · split at h
    · obtain ⟨_, hn, h⟩ := ok_of_bind h
      exact Nat.lt_of_le_of_lt (length_skipEnds h) (length_skipNumber hn)
    · cases h

/-- Passes over a value inside the given frames, and over everything up to their ends. -/
def skipFrames (frames : List Frame) (cs : List Char) : Except Fault (List Char) :=
  match _h : skipHead frames (skipSpace cs) with
  | .error fault => .error fault
  | .ok ([], rest) => .ok rest
  | .ok (frame :: outer, rest) => skipFrames (frame :: outer) rest
termination_by cs.length
decreasing_by exact Nat.lt_of_lt_of_le (length_skipHead _h) (length_skipSpace cs)

theorem length_skipFrames {frames : List Frame} {cs rest : List Char}
    (h : skipFrames frames cs = .ok rest) : rest.length < cs.length := by
  fun_induction skipFrames frames cs with
  | case1 => cases h
  | case2 _ _ _ hh =>
    cases h
    exact Nat.lt_of_lt_of_le (length_skipHead hh) (length_skipSpace _)
  | case3 _ _ _ _ _ hh ih =>
    have h₁ := Nat.lt_of_lt_of_le (length_skipHead hh) (length_skipSpace _)
    exact Nat.lt_trans (ih h) h₁

def skip (cs : List Char) : Except Fault (List Char) :=
  skipFrames [] cs

theorem length_skip {cs rest : List Char} (h : skip cs = .ok rest) : rest.length < cs.length :=
  length_skipFrames h

def entries (value : ValueScan Json) (first : Bool) (cs : List Char) :
    Except Fault (List (String × Json) × List Char) :=
  match _hk : nextKey first cs with
  | .error fault => .error fault
  | .ok (none, rest) => .ok ([], rest)
  | .ok (some key, rest) =>
    match _hv : colon rest >>= value with
    | .error fault => .error fault
    | .ok (v, rest) => do
      let (members, rest) ← entries value false rest
      .ok ((key, v) :: members, rest)
termination_by cs.length
decreasing_by
  have h₁ : _ < cs.length := length_nextKey _hk
  obtain ⟨_, hc, hv⟩ := ok_of_bind _hv
  have h₂ := length_colon hc
  have h₃ := value.takes hv
  omega

theorem takes_entries (value : ValueScan Json) (first : Bool) :
    Takes 0 (entries value first) := by
  intro cs rest members h
  fun_induction entries value first cs generalizing rest members with
  | case1 => cases h
  | case2 _ _ _ hk => cases h; exact length_nextKey hk
  | case3 => cases h
  | case4 _ cs _ _ hk _ _ hv ih =>
    obtain ⟨⟨_, _⟩, hr, h⟩ := ok_of_bind h
    have h₁ : _ < cs.length := length_nextKey hk
    obtain ⟨_, hc, hv⟩ := ok_of_bind hv
    have h₂ := length_colon hc
    have h₃ := value.takes hv
    have h₄ := ih hr
    cases h
    omega

def scalar : Scan Json := fun cs => do
  let (what, rest) ← found cs
  match what with
  | .null => .ok (.null, rest)
  | .boolean b => .ok (.bool b, rest)
  | .number n => .ok (.number n, rest)
  | .string s => .ok (.string s, rest)
  | .sequence | .map => .error (.next .tooDeep rest)

theorem takes_scalar : Takes 1 scalar := by
  intro cs rest a h
  obtain ⟨⟨_, _⟩, hf, h⟩ := ok_of_bind h
  have hl := length_found hf
  dsimp only at h
  split at h <;> cases h <;> simp at hl <;> exact hl

def Reader.any : Reader Json
  | 0 => ⟨afterSpace scalar, takes_afterSpace takes_scalar⟩
  | room + 1 => {
    scan := afterSpace fun cs =>
      match cs with
      | '[' :: rest => do
        let (vs, rest) ← inList (items (Reader.any room) true) rest
        .ok (.array vs, rest)
      | '\x7b' :: rest => do
        let (vs, rest) ← inObject (entries (Reader.any room) true) rest
        .ok (.object vs, rest)
      | _ => scalar cs
    takes := takes_afterSpace (by
      intro cs rest a h
      dsimp only at h
      split at h
      · obtain ⟨⟨_, _⟩, hi, h⟩ := ok_of_bind h
        cases h
        exact Nat.le_succ_of_le (takes_inList (takes_items _ true) hi)
      · obtain ⟨⟨_, _⟩, ho, h⟩ := ok_of_bind h
        cases h
        exact Nat.le_succ_of_le (takes_inObject (takes_entries _ true) ho)
      · exact takes_scalar h) }

end Manuscript.Json
