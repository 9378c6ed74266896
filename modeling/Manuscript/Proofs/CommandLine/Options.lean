import Manuscript.CommandLine.Command
import Mathlib.Data.List.Basic
import Mathlib.Data.String.Basic

/-!
# Options that words do not give

A form is read word by word, and an option changes nothing but what is known of its own name.  So an
option that has been given before the words of a command, and is not given by them, goes through
their reading untouched: the same operands and the same other options are read, or the reading stops
in the same way.
-/

namespace Manuscript.CommandLine

/-- A word that gives the option of a name, with its value or without. -/
def GivesOption (name word : String) : Prop :=
  word = "--" ++ name ∨ ∃ value, word = "--" ++ name ++ "=" ++ value

/-- None of the words gives the option, up to two dashes alone, which end the options. -/
def LacksOption (name : String) (words : List String) : Prop :=
  ∀ word ∈ words.takeWhile (· ≠ "--"), ¬ GivesOption name word

theorem givesOption_of_named {word name : String} {value : Option String}
    (h : Word.ofString word = .named name value) : GivesOption name word := by
  unfold Word.ofString at h
  split at h
  · cases h
  · next cs _ hword =>
    have hcut : cs.takeWhile (· != '=') ++ cs.dropWhile (· != '=') = cs :=
      List.takeWhile_append_dropWhile
    simp only at h
    split at h
    · next d rest hdrop =>
      simp only [Word.named.injEq] at h
      have hmark : d = '=' := by
        have hhead := List.head?_dropWhile_not (· != '=') cs
        rw [hdrop] at hhead
        simpa using hhead
      right
      refine ⟨String.ofList rest, ?_⟩
      rw [← String.toList_inj, hword, ← hcut, hdrop, ← h.1, hmark]
      simp
    · next hdrop =>
      simp only [Word.named.injEq] at h
      left
      rw [← String.toList_inj, hword, ← hcut, hdrop, ← h.1]
      simp
  · split at h <;> cases h
  · cases h

theorem ne_dashes_of_isValue {word : String} (h : isValue word = true) : word ≠ "--" := by
  rintro rfl
  exact absurd h (by decide)

namespace LacksOption

variable {name word : String} {words : List String}

theorem head (h : LacksOption name (word :: words)) (hword : word ≠ "--") :
    ¬ GivesOption name word :=
  h word (by simp [hword])

theorem tail (h : LacksOption name (word :: words)) (hword : word ≠ "--") :
    LacksOption name words := by
  intro other hother
  apply h
  rw [List.takeWhile_cons_of_pos (by simpa using hword)]
  exact List.mem_cons_of_mem word hother

end LacksOption

namespace Given

def withOption (given : Given) (name value : String) : Given :=
  { given with options := (name, value) :: given.options }

variable {given after : Given} {name value : String}

theorem value?_withOption : (given.withOption name value).value? name = some value := by
  simp [withOption, value?]

theorem value?_withOption_of_ne {other : String} (h : other ≠ name) :
    (given.withOption name value).value? other = given.value? other := by
  simp [withOption, value?, List.lookup_cons, beq_false_of_ne h]

theorem has_withOption_of_ne {other : String} (h : other ≠ name) :
    (given.withOption name value).has other = given.has other := by
  rw [has, has, value?_withOption_of_ne h]

theorem addOption_withOption {opt : Opt} (h : opt.name ≠ name) (chosen : String) :
    (given.withOption name value).addOption opt chosen =
      (given.addOption opt chosen).map (·.withOption name value) := by
  unfold addOption
  rw [has_withOption_of_ne h]
  split
  · rfl
  · split <;> rfl

theorem value?_of_addOption {opt : Opt} {chosen : String} (h : opt.name ≠ name)
    (hadded : given.addOption opt chosen = .ok after) : after.value? name = given.value? name := by
  unfold addOption at hadded
  split at hadded
  · cases hadded
  · split at hadded
    · cases hadded
    · cases hadded
      simp [value?, List.lookup_append, List.lookup_cons, beq_false_of_ne h.symm]

theorem addOperand_withOption (form : Form) (operand : String) :
    (given.withOption name value).addOperand form operand =
      (given.addOperand form operand).map (·.withOption name value) := by
  have heither (refused : Bool) :
      (if refused then Except.error Stop.misuse
        else Except.ok { given.withOption name value with
          operands := given.operands ++ [operand] }) =
      Except.map (·.withOption name value) (if refused then Except.error Stop.misuse
        else Except.ok { given with operands := given.operands ++ [operand] }) := by
    cases refused <;> rfl
  exact heither _

theorem value?_of_addOperand {form : Form} {operand : String}
    (hadded : given.addOperand form operand = .ok after) :
    after.value? name = given.value? name := by
  simp only [addOperand] at hadded
  split_ifs at hadded
  cases hadded
  rfl

theorem foldlM_withOption (form : Form) (words : List String) :
    words.foldlM (addOperand form) (given.withOption name value) =
      (words.foldlM (addOperand form) given).map (·.withOption name value) := by
  induction words generalizing given with
  | nil => rfl
  | cons word words ih =>
      rw [List.foldlM_cons, List.foldlM_cons, addOperand_withOption]
      cases given.addOperand form word with
      | error stop => rfl
      | ok next => exact ih

theorem value?_of_foldlM {form : Form} {words : List String}
    (hadded : words.foldlM (addOperand form) given = .ok after) :
    after.value? name = given.value? name := by
  induction words generalizing given with
  | nil =>
      cases hadded
      rfl
  | cons word words ih =>
      rw [List.foldlM_cons] at hadded
      cases hnext : given.addOperand form word with
      | error stop => simp [hnext, bind, Except.bind] at hadded
      | ok next =>
          rw [hnext] at hadded
          rw [ih hadded, value?_of_addOperand hnext]

end Given

namespace Form

def readOption (form : Form) (word : Word) (words : List String) :
    Except Stop (Opt × String × List String) := do
  let (opt, value) ← form.find word
  match value, words with
  | some value, words => .ok (opt, value, words)
  | none, [] => if opt.takesValue then .error .misuse else .ok (opt, "", [])
  | none, next :: words =>
    if !opt.takesValue then .ok (opt, "", next :: words)
    else if isValue next then .ok (opt, next, words)
    else .error .misuse

theorem read_cons (form : Form) (given : Given) (word : String) (words : List String) :
    form.read given (word :: words) =
      (match Word.ofString word with
      | .endOfOptions => do .ok (← words.foldlM (Given.addOperand form) given, none)
      | .operand operand =>
        if form.commands.contains operand then .ok (given, some (operand, words))
        else do form.read (← given.addOperand form operand) words
      | other => do
        let (opt, value, rest) ← form.readOption other words
        form.read (← given.addOption opt value) rest) := by
  rw [read]
  cases Word.ofString word with
  | endOfOptions | operand => rfl
  | named name value | lettered letter value =>
      simp only [readOption, bind_assoc]
      congr 1
      funext found
      obtain ⟨opt, value⟩ := found
      cases value with
      | some value => rfl
      | none =>
          cases words with
          | nil =>
              simp only
              split <;> rfl
          | cons next words =>
              simp only
              split
              · rfl
              · split <;> rfl

def IsSpelledOut (form : Form) (name : String) : Prop :=
  ∀ opt ∈ form.options, opt.letter.isSome = true → opt.name ≠ name

variable {form : Form} {name word : String} {words : List String}

theorem find_eq_ok {option : Word} {opt : Opt} {value : Option String}
    (h : form.find option = .ok (opt, value)) :
    (∃ given, option = .named given value ∧ opt.name = given) ∨
      ∃ letter, option = .lettered letter value ∧ opt ∈ form.options ∧
        opt.letter = some letter := by
  unfold find at h
  split at h
  · cases h
  · split at h <;> cases h
  · cases h
  · split at h <;> cases h
  · next given chosen _ _ =>
    simp only at h
    split at h
    · next found hfound =>
      have hname := List.find?_some hfound
      split at h
      · cases h
      · cases h
        exact .inl ⟨given, rfl, beq_iff_eq.mp hname⟩
    · cases h
  · next letter chosen _ _ =>
    simp only at h
    split at h
    · next found hfound =>
      have hletter := List.find?_some hfound
      split at h
      · cases h
      · cases h
        exact .inr ⟨letter, rfl, List.mem_of_find?_eq_some hfound, beq_iff_eq.mp hletter⟩
    · cases h
  · cases h
  · cases h

theorem name_ne_of_find (hform : form.IsSpelledOut name) (hword : ¬ GivesOption name word)
    {opt : Opt} {value : Option String}
    (h : form.find (Word.ofString word) = .ok (opt, value)) : opt.name ≠ name := by
  rcases find_eq_ok h with ⟨given, hnamed, rfl⟩ | ⟨letter, -, hmem, hletter⟩
  · rintro rfl
    exact hword (givesOption_of_named hnamed)
  · exact hform opt hmem (by rw [hletter, Option.isSome_some])

theorem rest_of_readOption {option : Word} {opt : Opt} {value : String} {rest : List String}
    (h : form.readOption option words = .ok (opt, value, rest)) :
    (∃ given, form.find option = .ok (opt, given)) ∧
      (rest = words ∨ ∃ next, words = next :: rest ∧ isValue next = true) := by
  unfold readOption at h
  cases hfind : form.find option with
  | error stop => simp [hfind, bind, Except.bind] at h
  | ok found =>
      obtain ⟨first, given⟩ := found
      simp only [hfind, bind, Except.bind] at h
      split at h
      · cases h
        exact ⟨⟨_, rfl⟩, .inl rfl⟩
      · split at h
        · cases h
        · cases h
          exact ⟨⟨_, rfl⟩, .inl rfl⟩
      · split at h
        · cases h
          exact ⟨⟨_, rfl⟩, .inl rfl⟩
        · split at h
          · next hvalue =>
            cases h
            exact ⟨⟨_, rfl⟩, .inr ⟨_, rfl, hvalue⟩⟩
          · cases h

/-! ## All words -/

theorem of_readOption (hform : form.IsSpelledOut name) (hword : word ≠ "--")
    (hwords : LacksOption name (word :: words)) {opt : Opt} {value : String} {rest : List String}
    (h : form.readOption (Word.ofString word) words = .ok (opt, value, rest)) :
    opt.name ≠ name ∧ LacksOption name rest ∧ rest.length ≤ words.length := by
  obtain ⟨⟨given, hfind⟩, hrest⟩ := rest_of_readOption h
  refine ⟨name_ne_of_find hform (hwords.head hword) hfind, ?_⟩
  rcases hrest with rfl | ⟨next, rfl, hnext⟩
  · exact ⟨hwords.tail hword, Nat.le_refl _⟩
  · exact ⟨(hwords.tail hword).tail (ne_dashes_of_isValue hnext), Nat.le_succ _⟩

/-- Two readings side by side: both stop in the same way, or both find the same, the second with an
option more that the first has not touched. -/
inductive Beside (name value : String) (before : Option String) :
    Except Stop (Given × Option (String × List String)) →
    Except Stop (Given × Option (String × List String)) → Prop
  | stopped (stop : Stop) : Beside name value before (.error stop) (.error stop)
  | found {after : Given} {following : Option (String × List String)}
      (untouched : after.value? name = before) :
      Beside name value before (.ok (after, following))
        (.ok (after.withOption name value, following))

theorem beside_option (hform : form.IsSpelledOut name) (value : String) (given : Given)
    (hword : word ≠ "--") (hwords : LacksOption name (word :: words))
    (hrest : ∀ next rest, LacksOption name rest → rest.length ≤ words.length →
      Beside name value (next.value? name) (form.read next rest)
        (form.read (next.withOption name value) rest)) :
    Beside name value (given.value? name)
      (do let (opt, chosen, rest) ← form.readOption (Word.ofString word) words
          form.read (← given.addOption opt chosen) rest)
      (do let (opt, chosen, rest) ← form.readOption (Word.ofString word) words
          form.read (← (given.withOption name value).addOption opt chosen) rest) := by
  cases hread : form.readOption (Word.ofString word) words with
  | error stop => exact .stopped stop
  | ok found =>
      obtain ⟨opt, chosen, rest⟩ := found
      obtain ⟨hname, hlacks, hlength⟩ := of_readOption hform hword hwords hread
      simp only [bind, Except.bind, Given.addOption_withOption hname]
      cases hadded : given.addOption opt chosen with
      | error stop => exact .stopped stop
      | ok next =>
          rw [← Given.value?_of_addOption hname hadded]
          exact hrest next rest hlacks hlength

/-- An option that the words do not give stays beside what is read. -/
theorem read_beside (hform : form.IsSpelledOut name) (value : String) (given : Given)
    (words : List String) (hwords : LacksOption name words) :
    Beside name value (given.value? name) (form.read given words)
      (form.read (given.withOption name value) words) := by
  -- An option may take the word behind it as its value, so the induction is on the number of words.
  induction hcount : words.length using Nat.strong_induction_on generalizing given words with
  | _ count ih =>
  cases words with
  | nil =>
      rw [read, read]
      exact .found rfl
  | cons word words =>
      rw [List.length_cons] at hcount
      have hrest (next : Given) (rest : List String) (hlacks : LacksOption name rest)
          (hlength : rest.length ≤ words.length) :
          Beside name value (next.value? name) (form.read next rest)
            (form.read (next.withOption name value) rest) :=
        ih rest.length (by omega) next rest hlacks rfl
      have hdashes (h : Word.ofString word ≠ .endOfOptions) : word ≠ "--" := by
        rintro rfl
        exact h rfl
      have hoption (h : Word.ofString word ≠ .endOfOptions) :=
        beside_option hform value given (hdashes h) hwords hrest
      rw [read_cons, read_cons]
      cases hword : Word.ofString word with
      | endOfOptions =>
          simp only [bind, Except.bind, Given.foldlM_withOption]
          cases hadded : words.foldlM (Given.addOperand form) given with
          | error stop => exact .stopped stop
          | ok after => exact .found (Given.value?_of_foldlM hadded)
      | operand operand =>
          have htail := hwords.tail (hdashes (by simp [hword]))
          simp only [bind, Except.bind, Given.addOperand_withOption]
          split
          · exact .found rfl
          · cases hadded : given.addOperand form operand with
            | error stop => exact .stopped stop
            | ok next =>
                rw [← Given.value?_of_addOperand hadded]
                exact hrest next words htail (Nat.le_refl _)
      | named | lettered =>
          rw [hword] at hoption
          exact hoption (by simp)

end Form

end Manuscript.CommandLine
