import Manuscript.Foreign
import Manuscript.Proofs.Delivery.FileName
import Manuscript.Proofs.FileTree
import Manuscript.Proofs.Json.Printing
import Manuscript.Proofs.Synthesis
import Manuscript.Proofs.Text.Decimal

/-!
# What foreign callers are told

A caller reads memory up to the first NUL.  A request that succeeds gives the text that the library
found, all of it, and one that fails gives a message.  Texts with a NUL are the ones that cannot be
given back, so a document as JSON and the text of a package always can.
-/

namespace Manuscript.Foreign

open Archive (Codec)
open Text (showNat)
open Utf8 (bytes encodeChar)
open Wordprocessing (documentXml)
open Xml (legal)

def NulFree (text : String) : Prop :=
  '\x00' ∉ text.toList

instance (text : String) : Decidable (NulFree text) :=
  inferInstanceAs (Decidable (¬ _))

section

variable {text : String}

theorem NulFree.append {other : String} (h : NulFree text) (h' : NulFree other) :
    NulFree (text ++ other) := by
  simp only [NulFree, String.toList_append, List.mem_append, not_or] at *
  exact ⟨h, h'⟩

theorem nulFree_clean (text : String) : NulFree (clean text) := by
  simp only [NulFree, clean, String.toList_ofList, List.mem_map, not_exists, not_and]
  intro c _ hc
  split at hc
  · cases hc
  · contradiction

theorem nulFree_showNat (n : Nat) : NulFree (showNat n) := by
  rw [NulFree, showNat, String.toList_ofList]
  intro hmem
  exact absurd (Text.isSome_of_mem_decimal hmem) (by decide)

theorem beforeNul_stored (h : NulFree text) : beforeNul (stored text) = bytes text := by
  have hall : ∀ b ∈ bytes text, (b != 0) = true := by
    intro b hb
    rw [bne_iff_ne]
    rintro rfl
    exact h ((Utf8.zero_mem_encode_iff _).mp hb)
  rw [beforeNul, stored, List.takeWhile_append_of_pos hall]
  simp

theorem size_takeWhile_nul (cs : List Char) :
    Utf8.size (cs.takeWhile (· != '\x00')) = (Utf8.encode cs).idxOf 0 := by
  induction cs with
  | nil => rfl
  | cons c cs ih =>
      rw [Utf8.encode_cons]
      by_cases hc : c = '\x00'
      · subst hc
        rfl
      · have hzero : 0 ∉ encodeChar c := fun h => hc ((Utf8.zero_mem_encodeChar_iff c).mp h)
        have hsize : Utf8.size (c :: cs.takeWhile (· != '\x00')) =
            Utf8.width c + Utf8.size (cs.takeWhile (· != '\x00')) := rfl
        rw [List.takeWhile_cons_of_pos (by simpa using hc), hsize,
          List.idxOf_append_of_notMem hzero, ih, Utf8.width_eq,
          ← Utf8.length_encodeChar, Nat.add_comm]

end

section

variable {text : String}

theorem answerText_of_nulFree (h : NulFree text) : answerText text = .ok text := by
  have hall : text.toList.takeWhile (· != '\x00') = text.toList := by
    rw [List.takeWhile_eq_self_iff]
    intro c hc
    rw [bne_iff_ne]
    rintro rfl
    exact h hc
  simp [answerText, hall]

def nulMessage (text : String) : String :=
  "result contains a NUL byte at offset " ++ showNat ((bytes text).idxOf 0)

theorem answerText_of_not_nulFree (h : ¬ NulFree text) :
    answerText text = .error (nulMessage text) := by
  have hshort : (text.toList.takeWhile (· != '\x00')).length < text.toList.length := by
    by_contra hlong
    have hall := (List.takeWhile_prefix (· != '\x00')).eq_of_length_le (Nat.le_of_not_lt hlong)
    exact h fun hmem => absurd (List.takeWhile_eq_self_iff.mp hall _ hmem) (by decide)
  simp only [answerText]
  rw [if_pos hshort, size_takeWhile_nul]
  rfl

theorem nulFree_nulMessage (text : String) : NulFree (nulMessage text) :=
  NulFree.append (by decide) (nulFree_showNat _)

end

/-- What an argument says, up to the first NUL, is a text. -/
def Says (argument : Argument) (text : String) : Prop :=
  argument.map beforeNul = some (bytes text)

def IsGarbled (argument : Argument) : Prop :=
  ∃ memory, argument = some memory ∧ ∀ text, beforeNul memory ≠ bytes text

section

variable {title : String} {argument : Argument} {text other : String}

theorem Says.unique (h : Says argument text) (h' : Says argument other) : text = other :=
  Utf8.bytes_injective (Option.some.inj (h.symm.trans h'))

theorem Says.ne_none (h : Says argument text) : argument ≠ none := by
  rintro rfl
  cases h

theorem Says.not_isGarbled (h : Says argument text) : ¬ IsGarbled argument := by
  rintro ⟨memory, rfl, hgarbled⟩
  exact hgarbled text (Option.some.inj h)

theorem says_stored (h : NulFree text) : Says (some (stored text)) text :=
  congrArg some (beforeNul_stored h)

inductive IsTitle : String → Prop
  | text : IsTitle "Text"
  | path : IsTitle "Path"
  | fileName : IsTitle "File name"

theorem IsTitle.nulFree (h : IsTitle title) :
    NulFree (title ++ " cannot be null") ∧ NulFree ("Invalid UTF-8 " ++ Text.lowercase title) := by
  cases h <;> decide +kernel

theorem required_of_says (h : Says argument text) (title : String) :
    required title argument = .ok text := by
  cases argument with
  | none => cases h
  | some memory => rw [required, Option.some.inj h, Utf8.decode_bytes]

theorem required_cases (h : IsTitle title) (argument : Argument) :
    (∃ text, Says argument text ∧ required title argument = .ok text) ∨
      (argument = none ∨ IsGarbled argument) ∧
        ∃ message, NulFree message ∧ required title argument = .error message := by
  cases argument with
  | none => exact .inr ⟨.inl rfl, _, h.nulFree.1, rfl⟩
  | some memory =>
      rw [required]
      cases hdecode : Utf8.decode (beforeNul memory) with
      | ok text => exact .inl ⟨text, congrArg some (Utf8.decode_eq_ok_iff.mp hdecode), rfl⟩
      | error fault =>
          refine .inr ⟨.inr ⟨memory, rfl, fun text htext => ?_⟩, _, h.nulFree.2, rfl⟩
          rw [Utf8.decode_eq_ok_iff.mpr htext] at hdecode
          cases hdecode

end

theorem convertToFileResult_fst [Codec] (tree : FileTree) (text path : Argument) :
    (convertToFileResult tree text path).1 =
      (convertToFile tree text path).toOption.getD tree :=
  rfl

theorem convertToFileResult_snd [Codec] (tree : FileTree) (text path : Argument) :
    (convertToFileResult tree text path).2 =
      .ofAnswer ((fun _ => none) <$> convertToFile tree text path) :=
  rfl

def handed : Except Error (Option String) → TextResult
  | .error error => ⟨false, none, some (stored (clean error.message))⟩
  | .ok none => ⟨true, none, none⟩
  | .ok (some text) =>
    if NulFree text then ⟨true, some (stored text), none⟩
    else ⟨false, none, some (stored (nulMessage text))⟩

theorem ofAnswer_answerText (text : String) :
    TextResult.ofAnswer (some <$> answerText text) = handed (.ok (some text)) := by
  by_cases h : NulFree text
  · rw [answerText_of_nulFree h, handed, if_pos h]
    rfl
  · rw [answerText_of_not_nulFree h, handed, if_neg h]
    rfl

theorem ofAnswer_answerFound (found : Except Error String) :
    TextResult.ofAnswer (some <$> answerFound found) = handed (some <$> found) := by
  cases found with
  | error error => rfl
  | ok text => exact ofAnswer_answerText text

theorem ofAnswer_saved (saved : Except Error FileTree) :
    TextResult.ofAnswer ((fun _ => none) <$> answer saved) =
      handed ((fun _ => none) <$> saved) := by
  cases saved <;> rfl

section

variable {outcome : Except Error (Option String)}

theorem handed_success (h : (handed outcome).success = true) :
    (handed outcome).error = none ∧
      ∃ given, outcome = .ok given ∧ (handed outcome).data.map beforeNul = given.map bytes := by
  rcases outcome with error | _ | text
  · cases h
  · exact ⟨rfl, none, rfl, rfl⟩
  · by_cases hfree : NulFree text
    · rw [handed, if_pos hfree]
      exact ⟨rfl, some text, rfl, congrArg some (beforeNul_stored hfree)⟩
    · rw [handed, if_neg hfree] at h
      cases h

theorem handed_failure (h : (handed outcome).success = false) :
    (handed outcome).data = none ∧
      ∃ message, (handed outcome).error = some (stored message) ∧ NulFree message := by
  rcases outcome with error | _ | text
  · exact ⟨rfl, clean error.message, rfl, nulFree_clean _⟩
  · cases h
  · by_cases hfree : NulFree text
    · rw [handed, if_pos hfree] at h
      cases h
    · rw [handed, if_neg hfree]
      exact ⟨rfl, nulMessage text, rfl, nulFree_nulMessage text⟩

theorem handed_fails_iff :
    (handed outcome).success = false ↔
      (∃ error, outcome = .error error) ∨ ∃ text, outcome = .ok (some text) ∧ ¬ NulFree text := by
  rcases outcome with error | _ | text
  · simp [handed]
  · simp [handed]
  · by_cases hfree : NulFree text <;> simp [handed, hfree]

end

/-! ## Requests -/

inductive Request where
  | convertToFile (text path : Argument)
  | payload (text name : Argument)
  | json (text : Argument) (pretty : Bool)
  | extractText (path : Argument)

namespace Request

def result [Codec] (tree : FileTree) : Request → TextResult
  | convertToFile text path => (convertToFileResult tree text path).2
  | payload text name => payloadResult text name
  | json text pretty => jsonResult text pretty
  | extractText path => extractTextResult tree path

def arguments : Request → List Argument
  | convertToFile text path => [text, path]
  | payload text name => [text, name]
  | json text _ => [text]
  | extractText path => [path]

def required : Request → List Argument
  | convertToFile text path => [text, path]
  | payload text _ | json text _ => [text]
  | extractText path => [path]

def IsRefused (request : Request) : Prop :=
  none ∈ request.required ∨ ∃ argument ∈ request.arguments, IsGarbled argument

theorem isRefused_of_required {request : Request} {argument : Argument}
    (h : argument ∈ request.required) (why : argument = none ∨ IsGarbled argument) :
    request.IsRefused := by
  have hgiven : argument ∈ request.arguments := by
    cases request <;> simp_all [required, arguments]
  rcases why with rfl | hgarbled
  · exact .inl h
  · exact .inr ⟨argument, hgiven, hgarbled⟩

variable [Codec]

/-- What the library makes of a request that can be read: a text, if one is wanted, or an error. -/
inductive Yields (tree : FileTree) : Request → Except Error (Option String) → Prop
  | convertToFile {text path : Argument} {t p : String} (ht : Says text t) (hp : Says path p) :
      Yields tree (.convertToFile text path)
        ((fun _ => none) <$> tree.saveText Synthesizer.reference p t)
  | payload {text name : Argument} {t n : String} (ht : Says text t) (hn : Says name n) :
      Yields tree (.payload text name)
        ((fun package => some ((Delivery.ofBytes package).withFileName n).payload) <$>
          Synthesizer.reference.convert t)
  | unnamed {text : Argument} {t : String} (ht : Says text t) :
      Yields tree (.payload text none)
        ((fun package => some (Delivery.ofBytes package).payload) <$>
          Synthesizer.reference.convert t)
  | json {text : Argument} {t : String} (ht : Says text t) (pretty : Bool) :
      Yields tree (.json text pretty)
        (.ok (some (Json.render (.ofCompact !pretty) (Synthesizer.reference.document t).toJson)))
  | extractText {path : Argument} {p : String} (hp : Says path p) :
      Yields tree (.extractText path) (some <$> tree.extractText p)

variable {tree : FileTree} {request : Request} {outcome other : Except Error (Option String)}

theorem Yields.not_isRefused (h : Yields tree request outcome) : ¬ request.IsRefused := by
  have hnone : ¬ IsGarbled none := by rintro ⟨memory, hmemory, -⟩; cases hmemory
  cases h with
  | convertToFile ht hp =>
      simp [IsRefused, required, arguments, ht.ne_none.symm, hp.ne_none.symm, ht.not_isGarbled,
        hp.not_isGarbled]
  | payload ht hn =>
      simp [IsRefused, required, arguments, ht.ne_none.symm, ht.not_isGarbled, hn.not_isGarbled]
  | unnamed ht | json ht =>
      simp [IsRefused, required, arguments, ht.ne_none.symm, ht.not_isGarbled, hnone]
  | extractText hp =>
      simp [IsRefused, required, arguments, hp.ne_none.symm, hp.not_isGarbled]

theorem Yields.unique (h : Yields tree request outcome) (h' : Yields tree request other) :
    outcome = other := by
  cases h with
  | convertToFile ht hp =>
      cases h' with
      | convertToFile ht' hp' => rw [ht.unique ht', hp.unique hp']
  | payload ht hn =>
      cases h' with
      | payload ht' hn' => rw [ht.unique ht', hn.unique hn']
      | unnamed => exact absurd rfl hn.ne_none
  | unnamed ht =>
      cases h' with
      | payload _ hn' => exact absurd rfl hn'.ne_none
      | unnamed ht' => rw [ht.unique ht']
  | json ht =>
      cases h' with
      | json ht' => rw [ht.unique ht']
  | extractText hp =>
      cases h' with
      | extractText hp' => rw [hp.unique hp']

/-- A request is refused for an argument, or it is handed what the library yields. -/
inductive Settled (tree : FileTree) (request : Request) : TextResult → Prop
  | refused {message : String} (why : request.IsRefused) (readable : NulFree message) :
      Settled tree request (.ofAnswer (.error message))
  | yielded {outcome : Except Error (Option String)} (yields : Yields tree request outcome) :
      Settled tree request (handed outcome)

/-- An argument is taken first, and the rest is settled with the text that it says. -/
theorem settled_required {α : Type} {title : String} (htitle : IsTitle title)
    {argument : Argument} (hneeded : argument ∈ request.required) {next : String → Answer α}
    {f : α → Option String}
    (hnext : ∀ text, Says argument text → Settled tree request (.ofAnswer (f <$> next text))) :
    Settled tree request (.ofAnswer (f <$> (Foreign.required title argument >>= next))) := by
  rcases required_cases htitle argument with
    ⟨text, hsays, htaken⟩ | ⟨why, message, hreadable, hrefused⟩
  · rw [htaken, ok_bind]
    exact hnext text hsays
  · rw [hrefused, error_bind, map_error]
    exact .refused (isRefused_of_required hneeded why) hreadable

theorem settled_convertToFile (tree : FileTree) (text path : Argument) :
    Settled tree (.convertToFile text path) (convertToFileResult tree text path).2 := by
  rw [convertToFileResult_snd, Foreign.convertToFile]
  apply settled_required .text (by simp [required])
  intro t ht
  apply settled_required .path (by simp [required])
  intro p hp
  rw [ofAnswer_saved]
  exact .yielded (.convertToFile ht hp)

theorem payloadOf_none (text : String) :
    some <$> payloadOf text none =
      (fun package => some (Delivery.ofBytes package).payload) <$>
        Synthesizer.reference.convert text := by
  rw [payloadOf]
  cases Synthesizer.reference.convert text <;> rfl

theorem payloadOf_some (text name : String) :
    some <$> payloadOf text (some name) =
      (fun package => some ((Delivery.ofBytes package).withFileName name).payload) <$>
        Synthesizer.reference.convert text := by
  rw [payloadOf]
  cases Synthesizer.reference.convert text <;> rfl

theorem settled_payload (tree : FileTree) (text name : Argument) :
    Settled tree (.payload text name) (payloadResult text name) := by
  rw [payloadResult, Foreign.payload]
  apply settled_required .text (by simp [required])
  intro t ht
  cases name with
  | none =>
      rw [optional, ok_bind, ofAnswer_answerFound, payloadOf_none]
      exact .yielded (.unnamed ht)
  | some memory =>
      -- A name may be missing, so it is not among the arguments that are needed.
      rw [optional]
      rcases required_cases .fileName (some memory) with
        ⟨n, hn, htaken⟩ | ⟨why, message, hreadable, hrefused⟩
      · rw [htaken, ok_bind, ok_bind, ofAnswer_answerFound, payloadOf_some]
        exact .yielded (.payload ht hn)
      · rw [hrefused, error_bind, error_bind, map_error]
        have hgarbled := why.resolve_left (Option.some_ne_none memory)
        exact .refused (.inr ⟨some memory, by simp [arguments], hgarbled⟩) hreadable

theorem settled_json (tree : FileTree) (text : Argument) (pretty : Bool) :
    Settled tree (.json text pretty) (jsonResult text pretty) := by
  rw [jsonResult, Foreign.json]
  apply settled_required .text (by simp [required])
  intro t ht
  rw [ofAnswer_answerText]
  exact .yielded (.json ht pretty)

theorem settled_extractText (tree : FileTree) (path : Argument) :
    Settled tree (.extractText path) (extractTextResult tree path) := by
  rw [extractTextResult, Foreign.extractText]
  apply settled_required .path (by simp [required])
  intro p hp
  rw [ofAnswer_answerFound]
  exact .yielded (.extractText hp)

theorem settled_result (tree : FileTree) : ∀ request : Request,
    Settled tree request (request.result tree)
  | .convertToFile text path => settled_convertToFile tree text path
  | .payload text name => settled_payload tree text name
  | .json text pretty => settled_json tree text pretty
  | .extractText path => settled_extractText tree path

theorem result_of_yields (h : request.Yields tree outcome) :
    request.result tree = handed outcome := by
  have hsettled := settled_result tree request
  generalize request.result tree = result at hsettled ⊢
  cases hsettled with
  | refused why => exact absurd why h.not_isRefused
  | yielded yields => rw [h.unique yields]

section

variable {result : TextResult}

theorem Settled.success (h : Settled tree request result) (hsuccess : result.success = true) :
    result.error = none ∧
      ∃ given, request.Yields tree (.ok given) ∧ result.data.map beforeNul = given.map bytes := by
  cases h with
  | refused => cases hsuccess
  | yielded yields =>
      obtain ⟨herror, given, rfl, hdata⟩ := handed_success hsuccess
      exact ⟨herror, given, yields, hdata⟩

theorem Settled.failure (h : Settled tree request result) (hfailure : result.success = false) :
    result.data = none ∧ ∃ message, result.error = some (stored message) ∧ NulFree message := by
  cases h with
  | @refused message why readable => exact ⟨rfl, message, rfl, readable⟩
  | yielded yields => exact handed_failure hfailure

theorem Settled.fails_iff (h : Settled tree request result) :
    result.success = false ↔
      request.IsRefused ∨ (∃ error, request.Yields tree (.error error)) ∨
        ∃ text, request.Yields tree (.ok (some text)) ∧ ¬ NulFree text := by
  cases h with
  | refused why => exact iff_of_true rfl (.inl why)
  | yielded yields =>
      rw [handed_fails_iff]
      constructor
      · rintro (⟨error, rfl⟩ | ⟨text, rfl, hnul⟩)
        · exact .inr (.inl ⟨error, yields⟩)
        · exact .inr (.inr ⟨text, yields, hnul⟩)
      · rintro (why | ⟨error, yields'⟩ | ⟨text, yields', hnul⟩)
        · exact absurd why yields.not_isRefused
        · exact .inl ⟨error, yields.unique yields'⟩
        · exact .inr ⟨text, yields.unique yields', hnul⟩

end

/-- What a caller can rely on who reads the result of a request. -/
structure Tells (tree : FileTree) (request : Request) : Prop where
  success : (request.result tree).success = true → (request.result tree).error = none ∧
    ∃ given, request.Yields tree (.ok given) ∧
      (request.result tree).data.map beforeNul = given.map bytes
  failure : (request.result tree).success = false → (request.result tree).data = none ∧
    ∃ message, (request.result tree).error = some (stored message) ∧ NulFree message
  fails_iff : (request.result tree).success = false ↔
    request.IsRefused ∨ (∃ error, request.Yields tree (.error error)) ∨
      ∃ text, request.Yields tree (.ok (some text)) ∧ ¬ NulFree text
  offset : ∀ text, request.Yields tree (.ok (some text)) → ¬ NulFree text →
    (request.result tree).error = some (stored
      ("result contains a NUL byte at offset " ++ showNat ((bytes text).idxOf 0)))

theorem tells (tree : FileTree) (request : Request) : request.Tells tree where
  success := (settled_result tree request).success
  failure := (settled_result tree request).failure
  fails_iff := (settled_result tree request).fails_iff
  offset := by
    intro text yields hnul
    have hresult := result_of_yields yields
    rw [handed, if_neg hnul] at hresult
    exact congrArg TextResult.error hresult

end Request

/-! ## Documents and packages -/

theorem nulFree_render (layout : Json.Layout) (value : Json) :
    NulFree (Json.render layout value) := by
  rw [NulFree, Json.render, String.toList_ofList]
  intro hmem
  exact absurd (Json.isPlain_print layout 0 value _ hmem (by decide)).2 (by decide)

theorem nulFree_legal (text : String) : NulFree (legal text) := by
  rw [NulFree, Xml.toList_legal, List.mem_filter]
  exact fun h => absurd h.2 (by decide)

def whole (text : String) : TextResult :=
  ⟨true, some (stored text), none⟩

theorem Request.result_eq_whole [Codec] {tree : FileTree} {request : Request} {text : String}
    (h : request.Yields tree (.ok (some text))) (hfree : NulFree text) :
    request.result tree = whole text := by
  rw [result_of_yields h, handed, if_pos hfree, whole]

section

variable [Codec] {tree : FileTree} {text path : Argument} {t p : String}

theorem jsonResult_of_says (h : Says text t) (pretty : Bool) :
    jsonResult text pretty =
      whole (Json.render (.ofCompact !pretty) (Synthesizer.reference.document t).toJson) := by
  have hyields : Request.Yields .empty (.json text pretty) _ := .json h pretty
  exact Request.result_eq_whole hyields (nulFree_render _ _)

theorem saveText_eq_ok_iff {made : Synthesizer} {after : FileTree} :
    tree.saveText made p t = .ok after ↔
      ∃ package, made.convert t = .ok package ∧ tree.write p package = .ok after := by
  rw [FileTree.saveText]
  cases hconvert : made.convert t with
  | error error => simp [error_bind]
  | ok package =>
      rw [ok_bind, FileTree.save]
      cases hwrite : tree.write p package <;> simp [hwrite]

theorem convertToFile_of_says (ht : Says text t) (hp : Says path p) :
    convertToFile tree text path = answer (tree.saveText Synthesizer.reference p t) := by
  rw [convertToFile, required_of_says ht, ok_bind, required_of_says hp, ok_bind]

theorem data_convertToFileResult : (convertToFileResult tree text path).2.data = none := by
  rw [convertToFileResult_snd]
  cases convertToFile tree text path <;> rfl

theorem tree_of_failure (h : (convertToFileResult tree text path).2.success = false) :
    (convertToFileResult tree text path).1 = tree := by
  rw [convertToFileResult_snd] at h
  rw [convertToFileResult_fst]
  cases hsaved : convertToFile tree text path with
  | error message => rfl
  | ok after =>
      rw [hsaved] at h
      cases h

theorem tree_of_success (ht : Says text t) (hp : Says path p)
    (h : (convertToFileResult tree text path).2.success = true) :
    tree.saveText Synthesizer.reference p t = .ok (convertToFileResult tree text path).1 := by
  rw [convertToFileResult_snd, convertToFile_of_says ht hp, ofAnswer_saved] at h
  rw [convertToFileResult_fst, convertToFile_of_says ht hp]
  cases hsaved : tree.saveText Synthesizer.reference p t with
  | error error =>
      rw [hsaved] at h
      cases h
  | ok after => rw [answer, Except.toOption, Option.getD_some]

theorem extractText_package {content : Bytes} (hp : Delivery.HasPackageExtension p)
    (hread : tree.read p = .ok content) :
    tree.extractText p = Extractor.package.extract content := by
  obtain ⟨extension, hextension, hletters⟩ := hp
  have hlatin : ∀ c ∈ "docx".toList, c.toNat < 0x80 := by simp
  have hlower : Text.lowercase extension = "docx" := Text.lowercase_eq hlatin hletters
  have hsupports : Extractor.package.supports extension = true := by
    rw [Extractor.supports, hlower]
    rfl
  rw [FileTree.extractText, hread,
    Registry.extractFile_of_require _ hextension (Registry.require_package hsupports)]

theorem extractTextResult_written {after later : FileTree} {place : Argument} {q : String}
    (hsaved : tree.saveText Synthesizer.reference p t = .ok after)
    (hlimit : (bytes (documentXml Synthesizer.reference.style.fontFamily
      (Synthesizer.reference.document t))).length ≤ 67108864)
    (hq : Says place q) (hextension : Delivery.HasPackageExtension q)
    (hread : later.read q = after.read p) :
    extractTextResult later place =
      whole (legal (Synthesizer.reference.document t).plainText) := by
  obtain ⟨package, hconvert, hwrite⟩ := saveText_eq_ok_iff.mp hsaved
  rw [FileTree.read_of_write hwrite] at hread
  have hfound := (extractText_package hextension hread).trans
    (Synthesizer.extract_of_convert hconvert hlimit)
  have hyields : Request.Yields later (.extractText place) _ := .extractText hq
  rw [hfound] at hyields
  exact Request.result_eq_whole hyields (nulFree_legal _)

end

/-- A caller is told the whole of what the library found, or why there is nothing to give: an
argument is missing or no text, the library failed, or its text holds a NUL, and then the message
says where.  The document of a text is always given as JSON.  A failed conversion leaves the files
as they are, and the text of a package that has been written is given to all who read it under a
name with the extension of packages, if its document part is not too large to be read. -/
theorem results_tell [Codec] (tree : FileTree) :
    (∀ request : Request, request.Tells tree) ∧
    (∀ (text : Argument) (t : String) (pretty : Bool), Says text t →
      jsonResult text pretty =
        whole (Json.render (.ofCompact !pretty) (Synthesizer.reference.document t).toJson)) ∧
    ∀ text path : Argument,
      let written := convertToFileResult tree text path
      written.2.data = none ∧ (written.2.success = false → written.1 = tree) ∧
      (written.2.success = true → ∀ t p, Says text t → Says path p →
        tree.saveText Synthesizer.reference p t = .ok written.1 ∧
        ((bytes (documentXml Synthesizer.reference.style.fontFamily
            (Synthesizer.reference.document t))).length ≤ 67108864 →
          ∀ (later : FileTree) (place : Argument) (q : String), Says place q →
            Delivery.HasPackageExtension q → later.read q = written.1.read p →
            extractTextResult later place =
              whole (legal (Synthesizer.reference.document t).plainText))) := by
  refine ⟨Request.tells tree, fun text t pretty h => jsonResult_of_says h pretty, ?_⟩
  intro text path written
  refine ⟨data_convertToFileResult, tree_of_failure, fun hsuccess t p ht hp => ?_⟩
  have hsaved := tree_of_success ht hp hsuccess
  exact ⟨hsaved, fun hlimit later place q hq hextension hread =>
    extractTextResult_written hsaved hlimit hq hextension hread⟩

def nulTree : FileTree :=
  ⟨[(["nul.txt".toList], .file (bytes "before\x00after"))], []⟩

theorem extractText_nul : nulTree.extractText "nul.txt" = .ok "before\x00after" := by
  have hextension : Path.extension? "nul.txt" = some "txt" := by rfl
  have hread : nulTree.read "nul.txt" = .ok (bytes "before\x00after") := by rfl
  have hsupports : Extractor.plain.supports "txt" = true := by rfl
  have hhead : "before\x00after".toList.head? ≠ some Text.orderMark := by decide
  rw [FileTree.extractText, hread,
    Registry.extractFile_of_require _ hextension (Registry.require_plain hsupports),
    Extractor.extract_plain, Extractor.plainText_bytes, Text.withoutMark_of_head? hhead]

theorem says_two : Says (some (stored "two")) "two" :=
  says_stored (by decide)

theorem says_package : Says (some (stored "a.docx")) "a.docx" :=
  says_stored (by decide)

theorem convertToFile_two :
    (convertToFileResult nulTree (some (stored "two")) (some (stored "a.docx"))).2.success =
      true := by
  obtain ⟨package, hpackage⟩ := Synthesizer.exists_convert Synthesizer.reference
    (Synthesizer.length_reference_two_le.trans (by decide))
  have hwrite : nulTree.write "a.docx" package =
      .ok (nulTree.put ["a.docx".toList] (.file package)) := by rfl
  rw [convertToFileResult_snd, convertToFile_of_says says_two says_package,
    saveText_eq_ok_iff.mpr ⟨package, hpackage, hwrite⟩]
  rfl

theorem results_tell_nul :
    (extractTextResult nulTree (some (stored "nul.txt"))).error =
        some (stored "result contains a NUL byte at offset 6") ∧
      (convertToFileResult nulTree none (some (stored "a.docx"))).2.success = false ∧
      (convertToFileResult nulTree (some (stored "two")) (some (stored "a.docx"))).2.success =
        true ∧
      extractTextResult
          (convertToFileResult nulTree (some (stored "two")) (some (stored "a.docx"))).1
          (some (stored "a.docx")) = whole "two" := by
  obtain ⟨htells, -, hfiles⟩ := results_tell nulTree
  refine ⟨?_, ?_, convertToFile_two, ?_⟩
  · have hyields : Request.Yields nulTree (.extractText (some (stored "nul.txt"))) _ :=
      .extractText (says_stored (by decide))
    rw [extractText_nul] at hyields
    have herror := (htells (.extractText (some (stored "nul.txt")))).offset _ hyields (by decide)
    have hmessage : "result contains a NUL byte at offset " ++
        showNat ((bytes "before\x00after").idxOf 0) =
          "result contains a NUL byte at offset 6" := by decide +kernel
    rw [hmessage] at herror
    exact herror
  · apply (htells (.convertToFile none (some (stored "a.docx")))).fails_iff.mpr
    exact .inl (.inl List.mem_cons_self)
  · have hextension : Delivery.HasPackageExtension "a.docx" := ⟨"docx", rfl, rfl⟩
    have htext : legal (Synthesizer.reference.document "two").plainText = "two" := by
      decide +kernel
    have hfile := hfiles (some (stored "two")) (some (stored "a.docx"))
    have hsuccess := convertToFile_two
    -- What has been written must stay unknown, or it would be evaluated.
    generalize convertToFileResult nulTree (some (stored "two")) (some (stored "a.docx")) =
      written at hfile hsuccess ⊢
    obtain ⟨-, hread⟩ := hfile.2.2 hsuccess "two" "a.docx" says_two says_package
    have hlimit := Synthesizer.length_reference_two_le.trans (by decide : 5000 ≤ 67108864)
    rw [← htext]
    exact hread hlimit written.1 _ _ says_package hextension rfl

end Manuscript.Foreign
