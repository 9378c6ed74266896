import Manuscript.Archive.Packing
import Manuscript.Registry
import Mathlib.Data.List.Basic
import Mathlib.Data.String.Basic

/-!
# The latest registration is found

Whatever has been registered, an extension finds the last extractor that declares it, and a name the
last extractor of that name, both without regard to case.  The two searches do not know of each
other, so an extractor whose extensions have all been claimed by later ones is still found by its
name.
-/

namespace Manuscript

open Archive (Codec)
open Text (lowercase)

section

variable {α : Type} {p : α → Bool}

theorem findRev?_concat (p : α → Bool) (items : List α) (item : α) :
    (items ++ [item]).findRev? p = if p item then some item else items.findRev? p := by
  rw [List.findRev?_eq_find?_reverse, List.findRev?_eq_find?_reverse, List.reverse_concat,
    List.find?_cons]
  cases p item <;> rfl

theorem findRev?_split {before after : List α} {item : α} (h : p item = true)
    (hafter : ∀ later ∈ after, p later = false) :
    (before ++ item :: after).findRev? p = some item := by
  have hnone : after.reverse.find? p = none := by simpa using hafter
  rw [List.findRev?_eq_find?_reverse, List.reverse_append, List.reverse_cons, List.append_assoc,
    List.find?_append, hnone, List.singleton_append, List.find?_cons, h]
  rfl

end

def Extractor.declares (extractor : Extractor) (extension : String) : Bool :=
  extractor.extensions.any fun declared => lowercase declared == lowercase extension

def Extractor.isNamed (extractor : Extractor) (name : String) : Bool :=
  lowercase extractor.name == lowercase name

theorem Extractor.declares_iff {extractor : Extractor} {extension : String} :
    extractor.declares extension = true ↔
      ∃ declared ∈ extractor.extensions, lowercase declared = lowercase extension := by
  simp [declares]

theorem Extractor.supports_of_declares {extractor : Extractor} {extension : String}
    (h : extractor.declares extension = true)
    (hlower : ∀ declared ∈ extractor.extensions, lowercase declared = declared) :
    extractor.supports extension = true := by
  obtain ⟨declared, hdeclared, hsame⟩ := Extractor.declares_iff.mp h
  rw [hlower declared hdeclared] at hsame
  rw [supports, List.contains_iff_mem, ← hsame]
  exact hdeclared

namespace Registry

/-- A registry in which these extractors have been registered, in this order, the reference ones
among them if it has begun with them. -/
inductive Registered [Codec] : Registry → List Extractor → Prop
  | empty : Registered empty []
  | reference : Registered reference [.plain, .package]
  | register {registry : Registry} {extractors : List Extractor} (extractor : Extractor) :
      Registered registry extractors →
      Registered (registry.register extractor) (extractors ++ [extractor])

/-- Under each key, in lower case, there is the last extractor that has it. -/
structure HoldsLatest (registry : Registry) (extractors : List Extractor) : Prop where
  byExtension : ∀ key, registry.byExtension[key]? =
    extractors.findRev? fun extractor => extractor.extensions.any (lowercase · == key)
  byName : ∀ key, registry.byName[key]? =
    extractors.findRev? fun extractor => lowercase extractor.name == key

theorem getElem?_foldl_insert (extensions : List String) (extractor : Extractor)
    (map : Std.TreeMap String Extractor) (key : String) :
    (extensions.foldl (fun map extension => map.insert (lowercase extension) extractor) map)[key]? =
      if extensions.any (lowercase · == key) then some extractor else map[key]? := by
  induction extensions generalizing map with
  | nil => rfl
  | cons extension extensions ih =>
      rw [List.foldl_cons, ih, Std.TreeMap.getElem?_insert, List.any_cons]
      by_cases hlater : extensions.any (lowercase · == key)
      · simp [hlater]
      · by_cases hhere : lowercase extension = key
        · simp [hhere]
        · simp [hlater, hhere]

theorem HoldsLatest.empty : HoldsLatest empty [] :=
  ⟨fun _ => Std.TreeMap.getElem?_emptyc, fun _ => Std.TreeMap.getElem?_emptyc⟩

theorem HoldsLatest.register {registry : Registry} {extractors : List Extractor}
    (h : HoldsLatest registry extractors) (extractor : Extractor) :
    HoldsLatest (registry.register extractor) (extractors ++ [extractor]) := by
  constructor
  · intro key
    rw [findRev?_concat, ← h.byExtension]
    exact getElem?_foldl_insert extractor.extensions extractor registry.byExtension key
  · intro key
    rw [findRev?_concat, ← h.byName, Registry.register, Std.TreeMap.getElem?_insert]
    simp

theorem Registered.holdsLatest [Codec] {registry : Registry} {extractors : List Extractor}
    (h : Registered registry extractors) : HoldsLatest registry extractors := by
  induction h with
  | empty => exact .empty
  | reference => exact (HoldsLatest.empty.register .plain).register .package
  | register extractor _ ih => exact ih.register extractor

/-! ## Searches -/

theorem supports_eq (registry : Registry) (extension : String) :
    registry.supports extension = (registry.forExtension? extension).isSome :=
  Std.TreeMap.contains_eq_isSome_getElem?

theorem extract_of_forExtension? {registry : Registry} {extension : String} {extractor : Extractor}
    (h : registry.forExtension? extension = some extractor) (bs : Bytes) :
    registry.extract extension bs = extractor.extract bs := by
  rw [extract, require, h]
  rfl

theorem extract_of_none {registry : Registry} {extension : String}
    (h : registry.forExtension? extension = none) (bs : Bytes) :
    registry.extract extension bs = .error (.unsupportedFormat (lowercase extension)) := by
  rw [extract, require, h]
  rfl

theorem pairwise_extensions (registry : Registry) : registry.extensions.Pairwise (· < ·) := by
  have hordered : registry.byExtension.keys.Pairwise fun first second =>
      compare first second = .lt := Std.TreeMap.ordered_keys
  exact hordered.imp fun hlt => compare_lt_iff_lt.mp hlt

section

variable {registry : Registry} {extractors : List Extractor}

theorem HoldsLatest.forExtension? (h : HoldsLatest registry extractors) (extension : String) :
    registry.forExtension? extension = extractors.findRev? (·.declares extension) :=
  h.byExtension (lowercase extension)

theorem HoldsLatest.named? (h : HoldsLatest registry extractors) (name : String) :
    registry.named? name = extractors.findRev? (·.isNamed name) :=
  h.byName (lowercase name)

theorem HoldsLatest.mem_extensions_iff (h : HoldsLatest registry extractors) {key : String} :
    key ∈ registry.extensions ↔
      ∃ extractor ∈ extractors, ∃ declared ∈ extractor.extensions, lowercase declared = key := by
  rw [extensions, Std.TreeMap.mem_keys, Std.TreeMap.mem_iff_isSome_getElem?, h.byExtension,
    List.findRev?_eq_find?_reverse]
  simp

end

/-- However extractors have been registered, an extension finds the last of them that declares it
and a name the last of that name, without regard to case.  The extensions of the registry are those
that have been declared, in lower case and in order.  A name finds its extractor whatever has become
of the extensions, and what is found for an extension supports it if it declares lower case. -/
theorem forExtension?_of_registered [Codec] {registry : Registry} {extractors : List Extractor}
    (h : Registered registry extractors) :
    (∀ extension,
      registry.forExtension? extension = extractors.findRev? (·.declares extension) ∧
      (registry.forExtension? extension = none ↔
        ∀ extractor ∈ extractors, extractor.declares extension = false) ∧
      registry.supports extension = (registry.forExtension? extension).isSome ∧
      ∀ bs, registry.extract extension bs =
        match registry.forExtension? extension with
        | some extractor => extractor.extract bs
        | none => .error (.unsupportedFormat (lowercase extension))) ∧
    registry.extensions.Pairwise (· < ·) ∧
    (∀ key, key ∈ registry.extensions ↔
      ∃ extractor ∈ extractors, ∃ declared ∈ extractor.extensions, lowercase declared = key) ∧
    (∀ name, registry.named? name = extractors.findRev? (·.isNamed name)) ∧
    (∀ before extractor after, extractors = before ++ extractor :: after →
      (∀ later ∈ after, later.isNamed extractor.name = false) →
      registry.named? extractor.name = some extractor) ∧
    ∀ extension extractor, registry.forExtension? extension = some extractor →
      (∀ declared ∈ extractor.extensions, lowercase declared = declared) →
      extractor.supports extension = true := by
  have hlatest := h.holdsLatest
  refine ⟨fun extension => ⟨hlatest.forExtension? extension, ?_, registry.supports_eq extension,
    fun bs => ?_⟩, registry.pairwise_extensions, fun key => hlatest.mem_extensions_iff,
    hlatest.named?, ?_, ?_⟩
  · rw [hlatest.forExtension?, List.findRev?_eq_find?_reverse]
    simp
  · cases hfound : registry.forExtension? extension with
    | some extractor => exact extract_of_forExtension? hfound bs
    | none => exact extract_of_none hfound bs
  · rintro before extractor after rfl hafter
    rw [hlatest.named?]
    exact findRev?_split (by simp [Extractor.isNamed]) hafter
  · intro extension extractor hfound hlower
    rw [hlatest.forExtension?, List.findRev?_eq_find?_reverse] at hfound
    obtain ⟨hdeclares, -⟩ := List.find?_eq_some_iff_append.mp hfound
    exact Extractor.supports_of_declares hdeclares hlower

theorem forExtension?_of_registered_claimed :
    let claiming : Extractor := ⟨"Sheets", ["md", "docx"], fun _ => .ok "claimed"⟩
    let registry := reference.register claiming
    Registered registry [.plain, .package, claiming] ∧
      registry.extract "DOCX" [] = .ok "claimed" ∧ claiming.supports "DOCX" = true ∧
      registry.named? "docx" = some .package ∧ registry.supports "pdf" = false := by
  intro claiming registry
  have hregistered : Registered registry [.plain, .package, claiming] :=
    .register claiming .reference
  obtain ⟨hfound, -, -, -, hnamed, hsupports⟩ := forExtension?_of_registered hregistered
  have hclaimed : registry.forExtension? "DOCX" = some claiming := (hfound "DOCX").1.trans rfl
  have hnone : registry.forExtension? "pdf" = none := (hfound "pdf").1.trans rfl
  refine ⟨hregistered, ?_, hsupports "DOCX" claiming hclaimed (by decide),
    hnamed [.plain] .package [claiming] rfl (by decide), ?_⟩
  · rw [(hfound "DOCX").2.2.2, hclaimed]
  · rw [(hfound "pdf").2.2.1, hnone]
    rfl

end Registry

end Manuscript
