import Mathlib

/-!
# `Lib.FlatMap` — finite maps from pairs, and nested maps as such

A finite map from pairs of a section and a key is the plain meaning of a map of maps. `flatten` reads a
nested map as one; an inner map that is empty is not seen by it.

The abstract map carries its own finiteness, so that no flat map with endlessly many entries can be built; the
operations each come with the lemma that keeps it. `flatten_set`, `flatten_remove` and `flatten_removeSection` say
that the nested operations are the flat ones seen through `flatten`, and `flatten_erase_empty` why an implementation
is free to drop a section when its last key goes. `nested_ext` is the converse direction: two nested maps with the
same sections that flatten alike are one.
-/

set_option autoImplicit false

namespace Lib

open Std

/-- A finite map from pairs to values. -/
@[ext] structure FlatMap (S K V : Type) where
  get : S → K → Option V
  finite : {p : S × K | get p.1 p.2 ≠ none}.Finite

/-- The list has every element with `P` exactly once, and no others. -/
def Lists {α : Type} (l : List α) (P : α → Prop) : Prop := l.Nodup ∧ ∀ a, a ∈ l ↔ P a

/-- The same list answers for two predicates that say the same. -/
theorem Lists.congr {α : Type} {l : List α} {P Q : α → Prop} (h : Lists l P) (hpq : ∀ a, P a ↔ Q a) :
    Lists l Q := ⟨h.1, fun a => (h.2 a).trans (hpq a)⟩

namespace FlatMap

variable {S K V : Type}

/-- A section exists when it has an entry. -/
def HasSection (m : FlatMap S K V) (s : S) : Prop := ∃ k, m.get s k ≠ none

/-- Nothing is stored, so what is stored is finite. -/
theorem finite_empty : {p : S × K | (fun (_ : S) (_ : K) => (none : Option V)) p.1 p.2 ≠ none}.Finite := by
  simp

/-- The map with no entry. -/
def empty : FlatMap S K V := ⟨fun _ _ => none, finite_empty⟩

variable [DecidableEq S] [DecidableEq K]

/-- One more entry leaves the entries finite. -/
theorem finite_set (m : FlatMap S K V) (s : S) (k : K) (v : V) :
    {p : S × K | (if s = p.1 ∧ k = p.2 then some v else m.get p.1 p.2) ≠ none}.Finite := by
  refine (m.finite.insert (s, k)).subset fun p h => ?_
  by_cases he : s = p.1 ∧ k = p.2
  · exact .inl (Prod.ext he.1.symm he.2.symm)
  · have hold : (if s = p.1 ∧ k = p.2 then some v else m.get p.1 p.2) ≠ none := h
    rw [if_neg he] at hold
    exact .inr hold

/-- One entry is written. -/
def set (m : FlatMap S K V) (s : S) (k : K) (v : V) : FlatMap S K V :=
  ⟨fun s' k' => if s = s' ∧ k = k' then some v else m.get s' k', finite_set m s k v⟩

/-- Fewer entries than before are finite. -/
theorem finite_remove (m : FlatMap S K V) (s : S) (k : K) :
    {p : S × K | (if s = p.1 ∧ k = p.2 then none else m.get p.1 p.2) ≠ none}.Finite := by
  refine m.finite.subset fun p h => ?_
  have hold : (if s = p.1 ∧ k = p.2 then none else m.get p.1 p.2) ≠ none := h
  split at hold
  · exact absurd rfl hold
  · exact hold

/-- One entry is removed. -/
def remove (m : FlatMap S K V) (s : S) (k : K) : FlatMap S K V :=
  ⟨fun s' k' => if s = s' ∧ k = k' then none else m.get s' k', finite_remove m s k⟩

omit [DecidableEq K] in
/-- The entries of the other sections are among those there were. -/
theorem finite_removeSection (m : FlatMap S K V) (s : S) :
    {p : S × K | (if s = p.1 then none else m.get p.1 p.2) ≠ none}.Finite := by
  refine m.finite.subset fun p h => ?_
  have hold : (if s = p.1 then none else m.get p.1 p.2) ≠ none := h
  split at hold
  · exact absurd rfl hold
  · exact hold

omit [DecidableEq K] in
/-- All entries of a section are removed. -/
def removeSection (m : FlatMap S K V) (s : S) : FlatMap S K V :=
  ⟨fun s' k' => if s = s' then none else m.get s' k', finite_removeSection m s⟩

end FlatMap

/-! ## Nested maps -/

variable {S K V : Type} {cmpS : S → S → Ordering} {cmpK : K → K → Ordering}
  [TransCmp cmpS] [LawfulEqCmp cmpS] [TransCmp cmpK] [LawfulEqCmp cmpK]

/-- The entries of a nested map are covered by its sections, each with its own finitely many keys. -/
theorem finite_nested (data : ExtTreeMap S (ExtTreeMap K V cmpK) cmpS) :
    {p : S × K | data[p.1]?.bind (fun kv => kv[p.2]?) ≠ none}.Finite := by
  refine (data.toList.flatMap fun e => e.2.keys.map fun k => (e.1, k)).finite_toSet.subset ?_
  rintro ⟨s, k⟩ h
  obtain ⟨v, hv⟩ := Option.ne_none_iff_exists'.mp h
  obtain ⟨kv, hkv, hget⟩ := Option.bind_eq_some_iff.mp hv
  refine List.mem_flatMap.mpr ⟨(s, kv), ExtTreeMap.mem_toList_iff_getElem?_eq_some.mpr hkv, ?_⟩
  refine List.mem_map.mpr ⟨k, ExtTreeMap.mem_keys.mpr ?_, rfl⟩
  rw [ExtTreeMap.mem_iff_isSome_getElem?, Option.isSome_iff_exists]
  exact ⟨v, hget⟩

/-- A map of maps as a map from pairs. -/
def flatten (data : ExtTreeMap S (ExtTreeMap K V cmpK) cmpS) : FlatMap S K V where
  get s k := data[s]?.bind fun kv => kv[k]?
  finite := finite_nested data

/-- An entry of the flat reading is looked up by the section and then by the key. -/
theorem flatten_get (data : ExtTreeMap S (ExtTreeMap K V cmpK) cmpS) (s : S) (k : K) :
    (flatten data).get s k = data[s]?.bind fun kv => kv[k]? := rfl

/-- When no inner map is empty, the sections of the flat map are the keys of the outer one. -/
theorem flatten_hasSection {data : ExtTreeMap S (ExtTreeMap K V cmpK) cmpS}
    (h : ∀ (s : S) (kv : ExtTreeMap K V cmpK), data[s]? = some kv → ∃ k, k ∈ kv) (s : S) :
    (flatten data).HasSection s ↔ s ∈ data := by
  rw [ExtTreeMap.mem_iff_isSome_getElem?, Option.isSome_iff_exists]
  constructor
  · rintro ⟨k, hk⟩
    obtain ⟨v, hv⟩ := Option.ne_none_iff_exists'.mp hk
    obtain ⟨kv, hkv, -⟩ := Option.bind_eq_some_iff.mp hv
    exact ⟨kv, hkv⟩
  · rintro ⟨kv, hkv⟩
    obtain ⟨k, hk⟩ := h s kv hkv
    refine ⟨k, ?_⟩
    rw [flatten_get, hkv, Option.bind_some]
    rw [ExtTreeMap.mem_iff_isSome_getElem?] at hk
    exact Option.isSome_iff_ne_none.mp hk

/-- Two nested maps with the same outer keys and the same entries are equal. -/
theorem nested_ext {data data' : ExtTreeMap S (ExtTreeMap K V cmpK) cmpS}
    (hmem : ∀ s, s ∈ data ↔ s ∈ data')
    (hget : ∀ s k, (flatten data).get s k = (flatten data').get s k) : data = data' := by
  simp only [ExtTreeMap.mem_iff_isSome_getElem?, Option.isSome_iff_exists] at hmem
  refine ExtTreeMap.ext_getElem? fun s => ?_
  cases hs : data[s]? with
  | none =>
      cases hs' : data'[s]? with
      | none => rfl
      | some kv' =>
          obtain ⟨kv, hkv⟩ := (hmem s).mpr ⟨kv', hs'⟩
          rw [hs] at hkv
          cases hkv
  | some kv =>
      obtain ⟨kv', hs'⟩ := (hmem s).mp ⟨kv, hs⟩
      rw [hs']
      refine congrArg some (ExtTreeMap.ext_getElem? fun k => ?_)
      have hk := hget s k
      rwa [flatten_get, flatten_get, hs, hs', Option.bind_some, Option.bind_some] at hk

variable [DecidableEq S] [DecidableEq K]

/-- Writing an entry into its inner map, which is made if it is missing. -/
theorem flatten_set (data : ExtTreeMap S (ExtTreeMap K V cmpK) cmpS) (s : S) (k : K) (v : V) :
    flatten (data.insert s ((data[s]?.getD ∅).insert k v)) = (flatten data).set s k v := by
  ext s' k' : 3
  simp only [flatten, FlatMap.set, ExtTreeMap.getElem?_insert, LawfulEqCmp.compare_eq_iff_eq]
  by_cases hs : s = s'
  · subst hs
    rw [if_pos rfl, Option.bind_some, ExtTreeMap.getElem?_insert]
    simp only [LawfulEqCmp.compare_eq_iff_eq, true_and]
    by_cases hk : k = k'
    · rw [if_pos hk, if_pos hk]
    · rw [if_neg hk, if_neg hk]
      cases hkv : data[s]? with
      | none => simp
      | some kv => rfl
  · rw [if_neg hs, if_neg fun h => hs h.1]

/-- Removing an entry, the inner map staying in place. -/
theorem flatten_remove {data : ExtTreeMap S (ExtTreeMap K V cmpK) cmpS} {s : S}
    {kv : ExtTreeMap K V cmpK} (h : data[s]? = some kv) (k : K) :
    flatten (data.insert s (kv.erase k)) = (flatten data).remove s k := by
  ext s' k' : 3
  simp only [flatten, FlatMap.remove, ExtTreeMap.getElem?_insert, LawfulEqCmp.compare_eq_iff_eq]
  by_cases hs : s = s'
  · subst hs
    rw [if_pos rfl, Option.bind_some, ExtTreeMap.getElem?_erase, h, Option.bind_some]
    simp only [LawfulEqCmp.compare_eq_iff_eq, true_and]
  · rw [if_neg hs, if_neg fun h => hs h.1]

omit [DecidableEq K] in
/-- Removing an inner map. -/
theorem flatten_removeSection (data : ExtTreeMap S (ExtTreeMap K V cmpK) cmpS) (s : S) :
    flatten (data.erase s) = (flatten data).removeSection s := by
  ext s' k' : 3
  simp only [flatten, FlatMap.removeSection, ExtTreeMap.getElem?_erase, LawfulEqCmp.compare_eq_iff_eq]
  by_cases hs : s = s'
  · rw [if_pos hs, if_pos hs, Option.bind_none]
  · rw [if_neg hs, if_neg hs]

omit [DecidableEq K] in
/-- An empty inner map can go. -/
theorem flatten_erase_empty {data : ExtTreeMap S (ExtTreeMap K V cmpK) cmpS} {s : S} :
    flatten (data.insert s ∅) = flatten (data.erase s) := by
  ext s' k' : 3
  simp only [flatten, ExtTreeMap.getElem?_insert, ExtTreeMap.getElem?_erase,
    LawfulEqCmp.compare_eq_iff_eq]
  by_cases hs : s = s'
  · rw [if_pos hs, if_pos hs, Option.bind_some, ExtTreeMap.getElem?_empty, Option.bind_none]
  · rw [if_neg hs, if_neg hs]

end Lib
