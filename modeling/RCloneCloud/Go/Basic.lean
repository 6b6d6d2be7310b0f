import RCloneCloud.Lib.Range

/-!
# `Go.Basic` — strings, errors and maps as Go has them

A Go string is a sequence of bytes, not necessarily valid UTF-8. A Go map with string keys is a finite
map; the order in which `range` visits it is a `Lib.Shuffle` of its entries, chosen by the caller.

Errors are data: a format with its arguments, or an error of a library by its text, so that two errors can be compared
and a message can be read. Nothing here depends on how a hash map is laid out; sorting is by bytes, as Go compares
strings.
-/

set_option autoImplicit false

namespace RCloneCloud

/-- What a slice of bytes holds. -/
abbrev Bytes := List UInt8

/-- A Go string: any sequence of bytes. -/
abbrev GoString := List UInt8

/-- The Go string of a literal. -/
def str (s : String) : GoString := s.toUTF8.data.toList

/-- A Go `map[string]V`. -/
abbrev GoMap (V : Type) := Std.ExtTreeMap GoString V compare

/-- A Go `error`: one made elsewhere, or one made by `fmt.Errorf` from its format and its arguments,
    with or without a wrapped error (`%w`). -/
inductive GoError where
  | external (msg : GoString)
  | errorf (format : String) (args : List GoString)
  | wrapf (format : String) (args : List GoString) (err : GoError)
deriving DecidableEq, Repr

/-- A key that is set has its value, the others are as before. -/
theorem GoMap.getElem?_insert {V : Type} (m : GoMap V) (k a : GoString) (v : V) :
    (m.insert k v)[a]? = if k = a then some v else m[a]? := by
  simp [Std.ExtTreeMap.getElem?_insert]

/-- A key that is deleted is gone, the others are as before. -/
theorem GoMap.getElem?_erase {V : Type} (m : GoMap V) (k a : GoString) :
    (m.erase k)[a]? = if k = a then none else m[a]? := by
  simp [Std.ExtTreeMap.getElem?_erase]

/-- A key is in a map that has a value for it. -/
theorem GoMap.mem_iff {V : Type} {m : GoMap V} {k : GoString} : k ∈ m ↔ ∃ v, m[k]? = some v := by
  rw [Std.ExtTreeMap.mem_iff_isSome_getElem?, Option.isSome_iff_exists]

/-- Setting adds its key. -/
theorem GoMap.mem_insert {V : Type} {m : GoMap V} {k a : GoString} {v : V} :
    a ∈ m.insert k v ↔ k = a ∨ a ∈ m := by
  simp [Std.ExtTreeMap.mem_insert]

/-- Deleting takes its key and no other. -/
theorem GoMap.mem_erase {V : Type} {m : GoMap V} {k a : GoString} :
    a ∈ m.erase k ↔ k ≠ a ∧ a ∈ m := by
  simp [Std.ExtTreeMap.mem_erase]

/-- `sort.Strings`: byte by byte. -/
def sortStrings (l : List GoString) : List GoString := l.mergeSort fun a b => (compare a b).isLE

/-- Sorting gives the one increasing arrangement of the strings. -/
theorem sortStrings_eq {l l' : List GoString} (h : l.Perm l')
    (hl' : l'.Pairwise fun a b => compare a b = .lt) : sortStrings l = l' := by
  have hperm : (sortStrings l).Perm l' := (List.mergeSort_perm l _).trans h
  have hsorted : (sortStrings l).Pairwise fun a b => (compare a b).isLE := by
    apply List.pairwise_mergeSort
    · intro a b c hab hbc
      exact Std.TransCmp.isLE_trans hab hbc
    · intro a b
      rw [Bool.or_eq_true]
      cases hab : compare a b with
      | lt => exact .inl rfl
      | eq => exact .inl rfl
      | gt =>
          have hba : compare b a = (compare a b).swap := Std.OrientedCmp.eq_swap
          exact .inr (by rw [hba, hab]; rfl)
  refine List.Perm.eq_of_pairwise (fun a b _ _ hab hba => ?_) hsorted
    (hl'.imp fun hlt => by rw [hlt]; rfl) hperm
  exact Std.LawfulEqCmp.eq_of_compare (Std.OrientedCmp.isLE_antisymm hab hba)

/-- The sorted keys of a map do not depend on the order in which it was ranged over. -/
theorem sortStrings_keys {V : Type} (sh : Lib.Shuffle GoString) (m : GoMap V) :
    sortStrings (sh.apply m.keys) = m.toList.map Prod.fst := by
  rw [Std.ExtTreeMap.map_fst_toList_eq_keys]
  exact sortStrings_eq (sh.perm m.keys) Std.ExtTreeMap.ordered_keys

/-- A string that is less than another is less than the other's continuations. -/
theorem compare_append {a b : GoString} (w : GoString) (h : compare a b = .lt) :
    compare a (b ++ w) = .lt := by
  induction a generalizing b with
  | nil =>
      cases b with
      | nil => cases h
      | cons y b => rfl
  | cons x a ih =>
      cases b with
      | nil => cases h
      | cons y b =>
          rw [List.cons_append, List.compare_cons_cons, Ordering.then_eq_lt]
          rw [List.compare_cons_cons, Ordering.then_eq_lt] at h
          exact h.imp_right fun ⟨heq, hlt⟩ => ⟨heq, ih hlt⟩

/-- A key that is not in a map has no value there. -/
theorem GoMap.not_mem_iff {V : Type} {m : GoMap V} {k : GoString} : k ∉ m ↔ m[k]? = none := by
  rw [Std.ExtTreeMap.mem_iff_isSome_getElem?, Option.not_isSome_iff_eq_none]

end RCloneCloud
