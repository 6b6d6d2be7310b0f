import Mathlib

/-!
# `Lib.Sort` — sorting by a comparator

A comparator answers with a number, negative when its first argument comes first. It is consistent when it
compares both ways alike and is transitive; a stable sort by a consistent comparator is a permutation in its
order that keeps the order of what it calls equal. Comparators are made of a key, a direction and a rule that
lets one kind of items come first, each of which keeps consistency.

The standard merge sort is used for the sorting itself; what is added is that a consistent comparator gives it the
total and transitive relation it asks for. `filter_stableSort` is stability as a reader meets it: the items that the
comparator does not tell apart stand in the order they came in.
-/

set_option autoImplicit false

namespace Lib

variable {α κ : Type}

/-- **A consistent comparator.** -/
structure Consistent (cmp : α → α → ℤ) : Prop where
  flip : ∀ a b, cmp a b ≤ 0 ↔ 0 ≤ cmp b a
  trans : ∀ a b c, cmp a b ≤ 0 → cmp b c ≤ 0 → cmp a c ≤ 0

/-- A stable sort. -/
def stableSort (cmp : α → α → ℤ) (l : List α) : List α := l.mergeSort fun a b => decide (cmp a b ≤ 0)

/-- Sorting neither adds nor loses an item, whatever the comparator. -/
theorem stableSort_perm (cmp : α → α → ℤ) (l : List α) : (stableSort cmp l).Perm l :=
  List.mergeSort_perm l _

namespace Consistent

variable {cmp : α → α → ℤ}

/-- Of two items one comes first or neither does. -/
theorem total (h : Consistent cmp) (a b : α) : cmp a b ≤ 0 ∨ cmp b a ≤ 0 := by
  rcases le_total (cmp a b) 0 with hab | hab
  · exact .inl hab
  · exact .inr ((h.flip b a).mpr hab)

/-- Transitivity in the form that the library's sort asks for. -/
theorem decide_trans (h : Consistent cmp) (a b c : α) :
    decide (cmp a b ≤ 0) = true → decide (cmp b c ≤ 0) = true → decide (cmp a c ≤ 0) = true := by
  intro hab hbc
  rw [decide_eq_true_iff] at hab hbc ⊢
  exact h.trans a b c hab hbc

/-- Totality in the form that the library's sort asks for. -/
theorem decide_total (h : Consistent cmp) (a b : α) :
    (decide (cmp a b ≤ 0) || decide (cmp b a ≤ 0)) = true := by
  rw [Bool.or_eq_true, decide_eq_true_iff, decide_eq_true_iff]
  exact h.total a b

/-- No item of the result comes before one that stands to its left. -/
theorem pairwise_stableSort (h : Consistent cmp) (l : List α) :
    (stableSort cmp l).Pairwise fun a b => cmp a b ≤ 0 := by
  have hsorted := List.pairwise_mergeSort h.decide_trans h.decide_total l
  refine hsorted.imp fun {a b} hab => ?_
  show cmp a b ≤ 0
  exact of_decide_eq_true hab

/-- **Stability**: a class of items that compare equal comes out in the order it went in. -/
theorem filter_stableSort (h : Consistent cmp) (l : List α) {p : α → Bool}
    (hp : ∀ a b, p a = true → p b = true → cmp a b ≤ 0) :
    (stableSort cmp l).filter p = l.filter p := by
  have hclass : (l.filter p).Pairwise fun a b => decide (cmp a b ≤ 0) = true := by
    refine List.pairwise_of_forall_mem_list fun a ha b hb => ?_
    exact decide_eq_true (hp a b (List.mem_filter.mp ha).2 (List.mem_filter.mp hb).2)
  -- the class is a sublist of the sorted list, hence of its own part of it, which is no longer
  have hsub : (l.filter p).Sublist (stableSort cmp l) :=
    List.sublist_mergeSort h.decide_trans h.decide_total hclass List.filter_sublist
  have hsub' : (l.filter p).Sublist ((stableSort cmp l).filter p) := by
    have hfiltered := hsub.filter p
    rwa [List.filter_filter, List.filter_congr fun a _ => Bool.and_self (p a)] at hfiltered
  have hlength : ((stableSort cmp l).filter p).length = (l.filter p).length :=
    ((stableSort_perm cmp l).filter p).length_eq
  exact (hsub'.eq_of_length hlength.symm).symm

end Consistent

/-! ## Making comparators -/

section
variable [LinearOrder κ]

/-- The comparison of two keys, the other way round for a descending order. -/
def compareKeys (ascending : Bool) (valA valB : κ) : ℤ :=
  if valA < valB then if ascending then -1 else 1
  else if valB < valA then if ascending then 1 else -1
  else 0

/-- Ascending order is the order of the keys. -/
theorem compareKeys_ascending (valA valB : κ) : compareKeys true valA valB ≤ 0 ↔ valA ≤ valB := by
  rcases lt_trichotomy valA valB with hlt | heq | hgt
  · simp [compareKeys, hlt, hlt.le]
  · simp [compareKeys, heq]
  · simp [compareKeys, hgt, not_lt_of_ge hgt.le, not_le_of_gt hgt]

/-- The comparator turns its sign around with its arguments, in both directions. -/
theorem compareKeys_swap (ascending : Bool) (valA valB : κ) :
    compareKeys ascending valB valA = -compareKeys ascending valA valB := by
  rcases lt_trichotomy valA valB with hlt | heq | hgt
  · cases ascending <;> simp [compareKeys, hlt, not_lt_of_ge hlt.le]
  · simp [compareKeys, heq]
  · cases ascending <;> simp [compareKeys, hgt, not_lt_of_ge hgt.le]

/-- Descending order is the reverse order of the keys. -/
theorem compareKeys_descending (valA valB : κ) : compareKeys false valA valB ≤ 0 ↔ valB ≤ valA := by
  have hflip : compareKeys false valA valB = compareKeys true valB valA := by
    rcases lt_trichotomy valA valB with hlt | heq | hgt
    · simp [compareKeys, hlt, not_lt_of_ge hlt.le]
    · simp [compareKeys, heq]
    · simp [compareKeys, hgt, not_lt_of_ge hgt.le]
  rw [hflip, compareKeys_ascending]

/-- Comparing by a key is consistent in both directions. -/
theorem Consistent.byKey (ascending : Bool) (key : α → κ) :
    Consistent fun a b => compareKeys ascending (key a) (key b) where
  flip a b := by
    show compareKeys ascending (key a) (key b) ≤ 0 ↔ 0 ≤ compareKeys ascending (key b) (key a)
    rw [compareKeys_swap ascending (key a) (key b)]
    omega
  trans a b c := by
    intro hab hbc
    cases ascending with
    | true =>
        rw [compareKeys_ascending] at hab hbc ⊢
        exact le_trans hab hbc
    | false =>
        rw [compareKeys_descending] at hab hbc ⊢
        exact le_trans hbc hab

end

/-- The items with `first` come before the others; `cmp` decides between two of a kind. -/
def compareFirst (first : α → Bool) (cmp : α → α → ℤ) (a b : α) : ℤ :=
  if first a && !first b then -1
  else if !first a && first b then 1
  else cmp a b

section
variable {cmp : α → α → ℤ} {first : α → Bool} {a b : α}

/-- Between items of one kind the kind does not decide. -/
theorem compareFirst_same (h : first a = first b) : compareFirst first cmp a b = cmp a b := by
  cases hb : first b <;> simp [compareFirst, h, hb]

/-- The kind decides first, and the inner comparator within a kind. -/
theorem compareFirst_le_zero :
    compareFirst first cmp a b ≤ 0 ↔ (first b = true → first a = true) ∧ (first a = first b → cmp a b ≤ 0) := by
  cases ha : first a <;> cases hb : first b <;> simp [compareFirst, ha, hb]

/-- **The rule keeps consistency.** -/
theorem Consistent.ofKind (h : Consistent cmp) : Consistent (compareFirst first cmp) where
  flip a b := by
    by_cases hsame : first a = first b
    · rw [compareFirst_same hsame, compareFirst_same hsame.symm]
      exact h.flip a b
    · cases ha : first a <;> cases hb : first b
      · exact absurd (ha.trans hb.symm) hsame
      · simp [compareFirst, ha, hb]
      · simp [compareFirst, ha, hb]
      · exact absurd (ha.trans hb.symm) hsame
  trans a b c := by
    intro hab hbc
    rw [compareFirst_le_zero] at hab hbc ⊢
    refine ⟨fun hc => hab.1 (hbc.1 hc), fun hac => ?_⟩
    -- an item between two of one kind is of that kind
    have hkind : first a = first b := by
      have hb := hbc.1
      have ha := hab.1
      cases hfb : first b with
      | true => exact ha hfb
      | false =>
          cases hfc : first c with
          | true => exact absurd (hb hfc) (by simp [hfb])
          | false => rw [hac, hfc]
    exact h.trans a b c (hab.2 hkind) (hbc.2 (hkind ▸ hac))

end

end Lib
