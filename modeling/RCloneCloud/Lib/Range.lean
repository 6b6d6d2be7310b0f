import Mathlib

/-!
# `Lib.Range` — ranging over a map in an unspecified order

A loop `for k, v := range m` visits every entry of `m` once, in an order the language leaves open.
`Shuffle` is one such order. `collect` is the loop that builds a second map out of the entries and
stops at the first error; `collect_eq_ok` and `collect_eq_error` say what it returns, whatever the
order was.
-/

set_option autoImplicit false

namespace Lib

open Std

/-- One order in which a loop may visit the elements of any list of entries. -/
structure Shuffle (α : Type) where
  apply : List α → List α
  perm : ∀ l, (apply l).Perm l

/-- The order that leaves every list as it is. -/
def Shuffle.id (α : Type) : Shuffle α := ⟨fun l => l, fun _ => List.Perm.refl _⟩

/-- A loop in another order visits the same entries. -/
theorem Shuffle.mem_apply {α : Type} (sh : Shuffle α) {l : List α} {a : α} :
    a ∈ sh.apply l ↔ a ∈ l := (sh.perm l).mem_iff

variable {K V W ε : Type} {cmp : K → K → Ordering}

/-- Two entries of a visited list with one key are the same entry. -/
def DistinctKeys (l : List (K × V)) : Prop := (l.map Prod.fst).Nodup

/-- The entries behind the first have distinct keys too. -/
theorem DistinctKeys.tail {e : K × V} {l : List (K × V)} (h : DistinctKeys (e :: l)) :
    DistinctKeys l := (List.nodup_cons.mp h).2

/-- The key of the first entry does not come again, with whatever value. -/
theorem DistinctKeys.head_not_mem {k : K} {v w : V} {l : List (K × V)}
    (h : DistinctKeys ((k, v) :: l)) : (k, w) ∉ l := fun hm =>
  (List.nodup_cons.mp h).1 (List.mem_map.mpr ⟨(k, w), hm, rfl⟩)

/-- The entries of a map have distinct keys in every order of visiting them. -/
theorem distinctKeys_of_perm [TransCmp cmp] [LawfulEqCmp cmp] {t : ExtTreeMap K V cmp}
    {l : List (K × V)} (h : l.Perm t.toList) : DistinctKeys l := by
  have hkeys : (t.toList.map Prod.fst).Nodup := by
    rw [ExtTreeMap.map_fst_toList_eq_keys]
    exact ExtTreeMap.nodup_keys
  exact ((h.map Prod.fst).nodup_iff).mpr hkeys

/-- An entry is visited when the map has it. -/
theorem mem_perm_toList [TransCmp cmp] [LawfulEqCmp cmp] {t : ExtTreeMap K V cmp}
    {l : List (K × V)} (h : l.Perm t.toList) {k : K} {v : V} : (k, v) ∈ l ↔ t[k]? = some v := by
  rw [h.mem_iff]
  exact ExtTreeMap.mem_toList_iff_getElem?_eq_some

/-- A list of entries with increasing keys is the listing of the map it makes. -/
theorem toList_ofList [TransCmp cmp] [LawfulEqCmp cmp] {l : List (K × V)}
    (h : l.Pairwise fun a b => cmp a.1 b.1 = .lt) : (ExtTreeMap.ofList l cmp).toList = l := by
  have hdistinct : l.Pairwise fun a b => ¬ cmp a.1 b.1 = .eq :=
    h.imp fun hlt => by rw [hlt]; exact fun he => nomatch he
  have hnodup : l.Nodup :=
    hdistinct.imp fun {a b} hne he => hne (by rw [he]; exact ReflCmp.compare_self)
  have hsub : l ⊆ (ExtTreeMap.ofList l cmp).toList := by
    intro e he
    rw [ExtTreeMap.mem_toList_iff_getElem?_eq_some]
    exact ExtTreeMap.getElem?_ofList_of_mem ReflCmp.compare_self hdistinct he
  have hperm : l.Perm (ExtTreeMap.ofList l cmp).toList := by
    refine (List.subperm_of_subset hnodup hsub).perm_of_length_le ?_
    rw [ExtTreeMap.length_toList, ExtTreeMap.size_ofList hdistinct]
  refine List.Perm.eq_of_pairwise (fun a b _ _ hab hba => ?_) ExtTreeMap.ordered_keys_toList h hperm.symm
  have hswap : cmp a.1 b.1 = (cmp b.1 a.1).swap := OrientedCmp.eq_swap
  rw [hswap, hba] at hab
  cases hab
/-! ## The loop that collects a map -/

/-- For every visited entry, `f` fails, skips the entry, or gives the value to store under its key. -/
def collect [TransCmp cmp] (f : K → V → Except ε (Option W)) :
    List (K × V) → ExtTreeMap K W cmp → Except ε (ExtTreeMap K W cmp)
  | [], out => .ok out
  | (k, v) :: rest, out =>
    match f k v with
    | .error err => .error err
    | .ok none => collect f rest out
    | .ok (some w) => collect f rest (out.insert k w)

/-- What `f` stores for an entry, if it stores anything. -/
def pick (f : K → V → Except ε (Option W)) (k : K) (v : V) : Option W :=
  match f k v with
  | .error _ => none
  | .ok w => w

/-- `f` fails on no entry of `t`. -/
def Total (f : K → V → Except ε (Option W)) [TransCmp cmp] (t : ExtTreeMap K V cmp) : Prop :=
  ∀ k v, t[k]? = some v → ∃ w, f k v = .ok w

section
variable [TransCmp cmp] [LawfulEqCmp cmp] {f : K → V → Except ε (Option W)}

/-- Keys that are not visited keep what the accumulator holds. -/
theorem collect_other {l : List (K × V)} {out r : ExtTreeMap K W cmp} (h : collect f l out = .ok r)
    {k : K} (hk : ∀ v, (k, v) ∉ l) : r[k]? = out[k]? := by
  induction l generalizing out with
  | nil => cases h; rfl
  | cons e rest ih =>
      obtain ⟨k', v'⟩ := e
      have hne : k' ≠ k := fun he => hk v' (he ▸ List.mem_cons_self)
      have hrest : ∀ v, (k, v) ∉ rest := fun v hm => hk v (List.mem_cons_of_mem _ hm)
      simp only [collect] at h
      split at h
      · cases h
      · exact ih h hrest
      · rw [ih h hrest, ExtTreeMap.getElem?_insert, if_neg (by simpa using hne)]

/-- A visited key ends with what `f` stores for it, or with what the accumulator held. -/
theorem collect_visited {l : List (K × V)} {out r : ExtTreeMap K W cmp} (hl : DistinctKeys l)
    (h : collect f l out = .ok r) {k : K} {v : V} (hkv : (k, v) ∈ l) :
    ∃ w, f k v = .ok w ∧ r[k]? = w.or out[k]? := by
  induction l generalizing out with
  | nil => cases hkv
  | cons e rest ih =>
      obtain ⟨k', v'⟩ := e
      simp only [collect] at h
      rcases List.mem_cons.mp hkv with he | hm
      · -- the keys are distinct, so the rest of the loop leaves this one alone
        obtain ⟨rfl, rfl⟩ := Prod.mk.inj he
        have hout := fun v => hl.head_not_mem (w := v)
        split at h
        · cases h
        · next hf => exact ⟨none, hf, by rw [collect_other h hout, Option.none_or]⟩
        · next w hf => exact ⟨some w, hf, by rw [collect_other h hout, ExtTreeMap.getElem?_insert_self]; rfl⟩
      · have hne : k' ≠ k := by rintro rfl; exact hl.head_not_mem hm
        split at h
        · cases h
        · exact ih hl.tail h hm
        · obtain ⟨w, hf, hr⟩ := ih hl.tail h hm
          rw [ExtTreeMap.getElem?_insert, if_neg (by simpa using hne)] at hr
          exact ⟨w, hf, hr⟩

/-- **The collected map**, when the loop ends normally: every entry was accepted, and the result holds
    what `f` stored, whatever the order. -/
theorem collect_eq_ok {t : ExtTreeMap K V cmp} {l : List (K × V)} {r : ExtTreeMap K W cmp}
    (hl : l.Perm t.toList) (h : collect f l ∅ = .ok r) : Total f t ∧ r = t.filterMap (pick f) := by
  have hd := distinctKeys_of_perm hl
  constructor
  · intro k v hkv
    obtain ⟨w, hf, _⟩ := collect_visited hd h ((mem_perm_toList hl).mpr hkv)
    exact ⟨w, hf⟩
  · refine ExtTreeMap.ext_getElem? fun k => ?_
    rw [ExtTreeMap.getElem?_filterMap']
    cases hk : t[k]? with
    | none =>
        have hout : ∀ v, (k, v) ∉ l := fun v hm => by
          rw [mem_perm_toList hl, hk] at hm
          cases hm
        simp [collect_other h hout]
    | some v =>
        obtain ⟨w, hf, hr⟩ := collect_visited hd h ((mem_perm_toList hl).mpr hk)
        simp [hr, pick, hf]

/-- **An early exit** names an entry on which `f` fails. -/
theorem collect_eq_error {t : ExtTreeMap K V cmp} {l : List (K × V)} {out : ExtTreeMap K W cmp}
    {err : ε} (hl : l.Perm t.toList) (h : collect f l out = .error err) :
    ∃ k v, t[k]? = some v ∧ f k v = .error err := by
  have hmem : ∃ k v, (k, v) ∈ l ∧ f k v = .error err := by
    -- the induction is over any list, not over the entries of a map
    clear hl
    induction l generalizing out with
    | nil => cases h
    | cons e rest ih =>
        obtain ⟨k, v⟩ := e
        simp only [collect] at h
        split at h
        · next hf =>
            cases h
            exact ⟨k, v, List.mem_cons_self, hf⟩
        · obtain ⟨k', v', hm, hf⟩ := ih h
          exact ⟨k', v', List.mem_cons_of_mem _ hm, hf⟩
        · obtain ⟨k', v', hm, hf⟩ := ih h
          exact ⟨k', v', List.mem_cons_of_mem _ hm, hf⟩
  obtain ⟨k, v, hm, hf⟩ := hmem
  exact ⟨k, v, (mem_perm_toList hl).mp hm, hf⟩

/-- A loop that fails on no entry ends normally. -/
theorem collect_of_total {t : ExtTreeMap K V cmp} {l : List (K × V)} (hl : l.Perm t.toList)
    (ht : Total f t) : collect f l ∅ = .ok (t.filterMap (pick f)) := by
  cases h : collect f l (∅ : ExtTreeMap K W cmp) with
  | ok r => rw [(collect_eq_ok hl h).2]
  | error err =>
      obtain ⟨k, v, hkv, hf⟩ := collect_eq_error hl h
      obtain ⟨w, hw⟩ := ht k v hkv
      rw [hf] at hw
      cases hw

end

end Lib
