import RCloneCloud.Lib.Path

/-!
# `Lib.Components` — the components of a path

The components of a path are what stands between its separators, empty pieces left out. Joining and taking
apart at a separator are homomorphisms; separators at the end of a path add nothing.

The separator and the names are of any type with decidable equality, so the same facts serve a path of characters and
one of bytes. `components_eq_self_iff` says when a name is one component of its own, and `components_dropLast` takes
the last piece off a path.
-/

set_option autoImplicit false

namespace Lib

variable {α : Type} {sep : α} {s t name : List α}

/-! ## Joining -/

theorem intercalate_snoc (sep : α) {segs : List (List α)} (h : segs ≠ []) (name : List α) :
    [sep].intercalate (segs ++ [name]) = [sep].intercalate segs ++ sep :: name := by
  induction segs with
  | nil => exact absurd rfl h
  | cons seg rest ih =>
      cases rest with
      | nil =>
          show [sep].intercalate [seg, name] = [sep].intercalate [seg] ++ sep :: name
          rw [List.intercalate_cons_cons, List.intercalate_singleton, List.intercalate_singleton,
            List.append_assoc, List.singleton_append]
      | cons next rest =>
          have htail := ih (List.cons_ne_nil next rest)
          rw [List.cons_append] at htail
          rw [List.cons_append, List.cons_append, List.intercalate_cons_cons, htail, List.intercalate_cons_cons]
          simp only [List.append_assoc]

/-- What starts with a component that is not empty is not empty. -/
theorem intercalate_ne_nil (sep : α) {seg : List α} (h : seg ≠ []) (rest : List (List α)) :
    [sep].intercalate (seg :: rest) ≠ [] := by
  cases rest with
  | nil => rwa [List.intercalate_singleton]
  | cons next rest =>
      rw [List.intercalate_cons_cons]
      intro hnil
      exact h (List.append_eq_nil_iff.mp (List.append_eq_nil_iff.mp hnil).1).1

/-! ## Components -/

variable [DecidableEq α]

/-- The pieces between separators that are not empty. -/
def components (sep : α) (s : List α) : List (List α) := (s.splitOn sep).filter fun seg => seg ≠ []

@[simp] theorem components_nil (sep : α) : components sep ([] : List α) = [] := by
  rw [components, List.splitOn_nil]
  rfl

/-- **At a separator a path comes apart.** -/
theorem components_append_cons (sep : α) (s t : List α) :
    components sep (s ++ sep :: t) = components sep s ++ components sep t := by
  rw [components, List.splitOn_append_cons_self, List.filter_append]
  rfl

/-- A separator in front adds an empty piece, and empty pieces are left out. -/
@[simp] theorem components_cons_self (sep : α) (t : List α) : components sep (sep :: t) = components sep t := by
  have happend := components_append_cons sep [] t
  rwa [List.nil_append, components_nil, List.nil_append] at happend

/-- A name without the separator is a path of one component. -/
theorem components_of_not_mem (hne : name ≠ []) (h : sep ∉ name) : components sep name = [name] := by
  rw [components, List.splitOn_eq_singleton h]
  exact List.filter_eq_self.mpr fun seg hseg => decide_eq_true (List.mem_singleton.mp hseg ▸ hne)

/-- A component is a name: it has a character, and no separator among its characters. -/
theorem not_mem_of_mem_components (h : name ∈ components sep s) : name ≠ [] ∧ sep ∉ name := by
  obtain ⟨hmem, hne⟩ := List.mem_filter.mp h
  exact ⟨of_decide_eq_true hne, not_mem_of_mem_splitOn hmem⟩

/-- **A path is its directory and its last piece.** -/
theorem components_dropLast (h : (s.splitOn sep).getLast? = some name) :
    components sep s = components sep ([sep].intercalate (s.splitOn sep).dropLast) ++ components sep name := by
  have hpieces : (s.splitOn sep).dropLast ++ [name] = s.splitOn sep := List.dropLast_append_getLast? name h
  have hjoined : [sep].intercalate ((s.splitOn sep).dropLast ++ [name]) = s := by
    rw [hpieces, List.intercalate_splitOn]
  by_cases hdir : (s.splitOn sep).dropLast = []
  · rw [hdir, List.nil_append, List.intercalate_singleton] at hjoined
    rw [hdir, ← hjoined]
    show components sep name = components sep [] ++ components sep name
    rw [components_nil, List.nil_append]
  · rw [intercalate_snoc sep hdir] at hjoined
    rw [← components_append_cons, hjoined]

/-- **Separators at the end** add no component. -/
theorem components_rdropWhile (sep : α) (s : List α) :
    components sep (s.rdropWhile fun c => c = sep) = components sep s := by
  induction s using List.reverseRecOn with
  | nil => rfl
  | append_singleton s c ih =>
      by_cases hc : c = sep
      · subst hc
        rw [List.rdropWhile_concat, if_pos (decide_eq_true rfl), ih, components_append_cons, components_nil,
          List.append_nil]
      · rw [List.rdropWhile_concat, if_neg (by simpa using hc)]

/-- A text with one component that is all of it has no separator. -/
theorem components_eq_self_iff (hne : name ≠ []) : components sep name = [name] ↔ sep ∉ name := by
  constructor
  · intro hself
    exact (not_mem_of_mem_components (hself ▸ List.mem_singleton_self name)).2
  · exact components_of_not_mem hne

end Lib
