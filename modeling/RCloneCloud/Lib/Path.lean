import Mathlib

/-!
# `Lib.Path` — walking down from a root

A path, read component by component, is a list of moves from a root: down into a child, up to the parent,
or nowhere. `Contained` says that the walk never leaves the root, whatever it passes through. `resolve` keeps
the components that the walk ends below, and `rooted` writes components as a path again.

The moves are read off the components by a function, so the library does not fix what a component is or which of them
go up. `contained_iff_walk` makes `Contained` decidable: a walk that keeps its depth and stops at the root is defined
exactly on the paths that never leave it. `splitOn_rooted` and `rooted_splitOn` are the round trip between a path and
its components, and `resolve_weight` bounds what `resolve` keeps and what it drops, in any weight, by the path.
-/

set_option autoImplicit false

namespace Lib

/-- What one component of a path does. -/
inductive Move where
  | up | stay | down
deriving DecidableEq, Repr

/-- No prefix of the walk has more moves up than down. -/
def Contained (ms : List Move) : Prop := ∀ n, (ms.take n).count .up ≤ (ms.take n).count .down

variable {xs ys : List Move}

/-- A path that stays inside has stayed inside all along. -/
theorem Contained.of_append (h : Contained (xs ++ ys)) : Contained xs := by
  intro n
  rcases Nat.le_total n xs.length with hn | hn
  · have hpre := h n
    rwa [List.take_append_of_le_length hn] at hpre
  · have hpre := h xs.length
    rw [List.take_left] at hpre
    rwa [List.take_of_length_le hn]

/-- A walk that continues without moving up stays inside. -/
theorem Contained.append (h : Contained xs) (hys : .up ∉ ys) : Contained (xs ++ ys) := by
  intro n
  rw [List.take_append, List.count_append, List.count_append]
  have hxs := h n
  have hup : (ys.take (n - xs.length)).count .up = 0 :=
    List.count_eq_zero.mpr fun hm => hys (List.mem_of_mem_take hm)
  omega

/-- **What is appended to a path matters only through its moves up.** -/
theorem contained_append_iff (hys : .up ∉ ys) : Contained (xs ++ ys) ↔ Contained xs :=
  ⟨Contained.of_append, fun h => h.append hys⟩

/-! ## Walking -/

/-- The depth reached from depth `d`, unless the walk leaves the root. -/
def walk : Nat → List Move → Option Nat
  | d, [] => some d
  | 0, .up :: _ => none
  | d + 1, .up :: ms => walk d ms
  | d, .stay :: ms => walk d ms
  | d, .down :: ms => walk (d + 1) ms

/-- From depth `d`, no prefix of the walk leaves the root. -/
def Within (d : Nat) (ms : List Move) : Prop :=
  ∀ n, (ms.take n).count .up ≤ d + (ms.take n).count .down

/-- The first move, and the prefixes of the rest. -/
theorem within_cons (d : Nat) (m : Move) (ms : List Move) :
    Within d (m :: ms) ↔ ∀ n, (ms.take n).count .up + (if m = .up then 1 else 0)
      ≤ d + ((ms.take n).count .down + if m = .down then 1 else 0) := by
  rw [Within, ← Nat.and_forall_add_one]
  simp only [List.take_zero, List.count_nil, Nat.zero_le, true_and, List.take_succ_cons, List.count_cons,
    beq_iff_eq]

/-- The walk is defined where no beginning of the moves goes up more often than down, counted from its depth. -/
theorem walk_isSome_iff (d : Nat) (ms : List Move) : (walk d ms).isSome = true ↔ Within d ms := by
  fun_induction walk d ms with
  | case1 d => simp [Within]
  | case2 ms =>
      rw [within_cons]
      constructor
      · intro h
        cases h
      · intro h
        have hfirst := h 0
        simp at hfirst
  | case3 d ms ih =>
      rw [ih, within_cons]
      refine forall_congr' fun n => ?_
      simp only [reduceCtorEq, ↓reduceIte]
      omega
  | case4 d ms ih =>
      rw [ih, within_cons]
      exact forall_congr' fun n => by simp
  | case5 d ms ih =>
      rw [ih, within_cons]
      refine forall_congr' fun n => ?_
      simp only [reduceCtorEq, ↓reduceIte]
      omega

/-- **A path is contained exactly when walking it never leaves the root.** -/
theorem contained_iff_walk {ms : List Move} : (walk 0 ms).isSome = true ↔ Contained ms := by
  rw [walk_isSome_iff]
  simp only [Within, Nat.zero_add, Contained]

instance : DecidablePred Contained := fun _ => decidable_of_iff _ contained_iff_walk

/-! ## Resolving -/

section
variable {α : Type} {act : α → Move} {kept xs : List α}

/-- The components left when a move up takes away the one before it; at the root it takes nothing away. -/
def resolve (act : α → Move) : List α → List α → List α
  | kept, [] => kept
  | kept, x :: xs =>
    match act x with
    | .up => resolve act kept.dropLast xs
    | .stay => resolve act kept xs
    | .down => resolve act (kept ++ [x]) xs

/-- Components that only go down are all kept. -/
theorem resolve_of_down (h : ∀ x ∈ xs, act x = .down) : resolve act kept xs = kept ++ xs := by
  induction xs generalizing kept with
  | nil => exact (List.append_nil kept).symm
  | cons x rest ih =>
      rw [List.forall_mem_cons] at h
      rw [resolve, h.1]
      dsimp only
      rw [ih h.2, List.append_assoc, List.singleton_append]

/-- What is kept was there before or is a component that goes down. -/
theorem mem_resolve {x : α} (h : x ∈ resolve act kept xs) : x ∈ kept ∨ x ∈ xs ∧ act x = .down := by
  induction xs generalizing kept with
  | nil => exact .inl h
  | cons y rest ih =>
      have hlater : x ∈ rest ∧ act x = .down → x ∈ kept ∨ x ∈ y :: rest ∧ act x = .down :=
        fun hx => .inr ⟨List.mem_cons_of_mem y hx.1, hx.2⟩
      rw [resolve] at h
      split at h
      · exact (ih h).elim (fun hx => .inl (List.mem_of_mem_dropLast hx)) hlater
      · exact (ih h).elim .inl hlater
      · next hdown =>
          rcases ih h with hx | hx
          · rcases List.mem_append.mp hx with hx | hx
            · exact .inl hx
            · obtain rfl := List.mem_singleton.mp hx
              exact .inr ⟨List.mem_cons_self, hdown⟩
          · exact hlater hx

/-- **What resolving costs**: at least the components that do not move down. -/
theorem resolve_weight (w : α → Nat) :
    ((resolve act kept xs).map w).sum + ((xs.filter fun x => act x ≠ .down).map w).sum
      ≤ (kept.map w).sum + (xs.map w).sum := by
  induction xs generalizing kept with
  | nil => exact Nat.le_refl _
  | cons x rest ih =>
      rw [resolve, List.filter_cons, List.map_cons, List.sum_cons]
      cases hact : act x with
      | up =>
          have hdrop : (kept.dropLast.map w).sum ≤ (kept.map w).sum :=
            (kept.dropLast_sublist.map w).sum_le_sum fun _ _ => Nat.zero_le _
          have hrest := @ih kept.dropLast
          simp only [ne_eq, reduceCtorEq, not_false_eq_true, decide_true, ↓reduceIte, List.map_cons, List.sum_cons]
            at hrest ⊢
          omega
      | stay =>
          have hrest := @ih kept
          simp only [ne_eq, reduceCtorEq, not_false_eq_true, decide_true, ↓reduceIte, List.map_cons, List.sum_cons]
            at hrest ⊢
          omega
      | down =>
          have hrest := @ih (kept ++ [x])
          simp only [List.map_append, List.sum_append, List.map_singleton, List.sum_singleton] at hrest
          simp only [ne_eq, not_true_eq_false, decide_false, Bool.false_eq_true, ↓reduceIte] at hrest ⊢
          omega

end

/-! ## Components and separators -/

section
variable {α β : Type} {sep a : α} {b : β} {segs : List (List α)}

/-- The path of the components, a separator before each. -/
def rooted (sep : α) (segs : List (List α)) : List α := segs.flatMap (sep :: ·)

/-- A rooted path is its components joined, with an empty one in front. -/
theorem rooted_eq_intercalate (sep : α) (segs : List (List α)) :
    rooted sep segs = [sep].intercalate ([] :: segs) := by
  have hcons : ∀ (seg : List α) (rest : List (List α)),
      [sep].intercalate (seg :: rest) = seg ++ rooted sep rest := by
    intro seg rest
    induction rest generalizing seg with
    | nil => simp [rooted]
    | cons next rest ih =>
        rw [List.intercalate_cons_cons, ih next, List.append_assoc, List.singleton_append]
        rfl
  exact (hcons [] segs).symm

variable [BEq α] [LawfulBEq α] [BEq β] [LawfulBEq β]

/-- The pieces between separators have none in them. -/
theorem not_mem_of_mem_splitOn {seg s : List α} (h : seg ∈ s.splitOn sep) : sep ∉ seg := by
  induction s generalizing seg with
  | nil =>
      rw [List.splitOn_nil, List.mem_singleton] at h
      exact h ▸ List.not_mem_nil
  | cons x rest ih =>
      rw [List.splitOn_cons_eq_if_modifyHead] at h
      obtain ⟨first, others, hsplit⟩ := List.exists_cons_of_ne_nil (List.splitOn_ne_nil sep rest)
      rw [hsplit] at h ih
      split at h
      · rcases List.mem_cons.mp h with rfl | hmem
        · exact List.not_mem_nil
        · exact ih hmem
      · next hx =>
          rcases List.mem_cons.mp h with rfl | hmem
          · intro hsep
            rcases List.mem_cons.mp hsep with rfl | hin
            · exact hx (beq_self_eq_true sep)
            · exact ih List.mem_cons_self hin
          · exact ih (List.mem_cons_of_mem _ hmem)

/-- Components without the separator come back as they were, behind the empty piece of the root. -/
theorem splitOn_rooted (h : ∀ seg ∈ segs, sep ∉ seg) : (rooted sep segs).splitOn sep = [] :: segs := by
  rw [rooted_eq_intercalate]
  refine List.splitOn_intercalate sep (fun seg hseg => ?_) (List.cons_ne_nil _ _)
  rcases List.mem_cons.mp hseg with rfl | hmem
  · exact List.not_mem_nil
  · exact h seg hmem

/-- Joining the pieces of a text gives it back with a separator in front. -/
theorem rooted_splitOn (sep : α) (s : List α) : rooted sep (s.splitOn sep) = sep :: s := by
  rw [rooted_eq_intercalate]
  obtain ⟨first, others, hsplit⟩ := List.exists_cons_of_ne_nil (List.splitOn_ne_nil sep s)
  rw [hsplit, List.intercalate_cons_cons, ← hsplit, List.intercalate_splitOn]
  rfl

theorem mem_of_mem_splitOn {seg s : List α} {c : α} (hseg : seg ∈ s.splitOn sep) (hc : c ∈ seg) : c ∈ s := by
  have hrooted : c ∈ rooted sep (s.splitOn sep) :=
    List.mem_flatMap.mpr ⟨seg, hseg, List.mem_cons_of_mem sep hc⟩
  rw [rooted_splitOn] at hrooted
  rcases List.mem_cons.mp hrooted with rfl | hmem
  · exact absurd hc (not_mem_of_mem_splitOn hseg)
  · exact hmem

/-- **Encoding commutes with splitting** when it keeps the separator for itself. -/
theorem splitOn_flatMap {f : α → List β} (hsep : f a = [b]) (hother : ∀ c, c ≠ a → b ∉ f c) (s : List α) :
    (s.flatMap f).splitOn b = (s.splitOn a).map fun seg => seg.flatMap f := by
  have hrooted : b :: s.flatMap f = rooted b ((s.splitOn a).map fun seg => seg.flatMap f) := by
    have hcons : b :: s.flatMap f = (a :: s).flatMap f := by rw [List.flatMap_cons, hsep]; rfl
    rw [hcons, ← rooted_splitOn a s, rooted, rooted, List.flatMap_assoc, List.flatMap_map]
    refine List.flatMap_congr fun seg _ => ?_
    rw [List.flatMap_cons, hsep]
    rfl
  have hfree : ∀ seg ∈ (s.splitOn a).map (fun seg => seg.flatMap f), b ∉ seg := by
    intro seg hseg hb
    obtain ⟨plain, hplain, rfl⟩ := List.mem_map.mp hseg
    obtain ⟨c, hc, hbc⟩ := List.mem_flatMap.mp hb
    refine hother c ?_ hbc
    rintro rfl
    exact not_mem_of_mem_splitOn hplain hc
  have hsplit := splitOn_rooted hfree
  rw [← hrooted, ← List.nil_append (b :: _),
    List.splitOn_append_cons_self_of_not_mem List.not_mem_nil] at hsplit
  exact (List.cons.inj hsplit).2

end

end Lib
