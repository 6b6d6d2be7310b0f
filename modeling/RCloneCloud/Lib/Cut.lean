import Mathlib

/-!
# `Lib.Cut` — where a text can be cut at a separator

A text `s ++ d ++ t` is cut at the separator `d` in one place only when `d` starts nowhere in `s`, not
even to run into the `d` that follows, and ends nowhere in `t`.

A separator that has more than one character can overlap itself and the text around it, so that `s` and `t` both are
free of `d` is not enough. `cut_left` and `cut_right` say what each side must not contain, `cut_unique` joins them,
and `first_cut_unique` is the case of a reader that looks for the first separator only. For a separator of two
different characters (`pair_infix_concat`, `pair_infix_cons`) the condition comes down to the sides themselves.
-/

set_option autoImplicit false

namespace Lib

variable {α : Type} {d s t x y : List α}

/-- If the separator ends nowhere after the cut, no other cut lies to its right. -/
theorem cut_left (ht : ¬ d <:+: d.tail ++ t) (h : x ++ d ++ y = s ++ d ++ t) :
    ∃ w, s = x ++ w ∧ d ++ y = w ++ d ++ t := by
  rw [List.append_assoc, List.append_assoc] at h
  rcases List.append_eq_append_iff.mp h with ⟨w, hs, hdy⟩ | ⟨w, hx, hdt⟩
  · exact ⟨w, hs, by rw [hdy, List.append_assoc]⟩
  · cases w with
    | nil => exact ⟨[], by simpa using hx.symm, by simpa using hdt.symm⟩
    | cons a w =>
        -- the second separator starts one place or more behind the first
        refine absurd ?_ ht
        cases d with
        | nil => exact List.nil_infix
        | cons b d =>
            have htail : d ++ t = w ++ (b :: d ++ y) := (List.cons.inj hdt).2
            exact ⟨w, y, by rw [List.tail_cons, htail, List.append_assoc]⟩

/-- If the separator starts nowhere before the cut, no other cut lies to its left. -/
theorem cut_right (hs : ¬ d <:+: s ++ d.dropLast) (h : x ++ d ++ y = s ++ d ++ t) :
    s.length ≤ x.length := by
  rw [List.append_assoc, List.append_assoc] at h
  rcases List.append_eq_append_iff.mp h with ⟨w, hw, hdy⟩ | ⟨w, hx, -⟩
  · cases w with
    | nil => rw [hw, List.append_nil]
    | cons a w =>
        refine absurd ?_ hs
        have hlen : d.length ≤ ((a :: w) ++ d.dropLast).length := by
          rw [List.length_append, List.length_cons, List.length_dropLast]
          omega
        have hdrop : (a :: w) ++ d.dropLast <+: (a :: w) ++ (d ++ t) :=
          (List.prefix_append_right_inj _).mpr ((List.dropLast_prefix d).trans (List.prefix_append d t))
        have hd : d <+: (a :: w) ++ d.dropLast :=
          List.prefix_of_prefix_length_le (hdy ▸ List.prefix_append d y) hdrop hlen
        rw [hw, List.append_assoc]
        exact hd.isInfix.trans (List.suffix_append x _).isInfix
  · rw [hx, List.length_append]
    omega

/-- Two cuts at the same place are the same cut. -/
theorem cut_inj (h : x ++ d ++ y = s ++ d ++ t) (hlen : x.length = s.length) : x = s ∧ y = t := by
  rw [List.append_assoc, List.append_assoc] at h
  obtain ⟨hx, hdy⟩ := List.append_inj h hlen
  exact ⟨hx, List.append_cancel_left hdy⟩

/-- **The only cut.** -/
theorem cut_unique (hs : ¬ d <:+: s ++ d.dropLast) (ht : ¬ d <:+: d.tail ++ t)
    (h : x ++ d ++ y = s ++ d ++ t) : x = s ∧ y = t := by
  obtain ⟨w, hw, -⟩ := cut_left ht h
  have hle : x.length ≤ s.length := by
    rw [hw, List.length_append]
    omega
  exact cut_inj h (Nat.le_antisymm hle (cut_right hs h))

/-- **The first cut** of a text is the only one that nothing before it could be. -/
theorem first_cut_unique (hx : ¬ d <:+: x ++ d.dropLast) (hs : ¬ d <:+: s ++ d.dropLast)
    (h : x ++ d ++ y = s ++ d ++ t) : x = s ∧ y = t :=
  cut_inj h (Nat.le_antisymm (cut_right hx h.symm) (cut_right hs h))

/-- The first cut at a separator of one element. -/
theorem first_unique {c : α} (hx : c ∉ x) (hs : c ∉ s) (h : x ++ [c] ++ y = s ++ [c] ++ t) :
    x = s ∧ y = t := by
  have hno : ∀ {l : List α}, c ∉ l → ¬ [c] <:+: l ++ [c].dropLast := by
    intro l hl hi
    rw [List.dropLast_singleton, List.append_nil] at hi
    exact hl (hi.subset List.mem_cons_self)
  exact first_cut_unique (hno hx) (hno hs) h

/-! ## A separator of two different elements -/

variable {a b : α}

/-- A pair of two different characters does not end in its own first one, so a text may end with it. -/
theorem pair_infix_concat (h : a ≠ b) : [a, b] <:+: s ++ [a] ↔ [a, b] <:+: s := by
  rw [List.infix_concat_iff]
  refine or_iff_right fun hsuf => ?_
  obtain ⟨u, hu⟩ := hsuf
  have hlast := congrArg List.getLast? hu
  simp only [List.getLast?_append, List.getLast?_singleton, Option.some_or,
    List.getLast?_cons_cons, Option.some.injEq] at hlast
  exact h hlast.symm

/-- Likewise a text may start with the second character of the pair. -/
theorem pair_infix_cons (h : a ≠ b) : [a, b] <:+: b :: t ↔ [a, b] <:+: t := by
  rw [List.infix_cons_iff]
  refine or_iff_right fun hpre => ?_
  obtain ⟨u, hu⟩ := hpre
  exact h (List.cons.inj hu).1

end Lib
