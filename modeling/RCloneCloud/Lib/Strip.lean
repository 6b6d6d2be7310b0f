import Mathlib

/-!
# `Lib.Strip` — stripping words off the ends of a text

Words of a given list are taken off the front of a text, one after another, until none of them stands there;
likewise off the end. What is left is clean, and stays as it is when it is stripped again. Where no word starts
another, a text made of words before a clean rest is stripped to that rest.

Stripping a word off the end is stripping its reverse off the front of the reversed text, so the right side follows
from the left one by `cleanLeft_reverse`. The loop has fuel for one turn a character, which is enough when no word is
empty. `stripLeft_flatten` and `stripRight_flatten` are the converses that a caller needs: text built with known words
around a clean middle is brought back to that middle, provided no word starts (or ends) another one.
-/

set_option autoImplicit false

namespace Lib

variable {α : Type} {words : List (List α)} {s core : List α}

/-- No word stands at the front. -/
def CleanLeft (words : List (List α)) (s : List α) : Prop := ∀ w ∈ words, ¬ w <+: s

/-- No word stands at the end. -/
def CleanRight (words : List (List α)) (s : List α) : Prop := ∀ w ∈ words, ¬ w <:+ s

/-- Clean on the left of the reversed text is clean on the right. -/
theorem cleanLeft_reverse : CleanLeft (words.map List.reverse) s.reverse ↔ CleanRight words s := by
  unfold CleanLeft CleanRight
  rw [List.forall_mem_map]
  refine forall₂_congr fun w _ => ?_
  rw [List.reverse_prefix]

section
variable [BEq α]

/-- Off the front; the words taken are no more than the fuel. -/
def stripLoop (words : List (List α)) : ℕ → List α → List α
  | 0, s => s
  | n + 1, s =>
    match words.find? fun w => w.isPrefixOf s with
    | some w => stripLoop words n (s.drop w.length)
    | none => s

/-- Words off the front until none is there. -/
def stripLeft (words : List (List α)) (s : List α) : List α := stripLoop words s.length s

/-- Off the end. -/
def stripRight (words : List (List α)) (s : List α) : List α :=
  (stripLeft (words.map List.reverse) s.reverse).reverse

/-- The loop only takes characters off the front. -/
theorem stripLoop_suffix (n : ℕ) (s : List α) : stripLoop words n s <:+ s := by
  induction n generalizing s with
  | zero => exact List.suffix_refl s
  | succ n ih =>
      rw [stripLoop]
      cases words.find? fun w => w.isPrefixOf s with
      | none => exact List.suffix_refl s
      | some w => exact (ih (s.drop w.length)).trans (List.drop_suffix _ s)

/-- What is left is an end of the text. -/
theorem stripLeft_suffix (s : List α) : stripLeft words s <:+ s := stripLoop_suffix _ s

/-- What is left is a beginning of the text. -/
theorem prefix_stripRight (s : List α) : stripRight words s <+: s := by
  have hsuffix : stripLeft (words.map List.reverse) s.reverse <:+ s.reverse := stripLeft_suffix s.reverse
  rw [← List.reverse_prefix, List.reverse_reverse] at hsuffix
  exact hsuffix

end

variable [BEq α] [LawfulBEq α]

/-! ## The front -/

/-- A clean text has no word in front of it to be found. -/
theorem find?_of_cleanLeft (h : CleanLeft words s) : (words.find? fun w => w.isPrefixOf s) = none := by
  refine List.find?_eq_none.mpr fun w hw => ?_
  rw [List.isPrefixOf_iff_prefix]
  exact h w hw

/-- The loop stops at once on a clean text. -/
theorem stripLoop_of_cleanLeft (h : CleanLeft words s) (n : ℕ) : stripLoop words n s = s := by
  cases n with
  | zero => rfl
  | succ n =>
      rw [stripLoop, find?_of_cleanLeft h]

/-- **Nothing is left to strip**: a word that is taken makes the text shorter. -/
theorem stripLoop_cleanLeft (hne : ∀ w ∈ words, w ≠ []) (n : ℕ) (s : List α) (hn : s.length ≤ n) :
    CleanLeft words (stripLoop words n s) := by
  induction n generalizing s with
  | zero =>
      intro w hw hstarts
      obtain rfl : s = [] := List.length_eq_zero_iff.mp (Nat.le_zero.mp hn)
      exact hne w hw (List.prefix_nil.mp hstarts)
  | succ n ih =>
      rw [stripLoop]
      cases hfind : words.find? fun w => w.isPrefixOf s with
      | none =>
          intro w hw hstarts
          have hno := List.find?_eq_none.mp hfind w hw
          rw [List.isPrefixOf_iff_prefix] at hno
          exact hno hstarts
      | some w =>
          have hpos : 0 < w.length := List.length_pos_of_ne_nil (hne w (List.mem_of_find?_eq_some hfind))
          refine ih (s.drop w.length) ?_
          rw [List.length_drop]
          omega

/-- A word at the front is the one that is taken, if no word starts another. -/
theorem stripLoop_append (hcode : ∀ v ∈ words, ∀ w ∈ words, v <+: w → v = w) {w : List α} (hw : w ∈ words) (n : ℕ)
    (s : List α) : stripLoop words (n + 1) (w ++ s) = stripLoop words n s := by
  rw [stripLoop]
  cases hfind : words.find? fun v => v.isPrefixOf (w ++ s) with
  | none =>
      have hno := List.find?_eq_none.mp hfind w hw
      rw [List.isPrefixOf_iff_prefix] at hno
      exact absurd (List.prefix_append w s) hno
  | some v =>
      have hv := List.mem_of_find?_eq_some hfind
      have hstarts : v <+: w ++ s := by
        have hfound := List.find?_some hfind
        exact List.isPrefixOf_iff_prefix.mp hfound
      have hsame : v = w := by
        rcases List.prefix_or_prefix_of_prefix hstarts (List.prefix_append w s) with hvw | hwv
        · exact hcode v hv w hw hvw
        · exact (hcode w hw v hv hwv).symm
      rw [hsame]
      dsimp only
      rw [List.drop_left]

/-- **Words before a clean text** are stripped. -/
theorem stripLeft_flatten (hne : ∀ w ∈ words, w ≠ []) (hcode : ∀ v ∈ words, ∀ w ∈ words, v <+: w → v = w)
    {pieces : List (List α)} (hpieces : ∀ w ∈ pieces, w ∈ words) (hcore : CleanLeft words core) :
    stripLeft words (pieces.flatten ++ core) = core := by
  have hloop : ∀ n, (pieces.flatten ++ core).length ≤ n → stripLoop words n (pieces.flatten ++ core) = core := by
    induction pieces with
    | nil => exact fun n _ => stripLoop_of_cleanLeft hcore n
    | cons w rest ih =>
        intro n hn
        obtain ⟨hw, hrest⟩ := List.forall_mem_cons.mp hpieces
        have hpos : 0 < w.length := List.length_pos_of_ne_nil (hne w hw)
        rw [List.flatten_cons, List.append_assoc] at hn ⊢
        rw [List.length_append] at hn
        obtain ⟨m, rfl⟩ : ∃ m, n = m + 1 := ⟨n - 1, by omega⟩
        rw [stripLoop_append hcode hw]
        exact ih hrest m (by omega)
  exact hloop _ (Nat.le_refl _)

/-- With no empty word the fuel lasts until the text is clean. -/
theorem stripLeft_cleanLeft (hne : ∀ w ∈ words, w ≠ []) (s : List α) : CleanLeft words (stripLeft words s) :=
  stripLoop_cleanLeft hne _ s (Nat.le_refl _)

/-- A clean text stays as it is. -/
theorem stripLeft_of_cleanLeft (h : CleanLeft words s) : stripLeft words s = s := stripLoop_of_cleanLeft h _

/-! ## The end -/

/-- What is left has no word at its end. -/
theorem stripRight_cleanRight (hne : ∀ w ∈ words, w ≠ []) (s : List α) : CleanRight words (stripRight words s) := by
  rw [← cleanLeft_reverse, stripRight, List.reverse_reverse]
  refine stripLeft_cleanLeft (List.forall_mem_map.mpr fun w hw => ?_) _
  exact mt List.reverse_eq_nil_iff.mp (hne w hw)

/-- A text without a word at its end stays as it is. -/
theorem stripRight_of_cleanRight (h : CleanRight words s) : stripRight words s = s := by
  rw [stripRight, stripLeft_of_cleanLeft (cleanLeft_reverse.mpr h), List.reverse_reverse]

/-- Words after a clean text are stripped, if no word ends another. -/
theorem stripRight_flatten (hne : ∀ w ∈ words, w ≠ []) (hcode : ∀ v ∈ words, ∀ w ∈ words, v <:+ w → v = w)
    {pieces : List (List α)} (hpieces : ∀ w ∈ pieces, w ∈ words) (hcore : CleanRight words core) :
    stripRight words (core ++ pieces.flatten) = core := by
  have hreversed : (core ++ pieces.flatten).reverse = (pieces.map List.reverse).reverse.flatten ++ core.reverse := by
    rw [List.reverse_append, List.reverse_flatten]
  have hne' : ∀ w ∈ words.map List.reverse, w ≠ [] :=
    List.forall_mem_map.mpr fun w hw => mt List.reverse_eq_nil_iff.mp (hne w hw)
  have hcode' : ∀ v ∈ words.map List.reverse, ∀ w ∈ words.map List.reverse, v <+: w → v = w := by
    intro v hv w hw hstarts
    obtain ⟨v', hv', rfl⟩ := List.mem_map.mp hv
    obtain ⟨w', hw', rfl⟩ := List.mem_map.mp hw
    rw [hcode v' hv' w' hw' (List.reverse_prefix.mp hstarts)]
  have hpieces' : ∀ w ∈ (pieces.map List.reverse).reverse, w ∈ words.map List.reverse := by
    intro w hw
    rw [List.mem_reverse] at hw
    obtain ⟨v, hv, rfl⟩ := List.mem_map.mp hw
    exact List.mem_map_of_mem (hpieces v hv)
  rw [stripRight, hreversed, stripLeft_flatten hne' hcode' hpieces' (cleanLeft_reverse.mpr hcore),
    List.reverse_reverse]

end Lib
