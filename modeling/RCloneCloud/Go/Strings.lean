import RCloneCloud.Go.Basic
import RCloneCloud.Lib.Codec
import RCloneCloud.Lib.Strip

/-!
# `Go.Strings` — trimming, finding and slicing

A string is bytes, and white space is trimmed off it as the encodings of the white space characters. A slice
beyond the bounds of its string panics; here it is `none`.

Trimming is `Lib.Strip` at the encodings of the white space characters, none of which starts another. The two searches
return the first and the last place of a substring; their specifications (`indexString_eq`, `lastIndexString_eq`) are
what a proof about a parser uses.
-/

set_option autoImplicit false

namespace RCloneCloud

open Lib

/-! ## Trimming -/

/-- `unicode.IsSpace`. -/
def spaceRunes : List Char :=
  ['\t', '\n', '\x0b', '\x0c', '\r', ' ', '\u0085', '\u00a0', '\u1680', '\u2000', '\u2001', '\u2002', '\u2003',
    '\u2004', '\u2005', '\u2006', '\u2007', '\u2008', '\u2009', '\u200a', '\u2028', '\u2029', '\u202f', '\u205f',
    '\u3000']

/-- Their encodings. -/
def spaces : List GoString := spaceRunes.map String.utf8EncodeChar

/-- `strings.TrimSpace`. -/
def trimSpace (s : GoString) : GoString := stripRight spaces (stripLeft spaces s)

/-- Every white space character has a byte. -/
theorem spaces_ne_nil : ∀ w ∈ spaces, w ≠ [] := by decide

/-- No encoding of a white space starts another, and none ends another. -/
theorem spaces_code : (∀ v ∈ spaces, ∀ w ∈ spaces, v <+: w → v = w) ∧ ∀ v ∈ spaces, ∀ w ∈ spaces, v <:+ w → v = w := by
  decide +kernel

/-- The longest encoding of a white space character has three bytes. -/
theorem length_space_le : ∀ w ∈ spaces, w.length ≤ 3 := by decide

/-- A text is trimmed when no white space stands at either end. -/
def Trimmed (s : GoString) : Prop := CleanLeft spaces s ∧ CleanRight spaces s

/-- A string with no white space at its ends is left as it is. -/
theorem trimSpace_of_trimmed {s : GoString} (h : Trimmed s) : trimSpace s = s := by
  rw [trimSpace, stripLeft_of_cleanLeft h.1, stripRight_of_cleanRight h.2]

/-- What is left has none. -/
theorem trimmed_trimSpace (s : GoString) : Trimmed (trimSpace s) := by
  refine ⟨fun w hw hstarts => ?_, stripRight_cleanRight spaces_ne_nil _⟩
  exact stripLeft_cleanLeft spaces_ne_nil s w hw (hstarts.trans (prefix_stripRight _))

/-- In ASCII beyond the blank there is no white space to trim. -/
theorem trimmed_of_graphic {s : GoString} (h : ∀ b ∈ s, 32 < b ∧ b < 128) : Trimmed s := by
  have hspaces : ∀ w ∈ spaces, ∃ b ∈ w, ¬ (32 < b ∧ b < 128) := by decide +kernel
  refine ⟨fun w hw hstarts => ?_, fun w hw hends => ?_⟩
  · obtain ⟨b, hb, hno⟩ := hspaces w hw
    exact hno (h b (hstarts.subset hb))
  · obtain ⟨b, hb, hno⟩ := hspaces w hw
    exact hno (h b (hends.subset hb))

/-- **White space around a trimmed text** goes. -/
theorem trimSpace_surrounded {left right : List Char} {core : GoString} (hleft : ∀ c ∈ left, c ∈ spaceRunes)
    (hright : ∀ c ∈ right, c ∈ spaceRunes) (hcore : Trimmed core)
    (hstart : CleanLeft spaces (core ++ utf8Encode right)) :
    trimSpace (utf8Encode left ++ core ++ utf8Encode right) = core := by
  have hpieces : ∀ s : List Char, (∀ c ∈ s, c ∈ spaceRunes) → ∀ w ∈ s.map String.utf8EncodeChar, w ∈ spaces := by
    intro s hs w hw
    obtain ⟨c, hc, rfl⟩ := List.mem_map.mp hw
    exact List.mem_map_of_mem (hs c hc)
  have hflatten : ∀ s : List Char, utf8Encode s = (s.map String.utf8EncodeChar).flatten := fun _ => rfl
  rw [List.append_assoc, trimSpace, hflatten left,
    stripLeft_flatten spaces_ne_nil spaces_code.1 (hpieces left hleft) hstart, hflatten right,
    stripRight_flatten spaces_ne_nil spaces_code.2 (hpieces right hright) hcore.2]

/-! ## Finding -/

/-- `strings.HasPrefix`. -/
def hasPrefix (s sub : GoString) : Bool := sub.isPrefixOf s

/-- `strings.Index`; `none` is -1. -/
def indexString (s sub : GoString) : Option ℕ := (List.range (s.length + 1)).find? fun i => sub.isPrefixOf (s.drop i)

/-- `strings.Contains`. -/
def containsString (s sub : GoString) : Bool := (indexString s sub).isSome

/-- The last place up to `i`. -/
def lastIndexUpTo (s sub : GoString) : ℕ → Option ℕ
  | 0 => if sub.isPrefixOf s then some 0 else none
  | i + 1 => if sub.isPrefixOf (s.drop (i + 1)) then some (i + 1) else lastIndexUpTo s sub i

/-- `strings.LastIndex`. -/
def lastIndexString (s sub : GoString) : Option ℕ := lastIndexUpTo s sub s.length

section
variable {s sub : GoString} {i : ℕ}

/-- The check is the relation. -/
theorem hasPrefix_iff : hasPrefix s sub = true ↔ sub <+: s := List.isPrefixOf_iff_prefix

/-- At the place that is found the substring stands. -/
theorem indexString_some (h : indexString s sub = some i) : sub <+: s.drop i :=
  List.isPrefixOf_iff_prefix.mp (List.find?_range_eq_some.mp h).1

/-- The first place, and none before it. -/
theorem indexString_eq (hi : i ≤ s.length) (hfound : sub <+: s.drop i) (hbefore : ∀ j < i, ¬ sub <+: s.drop j) :
    indexString s sub = some i := by
  refine List.find?_range_eq_some.mpr ⟨List.isPrefixOf_iff_prefix.mpr hfound, List.mem_range.mpr (by omega), ?_⟩
  intro j hj
  rw [Bool.not_eq_true', Bool.eq_false_iff]
  intro hstarts
  exact hbefore j hj (List.isPrefixOf_iff_prefix.mp hstarts)

/-- Likewise for a search from the right, which does not look beyond its bound. -/
theorem lastIndexUpTo_some {n : ℕ} (h : lastIndexUpTo s sub n = some i) : i ≤ n ∧ sub <+: s.drop i := by
  induction n with
  | zero =>
      unfold lastIndexUpTo at h
      split at h
      · next hstarts =>
          cases h
          exact ⟨Nat.le_refl _, List.isPrefixOf_iff_prefix.mp hstarts⟩
      · cases h
  | succ n ih =>
      unfold lastIndexUpTo at h
      split at h
      · next hstarts =>
          cases h
          exact ⟨Nat.le_refl _, List.isPrefixOf_iff_prefix.mp hstarts⟩
      · exact ⟨Nat.le_succ_of_le (ih h).1, (ih h).2⟩

/-- At the last place that is found the substring stands. -/
theorem lastIndexString_some (h : lastIndexString s sub = some i) : i ≤ s.length ∧ sub <+: s.drop i :=
  lastIndexUpTo_some h

/-- The last place, and none after it. -/
theorem lastIndexString_eq (hi : i ≤ s.length) (hfound : sub <+: s.drop i)
    (hafter : ∀ j, i < j → j ≤ s.length → ¬ sub <+: s.drop j) : lastIndexString s sub = some i := by
  have hupto : ∀ n, i ≤ n → n ≤ s.length → lastIndexUpTo s sub n = some i := by
    intro n
    induction n with
    | zero =>
        intro hin _
        obtain rfl : i = 0 := Nat.le_zero.mp hin
        exact if_pos (List.isPrefixOf_iff_prefix.mpr hfound)
    | succ n ih =>
        intro hin hn
        rcases Nat.lt_or_eq_of_le hin with hlt | rfl
        · have hno : sub.isPrefixOf (s.drop (n + 1)) ≠ true := fun hstarts =>
            hafter (n + 1) hlt hn (List.isPrefixOf_iff_prefix.mp hstarts)
          rw [lastIndexUpTo, if_neg hno]
          exact ih (by omega) (by omega)
        · rw [lastIndexUpTo, if_pos (List.isPrefixOf_iff_prefix.mpr hfound)]
  exact hupto s.length hi (Nat.le_refl _)

/-- One byte is contained as a string exactly if it is there. -/
theorem containsString_singleton {c : UInt8} : containsString s [c] = true ↔ c ∈ s := by
  rw [containsString, Option.isSome_iff_exists]
  constructor
  · rintro ⟨i, hi⟩
    have hmem : c ∈ s.drop i := (indexString_some hi).subset (List.mem_singleton_self c)
    exact List.mem_of_mem_drop hmem
  · intro hc
    obtain ⟨before, after, rfl, hnot⟩ := List.eq_append_cons_of_mem hc
    refine ⟨before.length, indexString_eq (by simp) ?_ fun j hj hstarts => hnot ?_⟩
    · rw [List.drop_left]
      exact List.prefix_append [c] after
    · rw [List.drop_append_of_le_length (Nat.le_of_lt hj)] at hstarts
      have hdrop : before.drop j ≠ [] := by simpa using hj
      obtain ⟨d, rest, hd⟩ := List.exists_cons_of_ne_nil hdrop
      rw [hd, List.cons_append, List.cons_prefix_cons] at hstarts
      rw [hstarts.1]
      exact List.mem_of_mem_drop (hd ▸ List.mem_cons_self)

end

/-! ## Slicing -/

/-- `s[lo:hi]`; out of bounds it panics. -/
def slice (s : GoString) (lo hi : ℕ) : Option GoString :=
  if lo ≤ hi ∧ hi ≤ s.length then some ((s.take hi).drop lo) else none

/-- A slice within the bounds is the bytes between them. -/
theorem slice_eq {s : GoString} {lo hi : ℕ} (hlo : lo ≤ hi) (hhi : hi ≤ s.length) :
    slice s lo hi = some ((s.take hi).drop lo) := if_pos ⟨hlo, hhi⟩

end RCloneCloud
