import Mathlib
import RCloneCloud.Lib.Path

/-!
# `Lib.Percent` — percent-encoding

An encoder escapes the bytes of a set and leaves the others, a percent sign of its input included. The decoder
undoes every escape and rejects a percent sign that starts none. Together they give back an input without a
percent sign; an input with one is rejected or comes back shorter.

`percentDecode_encode` is the round trip, for an encoder that escapes the percent sign or an input without one;
`percentDecode_encode_length` with `percentDecode_sign` is what becomes of the other inputs, whose result is shorter
or missing. Between them they decide whether an input survives. `splitOn_percentEncode` says when a path can be cut
into segments before or after it is encoded: the separator is left alone by the encoder and is nothing that an escape
is made of. A second encoder that leaves the first one's escapes alone adds its set to that of the first
(`percentEncode_percentEncode`).
-/

set_option autoImplicit false

namespace Lib

/-- The percent sign. -/
def percentSign : UInt8 := 37

/-- The hexadecimal digit of a number below 16, in upper case. -/
def hexDigit (n : Nat) : UInt8 := if n < 10 then UInt8.ofNat (48 + n) else UInt8.ofNat (55 + n)

/-- The value of a hexadecimal digit in either case; other bytes have none. -/
def hexValue (b : UInt8) : Option Nat :=
  if 48 ≤ b ∧ b ≤ 57 then some (b.toNat - 48)
  else if 65 ≤ b ∧ b ≤ 70 then some (b.toNat - 55)
  else if 97 ≤ b ∧ b ≤ 102 then some (b.toNat - 87)
  else none

/-- A percent sign and the two digits of a byte, the high one first. -/
def percentEncodeByte (b : UInt8) : List UInt8 :=
  [percentSign, hexDigit (b.toNat / 16), hexDigit (b.toNat % 16)]

/-- Escapes the bytes of the set. -/
def percentEncode (set : UInt8 → Bool) (s : List UInt8) : List UInt8 :=
  s.flatMap fun b => if set b then percentEncodeByte b else [b]

/-- Every percent sign must be followed by two digits; all other bytes stand for themselves. -/
def percentDecode : List UInt8 → Option (List UInt8)
  | [] => some []
  | b :: h :: l :: rest =>
    if b = percentSign then
      match hexValue h, hexValue l with
      | some x, some y => (percentDecode rest).map (UInt8.ofNat (16 * x + y) :: ·)
      | _, _ => none
    else (percentDecode (h :: l :: rest)).map (b :: ·)
  | b :: rest => if b = percentSign then none else (percentDecode rest).map (b :: ·)

/-- A digit that the encoder writes is read back, as all of them are upper case. -/
theorem hexValue_digit {n : Nat} (h : n < 16) : hexValue (hexDigit n) = some n := by
  revert n
  decide

/-- A percent sign is no digit, so an escape does not run into the next one. -/
theorem hexValue_percentSign : hexValue percentSign = none := by decide

variable {set : UInt8 → Bool} {s t : List UInt8} {b : UInt8}

theorem percentEncode_cons (set : UInt8 → Bool) (b : UInt8) (s : List UInt8) :
    percentEncode set (b :: s) = (if set b then percentEncodeByte b else [b]) ++ percentEncode set s :=
  List.flatMap_cons

/-- Encoding goes byte by byte, so it respects concatenation. -/
theorem percentEncode_append (set : UInt8 → Bool) (s t : List UInt8) :
    percentEncode set (s ++ t) = percentEncode set s ++ percentEncode set t :=
  List.flatMap_append

/-- A byte that is no percent sign is read as itself. -/
theorem percentDecode_cons (h : b ≠ percentSign) (s : List UInt8) :
    percentDecode (b :: s) = (percentDecode s).map (b :: ·) := by
  match s with
  | [] => simp [percentDecode, h]
  | [_] => simp [percentDecode, h]
  | _ :: _ :: _ => rw [percentDecode, if_neg h]

/-- A prefix without a percent sign is left alone. -/
theorem percentDecode_append (h : percentSign ∉ s) (t : List UInt8) :
    percentDecode (s ++ t) = (percentDecode t).map (s ++ ·) := by
  induction s with
  | nil => simp
  | cons b rest ih =>
      obtain ⟨hb, hrest⟩ := not_or.mp (mt List.mem_cons.mpr h)
      rw [List.cons_append, percentDecode_cons (Ne.symm hb), ih hrest, Option.map_map]
      rfl

/-- An escape in front is read as its byte and the rest is read on. -/
theorem percentDecode_encodeByte (b : UInt8) (s : List UInt8) :
    percentDecode (percentEncodeByte b ++ s) = (percentDecode s).map (b :: ·) := by
  have hlt : b.toNat < 256 := b.toNat_lt
  have hhigh : hexValue (hexDigit (b.toNat / 16)) = some (b.toNat / 16) := hexValue_digit (by omega)
  have hlow : hexValue (hexDigit (b.toNat % 16)) = some (b.toNat % 16) := hexValue_digit (by omega)
  have hbyte : UInt8.ofNat (16 * (b.toNat / 16) + b.toNat % 16) = b := by
    rw [Nat.div_add_mod]
    exact UInt8.ofNat_toNat
  show percentDecode (percentSign :: hexDigit (b.toNat / 16) :: hexDigit (b.toNat % 16) :: s) = _
  rw [percentDecode, if_pos rfl, hhigh, hlow]
  simp only [hbyte]

/-- **Decoding inverts encoding** when every percent sign is escaped. -/
theorem percentDecode_encode (h : percentSign ∈ s → set percentSign = true) :
    percentDecode (percentEncode set s) = some s := by
  induction s with
  | nil => rfl
  | cons b rest ih =>
      have hrest := ih fun hmem => h (List.mem_cons_of_mem b hmem)
      rw [percentEncode_cons]
      split
      · rw [percentDecode_encodeByte, hrest, Option.map_some]
      · rename_i hset
        have hb : b ≠ percentSign := by
          rintro rfl
          exact hset (h List.mem_cons_self)
        rw [List.singleton_append, percentDecode_cons hb, hrest, Option.map_some]

/-- What is encoded to bytes without a percent sign was encoded to itself. -/
theorem percentEncode_eq_of_not_mem (h : percentSign ∉ percentEncode set s) : percentEncode set s = s := by
  induction s with
  | nil => rfl
  | cons b rest ih =>
      rw [percentEncode_cons] at h ⊢
      split at h
      · exact absurd (List.mem_append_left _ List.mem_cons_self) h
      · rename_i hset
        rw [if_neg hset, ih fun hrest => h (List.mem_append_right _ hrest), List.singleton_append]

/-- What holds of the sign, of the digits and of the bytes that are left alone holds of the whole result. -/
theorem forall_mem_percentEncode {P : UInt8 → Prop} (hsign : P percentSign) (hdigit : ∀ n < 16, P (hexDigit n))
    (hset : ∀ b, set b = false → P b) (s : List UInt8) : ∀ b ∈ percentEncode set s, P b := by
  intro b hmem
  obtain ⟨c, -, hc⟩ := List.mem_flatMap.mp hmem
  have hlt : c.toNat < 256 := c.toNat_lt
  split at hc
  · simp only [percentEncodeByte, List.mem_cons, List.not_mem_nil, or_false] at hc
    rcases hc with rfl | rfl | rfl
    · exact hsign
    · exact hdigit _ (by omega)
    · exact hdigit _ (by omega)
  · next hno =>
      rw [List.mem_singleton] at hc
      rw [hc]
      exact hset c (Bool.eq_false_iff.mpr hno)

/-- An escape is made of the percent sign and digits only. -/
theorem not_mem_percentEncodeByte {sep : UInt8} (hsign : sep ≠ percentSign) (hdigit : hexValue sep = none)
    (b : UInt8) : sep ∉ percentEncodeByte b := by
  have hno : ∀ n < 16, sep ≠ hexDigit n := by
    rintro n hn rfl
    rw [hexValue_digit hn] at hdigit
    cases hdigit
  have hlt : b.toNat < 256 := b.toNat_lt
  simp only [percentEncodeByte, List.mem_cons, List.not_mem_nil, or_false, not_or]
  exact ⟨hsign, hno _ (by omega), hno _ (by omega)⟩

/-- Where the encoder leaves the separator alone and never writes it, the pieces are encoded one by one. -/
theorem splitOn_percentEncode {sep : UInt8} (hset : set sep = false) (hsign : sep ≠ percentSign)
    (hdigit : hexValue sep = none) (s : List UInt8) :
    (percentEncode set s).splitOn sep = (s.splitOn sep).map (percentEncode set) := by
  have hkept : (if set sep then percentEncodeByte sep else [sep]) = [sep] := by
    rw [hset, if_neg Bool.false_ne_true]
  refine splitOn_flatMap (f := fun b => if set b then percentEncodeByte b else [b]) hkept (fun b hb => ?_) s
  split
  · exact not_mem_percentEncodeByte hsign hdigit b
  · rw [List.mem_singleton]
    exact fun he => hb he.symm

/-- A set without the sign and the digits leaves an escape alone. -/
theorem percentEncode_encodeByte (hsign : set percentSign = false) (hdigit : ∀ n < 16, set (hexDigit n) = false) (b : UInt8) :
    percentEncode set (percentEncodeByte b) = percentEncodeByte b := by
  have hlt : b.toNat < 256 := b.toNat_lt
  have hhigh : set (hexDigit (b.toNat / 16)) = false := hdigit _ (by omega)
  have hlow : set (hexDigit (b.toNat % 16)) = false := hdigit _ (by omega)
  simp only [percentEncode, percentEncodeByte, List.flatMap_cons, List.flatMap_nil, hsign, hhigh, hlow,
    Bool.false_eq_true, if_false, List.cons_append, List.nil_append]

/-- **Escaping what is escaped**: the second set adds its own bytes. -/
theorem percentEncode_percentEncode {first : UInt8 → Bool} (hsign : set percentSign = false)
    (hdigit : ∀ n < 16, set (hexDigit n) = false) (s : List UInt8) :
    percentEncode set (percentEncode first s) = percentEncode (fun b => first b || set b) s := by
  induction s with
  | nil => rfl
  | cons b rest ih =>
      rw [percentEncode_cons, percentEncode_cons, percentEncode_append, ih]
      congr 1
      cases first b with
      | true => exact percentEncode_encodeByte hsign hdigit b
      | false =>
          show percentEncode set [b] = if set b then percentEncodeByte b else [b]
          rw [percentEncode_cons]
          exact List.append_nil _

/-- What is decoded after a percent sign that has been left alone: two digits left alone too. -/
theorem percentDecode_sign (h : percentDecode (percentSign :: percentEncode set s) = some t) :
    ∃ x y rest b u, s = x :: y :: rest ∧ t = b :: u ∧ percentDecode (percentEncode set rest) = some u := by
  match s with
  | [] => cases h
  | [x] =>
      rw [percentEncode_cons] at h
      split at h
      · simp [percentEncodeByte, percentEncode, percentDecode, hexValue_percentSign] at h
      · cases h
  | x :: y :: rest =>
      rw [percentEncode_cons, percentEncode_cons] at h
      split at h
      · simp [percentEncodeByte, percentDecode, hexValue_percentSign] at h
      · split at h
        · -- the second digit would be a percent sign
          have hsecond : percentDecode (percentSign :: x :: percentSign :: (hexDigit (y.toNat / 16) ::
              hexDigit (y.toNat % 16) :: percentEncode set rest)) = none := by
            rw [percentDecode, if_pos rfl, hexValue_percentSign]
            cases hexValue x <;> rfl
          exact nomatch hsecond.symm.trans h
        · simp only [List.cons_append, List.nil_append] at h
          rw [percentDecode, if_pos rfl] at h
          split at h
          · obtain ⟨u, hu, rfl⟩ := Option.map_eq_some_iff.mp h
            exact ⟨x, y, rest, _, u, rfl, rfl, hu⟩
          · cases h

/-- **An existing percent sign costs length**: it is rejected, or decoded with the two digits after it. -/
theorem percentDecode_encode_length (hset : set percentSign = false)
    (h : percentDecode (percentEncode set s) = some t) :
    t.length ≤ s.length ∧ (t.length = s.length → percentSign ∉ s) := by
  induction hn : s.length using Nat.strongRecOn generalizing s t with
  | ind n ih =>
      subst hn
      cases s with
      | nil =>
          cases h
          exact ⟨Nat.le_refl _, fun _ => List.not_mem_nil⟩
      | cons b rest =>
          rw [percentEncode_cons] at h
          by_cases hb : b = percentSign
          · subst hb
            rw [hset, if_neg Bool.false_ne_true, List.singleton_append] at h
            obtain ⟨x, y, others, c, u, rfl, rfl, hu⟩ := percentDecode_sign h
            have hshorter : others.length < (percentSign :: x :: y :: others).length := by
              simp only [List.length_cons]
              omega
            obtain ⟨hle, -⟩ := ih others.length hshorter hu rfl
            simp only [List.length_cons]
            omega
          · -- a byte other than the sign, escaped or not, comes back as it is
            have hrest : (percentDecode (percentEncode set rest)).map (b :: ·) = some t := by
              split at h
              · rwa [percentDecode_encodeByte] at h
              · rwa [List.singleton_append, percentDecode_cons hb] at h
            obtain ⟨u, hu, rfl⟩ := Option.map_eq_some_iff.mp hrest
            obtain ⟨hle, heq⟩ := ih rest.length (Nat.lt_succ_self _) hu rfl
            refine ⟨Nat.succ_le_succ hle, fun hlen hmem => ?_⟩
            rcases List.mem_cons.mp hmem with hsign | hin
            · exact hb hsign.symm
            · exact heq (Nat.succ_injective hlen) hin

end Lib
