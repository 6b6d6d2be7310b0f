import Mathlib
import RCloneCloud.Lib.Path

/-!
# `Lib.Codec` — UTF-8 and base64

Text is a list of Unicode scalar values. `utf8Decode` takes any bytes: where no character starts it gives
the replacement character and goes on with the next byte. `base64Decode` takes any text: it stops at the
first padding sign and passes over what is no digit. Each inverts its encoder.

Both decoders are total, as those of the languages that use them are: no input is an error, and a caller that has to
reject one must compare lengths or encode the result again. The round trips are by induction on the text, with fuel
for `utf8DecodeLoop` because one step of it may consume up to four bytes.

* `utf8Decode_encode` and `utf8Encode_injective`: text survives being written as bytes and read again;
* `splitOn_utf8Encode`: cutting at an ASCII sign is the same before encoding and after it;
* `eq_of_utf8Encode_length`: a part of a text that has no fewer bytes than the text is all of it;
* `base64Decode_stripped`: the decoder reads back what the encoder wrote, without its padding too.
-/

set_option autoImplicit false

namespace Lib

/-! ## UTF-8 -/

/-- The bytes of a text: each character's one to four bytes, one after another. -/
def utf8Encode (s : List Char) : List UInt8 := s.flatMap String.utf8EncodeChar

/-- The replacement character. -/
def replacement : Char := Char.ofNat 0xFFFD

/-- The decoder's loop; the bytes left are no more than the fuel. -/
def utf8DecodeLoop : Nat → List UInt8 → List Char
  | 0, _ => []
  | _, [] => []
  | n + 1, b :: rest =>
    match (b :: rest).toByteArray.utf8DecodeChar? 0 with
    | some c => c :: utf8DecodeLoop n ((b :: rest).drop c.utf8Size)
    | none => replacement :: utf8DecodeLoop n rest

/-- The text of any bytes. One unit of fuel a byte is enough: every step consumes at least one. -/
def utf8Decode (bytes : List UInt8) : List Char := utf8DecodeLoop bytes.length bytes

theorem utf8Encode_append (s t : List Char) : utf8Encode (s ++ t) = utf8Encode s ++ utf8Encode t := by
  simp [utf8Encode]

/-- With fuel for its bytes the loop gives a text back, character by character; the cases are the lengths that a
character's encoding can have. -/
theorem utf8DecodeLoop_encode (s : List Char) (n : Nat) (hn : (utf8Encode s).length ≤ n) :
    utf8DecodeLoop n (utf8Encode s) = s := by
  induction s generalizing n with
  | nil =>
      show utf8DecodeLoop n [] = []
      cases n <;> rfl
  | cons c rest ih =>
      have hsplit : utf8Encode (c :: rest) = String.utf8EncodeChar c ++ utf8Encode rest := rfl
      have hsize : (String.utf8EncodeChar c).length = c.utf8Size := String.length_utf8EncodeChar c
      have hpos : 0 < c.utf8Size := c.utf8Size_pos
      -- the first character is read off the bytes it starts with
      have hfirst : (utf8Encode (c :: rest)).toByteArray.utf8DecodeChar? 0 = some c := by
        rw [hsplit, List.toByteArray_append]
        exact ByteArray.utf8DecodeChar?_utf8EncodeChar_append
      rw [hsplit, List.length_append, hsize] at hn
      obtain ⟨m, rfl⟩ : ∃ m, n = m + 1 := ⟨n - 1, by omega⟩
      cases hbytes : utf8Encode (c :: rest) with
      | nil =>
          have hlen := congrArg List.length (hsplit.symm.trans hbytes)
          rw [List.length_append, hsize] at hlen
          simp at hlen
          omega
      | cons b bs =>
          rw [hbytes] at hfirst
          simp only [utf8DecodeLoop, hfirst]
          rw [← hbytes, hsplit, ← hsize, List.drop_left, ih m (by omega)]

/-- **UTF-8 decoding inverts encoding.** -/
theorem utf8Decode_encode (s : List Char) : utf8Decode (utf8Encode s) = s :=
  utf8DecodeLoop_encode s _ (Nat.le_refl _)

theorem utf8Encode_injective : Function.Injective utf8Encode := by
  intro s t h
  rw [← utf8Decode_encode s, h, utf8Decode_encode]

/-- Every character has a byte, so only the empty text has none. -/
theorem utf8Encode_ne_nil {text : List Char} (h : text ≠ []) : utf8Encode text ≠ [] := by
  intro hnil
  exact h (utf8Encode_injective hnil)

/-- A character below 128 is its own single byte. -/
theorem utf8EncodeChar_ascii {c : Char} (h : c.toNat < 128) :
    String.utf8EncodeChar c = [UInt8.ofNat c.toNat] := by
  have hsmall : c.val.toNat ≤ 127 := Nat.le_of_lt_succ h
  unfold String.utf8EncodeChar
  exact if_pos hsmall

/-- The bytes of the characters beyond ASCII are beyond it too. -/
theorem mem_utf8EncodeChar {c x : Char} (h : c.toNat < 128) :
    UInt8.ofNat c.toNat ∈ String.utf8EncodeChar x ↔ x = c := by
  have hchar : x = c ↔ c.toNat = x.val.toNat :=
    ⟨fun he => congrArg Char.toNat he.symm, fun he => Char.ext (UInt32.toNat_inj.mp he.symm)⟩
  have hvalid : x.val.toNat < 1114112 := by
    have hx := x.valid
    simp only [UInt32.isValidChar, Nat.isValidChar] at hx
    omega
  rw [hchar]
  fun_cases String.utf8EncodeChar x with
    (simp only [List.mem_cons, List.not_mem_nil, or_false, ← UInt8.toNat_inj, UInt8.toNat_ofNat']; omega)

/-- **ASCII shows through the encoding**: its byte occurs exactly where the character does. -/
theorem mem_utf8Encode {c : Char} (h : c.toNat < 128) (s : List Char) :
    UInt8.ofNat c.toNat ∈ utf8Encode s ↔ c ∈ s := by
  simp only [utf8Encode, List.mem_flatMap, mem_utf8EncodeChar h, exists_eq_right]

/-- No byte of a longer encoding is an ASCII byte, so a text can be cut before it is encoded or after. -/
theorem splitOn_utf8Encode {sep : Char} (h : sep.toNat < 128) (s : List Char) :
    (utf8Encode s).splitOn (UInt8.ofNat sep.toNat) = (s.splitOn sep).map utf8Encode :=
  splitOn_flatMap (utf8EncodeChar_ascii h) (fun _ hc => mt (mem_utf8EncodeChar h).mp hc) s

theorem length_utf8Encode (s : List Char) : (utf8Encode s).length = (s.map Char.utf8Size).sum := by
  simp only [utf8Encode, List.length_flatMap, String.length_utf8EncodeChar]

/-- A text of fewer characters has no more bytes, wherever characters were left out. -/
theorem length_utf8Encode_le {s t : List Char} (h : List.Sublist s t) :
    (utf8Encode s).length ≤ (utf8Encode t).length := by
  rw [length_utf8Encode, length_utf8Encode]
  exact (h.map Char.utf8Size).sum_le_sum fun _ _ => Nat.zero_le _

/-- What loses characters loses bytes. -/
theorem eq_of_utf8Encode_length {s t : List Char} (h : List.Sublist s t)
    (hlen : (utf8Encode t).length ≤ (utf8Encode s).length) : s = t := by
  induction h with
  | slnil => rfl
  | @cons s t c hsub ih =>
      have hpos : 0 < c.utf8Size := c.utf8Size_pos
      have hle := length_utf8Encode_le hsub
      rw [length_utf8Encode, length_utf8Encode, List.map_cons, List.sum_cons] at hlen
      rw [length_utf8Encode, length_utf8Encode] at hle
      omega
  | @cons_cons s t c hsub ih =>
      simp only [length_utf8Encode, List.map_cons, List.sum_cons] at hlen ih
      rw [ih (by omega)]

/-! ## Base64 -/

/-- The digit of a value below 64. -/
def base64Digit (n : Nat) : Char :=
  if n < 26 then Char.ofNat (65 + n)
  else if n < 52 then Char.ofNat (97 + (n - 26))
  else if n < 62 then Char.ofNat (48 + (n - 52))
  else if n = 62 then '+'
  else '/'

/-- The value of a digit, in the standard alphabet or in the one for URLs. -/
def base64Value (c : Char) : Option Nat :=
  let n := c.toNat
  if 65 ≤ n ∧ n ≤ 90 then some (n - 65)
  else if 97 ≤ n ∧ n ≤ 122 then some (n - 97 + 26)
  else if 48 ≤ n ∧ n ≤ 57 then some (n - 48 + 52)
  else if c = '+' ∨ c = '-' then some 62
  else if c = '/' ∨ c = '_' then some 63
  else none

/-- The values of the digits of a byte string, the padding left out. -/
def base64Values : List UInt8 → List Nat
  | [] => []
  | [a] => [a.toNat / 4, a.toNat % 4 * 16]
  | [a, b] => [a.toNat / 4, a.toNat % 4 * 16 + b.toNat / 16, b.toNat % 16 * 4]
  | a :: b :: c :: rest =>
    a.toNat / 4 :: (a.toNat % 4 * 16 + b.toNat / 16) :: (b.toNat % 16 * 4 + c.toNat / 64) ::
      c.toNat % 64 :: base64Values rest

/-- The padding that fills the last group of four digits. -/
def base64Padding (n : Nat) : List Char :=
  match n % 3 with
  | 1 => ['=', '=']
  | 2 => ['=']
  | _ => []

def base64Encode (bytes : List UInt8) : List Char :=
  (base64Values bytes).map base64Digit ++ base64Padding bytes.length

/-- The bytes of a list of digit values; a single digit left over is dropped. -/
def base64Bytes : List Nat → List UInt8
  | x :: y :: z :: w :: rest =>
    UInt8.ofNat (x * 4 + y / 16) :: UInt8.ofNat (y % 16 * 16 + z / 4) :: UInt8.ofNat (z % 4 * 64 + w) ::
      base64Bytes rest
  | [x, y, z] => [UInt8.ofNat (x * 4 + y / 16), UInt8.ofNat (y % 16 * 16 + z / 4)]
  | [x, y] => [UInt8.ofNat (x * 4 + y / 16)]
  | _ => []

/-- The bytes of any text: what stands before the first padding sign, with everything passed over that is no digit. -/
def base64Decode (s : List Char) : List UInt8 :=
  base64Bytes ((s.takeWhile fun c => c ≠ '=').filterMap base64Value)

theorem base64Value_digit {n : Nat} (h : n < 64) : base64Value (base64Digit n) = some n := by
  revert n
  decide

/-- No digit is the padding sign, so stripping the padding takes off no digit. -/
theorem base64Digit_ne_pad {n : Nat} (h : n < 64) : base64Digit n ≠ '=' := by
  revert n
  decide

theorem base64Values_lt (bytes : List UInt8) : ∀ n ∈ base64Values bytes, n < 64 := by
  induction bytes using base64Values.induct with
  | case1 => simp [base64Values]
  | case2 a =>
      have ha := a.toNat_lt
      simp only [base64Values, List.mem_cons, List.not_mem_nil, or_false]
      rintro n (rfl | rfl) <;> omega
  | case3 a b =>
      have ha := a.toNat_lt
      have hb := b.toNat_lt
      simp only [base64Values, List.mem_cons, List.not_mem_nil, or_false]
      rintro n (rfl | rfl | rfl) <;> omega
  | case4 a b c rest ih =>
      have ha := a.toNat_lt
      have hb := b.toNat_lt
      have hc := c.toNat_lt
      simp only [base64Values, List.mem_cons]
      rintro n (rfl | rfl | rfl | rfl | hn)
      · omega
      · omega
      · omega
      · omega
      · exact ih n hn

/-- Three bytes make four digits; what is left over is rounded up. -/
theorem length_base64Values (bytes : List UInt8) : (base64Values bytes).length = (bytes.length * 4 + 2) / 3 := by
  induction bytes using base64Values.induct with
  | case1 => rfl
  | case2 a => simp [base64Values]
  | case3 a b => simp [base64Values]
  | case4 a b c rest ih =>
      simp only [base64Values, List.length_cons, ih]
      omega

theorem uint8_eq_of {a : UInt8} {n : Nat} (h : n = a.toNat) : UInt8.ofNat n = a := by
  rw [h, UInt8.ofNat_toNat]

/-- Four six-bit values and three bytes carry the same bits; the last group is short by one byte or two. -/
theorem base64Bytes_values (bytes : List UInt8) : base64Bytes (base64Values bytes) = bytes := by
  induction bytes using base64Values.induct with
  | case1 => rfl
  | case2 a =>
      have ha := a.toNat_lt
      simp only [base64Values, base64Bytes]
      rw [uint8_eq_of (a := a) (by omega)]
  | case3 a b =>
      have ha := a.toNat_lt
      have hb := b.toNat_lt
      simp only [base64Values, base64Bytes]
      rw [uint8_eq_of (a := a) (by omega), uint8_eq_of (a := b) (by omega)]
  | case4 a b c rest ih =>
      have ha := a.toNat_lt
      have hb := b.toNat_lt
      have hc := c.toNat_lt
      simp only [base64Values, base64Bytes, ih]
      rw [uint8_eq_of (a := a) (by omega), uint8_eq_of (a := b) (by omega),
        uint8_eq_of (a := c) (by omega)]

/-- The encoded text without its padding is the digits. -/
theorem base64Encode_stripped (bytes : List UInt8) :
    ((base64Encode bytes).filter fun c => c ≠ '=') = (base64Values bytes).map base64Digit := by
  have hdigits : ((base64Values bytes).map base64Digit).filter (fun c => c ≠ '=')
      = (base64Values bytes).map base64Digit := by
    refine List.filter_eq_self.mpr fun c hc => ?_
    obtain ⟨n, hn, rfl⟩ := List.mem_map.mp hc
    exact decide_eq_true (base64Digit_ne_pad (base64Values_lt bytes n hn))
  have hpadding : (base64Padding bytes.length).filter (fun c => c ≠ '=') = [] := by
    unfold base64Padding
    split <;> rfl
  rw [base64Encode, List.filter_append, hdigits, hpadding, List.append_nil]

/-- Digits are read back, in whichever of the two alphabets they are. -/
theorem base64Decode_digits {digit : Nat → Char} (hdigit : ∀ n < 64, digit n ≠ '=' ∧ base64Value (digit n) = some n)
    (bytes : List UInt8) : base64Decode ((base64Values bytes).map digit) = bytes := by
  have htake : ((base64Values bytes).map digit).takeWhile (fun c => c ≠ '=') = (base64Values bytes).map digit := by
    refine List.takeWhile_eq_self_iff.mpr fun c hc => ?_
    obtain ⟨n, hn, rfl⟩ := List.mem_map.mp hc
    exact decide_eq_true (hdigit n (base64Values_lt bytes n hn)).1
  have hvalues : ((base64Values bytes).map digit).filterMap base64Value = base64Values bytes := by
    rw [List.filterMap_map]
    refine (List.filterMap_congr fun n hn => ?_).trans (List.filterMap_some ..)
    exact (hdigit n (base64Values_lt bytes n hn)).2
  rw [base64Decode, htake, hvalues, base64Bytes_values]

/-- **Base64 decoding inverts encoding, with the padding left out.** -/
theorem base64Decode_stripped (bytes : List UInt8) :
    base64Decode ((base64Encode bytes).filter fun c => c ≠ '=') = bytes := by
  rw [base64Encode_stripped]
  exact base64Decode_digits (fun n hn => ⟨base64Digit_ne_pad hn, base64Value_digit hn⟩) bytes

theorem base64Encode_stripped_ne_nil {bytes : List UInt8} (h : bytes ≠ []) :
    ((base64Encode bytes).filter fun c => c ≠ '=') ≠ [] := by
  intro hnil
  have hdecoded := base64Decode_stripped bytes
  rw [hnil] at hdecoded
  exact h hdecoded.symm

end Lib
