import RCloneCloud.Ui.FolderLink

/-!
# `Ui.Pkce` — the code verifier of the login and its challenge

The verifier is made of 56 random values of 32 bits, each written in hexadecimal with a zero before it. The cut
to the last two digits does not cut: it asks for the substring from a negative place on, which is the whole text.
The challenge is the base64 text of the verifier's hash in the alphabet for URLs, and is legal for every verifier.

The legal length decides. Each value is written with as many digits as it has, so the length of the verifier is a sum
of logarithms (`length_generateCodeVerifier`); it is at least 112 and must be 128 at most, which leaves room for
sixteen more digits over all 56 values (`generateCodeVerifier_legal_iff`). The hash is a parameter, so two challenges
are told apart exactly where it tells the verifiers apart (`generateCodeChallenge_eq_iff`).
-/

set_option autoImplicit false

namespace RCloneCloud

open Lib

/-! ## The verifier -/

/-- `dec.toString(16)`. -/
def hexString (dec : UInt32) : JsString := Nat.toDigits 16 dec.toNat

/-- `s.substring(start)`: a negative start is taken as 0. -/
def substring (s : JsString) (start : ℤ) : JsString := s.drop start.toNat

/-- The text of one value. -/
def formatValue (dec : UInt32) : JsString := substring ('0' :: hexString dec) (-2)

/-- `generateCodeVerifier` on the values of `crypto.getRandomValues`. -/
def generateCodeVerifier (array : Vector UInt32 56) : JsString := (array.toList.map formatValue).flatten

/-- The unreserved characters. -/
def unreserved (c : Char) : Bool := c.isAlphanum || c ∈ ['-', '.', '_', '~']

/-- **A legal verifier**: 43 to 128 unreserved characters. -/
def LegalVerifier (verifier : JsString) : Prop :=
  43 ≤ verifier.length ∧ verifier.length ≤ 128 ∧ ∀ c ∈ verifier, unreserved c = true

/-! ## Hexadecimal digits -/

/-- Hexadecimal digits need no escape. -/
theorem unreserved_of_mem_toDigits {n : ℕ} {c : Char} (h : c ∈ Nat.toDigits 16 n) : unreserved c = true := by
  have hdigit : ∀ d < 16, unreserved d.digitChar = true := by decide
  induction n using Nat.strong_induction_on with
  | _ n ih =>
      rw [Nat.toDigits_eq_if (by decide)] at h
      split at h
      · next hlt =>
          rw [List.mem_singleton.mp h]
          exact hdigit n hlt
      · next hge =>
          rcases List.mem_append.mp h with hfirst | hlast
          · exact ih (n / 16) (by omega) hfirst
          · rw [List.mem_singleton.mp hlast]
            exact hdigit (n % 16) (by omega)

/-- How many digits a number has. -/
theorem length_toDigits (n : ℕ) : (Nat.toDigits 16 n).length = Nat.log 16 n + 1 := by
  apply Nat.le_antisymm
  · rw [Nat.length_toDigits_le_iff (by decide) (Nat.succ_pos _)]
    exact Nat.lt_pow_succ_log_self (by decide) n
  · by_contra hshort
    have hle : (Nat.toDigits 16 n).length ≤ Nat.log 16 n := by omega
    have hpos : 0 < Nat.log 16 n := lt_of_lt_of_le Nat.length_toDigits_pos hle
    have hlt : n < 16 ^ Nat.log 16 n := (Nat.length_toDigits_le_iff (by decide) hpos).mp hle
    have hne : n ≠ 0 := by
      rintro rfl
      simp at hpos
    exact absurd (Nat.pow_log_le_self 16 hne) (Nat.not_le_of_lt hlt)

/-! ## Its length -/

/-- **Nothing is cut.** -/
theorem formatValue_eq (dec : UInt32) : formatValue dec = '0' :: hexString dec := rfl

/-- A value is written with a zero and all its digits. -/
theorem length_formatValue (dec : UInt32) : (formatValue dec).length = Nat.log 16 dec.toNat + 2 := by
  rw [formatValue_eq, List.length_cons, hexString, length_toDigits]

/-- The length is 56 zeros and the digits of all values. -/
theorem length_generateCodeVerifier (array : Vector UInt32 56) :
    (generateCodeVerifier array).length = (array.toList.map fun dec => Nat.log 16 dec.toNat + 1).sum + 56 := by
  have hsum : ∀ l : List UInt32, ((l.map formatValue).flatten).length =
      (l.map fun dec => Nat.log 16 dec.toNat + 1).sum + l.length := by
    intro l
    induction l with
    | nil => rfl
    | cons dec rest ih =>
        rw [List.map_cons, List.flatten_cons, List.length_append, length_formatValue, ih, List.map_cons, List.sum_cons,
          List.length_cons]
        omega
  rw [generateCodeVerifier, hsum, Vector.length_toList]

/-- The characters are legal in any case, and there are enough of them. -/
theorem unreserved_of_mem_verifier {array : Vector UInt32 56} {c : Char} (h : c ∈ generateCodeVerifier array) :
    unreserved c = true := by
  obtain ⟨text, htext, hc⟩ := List.mem_flatten.mp h
  obtain ⟨dec, -, rfl⟩ := List.mem_map.mp htext
  rw [formatValue_eq] at hc
  rcases List.mem_cons.mp hc with rfl | hhex
  · rfl
  · exact unreserved_of_mem_toDigits hhex

/-- Each value has a digit at least, besides its zero. -/
theorem length_verifier_ge (array : Vector UInt32 56) : 112 ≤ (generateCodeVerifier array).length := by
  have hdigits : ∀ l : List UInt32, l.length ≤ (l.map fun dec => Nat.log 16 dec.toNat + 1).sum := by
    intro l
    induction l with
    | nil => exact Nat.le_refl _
    | cons dec rest ih =>
        rw [List.map_cons, List.sum_cons, List.length_cons]
        omega
  have hlength := hdigits array.toList
  rw [Vector.length_toList] at hlength
  rw [length_generateCodeVerifier]
  omega

/-- **The verifier is legal** exactly if its 56 values have no more than 72 hexadecimal digits together. -/
theorem generateCodeVerifier_legal_iff (array : Vector UInt32 56) :
    LegalVerifier (generateCodeVerifier array) ↔ (array.toList.map fun dec => Nat.log 16 dec.toNat + 1).sum ≤ 72 := by
  have hge := length_verifier_ge array
  have hlength := length_generateCodeVerifier array
  constructor
  · rintro ⟨-, hle, -⟩
    omega
  · intro hsum
    exact ⟨by omega, by omega, fun c hc => unreserved_of_mem_verifier hc⟩

/-- **The largest values** give 504 characters. -/
theorem generateCodeVerifier_too_long :
    (generateCodeVerifier (Vector.replicate 56 0xffffffff)).length = 504 ∧
      ¬ LegalVerifier (generateCodeVerifier (Vector.replicate 56 0xffffffff)) := by
  have hlength : (generateCodeVerifier (Vector.replicate 56 0xffffffff)).length = 504 := by decide +kernel
  refine ⟨hlength, ?_⟩
  rintro ⟨-, hle, -⟩
  rw [hlength] at hle
  omega

/-! ## The challenge -/

/-- `base64urlencode`: two digits are replaced, the padding at the end goes. -/
def base64urlencode (a : List UInt8) : JsString :=
  let replaced := (base64Encode a).map fun c => if c = '+' then '-' else c
  let replaced := replaced.map fun c => if c = '/' then '_' else c
  replaced.rdropWhile (· = '=')

/-- `generateCodeChallenge`, with `crypto.subtle.digest` for SHA-256. -/
def generateCodeChallenge (digest : List UInt8 → Vector UInt8 32) (codeVerifier : JsString) : JsString :=
  base64urlencode (digest (utf8Encode codeVerifier)).toList

/-- The digit of a value in the alphabet for URLs. -/
def base64urlDigit (n : ℕ) : Char := if n = 62 then '-' else if n = 63 then '_' else base64Digit n

/-- A digit of the alphabet for urls is the base64 digit with two signs replaced. -/
theorem base64urlDigit_spec {n : ℕ} (h : n < 64) :
    (let c := if base64Digit n = '+' then '-' else base64Digit n; if c = '/' then '_' else c) = base64urlDigit n ∧
      base64urlDigit n ≠ '=' ∧ unreserved (base64urlDigit n) = true ∧ base64Value (base64urlDigit n) = some n := by
  revert n
  decide

/-- The encoding writes the six-bit values in the alphabet for urls, without padding. -/
theorem base64urlencode_eq (a : List UInt8) : base64urlencode a = (base64Values a).map base64urlDigit := by
  have hpadding : ∀ s : JsString, (s ++ base64Padding a.length).rdropWhile (· = '=') = s.rdropWhile (· = '=') := by
    intro s
    unfold base64Padding
    split
    · show (s ++ (['='] ++ ['='])).rdropWhile _ = _
      rw [← List.append_assoc, List.rdropWhile_concat_pos _ _ _ rfl, List.rdropWhile_concat_pos _ _ _ rfl]
    · exact List.rdropWhile_concat_pos _ _ _ rfl
    · rw [List.append_nil]
  have hplain : ((base64Padding a.length).map fun c => if c = '+' then '-' else c).map
      (fun c => if c = '/' then '_' else c) = base64Padding a.length := by
    unfold base64Padding
    split <;> rfl
  have hdigits : (((base64Values a).map base64Digit).map fun c => if c = '+' then '-' else c).map
      (fun c => if c = '/' then '_' else c) = (base64Values a).map base64urlDigit := by
    rw [List.map_map, List.map_map]
    exact List.map_congr_left fun n hn => (base64urlDigit_spec (base64Values_lt a n hn)).1
  unfold base64urlencode base64Encode
  dsimp only
  rw [List.map_append, List.map_append, hdigits, hplain, hpadding, List.rdropWhile_eq_self_iff]
  intro hne hpad
  -- the last digit is no padding
  obtain ⟨n, hn, hlast⟩ := List.mem_map.mp (List.getLast_mem hne)
  rw [← hlast, decide_eq_true_iff] at hpad
  exact (base64urlDigit_spec (base64Values_lt a n hn)).2.1 hpad

/-- The bytes can be read back. -/
theorem base64Decode_base64urlencode (a : List UInt8) : base64Decode (base64urlencode a) = a := by
  rw [base64urlencode_eq]
  exact base64Decode_digits (fun n hn => ⟨(base64urlDigit_spec hn).2.1, (base64urlDigit_spec hn).2.2.2⟩) a

/-- **The challenge is always legal**: 43 unreserved characters, whatever the verifier. -/
theorem generateCodeChallenge_legal (digest : List UInt8 → Vector UInt8 32) (codeVerifier : JsString) :
    (generateCodeChallenge digest codeVerifier).length = 43 ∧ LegalVerifier (generateCodeChallenge digest codeVerifier) := by
  have hlength : (generateCodeChallenge digest codeVerifier).length = 43 := by
    rw [generateCodeChallenge, base64urlencode_eq, List.length_map, length_base64Values, Vector.length_toList]
  refine ⟨hlength, by omega, by omega, fun c hc => ?_⟩
  rw [generateCodeChallenge, base64urlencode_eq] at hc
  obtain ⟨n, hn, rfl⟩ := List.mem_map.mp hc
  exact (base64urlDigit_spec (base64Values_lt _ n hn)).2.2.1

/-- **It stands for the hash**: two verifiers have one challenge exactly if they have one hash. -/
theorem generateCodeChallenge_eq_iff (digest : List UInt8 → Vector UInt8 32) (v w : JsString) :
    generateCodeChallenge digest v = generateCodeChallenge digest w ↔ digest (utf8Encode v) = digest (utf8Encode w) := by
  constructor
  · intro h
    have hdecoded := congrArg base64Decode h
    rw [generateCodeChallenge, generateCodeChallenge, base64Decode_base64urlencode, base64Decode_base64urlencode] at hdecoded
    exact Vector.toList_inj.mp hdecoded
  · intro h
    rw [generateCodeChallenge, generateCodeChallenge, h]

end RCloneCloud
