import RCloneCloud.Auth.Jwt
import RCloneCloud.Go.Strings
import RCloneCloud.Handler.Serve

/-!
# `Handler.Bearer` — the token of a request

`extractBearer` cuts the token out of the `Authorization` header, `bearerMiddleware` verifies it. A request is
let through with exactly the claims of a verified token (`bearerMiddleware_ok`), and is otherwise told which of
three things was wrong.

The header is cut at its first space, the scheme is compared without regard to case, and the token is what is left
when white space is trimmed off. `extractBearer_bearer` is the direction a client needs: a header made of `Bearer`, a
space and a token is read back as this token exactly when the token is trimmed and not empty.
-/

set_option autoImplicit false

namespace RCloneCloud

open Lib

/-- `strings.SplitN(h, " ", 2)`, when it has two parts. -/
def splitSpace (h : GoString) : Option (GoString × GoString) :=
  (index h (ascii ' ')).map fun i => (h.take i, h.drop (i + 1))

/-- `extractBearer`, on the value of the header, `""` if it is missing. The scheme is compared with
    `strings.EqualFold`: no letter of `Bearer` folds outside ASCII. -/
def extractBearer (h : GoString) : Option GoString :=
  if h = [] then none
  else
    match splitSpace h with
    | none => none
    | some (scheme, rest) =>
      if scheme.map lowerByte ≠ str "bearer" then none
      else
        let tok := trimSpace rest
        if tok = [] then none else some tok

/-- The reply of `jsonError`. -/
structure JsonError where
  status : Nat
  contentType : GoString
  wwwAuthenticate : Option GoString
  error : GoString
deriving DecidableEq

/-- The error body that the middleware writes, with its status. -/
def jsonError (msg : String) (status : Nat) : JsonError where
  status := status
  contentType := str "application/json"
  wwwAuthenticate := if status = 401 then some (str "Bearer realm=\"rclone-api\"") else none
  error := str msg

/-- `bearerMiddleware`: the claims put into the context of the request, or the reply. -/
def bearerMiddleware (J : JwtLib) (publicKey : PublicKey) (now : Int) (authorization : GoString) :
    Except JsonError TokenClaims :=
  match extractBearer authorization with
  | none => .error (jsonError "missing or malformed token" 401)
  | some raw =>
    match verifyToken J raw publicKey now with
    | .error err =>
      if err.expired then .error (jsonError "token expired" 401) else .error (jsonError "invalid token" 401)
    | .ok claims => .ok claims

/-! ## The header -/

section
variable {header scheme rest tok : GoString}

/-- A header that is split has a first space, and the scheme is what stands before it. -/
theorem splitSpace_eq_some : splitSpace header = some (scheme, rest) ↔
    header = scheme ++ ascii ' ' :: rest ∧ ascii ' ' ∉ scheme := by
  unfold splitSpace
  constructor
  · intro h
    obtain ⟨i, hi, hparts⟩ := Option.map_eq_some_iff.mp h
    cases hparts
    exact index_some hi
  · rintro ⟨rfl, hspace⟩
    have hindex : index (scheme ++ ascii ' ' :: rest) (ascii ' ') = some scheme.length := by
      refine List.idxOf?_eq_some_iff.mpr ⟨by simp, by simp, ?_⟩
      intro j hj hat
      rw [List.getElem_append_left hj] at hat
      exact hspace (hat ▸ List.getElem_mem hj)
    have hrest : (scheme ++ ascii ' ' :: rest).drop (scheme.length + 1) = rest := by
      rw [← List.drop_drop, List.drop_left]
      rfl
    rw [hindex, Option.map_some, List.take_left, hrest]

/-- No space is folded to a letter of the scheme. -/
theorem space_not_mem_scheme (h : scheme.map lowerByte = str "bearer") : ascii ' ' ∉ scheme := by
  intro hspace
  have hlower : lowerByte (ascii ' ') ∈ str "bearer" := h ▸ List.mem_map_of_mem hspace
  exact absurd hlower (by decide)

/-- **Which headers carry a token**: the scheme in any case, one space, and a token that is not blank. -/
theorem extractBearer_eq_some : extractBearer header = some tok ↔
    ∃ scheme rest, header = scheme ++ ascii ' ' :: rest ∧ scheme.map lowerByte = str "bearer" ∧
      trimSpace rest = tok ∧ tok ≠ [] := by
  unfold extractBearer
  constructor
  · intro h
    split at h
    · cases h
    · split at h
      · cases h
      · next scheme rest hsplit =>
          split at h
          · cases h
          · next hscheme =>
              dsimp only at h
              split at h
              · cases h
              · next htok =>
                  cases h
                  exact ⟨scheme, rest, (splitSpace_eq_some.mp hsplit).1, not_not.mp hscheme, rfl, htok⟩
  · rintro ⟨scheme, rest, rfl, hscheme, rfl, htok⟩
    have hne : scheme ++ ascii ' ' :: rest ≠ [] := by simp
    rw [if_neg hne, splitSpace_eq_some.mpr ⟨rfl, space_not_mem_scheme hscheme⟩]
    dsimp only
    rw [if_neg (not_not.mpr hscheme), if_neg htok]

/-- The token is never blank and has no white space around it. -/
theorem extractBearer_trimmed (h : extractBearer header = some tok) : Trimmed tok ∧ tok ≠ [] := by
  obtain ⟨scheme, rest, -, -, rfl, htok⟩ := extractBearer_eq_some.mp h
  exact ⟨trimmed_trimSpace rest, htok⟩

/-- **The header the UI sends** carries exactly the token put into it, when that has no white space around it. -/
theorem extractBearer_bearer : extractBearer (str "Bearer " ++ tok) = some tok ↔ Trimmed tok ∧ tok ≠ [] := by
  have hcut : str "Bearer " ++ tok = str "Bearer" ++ ascii ' ' :: tok := rfl
  constructor
  · exact extractBearer_trimmed
  · rintro ⟨htrimmed, hne⟩
    refine extractBearer_eq_some.mpr ⟨str "Bearer", tok, hcut, by decide, trimSpace_of_trimmed htrimmed, hne⟩

end

/-! ## The middleware -/

section
variable {J : JwtLib} {publicKey : PublicKey} {now : Int} {authorization : GoString}

/-- A request is let through with the claims of a token that it carries and that verifies, and in no other way. -/
theorem bearerMiddleware_ok {c : TokenClaims} :
    bearerMiddleware J publicKey now authorization = .ok c ↔
      ∃ raw, extractBearer authorization = some raw ∧ verifyToken J raw publicKey now = .ok c := by
  unfold bearerMiddleware
  constructor
  · intro h
    split at h
    · cases h
    · next raw hraw =>
        split at h
        · split at h <;> cases h
        · next c' hverify =>
            cases h
            exact ⟨raw, hraw, hverify⟩
  · rintro ⟨raw, hraw, hverify⟩
    rw [hraw]
    dsimp only
    rw [hverify]

/-- Whatever is wrong, the reply is a 401 that asks for a bearer token. -/
theorem bearerMiddleware_error {err : JsonError} (h : bearerMiddleware J publicKey now authorization = .error err) :
    ∃ msg, err = jsonError msg 401 := by
  unfold bearerMiddleware at h
  split at h
  · cases h
    exact ⟨_, rfl⟩
  · split at h
    · split at h
      · cases h
        exact ⟨_, rfl⟩
      · cases h
        exact ⟨_, rfl⟩
    · cases h

end

end RCloneCloud
