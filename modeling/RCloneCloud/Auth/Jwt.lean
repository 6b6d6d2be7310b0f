import RCloneCloud.Auth.Handler
import RCloneCloud.Lib.Codec

/-!
# `Auth.Jwt` — signing an access token and verifying one

`SignToken` and `VerifyToken` over the JWT library. The library is a parameter (`JwtLib`): what it reads off a
token, whether a signature is one under a key, and the two calls made of it, with what its documentation says
of them. A token signed under one half of a key pair is accepted under the other half exactly until it expires
(`verifyToken_signToken`), and no token is accepted under a method that is not the key's (`verifyToken_ok`).
-/

set_option autoImplicit false

namespace RCloneCloud

open Lib AuthHandler

/-! ## The library -/

/-- A key as `LoadPublicKey` returns it. -/
inductive PublicKey where
  | rsa (key : Bytes)
  | ed25519 (key : Bytes)
  | other (key : Bytes)
deriving DecidableEq

/-- The signing methods by their Go types, each with the `alg` of a header; `SigningMethodRSAPSS` is a type of
    its own. -/
inductive SigningMethod where
  | hmac (alg : GoString)
  | rsa (alg : GoString)
  | rsaPSS (alg : GoString)
  | ecdsa (alg : GoString)
  | ed25519
  | unsigned
deriving DecidableEq

/-- The name of a method as it stands in a token's header. -/
def SigningMethod.alg : SigningMethod → GoString
  | .hmac alg => alg
  | .rsa alg => alg
  | .rsaPSS alg => alg
  | .ecdsa alg => alg
  | .ed25519 => str "EdDSA"
  | .unsigned => str "none"

/-- What RSA keys are signed with. -/
def signingMethodRS256 : SigningMethod := .rsa (str "RS256")

/-- What Ed25519 keys are signed with. -/
def signingMethodEdDSA : SigningMethod := .ed25519

/-- The claims of a token as they are decoded; a date that is not there is `none`. -/
structure TokenClaims where
  sub : GoString
  email : GoString
  issuedAt : Option Int
  expiresAt : Option Int
  notBefore : Option Int
  issuer : GoString
  audience : List GoString
deriving DecidableEq

/-- The claims of an access token, decoded. -/
def Claims.decoded (c : Claims) : TokenClaims :=
  ⟨c.sub, c.email, some c.issuedAt, some c.expiresAt, none, c.issuer, c.audience⟩

/-- An error of the library; `expired` is `errors.Is(err, jwt.ErrTokenExpired)`. -/
structure JwtError where
  msg : GoString
  expired : Bool
deriving DecidableEq

/-- What the validator asks of decoded claims under `WithIssuer` and `WithAudience`: dates count where they are
    there. -/
structure ValidClaims (issuer audience : GoString) (now : Int) (c : TokenClaims) : Prop where
  unexpired : ∀ t, c.expiresAt = some t → now < t
  started : ∀ t, c.notBefore = some t → t ≤ now
  issued : c.issuer = issuer
  meant : audience ∈ c.audience

instance (issuer audience : GoString) (now : Int) (c : TokenClaims) : Decidable (ValidClaims issuer audience now c) :=
  decidable_of_iff
    ((∀ t ∈ c.expiresAt, now < t) ∧ (∀ t ∈ c.notBefore, t ≤ now) ∧ c.issuer = issuer ∧ ∃ a ∈ c.audience, a = audience)
    ⟨fun ⟨hexpires, hstarts, hissuer, _, hin, he⟩ => ⟨hexpires, hstarts, hissuer, he ▸ hin⟩,
      fun h => ⟨h.unexpired, h.started, h.issued, _, h.meant, rfl⟩⟩

/-- Valid UTF-8, which JSON keeps as it is. -/
def ValidUtf8 (s : GoString) : Prop := ∃ t : List Char, s = utf8Encode t

/-- golang-jwt, with what its documentation says of the calls. `parse` is `ParseWithClaims` with an issuer and an
    audience, its result the claims and the token's `Valid`; `sign` is `NewWithClaims` and `SignedString`. -/
structure JwtLib where
  /-- The method of the token's header, if it is a token. -/
  method : GoString → Option SigningMethod
  claims : GoString → Option TokenClaims
  verifies : SigningMethod → PublicKey → GoString → Bool
  parse : (SigningMethod → Except GoError PublicKey) → GoString → GoString → Int → GoString →
    Except JwtError (TokenClaims × Bool)
  sign : SigningMethod → PrivateKey → Claims → Except GoError GoString
  /-- The public half of a private key. -/
  rsaPublic : Bytes → Bytes
  ed25519Public : Bytes → Bytes
  /-- The key function is asked for the key, then the signature is verified, then the claims. -/
  parse_ok : ∀ keyFunc issuer audience now raw c valid, parse keyFunc issuer audience now raw = .ok (c, valid) ↔
    valid = true ∧ ∃ m key, method raw = some m ∧ keyFunc m = .ok key ∧ verifies m key raw = true ∧
      claims raw = some c ∧ ValidClaims issuer audience now c
  /-- A token is called expired for its date alone, and only when its signature is good. -/
  parse_error : ∀ keyFunc issuer audience now raw err, parse keyFunc issuer audience now raw = .error err →
    (err.expired = true ↔ ∃ m key c t, method raw = some m ∧ keyFunc m = .ok key ∧ verifies m key raw = true ∧
      claims raw = some c ∧ c.expiresAt = some t ∧ t ≤ now)
  /-- What is signed is decoded and verified. -/
  sign_rsa : ∀ key c raw, ValidUtf8 c.sub → ValidUtf8 c.email → sign signingMethodRS256 (.rsa key) c = .ok raw →
    method raw = some signingMethodRS256 ∧ claims raw = some c.decoded ∧
      verifies signingMethodRS256 (.rsa (rsaPublic key)) raw = true
  sign_ed25519 : ∀ key c raw, ValidUtf8 c.sub → ValidUtf8 c.email → sign signingMethodEdDSA (.ed25519 key) c = .ok raw →
    method raw = some signingMethodEdDSA ∧ claims raw = some c.decoded ∧
      verifies signingMethodEdDSA (.ed25519 (ed25519Public key)) raw = true

/-- The other half of a private key that tokens can be signed with. -/
def JwtLib.publicKey (J : JwtLib) : PrivateKey → Option PublicKey
  | .rsa key => some (.rsa (J.rsaPublic key))
  | .ed25519 key => some (.ed25519 (J.ed25519Public key))
  | .other _ => none

/-! ## The source -/

/-- The issuer of every access token. -/
def jwtIssuer : GoString := str "rclone-cloud-api"

/-- Whom every access token is meant for. -/
def jwtAudience : GoString := str "rclone-cloud-ui"

/-- The claims are those of `jwtClaims`; the method is chosen by the kind of the key. -/
def signToken (J : JwtLib) (privateKey : PrivateKey) (now ttl : Int) (userID email : GoString) : Except GoError GoString :=
  match privateKey with
  | .rsa _ => J.sign signingMethodRS256 privateKey (jwtClaims now ttl userID email)
  | .ed25519 _ => J.sign signingMethodEdDSA privateKey (jwtClaims now ttl userID email)
  | .other type => .error (.errorf "unsupported private key type: %T" [type])

/-- The key function of `VerifyToken`: a method that is not the key's is refused before the signature is looked at. -/
def keyFunc (publicKey : PublicKey) (m : SigningMethod) : Except GoError PublicKey :=
  match publicKey with
  | .rsa _ =>
    match m with
    | .rsa _ => .ok publicKey
    | _ => .error (.errorf "unexpected signing method: %v" [m.alg])
  | .ed25519 _ =>
    match m with
    | .ed25519 => .ok publicKey
    | _ => .error (.errorf "unexpected signing method: %v" [m.alg])
  | .other _ => .ok publicKey

/-- Parsing with the key function and the expected issuer and audience; a token that is parsed but not valid is an
error as well. -/
def verifyToken (J : JwtLib) (raw : GoString) (publicKey : PublicKey) (now : Int) : Except JwtError TokenClaims :=
  match J.parse (keyFunc publicKey) jwtIssuer jwtAudience now raw with
  | .error err => .error err
  | .ok (claims, valid) => if valid = false then .error ⟨str "invalid token", false⟩ else .ok claims

/-! ## What is accepted -/

/-- The method is one of the key's kind; of another kind of key nothing is asked. -/
def MethodFits (publicKey : PublicKey) (m : SigningMethod) : Prop :=
  match publicKey with
  | .rsa _ => ∃ alg, m = .rsa alg
  | .ed25519 _ => m = .ed25519
  | .other _ => True

/-- The key function hands out its key to methods of the key's own kind and to no others. -/
theorem keyFunc_ok {publicKey key : PublicKey} {m : SigningMethod} :
    keyFunc publicKey m = .ok key ↔ key = publicKey ∧ MethodFits publicKey m := by
  unfold keyFunc MethodFits
  cases publicKey with
  | rsa k => cases m <;> simp [eq_comm]
  | ed25519 k => cases m <;> simp [eq_comm]
  | other k => simp [eq_comm]

section
variable {J : JwtLib} {raw : GoString} {publicKey : PublicKey} {now : Int}

/-- **What `VerifyToken` accepts**: a token of a method that fits the key, signed under the key, with claims of this
    API for its UI, at a time its dates allow. -/
theorem verifyToken_ok {c : TokenClaims} :
    verifyToken J raw publicKey now = .ok c ↔
      (∃ m, J.method raw = some m ∧ MethodFits publicKey m ∧ J.verifies m publicKey raw = true) ∧
        J.claims raw = some c ∧ ValidClaims jwtIssuer jwtAudience now c := by
  unfold verifyToken
  constructor
  · intro h
    split at h
    · cases h
    · next c' valid hparse =>
        obtain ⟨rfl, m, key, hm, hkey, hv, hc, hvalid⟩ := (J.parse_ok _ _ _ _ _ _ _).mp hparse
        obtain ⟨rfl, hfits⟩ := keyFunc_ok.mp hkey
        cases h
        exact ⟨⟨m, hm, hfits, hv⟩, hc, hvalid⟩
  · rintro ⟨⟨m, hm, hfits, hv⟩, hc, hvalid⟩
    have hparse : J.parse (keyFunc publicKey) jwtIssuer jwtAudience now raw = .ok (c, true) :=
      (J.parse_ok _ _ _ _ _ _ _).mpr ⟨rfl, m, publicKey, hm, keyFunc_ok.mpr ⟨rfl, hfits⟩, hv, hc, hvalid⟩
    rw [hparse]
    rfl

/-- **What is called expired**: a token that was signed under the key and whose date has passed. -/
theorem verifyToken_expired {err : JwtError} (h : verifyToken J raw publicKey now = .error err) :
    err.expired = true ↔
      (∃ m, J.method raw = some m ∧ MethodFits publicKey m ∧ J.verifies m publicKey raw = true) ∧
        ∃ c t, J.claims raw = some c ∧ c.expiresAt = some t ∧ t ≤ now := by
  unfold verifyToken at h
  split at h
  · next err' hparse =>
      cases h
      rw [J.parse_error _ _ _ _ _ _ hparse]
      constructor
      · rintro ⟨m, key, c, t, hm, hkey, hv, hc, ht, hle⟩
        obtain ⟨rfl, hfits⟩ := keyFunc_ok.mp hkey
        exact ⟨⟨m, hm, hfits, hv⟩, c, t, hc, ht, hle⟩
      · rintro ⟨⟨m, hm, hfits, hv⟩, c, t, hc, ht, hle⟩
        exact ⟨m, publicKey, c, t, hm, keyFunc_ok.mpr ⟨rfl, hfits⟩, hv, hc, ht, hle⟩
  · next c valid hparse =>
      obtain ⟨rfl, -⟩ := (J.parse_ok _ _ _ _ _ _ _).mp hparse
      cases h

/-- A signed token, read with the other half of the key. -/
theorem signToken_ok {privateKey : PrivateKey} {ttl : Int} {userID email : GoString} (hsub : ValidUtf8 userID)
    (hemail : ValidUtf8 email) (h : signToken J privateKey now ttl userID email = .ok raw)
    (hpair : J.publicKey privateKey = some publicKey) :
    (∃ m, J.method raw = some m ∧ MethodFits publicKey m ∧ J.verifies m publicKey raw = true) ∧
      J.claims raw = some (jwtClaims now ttl userID email).decoded := by
  cases privateKey with
  | rsa key =>
      cases hpair
      obtain ⟨hm, hc, hv⟩ := J.sign_rsa key _ raw hsub hemail h
      exact ⟨⟨_, hm, ⟨_, rfl⟩, hv⟩, hc⟩
  | ed25519 key =>
      cases hpair
      obtain ⟨hm, hc, hv⟩ := J.sign_ed25519 key _ raw hsub hemail h
      exact ⟨⟨_, hm, rfl, hv⟩, hc⟩
  | other type => cases hpair

/-- The claims of an access token are valid exactly until it expires. -/
theorem validClaims_jwtClaims {ttl now' : Int} {userID email : GoString} :
    ValidClaims jwtIssuer jwtAudience now' (jwtClaims now ttl userID email).decoded ↔ now' < now + ttl := by
  constructor
  · intro h
    exact h.unexpired (now + ttl) rfl
  · intro h
    refine ⟨fun t ht => ?_, fun t ht => ?_, rfl, List.mem_singleton_self _⟩
    · cases ht
      exact h
    · cases ht

/-- A token that `signToken` made is accepted until its expiry, with the claims that were signed, and no longer. -/
theorem verifyToken_signed {privateKey : PrivateKey} {ttl : Int} {userID email : GoString} (hsub : ValidUtf8 userID)
    (hemail : ValidUtf8 email) (h : signToken J privateKey now ttl userID email = .ok raw)
    (hpair : J.publicKey privateKey = some publicKey) {now' : Int} {c : TokenClaims} :
    verifyToken J raw publicKey now' = .ok c ↔ now' < now + ttl ∧ c = (jwtClaims now ttl userID email).decoded := by
  obtain ⟨hverifies, hclaims⟩ := signToken_ok hsub hemail h hpair
  rw [verifyToken_ok]
  constructor
  · rintro ⟨-, hc, hvalid⟩
    cases hclaims.symm.trans hc
    exact ⟨validClaims_jwtClaims.mp hvalid, rfl⟩
  · rintro ⟨hbefore, rfl⟩
    exact ⟨hverifies, hclaims, validClaims_jwtClaims.mpr hbefore⟩

/-- **A signed token is accepted exactly until it expires**, with the user it was signed for; after that it is refused
    as expired. -/
theorem verifyToken_signToken {privateKey : PrivateKey} {ttl : Int} {userID email : GoString} (hsub : ValidUtf8 userID)
    (hemail : ValidUtf8 email) (h : signToken J privateKey now ttl userID email = .ok raw)
    (hpair : J.publicKey privateKey = some publicKey) (now' : Int) :
    (now' < now + ttl → verifyToken J raw publicKey now' = .ok (jwtClaims now ttl userID email).decoded) ∧
    (now + ttl ≤ now' → ∃ err, verifyToken J raw publicKey now' = .error err ∧ err.expired = true) := by
  obtain ⟨hverifies, hclaims⟩ := signToken_ok hsub hemail h hpair
  constructor
  · intro hbefore
    exact (verifyToken_signed hsub hemail h hpair).mpr ⟨hbefore, rfl⟩
  · intro hafter
    cases hresult : verifyToken J raw publicKey now' with
    | ok c =>
        have hbefore := ((verifyToken_signed hsub hemail h hpair).mp hresult).1
        omega
    | error err =>
        exact ⟨err, rfl, (verifyToken_expired hresult).mpr ⟨hverifies, _, _, hclaims, rfl, hafter⟩⟩

end

/-! ## A library with one token -/

/-- The user of the samples, at time 0. -/
def sampleClaims : Claims := jwtClaims 0 defaultTokenTTL (str "u") (str "u@mail")

/-- What is read off the one token, and its signature. -/
def sampleMethod (raw : GoString) : Option SigningMethod := if raw = str "jwt" then some .ed25519 else none

/-- The one token of the sample carries the one set of claims. -/
def sampleDecode (raw : GoString) : Option TokenClaims := if raw = str "jwt" then some sampleClaims.decoded else none

/-- It verifies under the sample's own key and that key's method only. -/
def sampleVerifies (m : SigningMethod) (key : PublicKey) (raw : GoString) : Bool :=
  decide (m = .ed25519 ∧ key = .ed25519 (str "pem") ∧ raw = str "jwt")

/-- The order in which the library looks at a token. -/
def sampleParse (keyFunc : SigningMethod → Except GoError PublicKey) (issuer audience : GoString) (now : Int)
    (raw : GoString) : Except JwtError (TokenClaims × Bool) :=
  match sampleMethod raw with
  | none => .error ⟨str "token is malformed", false⟩
  | some m =>
    match keyFunc m with
    | .error _ => .error ⟨str "token is unverifiable", false⟩
    | .ok key =>
      if sampleVerifies m key raw = false then .error ⟨str "token signature is invalid", false⟩
      else
        match sampleDecode raw with
        | none => .error ⟨str "token is malformed", false⟩
        | some c =>
          if ValidClaims issuer audience now c then .ok (c, true)
          else .error ⟨str "token has invalid claims", decide (∃ t ∈ c.expiresAt, t ≤ now)⟩

/-- The sample accepts what the library is documented to accept. -/
theorem sampleParse_ok (keyFunc : SigningMethod → Except GoError PublicKey) (issuer audience : GoString) (now : Int)
    (raw : GoString) (c : TokenClaims) (valid : Bool) :
    sampleParse keyFunc issuer audience now raw = .ok (c, valid) ↔ valid = true ∧ ∃ m key, sampleMethod raw = some m ∧
      keyFunc m = .ok key ∧ sampleVerifies m key raw = true ∧ sampleDecode raw = some c ∧
        ValidClaims issuer audience now c := by
  unfold sampleParse
  constructor
  · intro h
    split at h
    · cases h
    · next m hm =>
        split at h
        · cases h
        · next key hkey =>
            split at h
            · cases h
            · next hv =>
                split at h
                · cases h
                · next c' hc =>
                    split at h
                    · next hvalid =>
                        cases h
                        exact ⟨rfl, m, key, hm, hkey, Bool.eq_true_of_not_eq_false hv, hc, hvalid⟩
                    · cases h
  · rintro ⟨rfl, m, key, hm, hkey, hv, hc, hvalid⟩
    simp only [hm, hkey, hv, hc, hvalid, Bool.true_eq_false, if_false, if_true]

/-- The sample calls a token expired exactly where its claims say so. -/
theorem sampleParse_error (keyFunc : SigningMethod → Except GoError PublicKey) (issuer audience : GoString) (now : Int)
    (raw : GoString) (err : JwtError) (h : sampleParse keyFunc issuer audience now raw = .error err) :
    err.expired = true ↔ ∃ m key c t, sampleMethod raw = some m ∧ keyFunc m = .ok key ∧
      sampleVerifies m key raw = true ∧ sampleDecode raw = some c ∧ c.expiresAt = some t ∧ t ≤ now := by
  unfold sampleParse at h
  cases hm : sampleMethod raw with
  | none =>
      rw [hm] at h
      cases h
      simp
  | some m =>
      rw [hm] at h
      dsimp only at h
      cases hkey : keyFunc m with
      | error e =>
          rw [hkey] at h
          cases h
          simp [hkey]
      | ok key =>
          rw [hkey] at h
          dsimp only at h
          cases hv : sampleVerifies m key raw with
          | false =>
              rw [hv, if_pos rfl] at h
              cases h
              simp [hkey, hv]
          | true =>
              rw [hv, if_neg Bool.true_eq_false_eq_False] at h
              cases hc : sampleDecode raw with
              | none =>
                  rw [hc] at h
                  cases h
                  simp
              | some c =>
                  rw [hc] at h
                  dsimp only at h
                  split at h
                  · cases h
                  · cases h
                    simp [hkey, hv]

/-- The sample signs its one set of claims, with its own key. -/
def sampleSign (m : SigningMethod) (key : PrivateKey) (c : Claims) : Except GoError GoString :=
  if m = .ed25519 ∧ key = .ed25519 (str "pem") ∧ c = sampleClaims then .ok (str "jwt")
  else .error (.external (str "no such token"))

/-- The one token is the one `sampleWorld` signs for `u`. -/
def sampleJwt : JwtLib where
  method := sampleMethod
  claims := sampleDecode
  verifies := sampleVerifies
  parse := sampleParse
  sign := sampleSign
  rsaPublic key := key
  ed25519Public key := key
  parse_ok := sampleParse_ok
  parse_error := sampleParse_error
  sign_rsa := by
    intro key c raw _ _ h
    have hmethod : ¬ (signingMethodRS256 = .ed25519 ∧ PrivateKey.rsa key = .ed25519 (str "pem") ∧ c = sampleClaims) := by
      rintro ⟨hm, -⟩
      cases hm
    rw [sampleSign, if_neg hmethod] at h
    cases h
  sign_ed25519 := by
    intro key c raw _ _ h
    unfold sampleSign at h
    split at h
    · next hall =>
        obtain ⟨-, hkey, rfl⟩ := hall
        cases h
        cases hkey
        exact ⟨rfl, rfl, rfl⟩
    · cases h

/-- The sample's user id and email are text. -/
theorem validUtf8_u : ValidUtf8 (str "u") ∧ ValidUtf8 (str "u@mail") :=
  ⟨⟨['u'], by decide⟩, ⟨['u', '@', 'm', 'a', 'i', 'l'], by decide⟩⟩

/-- The one token is that of the user `u`. -/
theorem signToken_sample : signToken sampleJwt (.ed25519 (str "pem")) 0 defaultTokenTTL (str "u") (str "u@mail") = .ok (str "jwt") := by
  show sampleSign .ed25519 (.ed25519 (str "pem")) sampleClaims = .ok (str "jwt")
  exact if_pos ⟨rfl, rfl, rfl⟩

/-- A token signed at time 0 for 900 seconds is good at 899 and expired at 900. -/
theorem verifyToken_signToken_sample :
    verifyToken sampleJwt (str "jwt") (.ed25519 (str "pem")) 899 = .ok sampleClaims.decoded ∧
      ∃ err, verifyToken sampleJwt (str "jwt") (.ed25519 (str "pem")) 900 = .error err ∧ err.expired = true := by
  exact ⟨(verifyToken_signToken validUtf8_u.1 validUtf8_u.2 signToken_sample rfl 899).1 (by decide),
    (verifyToken_signToken validUtf8_u.1 validUtf8_u.2 signToken_sample rfl 900).2 (by decide)⟩

end RCloneCloud
