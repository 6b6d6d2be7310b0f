import RCloneCloud.Auth.Handler

/-!
# `Auth.Failures` — what a request that is refused leaves in the token store

A callback stores last, so an error leaves the store as it was. A refresh revokes the presented token before
`GenerateRefreshToken`, `Store` and the signature, each of which may still fail; `Spends` is exactly when one
of them does.

`Harmless` is a property of programs that leave the store as it is whenever they end in an error; it is closed under
the ways the handlers are built, so a callback is harmless piece by piece. A refresh is not, which is why it is run
outright (`rotate_exec`, `handleRefresh_valid`): each of the three failures behind `ValidateAndRevoke` leaves the
presented token spent. `failed_request_harmless_iff` puts the two together for any request.
-/

set_option autoImplicit false

namespace RCloneCloud

open Lib AuthHandler

/-- What `signJWT` returns for a user: what the library makes of the handler's key and of the claims for this user. -/
def AuthHandler.signResult (h : AuthHandler) (w : AuthWorld) (userID email : GoString) : Except GoError GoString :=
  match h.privateKey with
  | .other type => .error (.errorf "unsupported private key type: %T" [type])
  | key => w.signedString key (jwtClaims w.now h.tokenTTL userID email)

/-- The refresh presents a valid token, and then one of the three steps that follow the revocation fails.
    (The last alternative leaves out that the token generated is the one presented.) -/
def Spends (h : AuthHandler) (w : AuthWorld) (s : TokenStore) : AuthRequest → Prop
  | .refresh r => ∃ req d, r.body = .ok req ∧ req.refreshToken ≠ [] ∧ h.tokenStore = true ∧
      s[req.refreshToken]? = some d ∧
      ((∃ err, w.generate = .error err) ∨
       (∃ err, w.storeErr = some err) ∨
       (∃ err, h.signResult w d.userID d.email = .error err) ∧ w.generate ≠ .ok req.refreshToken)
  | _ => False

section
variable {D : AuthDeps} {h : AuthHandler} {w : AuthWorld} {s : TokenStore}

/-- Signing asks for the time and the signature; what follows gets the result of both, and the store is not touched. -/
theorem signJWT_exec (userID email : GoString) (k : Except GoError GoString → AuthProg) :
    (h.signJWT userID email k).exec w.serve s = (k (h.signResult w userID email)).exec w.serve s := by
  unfold signJWT signResult
  simp only [Prog.exec, AuthWorld.serve]
  cases h.privateKey <;> rfl

/-! ## Programs that are harmless when they fail -/

/-- An answer that is an error leaves the store as it was. -/
def Harmless (w : AuthWorld) (s : TokenStore) (p : AuthProg) : Prop :=
  (p.exec w.serve s).1.isError = true → (p.exec w.serve s).2 = s

/-- A program that has nothing left to call changes nothing. -/
theorem harmless_pure (reply : AuthReply) : Harmless w s (.pure reply) := fun _ => rfl

/-- A branch is harmless when both of its sides are. -/
theorem Harmless.ite {c : Prop} [Decidable c] {p q : AuthProg} (hp : Harmless w s p) (hq : Harmless w s q) :
    Harmless w s (if c then p else q) := by
  split
  · exact hp
  · exact hq

/-- A call that leaves the store alone is harmless when what follows its answer is. -/
theorem Harmless.call {op : AuthCall} {k : op.Answer → AuthProg} (hsame : (w.serve op s).2 = s)
    (hk : Harmless w s (k (w.serve op s).1)) : Harmless w s (.call op k) := by
  intro herr
  have hexec : (Prog.call op k).exec w.serve s = (k (w.serve op s).1).exec w.serve s := by
    show (k (w.serve op s).1).exec w.serve (w.serve op s).2 = _
    rw [hsame]
  rw [hexec] at herr ⊢
  exact hk herr

/-- Neither the clock nor the signature changes the store, so signing is as harmless as what follows it. -/
theorem Harmless.signJWT {userID email : GoString} {k : Except GoError GoString → AuthProg}
    (hk : Harmless w s (k (h.signResult w userID email))) : Harmless w s (h.signJWT userID email k) := by
  intro herr
  rw [signJWT_exec] at herr ⊢
  exact hk herr

/-- `Store` is the last call that can fail, and where it fails it stores nothing. -/
theorem issueTokens_harmless (userID email : GoString) : Harmless w s (h.issueTokens userID email) := by
  refine Harmless.signJWT ?_
  cases h.signResult w userID email with
  | error err => exact harmless_pure _
  | ok signedToken =>
      refine .ite (harmless_pure _) (.call rfl ?_)
      cases (w.serve .generateRefreshToken s).1 with
      | error err => exact harmless_pure _
      | ok rt =>
          intro herr
          simp only [Prog.exec, AuthWorld.serve] at herr ⊢
          cases hst : w.storeErr with
          | some err => rfl
          | none =>
              -- the last step: nothing fails any more
              rw [hst] at herr
              exact absurd herr Bool.false_ne_true

/-- Up to `issueTokens` the code exchange only asks Google and signs. -/
theorem exchangeCode_harmless (req : CallbackRequest) : Harmless w s (h.exchangeCode req) := by
  refine .call rfl ?_
  cases (w.serve (.exchange req.code req.codeVerifier) s).1 with
  | error err => exact harmless_pure _
  | ok oauthToken =>
      refine .ite (harmless_pure _) (.call rfl ?_)
      cases (w.serve (.validate (claimString oauthToken.extra (str "id_token")) h.oauthConfig.clientID) s).1 with
      | error err => exact harmless_pure _
      | ok payload => exact .ite (harmless_pure _) (.ite (harmless_pure _) (issueTokens_harmless _ _))

/-- A callback stores in its last step only. -/
theorem handleCallback_harmless (r : CallbackHttp) : Harmless w s (h.handleCallback D r) := by
  unfold handleCallback
  cases r.body with
  | error err => exact harmless_pure _
  | ok req =>
      refine .ite (harmless_pure _) ?_
      cases r.stateCookie with
      | none => exact harmless_pure _
      | some stateCookie =>
          exact .ite (harmless_pure _) <| .ite (harmless_pure _) <| .ite (harmless_pure _) <|
            exchangeCode_harmless req

/-! ## Refreshes -/

/-- **The rest of a refresh after the revocation**, from the pattern of failures. -/
theorem rotate_exec (d : UserData) :
    ((∃ err, w.generate = .error err) ∧ ((h.rotate d).exec w.serve s).1.isError = true ∧
      ((h.rotate d).exec w.serve s).2 = s) ∨
    (∃ t, w.generate = .ok t ∧ (∃ err, w.storeErr = some err) ∧
      ((h.rotate d).exec w.serve s).1.isError = true ∧ ((h.rotate d).exec w.serve s).2 = s) ∨
    (∃ t, w.generate = .ok t ∧ w.storeErr = none ∧ (∃ err, h.signResult w d.userID d.email = .error err) ∧
      ((h.rotate d).exec w.serve s).1.isError = true ∧
      ((h.rotate d).exec w.serve s).2 = s.store d.userID d.email t) ∨
    (∃ t token, w.generate = .ok t ∧ w.storeErr = none ∧ h.signResult w d.userID d.email = .ok token ∧
      ((h.rotate d).exec w.serve s).1.isError = false) := by
  simp only [rotate, Prog.exec, AuthWorld.serve]
  cases hgen : w.generate with
  | error err => exact .inl ⟨⟨err, rfl⟩, rfl, rfl⟩
  | ok t =>
      simp only [Prog.exec, AuthWorld.serve]
      cases hst : w.storeErr with
      | some err => exact .inr (.inl ⟨t, rfl, ⟨err, rfl⟩, rfl, rfl⟩)
      | none =>
          dsimp only
          rw [signJWT_exec]
          cases hsign : h.signResult w d.userID d.email with
          | error err => exact .inr (.inr (.inl ⟨t, rfl, rfl, ⟨err, rfl⟩, rfl, rfl⟩))
          | ok token => exact .inr (.inr (.inr ⟨t, token, rfl, rfl, rfl, rfl⟩))

/-- A refresh whose token is revoked runs the rest on the store without it. -/
theorem handleRefresh_valid {r : RefreshHttp} {req : RefreshRequest} {d : UserData}
    (hbody : r.body = .ok req) (hne : req.refreshToken ≠ []) (hstore : h.tokenStore = true)
    (hvalid : s[req.refreshToken]? = some d) :
    (h.handleRefresh r).exec w.serve s = (h.rotate d).exec w.serve (s.erase req.refreshToken) := by
  unfold handleRefresh
  rw [hbody]
  simp only [if_neg hne, hstore, Bool.true_eq_false, if_false, Prog.exec, AuthWorld.serve,
    TokenStore.validateAndRevoke, hvalid]

/-- Any other refresh leaves the store alone. -/
theorem handleRefresh_invalid {r : RefreshHttp}
    (hno : ∀ req, r.body = .ok req → req.refreshToken ≠ [] → h.tokenStore = true →
      s[req.refreshToken]? = none) :
    ((h.handleRefresh r).exec w.serve s).2 = s := by
  unfold handleRefresh
  cases hbody : r.body with
  | error err => rfl
  | ok req =>
      dsimp only
      split
      · rfl
      · next hne =>
        split
        · rfl
        · next hstore =>
          have hnone := hno req hbody hne (by simpa using hstore)
          simp only [Prog.exec, AuthWorld.serve, TokenStore.validateAndRevoke, hnone]
          rfl

/-- A refresh that presents a valid token. -/
theorem refresh_valid_iff {r : RefreshHttp} {req : RefreshRequest} {d : UserData}
    (hbody : r.body = .ok req) (hne : req.refreshToken ≠ []) (hstore : h.tokenStore = true)
    (hvalid : s[req.refreshToken]? = some d) :
    (((h.handleRefresh r).exec w.serve s).1.isError = true →
      ∀ t, t ∈ ((h.handleRefresh r).exec w.serve s).2 ↔ t ∈ s) ↔ ¬ Spends h w s (.refresh r) := by
  have hin : req.refreshToken ∈ s := GoMap.mem_iff.mpr ⟨d, hvalid⟩
  have hspends : Spends h w s (.refresh r) ↔ (∃ err, w.generate = .error err) ∨
      (∃ err, w.storeErr = some err) ∨
      (∃ err, h.signResult w d.userID d.email = .error err) ∧ w.generate ≠ .ok req.refreshToken := by
    constructor
    · rintro ⟨req', d', hbody', -, -, hvalid', hfail⟩
      rw [hbody] at hbody'
      cases hbody'
      rw [hvalid] at hvalid'
      cases hvalid'
      exact hfail
    · exact fun hfail => ⟨req, d, hbody, hne, hstore, hvalid, hfail⟩
  -- the presented token is not among what is left
  have hlost : ¬ (∀ t, t ∈ s.erase req.refreshToken ↔ t ∈ s) := by
    intro hsame
    exact (GoMap.mem_erase.mp ((hsame _).mpr hin)).1 rfl
  rw [handleRefresh_valid hbody hne hstore hvalid, hspends]
  rcases rotate_exec (h := h) (w := w) (s := s.erase req.refreshToken) d with
    ⟨hgen, herr, hs⟩ | ⟨t, hgen, hst, herr, hs⟩ | ⟨t, hgen, hst, hsign, herr, hs⟩ |
    ⟨t, token, hgen, hst, hsign, hok⟩
  · -- nothing is generated: the presented token is gone
    rw [hs]
    exact ⟨fun hsame => absurd (hsame herr) hlost, fun hno => absurd (.inl hgen) hno⟩
  · -- nothing is stored: the presented token is gone
    rw [hs]
    exact ⟨fun hsame => absurd (hsame herr) hlost, fun hno => absurd (.inr (.inl hst)) hno⟩
  · -- nothing is signed: the new token is valid, and the client has not received it
    rw [hs, hgen, hst]
    by_cases ht : t = req.refreshToken
    · subst ht
      have hmem : ∀ t', t' ∈ TokenStore.store (s.erase req.refreshToken) d.userID d.email req.refreshToken
          ↔ t' ∈ s := by
        intro t'
        rw [TokenStore.store, GoMap.mem_insert, GoMap.mem_erase]
        by_cases he : req.refreshToken = t'
        · simp [← he, hin]
        · simp [he]
      simp [hmem]
    · have hgone : ¬ ∀ t', t' ∈ TokenStore.store (s.erase req.refreshToken) d.userID d.email t ↔ t' ∈ s := by
        intro hsame
        rcases GoMap.mem_insert.mp ((hsame _).mpr hin) with he | hm
        · exact ht he
        · exact (GoMap.mem_erase.mp hm).1 rfl
      refine ⟨fun hsame => absurd (hsame herr) hgone, fun hno => absurd (.inr (.inr ⟨hsign, ?_⟩)) hno⟩
      intro he
      cases he
      exact ht rfl
  · refine ⟨fun _ => ?_, fun _ herr => absurd herr (by rw [hok]; exact Bool.false_ne_true)⟩
    rw [hgen, hst, hsign]
    simp

/-- **A request that fails leaves the valid tokens as they were** exactly when it does not spend one: no
    refresh of a valid token is followed by a failure of `GenerateRefreshToken`, `Store` or `signJWT`. -/
theorem failed_request_harmless_iff (D : AuthDeps) (h : AuthHandler) (w : AuthWorld) (s : TokenStore)
    (req : AuthRequest) :
    (((h.body D req).exec w.serve s).1.isError = true →
      ∀ t, t ∈ ((h.body D req).exec w.serve s).2 ↔ t ∈ s) ↔ ¬ Spends h w s req := by
  cases req with
  -- a login calls nothing
  | login r =>
      have hsame : ((h.handleLogin D r).exec w.serve s).2 = s := by
        unfold handleLogin
        split
        · rfl
        · split
          · rfl
          · split <;> rfl
      exact ⟨fun _ hno => hno, fun _ _ t => by rw [show ((h.body D (.login r)).exec w.serve s).2 = s from hsame]⟩
  | callback r =>
      refine ⟨fun _ hno => hno, fun _ herr t => ?_⟩
      rw [show ((h.body D (.callback r)).exec w.serve s).2 = s from handleCallback_harmless r herr]
  | refresh r =>
      by_cases hvalid : ∃ req d, r.body = .ok req ∧ req.refreshToken ≠ [] ∧ h.tokenStore = true ∧
          s[req.refreshToken]? = some d
      · obtain ⟨req, d, hbody, hne, hstore, hd⟩ := hvalid
        exact refresh_valid_iff hbody hne hstore hd
      · have hsame : ((h.handleRefresh r).exec w.serve s).2 = s := by
          refine handleRefresh_invalid fun req hbody hne hstore => ?_
          cases hd : s[req.refreshToken]? with
          | none => rfl
          | some d => exact absurd ⟨req, d, hbody, hne, hstore, hd⟩ hvalid
        refine ⟨fun _ => ?_, fun _ _ t => ?_⟩
        · rintro ⟨req, d, hbody, hne, hstore, hd, -⟩
          exact hvalid ⟨req, d, hbody, hne, hstore, hd⟩
        · rw [show ((h.body D (.refresh r)).exec w.serve s).2 = s from hsame]

end

/-- The signature of the access token fails. -/
def signFails : AuthWorld := { sampleWorld (str "b") with signedString := fun _ _ => .error (.external (str "rsa")) }

/-- No token can be generated. -/
def generateFails : AuthWorld := { sampleWorld (str "b") with generate := .error (.external (str "rand")) }

/-- The token `a` is valid. -/
def oneToken : TokenStore := TokenStore.store ∅ (str "u") (str "u@mail") (str "a")

/-- **A refused refresh spends the token it presents**: it is gone when nothing can be generated, and when
    the signature fails the store holds, in its place, a token the client never received. -/
theorem failed_refresh_spends :
    let refreshA := sampleHandler.body sampleDeps (.refresh ⟨.ok ⟨str "a"⟩⟩)
    (refreshA.exec generateFails.serve oneToken).1 = ⟨none, .error (str "could not issue new refresh token") 500⟩ ∧
    oneToken.contains (str "a") = true ∧
    (refreshA.exec generateFails.serve oneToken).2.contains (str "a") = false ∧
    (refreshA.exec signFails.serve oneToken).1 = ⟨none, .error (str "could not issue new token") 500⟩ ∧
    (refreshA.exec signFails.serve oneToken).2.contains (str "a") = false ∧
    oneToken.contains (str "b") = false ∧
    (refreshA.exec signFails.serve oneToken).2.contains (str "b") = true :=
  ⟨rfl, rfl, rfl, rfl, rfl, rfl, rfl⟩

end RCloneCloud
