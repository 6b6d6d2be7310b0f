import RCloneCloud.Auth.Handler

/-!
# `Auth.Promises` — what each handler has made sure of before a call

`Permits` states, for each request, which calls its program may make after the calls it has made:
a callback signs and stores only for the sub and email of a login it has `Checked`, a refresh only for the
user data a redeemed token was stored with, and each stores once, a token it has generated itself. The
handlers are followed branch by branch once, in `body_keeps`.

What a request has answered is the state of this argument: each predicate below is about the list of its answered
calls, and stays true when more calls follow (`Passed.append`, `Redeemed.append`). A handler keeps its promises when
each call it makes is permitted by the calls before it; the proof follows the handler's own branches, one `have` for
each thing a branch has made sure of.
-/

set_option autoImplicit false

namespace RCloneCloud

open Lib AuthHandler

/-- The calls a thread has made, with their answers. -/
abbrev AuthCalls := List (Answered AuthCall AuthCall.Answer)

/-- Every check of `handleCallback`, on the request and on the answers so far, passed for this user. -/
structure Checked (D : AuthDeps) (h : AuthHandler) (r : CallbackHttp) (calls : AuthCalls)
    (req : CallbackRequest) (oauthToken : OAuthToken) (payload : Payload) (userID email : GoString) :
    Prop where
  body : r.body = .ok req
  code : req.code ≠ []
  state : req.state ≠ []
  cookie : r.stateCookie = some (h.signState D req.state)
  exchanged : ⟨.exchange req.code req.codeVerifier, .ok oauthToken⟩ ∈ calls
  idToken : claimString oauthToken.extra (str "id_token") ≠ []
  validated : ⟨.validate (claimString oauthToken.extra (str "id_token")) h.oauthConfig.clientID,
    .ok payload⟩ ∈ calls
  sub : payload.claims[str "sub"]? = some (.string userID) ∧ userID ≠ []
  email : payload.claims[str "email"]? = some (.string email) ∧ email ≠ []
  allowed : h.allowAllGoogleIDs = true ∨ h.allowedGoogleIDs[userID]?.getD false = true

/-- The callback has accepted a login of this user. -/
def Passed (D : AuthDeps) (h : AuthHandler) (r : CallbackHttp) (calls : AuthCalls)
    (userID email : GoString) : Prop :=
  ∃ req oauthToken payload, Checked D h r calls req oauthToken payload userID email

/-- A token of this user has been redeemed. -/
def Redeemed (calls : AuthCalls) (userID email : GoString) : Prop :=
  ∃ t, ⟨.validateAndRevoke t, .ok ⟨userID, email⟩⟩ ∈ calls

/-- `Store` has not been called. -/
def NotStored (calls : AuthCalls) : Prop :=
  ∀ c ∈ calls, ∀ userID email t, c.1 ≠ .store userID email t

/-- The token has been generated and not stored yet. -/
def Fresh (calls : AuthCalls) (t : GoString) : Prop :=
  ⟨.generateRefreshToken, .ok t⟩ ∈ calls ∧ NotStored calls

/-- Which call a request may make next. -/
def Permits (D : AuthDeps) (h : AuthHandler) : AuthRequest → AuthCalls → AuthCall → Prop
  | .login _, _, _ => False
  | .callback r, calls, op =>
    match op with
    | .signedString _ claims => Passed D h r calls claims.sub claims.email
    | .store userID email t => Passed D h r calls userID email ∧ Fresh calls t
    | .validateAndRevoke _ => False
    | _ => True
  | .refresh _, calls, op =>
    match op with
    | .signedString _ claims => Redeemed calls claims.sub claims.email
    | .store userID email t => Redeemed calls userID email ∧ Fresh calls t
    | .exchange _ _ => False
    | .validate _ _ => False
    | _ => True

section
variable {D : AuthDeps} {h : AuthHandler} {calls : AuthCalls} {userID email : GoString}

/-- What a callback has checked stays checked. -/
theorem Passed.append {r : CallbackHttp} (hp : Passed D h r calls userID email) (more : AuthCalls) :
    Passed D h r (calls ++ more) userID email := by
  obtain ⟨req, oauthToken, payload, hc⟩ := hp
  exact ⟨req, oauthToken, payload, { hc with
    exchanged := List.mem_append_left _ hc.exchanged
    validated := List.mem_append_left _ hc.validated }⟩

/-- What a refresh has redeemed stays redeemed. -/
theorem Redeemed.append (hr : Redeemed calls userID email) (more : AuthCalls) :
    Redeemed (calls ++ more) userID email := by
  obtain ⟨t, ht⟩ := hr
  exact ⟨t, List.mem_append_left _ ht⟩

/-- A request that has stored nothing in either stretch has stored nothing. -/
theorem NotStored.append {more : AuthCalls} (hn : NotStored calls) (hm : NotStored more) :
    NotStored (calls ++ more) := by
  intro c hc
  rcases List.mem_append.mp hc with hc | hc
  · exact hn c hc
  · exact hm c hc

/-- Where `Store` is not the call, nothing has been stored after it either. -/
theorem NotStored.snoc (hn : NotStored calls) {c : Answered AuthCall AuthCall.Answer}
    (hc : ∀ userID email t, c.1 ≠ .store userID email t) : NotStored (calls ++ [c]) :=
  hn.append fun c' hc' => by rw [List.mem_singleton.mp hc']; exact hc

/-- `signJWT` makes two calls at most, neither of them on the store. -/
theorem signJWT_keeps {P : AuthCalls → AuthCall → Prop} {k : Except GoError GoString → AuthProg}
    (hnow : P calls .now)
    (hsign : ∀ now key,
      P (calls ++ [⟨.now, now⟩]) (.signedString key (jwtClaims now h.tokenTTL userID email)))
    (hk : ∀ a more, NotStored more → (k a).Keeps P (calls ++ more)) :
    (h.signJWT userID email k).Keeps P calls := by
  refine ⟨hnow, fun now => ?_⟩
  have hmore : NotStored [⟨.now, now⟩] := by
    intro c hc
    rw [List.mem_singleton.mp hc]
    intro _ _ _
    exact nofun
  have hcall : ∀ key, Prog.Keeps P (calls ++ [⟨.now, now⟩])
      (.call (.signedString key (jwtClaims now h.tokenTTL userID email)) k) := by
    intro key
    refine ⟨hsign now key, fun a => ?_⟩
    rw [List.append_assoc]
    exact hk a _ (hmore.snoc fun _ _ _ => nofun)
  -- a key of another type is an error before anything is signed
  cases h.privateKey with
  | other type => exact hk _ _ hmore
  | rsa key => exact hcall _
  | ed25519 key => exact hcall _

/-- From the signature on, a callback acts for the user it has checked. -/
theorem issueTokens_keeps {r : CallbackHttp} (hp : Passed D h r calls userID email)
    (hn : NotStored calls) :
    (h.issueTokens userID email).Keeps (Permits D h (.callback r)) calls := by
  refine signJWT_keeps trivial (fun now key => hp.append _) fun a more hmore => ?_
  cases a with
  | error err => trivial
  | ok signedToken =>
      dsimp only
      split
      · trivial
      · refine ⟨trivial, fun a => ?_⟩
        cases a with
        | error err => trivial
        | ok rt =>
            refine ⟨⟨(hp.append _).append _, ?_, ?_⟩, fun a => ?_⟩
            · exact List.mem_append_right _ (List.mem_singleton.mpr rfl)
            · exact (hn.append hmore).snoc fun _ _ _ => nofun
            -- after `Store` there is only the answer
            · cases a <;> trivial

/-- A claim that is read as a text that is not empty is a text of the payload. -/
theorem claimString_ne_nil {claims : GoMap Json} {key : GoString} (hne : claimString claims key ≠ []) :
    claims[key]? = some (.string (claimString claims key)) := by
  unfold claimString at hne ⊢
  split
  · next s hs => rw [hs]
  · next hs =>
      split at hne
      · next s hs' => exact absurd hs' (hs s)
      · exact absurd rfl hne

/-- A callback signs and stores after the cookie, the code, the id token and the list of ids, in this order. -/
theorem handleCallback_keeps (r : CallbackHttp) :
    (h.handleCallback D r).Keeps (Permits D h (.callback r)) [] := by
  unfold handleCallback
  cases hbody : r.body with
  -- a request that is turned away makes no call
  | error err => trivial
  | ok req =>
      dsimp only
      split
      · trivial
      · next hcode =>
        cases hcookie : r.stateCookie with
        | none => trivial
        | some cookie =>
            dsimp only
            split
            · trivial
            · split
              · trivial
              · next hstate =>
                split
                · trivial
                · next hverify =>
                  -- the request is accepted: now the answers of Google
                  have hsigned : r.stateCookie = some (h.signState D req.state) := by
                    simp only [verifyState, decide_eq_false_iff_not, not_not] at hverify
                    rw [hcookie, hverify]
                  refine ⟨trivial, fun a => ?_⟩
                  cases a with
                  | error err => trivial
                  | ok oauthToken =>
                      dsimp only
                      split
                      · trivial
                      · next hraw =>
                        refine ⟨trivial, fun a => ?_⟩
                        cases a with
                        | error err => trivial
                        | ok payload =>
                            dsimp only [authorize]
                            split
                            · trivial
                            · next hnames =>
                              split
                              · trivial
                              · next hallowed =>
                                rw [not_or] at hnames
                                refine issueTokens_keeps ⟨req, oauthToken, payload, ?_⟩ ?_
                                · exact {
                                    body := hbody
                                    code := hcode
                                    state := hstate
                                    cookie := hsigned
                                    exchanged := by simp
                                    idToken := hraw
                                    validated := by simp
                                    sub := ⟨claimString_ne_nil hnames.1, hnames.1⟩
                                    email := ⟨claimString_ne_nil hnames.2, hnames.2⟩
                                    allowed := by
                                      rw [not_and_or] at hallowed
                                      simpa using hallowed }
                                · intro c hc
                                  simp only [List.nil_append, List.cons_append, List.mem_cons,
                                    List.not_mem_nil, or_false] at hc
                                  rcases hc with rfl | rfl <;> exact fun _ _ _ => nofun

/-- A refresh signs and stores after a token that the store had. -/
theorem handleRefresh_keeps (r : RefreshHttp) :
    (h.handleRefresh r).Keeps (Permits D h (.refresh r)) [] := by
  unfold handleRefresh
  cases r.body with
  | error err => trivial
  | ok req =>
      dsimp only
      split
      · trivial
      · split
        · trivial
        · refine ⟨trivial, fun a => ?_⟩
          cases a with
          | error err => trivial
          | ok data =>
              -- from here on the refresh has redeemed a token of this user
              have hredeemed : ∀ more : AuthCalls,
                  Redeemed ([⟨.validateAndRevoke req.refreshToken, .ok data⟩] ++ more) data.userID data.email :=
                fun more => ⟨req.refreshToken, List.mem_append_left _ List.mem_cons_self⟩
              refine ⟨trivial, fun a => ?_⟩
              cases a with
              | error err => trivial
              | ok newRefreshToken =>
                  refine ⟨⟨hredeemed _, by simp, ?_⟩, fun a => ?_⟩
                  · intro c hc
                    simp only [List.nil_append, List.cons_append, List.mem_cons, List.not_mem_nil,
                      or_false] at hc
                    rcases hc with rfl | rfl <;> exact fun _ _ _ => nofun
                  · cases a with
                    | error err => trivial
                    | ok u =>
                        refine signJWT_keeps trivial (fun now key => ?_) fun a more _ => by
                          cases a <;> trivial
                        simp only [List.nil_append, List.append_assoc]
                        exact hredeemed _

/-- **Every handler keeps its promise**, whatever the calls answer. -/
theorem body_keeps (D : AuthDeps) (h : AuthHandler) (req : AuthRequest) :
    (h.body D req).Keeps (Permits D h req) [] := by
  cases req with
  | login r =>
      show (h.handleLogin D r).Keeps (Permits D h (.login r)) []
      unfold handleLogin
      split
      · trivial
      · split
        · trivial
        · split <;> trivial
  | callback r => exact handleCallback_keeps r
  | refresh r => exact handleRefresh_keeps r

end

end RCloneCloud
