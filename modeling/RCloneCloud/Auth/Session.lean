import RCloneCloud.Auth.Failures
import RCloneCloud.Auth.Jwt

/-!
# `Auth.Session` — a login and the refreshes after it

What a callback and a refresh are answered with, exactly, and what they leave in the store. A callback gets tokens when
it shows the cookie of its state and Google vouches for a user who is let in (`callback_tokens_iff`). From then on every
refresh with the latest token gets the next pair, whatever others do in between, and each access token is good for its
user exactly until it expires (`session_runs`).

The conditions come in two groups. About the request: it `Presents` a state with its signature, and Google has
`VouchedFor` a user for the very code and verifier that it carries. About the world: `Grants` says that the signer
signs what it is given (`SignsWith`), that a token exists for the user, and that a refresh token can be generated and
stored. `SessionInv` is what holds between two refreshes of a client; other requests keep it as long as they neither
present nor are given the client's token (`ClientUndisturbed`).
-/

set_option autoImplicit false

namespace RCloneCloud

open Lib AuthHandler

/-! ## A callback -/

/-- The request is complete, and it has the cookie of its state. -/
structure Presents (D : AuthDeps) (h : AuthHandler) (r : CallbackHttp) (req : CallbackRequest) : Prop where
  body : r.body = .ok req
  code : req.code ≠ []
  state : req.state ≠ []
  cookie : r.stateCookie = some (h.signState D req.state)
  signed : h.signState D req.state ≠ []

/-- A request is one. -/
theorem Presents.unique {D : AuthDeps} {h : AuthHandler} {r : CallbackHttp} {req req' : CallbackRequest} (hp : Presents D h r req)
    (hp' : Presents D h r req') : req = req' := Except.ok.inj (hp.body.symm.trans hp'.body)

/-- Google takes this code with this verifier, and the ID token that it returns for them validates for this client, with the
    claims of this user. -/
structure VouchedFor (h : AuthHandler) (w : AuthWorld) (code codeVerifier userID email : GoString) : Prop where
  payload : ∃ oauthToken payload, w.exchange code codeVerifier = .ok oauthToken ∧
    claimString oauthToken.extra (str "id_token") ≠ [] ∧
    w.validate (claimString oauthToken.extra (str "id_token")) h.oauthConfig.clientID = .ok payload ∧
    claimString payload.claims (str "sub") = userID ∧ claimString payload.claims (str "email") = email
  user : userID ≠ [] ∧ email ≠ []

/-- Google vouches for one user by a code. -/
theorem VouchedFor.unique {h : AuthHandler} {w : AuthWorld} {code codeVerifier userID email userID' email' : GoString}
    (hv : VouchedFor h w code codeVerifier userID email) (hv' : VouchedFor h w code codeVerifier userID' email') :
    userID = userID' ∧ email = email' := by
  obtain ⟨oauthToken, payload, htoken, -, hpayload, hsub, hemail⟩ := hv.payload
  obtain ⟨oauthToken', payload', htoken', -, hpayload', hsub', hemail'⟩ := hv'.payload
  cases htoken.symm.trans htoken'
  cases hpayload.symm.trans hpayload'
  exact ⟨hsub.symm.trans hsub', hemail.symm.trans hemail'⟩

/-- The user may come in. -/
def AuthHandler.LetsIn (h : AuthHandler) (userID : GoString) : Prop :=
  h.allowAllGoogleIDs = true ∨ h.allowedGoogleIDs[userID]?.getD false = true

/-- The tokens can be made for the user and are these: the access token is the signature of the claims for this user. -/
structure Issues (h : AuthHandler) (w : AuthWorld) (userID email : GoString) (response : TokenResponse) : Prop where
  access : h.signResult w userID email = .ok response.token
  refresh : h.tokenStore = false ∧ response.refreshToken = [] ∨
    h.tokenStore = true ∧ w.generate = .ok response.refreshToken ∧ w.storeErr = none

/-- The store with the tokens issued. -/
def AuthHandler.storeWith (h : AuthHandler) (s : TokenStore) (userID email : GoString) (response : TokenResponse) : TokenStore :=
  if h.tokenStore then s.store userID email response.refreshToken else s

section
variable {D : AuthDeps} {h : AuthHandler} {w : AuthWorld} {s : TokenStore} {userID email : GoString} {response : TokenResponse}

/-- The world decides which tokens are issued. -/
theorem Issues.unique {response' : TokenResponse} (hi : Issues h w userID email response) (hi' : Issues h w userID email response') :
    response = response' := by
  obtain ⟨token, refreshToken⟩ := response
  obtain ⟨token', refreshToken'⟩ := response'
  obtain rfl : token = token' := Except.ok.inj (hi.access.symm.trans hi'.access)
  congr 1
  rcases hi.refresh with ⟨hno, hempty⟩ | ⟨hyes, hgen, -⟩
  · rcases hi'.refresh with ⟨-, hempty'⟩ | ⟨hyes, -, -⟩
    · exact hempty.trans hempty'.symm
    · cases hno.symm.trans hyes
  · rcases hi'.refresh with ⟨hno, -⟩ | ⟨-, hgen', -⟩
    · cases hno.symm.trans hyes
    · exact Except.ok.inj (hgen.symm.trans hgen')

/-- A result of a program: tokens, which are issued and stored, or an error, which leaves the store alone. -/
inductive IssueOutcome (h : AuthHandler) (w : AuthWorld) (s : TokenStore) (userID email : GoString) (out : AuthReply × TokenStore) : Prop
  | issued (response : TokenResponse) (hissues : Issues h w userID email response)
      (hreply : out.1 = ⟨some clearState, .tokens response⟩) (hstore : out.2 = h.storeWith s userID email response)
  | refused (hno : ∀ response, ¬ Issues h w userID email response) (herr : out.1.isError = true) (hstore : out.2 = s)

/-- Issuing ends with both tokens and the refresh token stored, or with an error and the store as it was. -/
theorem issueTokens_exec (userID email : GoString) :
    IssueOutcome h w s userID email ((h.issueTokens userID email).exec w.serve s) := by
  rw [issueTokens, signJWT_exec]
  cases hsign : h.signResult w userID email with
  | error err =>
      refine .refused (fun response hi => ?_) rfl rfl
      cases hsign.symm.trans hi.access
  | ok token =>
      dsimp only
      cases hstore : h.tokenStore with
      | false =>
          rw [if_pos rfl]
          refine .issued ⟨token, []⟩ ⟨hsign, .inl ⟨hstore, rfl⟩⟩ rfl ?_
          rw [storeWith, hstore, if_neg Bool.false_ne_true]
          rfl
      | true =>
          rw [if_neg (Bool.true_eq_false ▸ id)]
          simp only [Prog.exec, AuthWorld.serve]
          cases hgen : w.generate with
          | error err =>
              refine .refused (fun response hi => ?_) rfl rfl
              rcases hi.refresh with ⟨hno, -⟩ | ⟨-, hg, -⟩
              · cases hstore.symm.trans hno
              · cases hgen.symm.trans hg
          | ok rt =>
              simp only [Prog.exec, AuthWorld.serve]
              cases hst : w.storeErr with
              | some err =>
                  refine .refused (fun response hi => ?_) rfl rfl
                  rcases hi.refresh with ⟨hno, -⟩ | ⟨-, -, hs⟩
                  · cases hstore.symm.trans hno
                  · cases hst.symm.trans hs
              | none =>
                  refine .issued ⟨token, rt⟩ ⟨hsign, .inr ⟨hstore, hgen, hst⟩⟩ rfl ?_
                  rw [storeWith, hstore, if_pos rfl]
                  rfl

/-- An answer to a login by this code and verifier: tokens for the user whom Google vouches for by them and who is let in,
    or an error. -/
inductive LoginOutcome (h : AuthHandler) (w : AuthWorld) (s : TokenStore) (code codeVerifier : GoString)
    (out : AuthReply × TokenStore) : Prop
  | issued (userID email : GoString) (response : TokenResponse) (hvouched : VouchedFor h w code codeVerifier userID email)
      (hletsIn : h.LetsIn userID) (hissues : Issues h w userID email response)
      (hreply : out.1 = ⟨some clearState, .tokens response⟩) (hstore : out.2 = h.storeWith s userID email response)
  | refused (hno : ∀ userID email response, VouchedFor h w code codeVerifier userID email → h.LetsIn userID →
      ¬ Issues h w userID email response) (herr : out.1.isError = true) (hstore : out.2 = s)

/-- Once Google has answered, the outcome hangs on the payload, the list of ids and the issuing. -/
theorem authorize_exec {code codeVerifier : GoString} {oauthToken : OAuthToken} {payload : Payload}
    (hexchange : w.exchange code codeVerifier = .ok oauthToken) (hid : claimString oauthToken.extra (str "id_token") ≠ [])
    (hvalidate : w.validate (claimString oauthToken.extra (str "id_token")) h.oauthConfig.clientID = .ok payload) :
    LoginOutcome h w s code codeVerifier ((h.authorize payload).exec w.serve s) := by
  -- Google's answers for this code and verifier are these, so nobody else is vouched for
  have hsame : ∀ userID email, VouchedFor h w code codeVerifier userID email →
      userID = claimString payload.claims (str "sub") ∧ email = claimString payload.claims (str "email") := by
    rintro userID email ⟨⟨oauthToken', payload', htoken, -, hpayload, hsub, hemail⟩, -⟩
    cases hexchange.symm.trans htoken
    cases hvalidate.symm.trans hpayload
    exact ⟨hsub.symm, hemail.symm⟩
  unfold authorize
  dsimp only
  split
  -- a payload without an id or an email vouches for nobody
  · next hmissing =>
      refine .refused (fun userID email response hv _ _ => ?_) rfl rfl
      obtain ⟨rfl, rfl⟩ := hsame userID email hv
      exact hmissing.elim hv.user.1 hv.user.2
  · next hthere =>
      obtain ⟨hsub, hemail⟩ := not_or.mp hthere
      have hvouched : VouchedFor h w code codeVerifier (claimString payload.claims (str "sub"))
          (claimString payload.claims (str "email")) :=
        ⟨⟨oauthToken, payload, hexchange, hid, hvalidate, rfl, rfl⟩, hsub, hemail⟩
      split
      -- the user is not on the list
      · next hout =>
          refine .refused (fun userID email response hv hl _ => ?_) rfl rfl
          obtain ⟨rfl, rfl⟩ := hsame userID email hv
          rcases hl with hall | hlisted
          · cases hout.1.symm.trans hall
          · cases hout.2.symm.trans hlisted
      · next hin =>
          have hletsIn : h.LetsIn (claimString payload.claims (str "sub")) := by
            rcases not_and_or.mp hin with hall | hlisted
            · exact .inl (Bool.eq_true_of_not_eq_false hall)
            · exact .inr (Bool.eq_true_of_not_eq_false hlisted)
          cases issueTokens_exec (h := h) (w := w) (s := s) (claimString payload.claims (str "sub"))
              (claimString payload.claims (str "email")) with
          | issued response hissues hreply hstore => exact .issued _ _ response hvouched hletsIn hissues hreply hstore
          | refused hno herr hstore =>
              refine .refused (fun userID email response hv _ hi => ?_) herr hstore
              obtain ⟨rfl, rfl⟩ := hsame userID email hv
              exact hno response hi

/-- The code and the verifier that are exchanged are those of the request, and the ID token that is validated is the one
    returned for them. -/
theorem exchangeCode_exec (req : CallbackRequest) :
    LoginOutcome h w s req.code req.codeVerifier ((h.exchangeCode req).exec w.serve s) := by
  unfold exchangeCode
  simp only [Prog.exec, AuthWorld.serve]
  cases hexchange : w.exchange req.code req.codeVerifier with
  | error err =>
      refine .refused (fun userID email response hv _ _ => ?_) rfl rfl
      obtain ⟨oauthToken, payload, htoken, -⟩ := hv.payload
      cases hexchange.symm.trans htoken
  | ok oauthToken =>
      dsimp only
      split
      · next hnone =>
          refine .refused (fun userID email response hv _ _ => ?_) rfl rfl
          obtain ⟨oauthToken', payload, htoken, hid, -⟩ := hv.payload
          cases hexchange.symm.trans htoken
          exact hid hnone
      · next hid =>
          simp only [Prog.exec, AuthWorld.serve]
          cases hvalidate : w.validate (claimString oauthToken.extra (str "id_token")) h.oauthConfig.clientID with
          | error err =>
              refine .refused (fun userID email response hv _ _ => ?_) rfl rfl
              obtain ⟨oauthToken', payload, htoken, -, hpayload, -⟩ := hv.payload
              cases hexchange.symm.trans htoken
              cases hvalidate.symm.trans hpayload
          | ok payload => exact authorize_exec hexchange hid hvalidate

/-- A callback that presents what it has to is answered by the exchange; any other is an error at once. -/
theorem handleCallback_exec (r : CallbackHttp) :
    (∃ req, Presents D h r req ∧ (h.handleCallback D r).exec w.serve s = (h.exchangeCode req).exec w.serve s) ∨
    ((∀ req, ¬ Presents D h r req) ∧ ((h.handleCallback D r).exec w.serve s).1.isError = true ∧
      ((h.handleCallback D r).exec w.serve s).2 = s) := by
  unfold handleCallback
  cases hbody : r.body with
  | error err =>
      refine .inr ⟨fun req hp => ?_, rfl, rfl⟩
      cases hbody.symm.trans hp.body
  | ok req =>
      -- the body decodes to one request at most
      have hreq : ∀ req', Presents D h r req' → req' = req := by
        intro req' hp
        cases hbody.symm.trans hp.body
        rfl
      dsimp only
      split
      · next hcode => exact .inr ⟨fun req' hp => hp.code (hreq req' hp ▸ hcode), rfl, rfl⟩
      · next hcode =>
          cases hcookie : r.stateCookie with
          | none =>
              refine .inr ⟨fun req' hp => ?_, rfl, rfl⟩
              cases hcookie.symm.trans hp.cookie
          | some stateCookie =>
              dsimp only
              split
              · next hempty =>
                  refine .inr ⟨fun req' hp => ?_, rfl, rfl⟩
                  cases hcookie.symm.trans hp.cookie
                  exact hp.signed hempty
              · next hsigned =>
                  split
                  · next hstate => exact .inr ⟨fun req' hp => hp.state (hreq req' hp ▸ hstate), rfl, rfl⟩
                  · next hstate =>
                      split
                      · next hverify =>
                          refine .inr ⟨fun req' hp => ?_, rfl, rfl⟩
                          cases hreq req' hp
                          cases hcookie.symm.trans hp.cookie
                          exact absurd rfl (of_decide_eq_false hverify)
                      · next hverify =>
                          have heq : h.signState D req.state = stateCookie :=
                            of_decide_eq_true (Bool.eq_true_of_not_eq_false hverify)
                          refine .inl ⟨req, ⟨hbody, hcode, hstate, ?_, ?_⟩, rfl⟩
                          · rw [hcookie, heq]
                          · rw [heq]
                            exact hsigned

/-! ## A refresh -/

/-- The refresh presents a live token, and the next pair can be made for the token's user. -/
structure Rotates (h : AuthHandler) (w : AuthWorld) (s : TokenStore) (r : RefreshHttp) (req : RefreshRequest) (data : UserData)
    (response : TokenResponse) : Prop where
  body : r.body = .ok req
  presented : req.refreshToken ≠ []
  live : s[req.refreshToken]? = some data
  supported : h.tokenStore = true
  issues : Issues h w data.userID data.email response

/-- What the rest of a refresh leaves in the store. -/
theorem rotate_store (data : UserData) :
    ((h.rotate data).exec w.serve s).2 = s ∨
      ∃ t, w.generate = .ok t ∧ ((h.rotate data).exec w.serve s).2 = s.store data.userID data.email t := by
  simp only [rotate, Prog.exec, AuthWorld.serve]
  cases hgen : w.generate with
  | error err => exact .inl rfl
  | ok t =>
      simp only [Prog.exec, AuthWorld.serve]
      cases hst : w.storeErr with
      | some err => exact .inl rfl
      | none =>
          dsimp only
          rw [signJWT_exec]
          cases h.signResult w data.userID data.email with
          | error err => exact .inr ⟨t, rfl, rfl⟩
          | ok token => exact .inr ⟨t, rfl, rfl⟩

/-- Where tokens can be issued, a rotation issues them and stores the new refresh token. -/
theorem rotate_issues {data : UserData} (hi : Issues h w data.userID data.email response) (hstore : h.tokenStore = true) :
    (h.rotate data).exec w.serve s =
      (⟨none, .tokens response⟩, s.store data.userID data.email response.refreshToken) := by
  obtain ⟨hgen, hst⟩ : w.generate = .ok response.refreshToken ∧ w.storeErr = none := by
    rcases hi.refresh with ⟨hno, -⟩ | ⟨-, hgen, hst⟩
    · cases hstore.symm.trans hno
    · exact ⟨hgen, hst⟩
  simp only [rotate, Prog.exec, AuthWorld.serve, hgen, hst]
  rw [signJWT_exec, hi.access]
  rfl

/-- A refresh that can be served is answered with the next pair, which takes the place of the token presented. -/
theorem handleRefresh_rotates {r : RefreshHttp} {req : RefreshRequest} {data : UserData} (hr : Rotates h w s r req data response) :
    (h.handleRefresh r).exec w.serve s =
      (⟨none, .tokens response⟩, TokenStore.store (s.erase req.refreshToken) data.userID data.email response.refreshToken) := by
  rw [handleRefresh_valid hr.body hr.presented hr.supported hr.live, rotate_issues hr.issues hr.supported]

/-! ## Other requests -/

/-- The request is a refresh with this token. -/
def PresentsToken (t : GoString) : AuthRequest → Prop
  | .refresh r => ∃ req, r.body = .ok req ∧ req.refreshToken = t
  | _ => False

/-- Storing one token leaves the entries of the others alone. -/
theorem store_getElem? {t rt : GoString} (hne : rt ≠ t) (userID email : GoString) : (s.store userID email rt)[t]? = s[t]? := by
  rw [TokenStore.store, GoMap.getElem?_insert, if_neg hne]

/-- **A request that neither presents a token nor is given it leaves it alone.** -/
theorem body_exec_keeps {t : GoString} {req : AuthRequest} (hother : ¬ PresentsToken t req) (hgen : w.generate ≠ .ok t) :
    ((h.body D req).exec w.serve s).2[t]? = s[t]? := by
  -- a token of another name leaves the entry of `t` alone
  have hstored : ∀ (s : TokenStore) userID email rt, w.generate = .ok rt → (s.store userID email rt)[t]? = s[t]? := by
    intro s userID email rt hrt
    refine store_getElem? ?_ userID email
    rintro rfl
    exact hgen hrt
  cases req with
  | login r =>
      show ((h.handleLogin D r).exec w.serve s).2[t]? = s[t]?
      unfold handleLogin
      split
      · rfl
      · split
        · rfl
        · split <;> rfl
  | callback r =>
      show ((h.handleCallback D r).exec w.serve s).2[t]? = s[t]?
      rcases handleCallback_exec (D := D) (h := h) (w := w) (s := s) r with ⟨req, -, heq⟩ | ⟨-, -, hsame⟩
      · rw [heq]
        cases exchangeCode_exec (h := h) (w := w) (s := s) req with
        | issued userID email response _ _ hissues _ hstore =>
            rw [hstore, storeWith]
            split
            · next htokens =>
                rcases hissues.refresh with ⟨hno, -⟩ | ⟨-, hrt, -⟩
                · cases htokens.symm.trans hno
                · exact hstored s userID email _ hrt
            · rfl
        | refused _ _ hstore => rw [hstore]
      · rw [hsame]
  | refresh r =>
      show ((h.handleRefresh r).exec w.serve s).2[t]? = s[t]?
      by_cases hvalid : ∃ req data, r.body = .ok req ∧ req.refreshToken ≠ [] ∧ h.tokenStore = true ∧ s[req.refreshToken]? = some data
      -- a refresh spends the token that it presents, which is another one
      · obtain ⟨req, data, hbody, hne, hstore, hlive⟩ := hvalid
        have hnot : req.refreshToken ≠ t := fun he => hother ⟨req, hbody, he⟩
        have herased : (s.erase req.refreshToken)[t]? = s[t]? := by
          rw [GoMap.getElem?_erase, if_neg hnot]
        rw [handleRefresh_valid hbody hne hstore hlive]
        rcases rotate_store (h := h) (w := w) (s := s.erase req.refreshToken) data with hsame | ⟨rt, hrt, hnew⟩
        · rw [hsame, herased]
        · rw [hnew, hstored _ _ _ rt hrt, herased]
      · have hsame := handleRefresh_invalid (h := h) (w := w) (s := s) (r := r) fun req hbody hne hstore => by
          by_contra hsome
          obtain ⟨data, hlive⟩ := Option.ne_none_iff_exists'.mp hsome
          exact hvalid ⟨req, data, hbody, hne, hstore, hlive⟩
        rw [hsame]

end

/-- **Who gets tokens from a callback**: exactly a request with a code and the cookie of its state, for the user whom Google
    vouches for by its code and verifier and who is let in, when both tokens can be made for this user and stored. The store
    then has them for this user, and is what it was otherwise. -/
theorem callback_tokens_iff (D : AuthDeps) (h : AuthHandler) (w : AuthWorld) (s : TokenStore) (r : CallbackHttp) :
    (∀ response, ((h.handleCallback D r).exec w.serve s).1.body = .tokens response ↔
      ∃ req userID email, Presents D h r req ∧ VouchedFor h w req.code req.codeVerifier userID email ∧ h.LetsIn userID ∧
        Issues h w userID email response) ∧
    ((∃ req userID email response, ((h.handleCallback D r).exec w.serve s).1.body = .tokens response ∧
        r.body = .ok req ∧ VouchedFor h w req.code req.codeVerifier userID email ∧
        ((h.handleCallback D r).exec w.serve s).2 = h.storeWith s userID email response) ∨
      ((∀ response, ((h.handleCallback D r).exec w.serve s).1.body ≠ .tokens response) ∧
        ((h.handleCallback D r).exec w.serve s).2 = s)) := by
  -- an error carries no tokens
  have herror : ∀ {reply : AuthReply} {response}, reply.isError = true → reply.body ≠ .tokens response := by
    intro reply response herr hbody
    rw [AuthReply.isError, hbody] at herr
    cases herr
  rcases handleCallback_exec (D := D) (h := h) (w := w) (s := s) r with ⟨req, hp, heq⟩ | ⟨hno, herr, hsame⟩
  · rw [heq]
    cases exchangeCode_exec (h := h) (w := w) (s := s) req with
    | issued userID email response hvouched hletsIn hissues hreply hstore =>
        refine ⟨fun response' => ?_, .inl ⟨req, userID, email, response, by rw [hreply], hp.body, hvouched, hstore⟩⟩
        rw [hreply]
        constructor
        · intro hbody
          cases hbody
          exact ⟨req, userID, email, hp, hvouched, hletsIn, hissues⟩
        -- the request, the user and the tokens are determined, each by the one before
        · rintro ⟨req', userID', email', hp', hvouched', -, hissues'⟩
          obtain rfl : req = req' := hp.unique hp'
          obtain ⟨rfl, rfl⟩ := hvouched.unique hvouched'
          have hsame : response = response' := hissues.unique hissues'
          rw [hsame]
    | refused hno herr hsame =>
        refine ⟨fun response => ⟨fun hbody => absurd hbody (herror herr), ?_⟩, .inr ⟨fun _ => herror herr, hsame⟩⟩
        rintro ⟨req', userID, email, hp', hv, hl, hi⟩
        obtain rfl : req = req' := hp.unique hp'
        exact absurd hi (hno userID email response hv hl)
  · refine ⟨fun response => ⟨fun hbody => absurd hbody (herror herr), ?_⟩, .inr ⟨fun _ => herror herr, hsame⟩⟩
    rintro ⟨req, _, _, hp, -⟩
    exact absurd hp (hno req)

/-! ## A session -/

/-- A client with its latest refresh token, the store it has it from, and the answers so far, each with the time at which
    its tokens were made. -/
structure Session where
  store : TokenStore
  refreshToken : GoString
  answers : List (Int × AuthReply)

/-- The token that an answer leaves the client with. -/
def AuthReply.nextToken (reply : AuthReply) (old : GoString) : GoString :=
  match reply.body with
  | .tokens response => response.refreshToken
  | _ => old

/-- The client's own refresh, or a request of anyone else. -/
inductive SessionAction where
  /-- A request of anyone. -/
  | other (req : AuthRequest) (w : AuthWorld)
  /-- The client refreshes with its latest token. -/
  | refresh (w : AuthWorld)

namespace AuthHandler

variable (D : AuthDeps) (h : AuthHandler)

/-- The session after a callback. -/
def startSession (r : CallbackHttp) (w : AuthWorld) (s : TokenStore) : Session :=
  let out := (h.handleCallback D r).exec w.serve s
  ⟨out.2, out.1.nextToken [], [(w.now, out.1)]⟩

/-- A refresh presents the client's latest token; a request of another only changes the store. -/
def sessionStep (s : Session) : SessionAction → Option Session
  | .other req w => some { s with store := ((h.body D req).exec w.serve s.store).2 }
  | .refresh w =>
      let out := (h.handleRefresh ⟨.ok ⟨s.refreshToken⟩⟩).exec w.serve s.store
      some ⟨out.2, out.1.nextToken s.refreshToken, s.answers ++ [(w.now, out.1)]⟩

end AuthHandler

/-- The world signs as the library does: whatever key and claims `SignedString` is given, the answer is the library's under
    the method of the key's kind. -/
structure SignsWith (J : JwtLib) (w : AuthWorld) : Prop where
  rsa : ∀ key claims, w.signedString (.rsa key) claims = J.sign signingMethodRS256 (.rsa key) claims
  ed25519 : ∀ key claims, w.signedString (.ed25519 key) claims = J.sign signingMethodEdDSA (.ed25519 key) claims

/-- **What `signJWT` returns is `SignToken` for the user it is called for.** -/
theorem SignsWith.signResult {J : JwtLib} {w : AuthWorld} (hw : SignsWith J w) (h : AuthHandler) (userID email : GoString) :
    h.signResult w userID email = signToken J h.privateKey w.now h.tokenTTL userID email := by
  unfold AuthHandler.signResult signToken
  cases h.privateKey with
  | rsa key => exact hw.rsa key _
  | ed25519 key => exact hw.ed25519 key _
  | other type => rfl

/-- The signer is honest, `SignToken` has a token for the user, and a refresh token can be generated and stored. -/
structure Grants (J : JwtLib) (h : AuthHandler) (w : AuthWorld) (userID email : GoString) : Prop where
  signs : SignsWith J w
  access : ∃ token, signToken J h.privateKey w.now h.tokenTTL userID email = .ok token
  refresh : ∃ t, w.generate = .ok t ∧ t ≠ []
  stored : w.storeErr = none

/-- What the session asks of its surroundings: no one else presents or is given the client's token, and the client's own
    refreshes can be served. -/
def ClientUndisturbed (J : JwtLib) (h : AuthHandler) (userID email : GoString) (s : Session) : SessionAction → Prop
  | .other req w => ¬ PresentsToken s.refreshToken req ∧ w.generate ≠ .ok s.refreshToken
  | .refresh w => Grants J h w userID email

/-- The answer has an access token that is good for the user exactly until it expires. -/
def GoodAnswer (J : JwtLib) (publicKey : PublicKey) (ttl : Int) (userID email : GoString) (answer : Int × AuthReply) : Prop :=
  ∃ response, answer.2.body = .tokens response ∧ ∀ now c, verifyToken J response.token publicKey now = .ok c ↔
    now < answer.1 + ttl ∧ c = (jwtClaims answer.1 ttl userID email).decoded

section
variable {D : AuthDeps} {J : JwtLib} {h : AuthHandler} {publicKey : PublicKey} {userID email : GoString} {w : AuthWorld}

/-- The world can issue both tokens, and the refresh token is not empty. -/
theorem Grants.issues (hg : Grants J h w userID email) (hstore : h.tokenStore = true) :
    ∃ response, Issues h w userID email response ∧ response.refreshToken ≠ [] := by
  obtain ⟨token, htoken⟩ := hg.access
  obtain ⟨t, ht, hne⟩ := hg.refresh
  exact ⟨⟨token, t⟩, ⟨(hg.signs.signResult h userID email).trans htoken, .inr ⟨hstore, ht, hg.stored⟩⟩, hne⟩

/-- Issued tokens make a good answer. -/
theorem Grants.goodAnswer (hg : Grants J h w userID email) (hpair : J.publicKey h.privateKey = some publicKey)
    (hsub : ValidUtf8 userID) (hemail : ValidUtf8 email) {response : TokenResponse}
    (hi : Issues h w userID email response) (cookie : Option StateCookie) :
    GoodAnswer J publicKey h.tokenTTL userID email (w.now, ⟨cookie, .tokens response⟩) := by
  have hsigned : signToken J h.privateKey w.now h.tokenTTL userID email = .ok response.token :=
    (hg.signs.signResult h userID email).symm.trans hi.access
  exact ⟨response, rfl, fun now c => verifyToken_signed hsub hemail hsigned hpair⟩

/-- The client's token is live for its user, and every answer so far was good. -/
structure SessionInv (J : JwtLib) (h : AuthHandler) (publicKey : PublicKey) (userID email : GoString) (s : Session) : Prop where
  nonempty : s.refreshToken ≠ []
  live : s.store[s.refreshToken]? = some ⟨userID, email⟩
  good : ∀ answer ∈ s.answers, GoodAnswer J publicKey h.tokenTTL userID email answer

variable (hpair : J.publicKey h.privateKey = some publicKey) (hstore : h.tokenStore = true) (hsub : ValidUtf8 userID)
  (hemail : ValidUtf8 email)
include hpair hstore hsub hemail

/-- The accepted callback starts the session: its tokens are good and its refresh token is live. -/
theorem sessionInv_start {r : CallbackHttp} {req : CallbackRequest} (s : TokenStore) (hp : Presents D h r req)
    (hv : VouchedFor h w req.code req.codeVerifier userID email) (hl : h.LetsIn userID) (hg : Grants J h w userID email) :
    SessionInv J h publicKey userID email (h.startSession D r w s) := by
  obtain ⟨response, hi, hne⟩ := hg.issues hstore
  have hexec : (h.handleCallback D r).exec w.serve s =
      (⟨some clearState, .tokens response⟩, s.store userID email response.refreshToken) := by
    rcases handleCallback_exec (D := D) (h := h) (w := w) (s := s) r with ⟨req', hp', heq⟩ | ⟨hno, -, -⟩
    · obtain rfl : req = req' := hp.unique hp'
      rw [heq]
      cases exchangeCode_exec (h := h) (w := w) (s := s) req with
      | issued userID' email' response' hv' _ hi' hreply hafter =>
          obtain ⟨rfl, rfl⟩ := hv.unique hv'
          obtain rfl := hi.unique hi'
          rw [storeWith, if_pos hstore] at hafter
          exact Prod.ext hreply hafter
      | refused hno _ _ => exact absurd hi (hno userID email response hv hl)
    · exact absurd hp (hno req)
  rw [AuthHandler.startSession, hexec]
  refine ⟨hne, ?_, fun answer hin => ?_⟩
  · show (s.insert response.refreshToken ⟨userID, email⟩)[response.refreshToken]? = _
    rw [GoMap.getElem?_insert, if_pos rfl]
  · obtain rfl := List.mem_singleton.mp hin
    exact hg.goodAnswer hpair hsub hemail hi _

/-- **One step of a session.** -/
theorem SessionInv.step {s s' : Session} {a : SessionAction} (hI : SessionInv J h publicKey userID email s)
    (hG : ClientUndisturbed J h userID email s a) (hs : h.sessionStep D s a = some s') : SessionInv J h publicKey userID email s' := by
  cases a with
  | other req w =>
      cases hs
      refine ⟨hI.nonempty, ?_, hI.good⟩
      show ((h.body D req).exec w.serve s.store).2[s.refreshToken]? = _
      rw [body_exec_keeps hG.1 hG.2]
      exact hI.live
  | refresh w =>
      obtain ⟨response, hi, hne⟩ := hG.issues hstore
      have hexec := handleRefresh_rotates (r := ⟨.ok ⟨s.refreshToken⟩⟩) ⟨rfl, hI.nonempty, hI.live, hstore, hi⟩
      rw [AuthHandler.sessionStep, hexec] at hs
      cases hs
      refine ⟨hne, ?_, fun answer hin => ?_⟩
      · show ((s.store.erase s.refreshToken).insert response.refreshToken ⟨userID, email⟩)[response.refreshToken]? = _
        rw [GoMap.getElem?_insert, if_pos rfl]
      · rcases List.mem_append.mp hin with hold | hnew
        · exact hI.good answer hold
        · obtain rfl := List.mem_singleton.mp hnew
          exact hG.goodAnswer hpair hsub hemail hi _

end

/-- **A session lasts.** After a callback that presents what it has to, for a user whom Google vouches for and who is let
    in, and through any number of refreshes and of requests of others in between: as long as no one else presents or is
    given the client's latest token and its own refreshes can be served, every one of them is answered with tokens, and
    each access token verifies for that user exactly until it expires. The latest refresh token is live for that user. -/
theorem session_runs {D : AuthDeps} {J : JwtLib} {h : AuthHandler} {publicKey : PublicKey} {userID email : GoString}
    {w : AuthWorld} {r : CallbackHttp} {req : CallbackRequest} {store : TokenStore} {as : List SessionAction} {s : Session}
    (hpair : J.publicKey h.privateKey = some publicKey) (hstore : h.tokenStore = true) (hsub : ValidUtf8 userID)
    (hemail : ValidUtf8 email) (hp : Presents D h r req) (hv : VouchedFor h w req.code req.codeVerifier userID email)
    (hl : h.LetsIn userID) (hg : Grants J h w userID email) (hundisturbed : Along (h.sessionStep D) (ClientUndisturbed J h userID email) (h.startSession D r w store) as)
    (hrun : run (h.sessionStep D) (h.startSession D r w store) as = some s) :
    (∀ answer ∈ s.answers, GoodAnswer J publicKey h.tokenTTL userID email answer) ∧
      s.store[s.refreshToken]? = some ⟨userID, email⟩ := by
  have hI : SessionInv J h publicKey userID email s :=
    run_invariant (fun s a s' hI hG hs => hI.step hpair hstore hsub hemail hG hs)
      (sessionInv_start hpair hstore hsub hemail store hp hv hl hg) hundisturbed hrun
  exact ⟨hI.good, hI.live⟩

/-! ### A login, another client, a refresh -/

/-- `sampleWorld` with the signer of the one token. -/
def signingWorld (t : GoString) : AuthWorld :=
  { sampleWorld t with
    signedString := fun key claims =>
      match key with
      | .rsa _ => sampleSign signingMethodRS256 key claims
      | _ => sampleSign signingMethodEdDSA key claims }

/-- The sample's signer signs what it is given, as the sample's library does. -/
theorem signingWorld_signs (t : GoString) : SignsWith sampleJwt (signingWorld t) := ⟨fun _ _ => rfl, fun _ _ => rfl⟩

/-- In the sample's world a token of any name can be generated and stored for its one user. -/
theorem sampleGrants (t : GoString) (hne : t ≠ []) : Grants sampleJwt sampleHandler (signingWorld t) (str "u") (str "u@mail") where
  signs := signingWorld_signs t
  access := ⟨str "jwt", signToken_sample⟩
  refresh := ⟨t, rfl, hne⟩
  stored := rfl

/-- The other client refreshes with a token that is not there. -/
def sampleSession : List SessionAction :=
  [.other (.refresh ⟨.ok ⟨str "x"⟩⟩) (signingWorld (str "y")), .refresh (signingWorld (str "b"))]

/-- A login, a request of someone else with another token, and a refresh: the second token is live. -/
theorem session_runs_sample : ∃ s, run (sampleHandler.sessionStep sampleDeps)
      (sampleHandler.startSession sampleDeps sampleCallback (signingWorld (str "a")) ∅) sampleSession = some s ∧
    s.answers.length = 2 ∧ s.refreshToken = str "b" ∧ s.store[s.refreshToken]? = some ⟨str "u", str "u@mail"⟩ := by
  obtain ⟨s, hrun, hanswers, htoken⟩ : ∃ s, run (sampleHandler.sessionStep sampleDeps)
      (sampleHandler.startSession sampleDeps sampleCallback (signingWorld (str "a")) ∅) sampleSession = some s ∧
      s.answers.length = 2 ∧ s.refreshToken = str "b" := ⟨_, rfl, rfl, rfl⟩
  have hp : Presents sampleDeps sampleHandler sampleCallback ⟨str "code", str "verifier", str "s"⟩ :=
    ⟨rfl, by decide, by decide, rfl, by decide⟩
  have hv : VouchedFor sampleHandler (signingWorld (str "a")) (str "code") (str "verifier") (str "u") (str "u@mail") :=
    ⟨⟨_, _, rfl, by decide, rfl, rfl, rfl⟩, by decide, by decide⟩
  have hundisturbed : Along (sampleHandler.sessionStep sampleDeps)
      (ClientUndisturbed sampleJwt sampleHandler (str "u") (str "u@mail"))
      (sampleHandler.startSession sampleDeps sampleCallback (signingWorld (str "a")) ∅) sampleSession := by
    refine along_cons ⟨?_, ?_⟩ rfl (along_cons (sampleGrants (str "b") (by decide)) rfl trivial)
    · rintro ⟨req, hbody, htoken⟩
      cases hbody
      exact absurd htoken (by decide)
    · intro hgen
      exact absurd (Except.ok.inj hgen) (by decide)
  obtain ⟨-, hlive⟩ := session_runs (J := sampleJwt) rfl rfl validUtf8_u.1 validUtf8_u.2 hp hv (.inr rfl)
    (sampleGrants (str "a") (by decide)) hundisturbed hrun
  exact ⟨s, hrun, hanswers, htoken, hlive⟩

end RCloneCloud
