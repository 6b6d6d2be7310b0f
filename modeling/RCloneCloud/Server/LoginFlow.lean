import RCloneCloud.Auth.Session
import RCloneCloud.Lib.Run
import RCloneCloud.Server.Access
import RCloneCloud.Ui.Login

/-!
# `Server.LoginFlow` — a browser, the server and Google

The tabs of one browser share its cookies, and any of them may be sent to the login page, to the login endpoint with a query
of anyone's, or to the callback page with a code and a state of anyone's. Google issues codes to the consents given in
this browser and to others. The requests get past CORS and the rate limit, and a request is answered in one piece.

What Google does is said of the calls that the callback endpoint makes, for all their arguments: which codes it takes with
which verifiers (`GoogleHonest`, `GoogleServes`). So a handler that exchanged another code than the one it was sent would
have nothing to go by. In every state of a run a verifier in the jar, and one in a request that is under way, was made by the
login page of this browser, and a cookie `oauth_state` is that of a state that this browser brought (`LoginFlowInv`).

* `Server.Challenge` — who a tab that is signed in is signed in as.
* `Server.Undisturbed` — a login that no other one overtakes does not fail.

The module has the model, the inversion lemma of its step (`LoginFlow.step_spec`), the invariant and its run lemma,
and the sample of a login from the first page to the token. `LoginFlowStep` states, for each action, what it asks for
and what becomes of the state, so that neither of the two modules above unfolds the step function.
-/

set_option autoImplicit false

namespace RCloneCloud

open Lib AuthHandler

/-! ## Google -/

/-- What the url of a consent screen asks for. -/
structure AuthorizationRequest where
  state : GoString
  challenge : GoString
  method : GoString
deriving DecidableEq

/-- A code, the challenge and its method that it was asked for with, and the user who consented. -/
structure IssuedCode where
  code : GoString
  challenge : Option (GoString × GoString)
  userID : GoString
  email : GoString

/-- The transformations of RFC 7636. -/
def ChallengeOf (digest : List UInt8 → Vector UInt8 32) (codeVerifier challenge method : GoString) : Prop :=
  method = str "S256" ∧ challenge = utf8Encode (base64urlencode (digest codeVerifier).toList) ∨
    method = str "plain" ∧ challenge = codeVerifier

/-- The verifier fits: one that is sent although no challenge was is refused, and an empty one counts as not sent. -/
def IssuedCode.Fits (digest : List UInt8 → Vector UInt8 32) (issued : IssuedCode) (codeVerifier : GoString) : Prop :=
  match issued.challenge with
  | none => codeVerifier = []
  | some (challenge, method) => ChallengeOf digest codeVerifier challenge method

/-- Google takes a code only with a verifier that fits it, and vouches for who consented: whatever code and verifier
    `Exchange` is called with, a user is vouched for by them only if the code was issued for this user. -/
def GoogleHonest (digest : List UInt8 → Vector UInt8 32) (h : AuthHandler) (codes : List IssuedCode) (w : AuthWorld) : Prop :=
  ∀ code codeVerifier userID email, VouchedFor h w code codeVerifier userID email →
    ∃ issued ∈ codes, issued.code = code ∧ issued.userID = userID ∧ issued.email = email ∧ issued.Fits digest codeVerifier

/-- Google takes this code with every verifier that fits it, if the verifier has a form that it takes. -/
def GoogleServes (digest : List UInt8 → Vector UInt8 32) (takesVerifier : GoString → Bool) (h : AuthHandler)
    (codes : List IssuedCode) (code : GoString) (w : AuthWorld) : Prop :=
  ∀ codeVerifier, takesVerifier codeVerifier = true → ∀ issued ∈ codes, issued.code = code → issued.Fits digest codeVerifier →
    VouchedFor h w code codeVerifier issued.userID issued.email

/-! ## The browser -/

/-- What a tab is at: the login page, about to leave for the server; Google's consent screen; on its way back; the callback
    page, which has sent its request; or a page of the UI. -/
inductive LoginTab where
  | elsewhere
  | leaving (url : JsString)
  | google (url : GoString)
  | returned (code state : JsString)
  | waiting (r : ServerRequest)
  | shows (b : Browser)

/-- The cookies of both origins, the local storage, the tabs, the server's token store and the codes. Also the verifiers
    that the login page has made here, and the states that the browser has brought to the login endpoint. -/
structure LoginFlow where
  jar : UiCookies
  stateCookie : Option (GoString × ℚ)
  authRedirectPath : Option JsString
  tabs : ℕ → LoginTab
  tokenStore : TokenStore
  codes : List IssuedCode
  verifiers : List JsString
  logins : List GoString

/-- A browser that has been nowhere. -/
def LoginFlow.init : LoginFlow := ⟨[], none, none, fun _ => .elsewhere, ∅, [], [], []⟩

/-- What the tabs, the user, the network, Google and other sites can do. -/
inductive LoginFlowAct where
  | visitLoginPage (tab : ℕ) (time : ℚ) (state : JsString) (array : Vector UInt32 56)
  | followLogin (tab : ℕ) (time : ℚ) (w : AuthWorld)
  | visitLogin (tab : ℕ) (time : ℚ) (w : AuthWorld) (r : LoginHttp)
  | consent (tab : ℕ) (code : JsString) (userID email : GoString)
  | issueElsewhere (issued : IssuedCode)
  | followReturn (tab : ℕ) (time : ℚ)
  | openCallback (tab : ℕ) (time : ℚ) (code state : Option JsString)
  | answer (tab : ℕ) (time : ℚ) (w : AuthWorld) (failure : JsError)
  | lose (tab : ℕ)
  | setRedirectPath (path : Option JsString)
  | leave (tab : ℕ)

/-- What the pages are built with, the handlers, how Google reads a url of `AuthCodeURL`, and which verifiers have a form
    that it takes. -/
structure LoginEnv where
  deps : AuthDeps
  handler : AuthHandler
  router : Router
  digest : List UInt8 → Vector UInt8 32
  loginUrl : JsString
  webApiEndpoint : JsString
  browser : ServerRequest
  readAuthCodeURL : GoString → AuthorizationRequest
  takesVerifier : GoString → Bool

/-- The cookie `oauth_state` after a response: a positive `Max-Age` sets it, a negative one removes it. -/
def AuthReply.cookieAfter (reply : AuthReply) (time : ℚ) (old : Option (GoString × ℚ)) : Option (GoString × ℚ) :=
  match reply.setCookie with
  | none => old
  | some c => if 0 < c.maxAge then some (c.value, time + c.maxAge) else none

/-- The cookie as it is sent. -/
def sentCookie (time : ℚ) : Option (GoString × ℚ) → Option GoString
  | some (value, expires) => if time < expires then some value else none
  | none => none

namespace LoginFlow

/-- A tab goes to a page and the others stay where they are. -/
def setTab (s : LoginFlow) (tab : ℕ) (page : LoginTab) : LoginFlow := { s with tabs := Function.update s.tabs tab page }

/-- The login endpoint, and the answer of it. -/
def login (E : LoginEnv) (s : LoginFlow) (tab : ℕ) (time : ℚ) (w : AuthWorld) (r : LoginHttp) : LoginFlow :=
  let reply := ((handleLogin E.deps E.handler r).exec w.serve s.tokenStore).1
  let s := { s with stateCookie := reply.cookieAfter time s.stateCookie, logins := s.logins ++ [r.state] }
  s.setTab tab (match reply.body with
    | .redirect url _ => .google url
    | _ => .elsewhere)

/-- The callback page, with the parameters of its url. -/
def callback (E : LoginEnv) (s : LoginFlow) (tab : ℕ) (time : ℚ) (code state : Option JsString) : LoginFlow :=
  let sent := callbackParams code state time (sentCookie time s.stateCookie) E.browser s.jar
  { s with jar := sent.2 }.setTab tab (match sent.1 with
    | some r => .waiting r
    | none => .shows ⟨E.router.pathname [js "/"], s.authRedirectPath, none⟩)

/-- The login page draws a state and a verifier, keeps the verifier in a cookie and leads to the login endpoint. -/
def visitLoginPage (E : LoginEnv) (s : LoginFlow) (tab : ℕ) (time : ℚ) (state : JsString) (array : Vector UInt32 56) : LoginFlow :=
  let out := loginPage E.digest E.loginUrl state array time s.jar
  { s with jar := out.2, verifiers := s.verifiers ++ [generateCodeVerifier array] }.setTab tab (.leaving out.1)

/-- The user consents, and Google goes back to the callback page with the code and the state. -/
def consent (E : LoginEnv) (s : LoginFlow) (tab : ℕ) (code : JsString) (userID email : GoString) (url : GoString) : LoginFlow :=
  let asked := E.readAuthCodeURL url
  let issued : IssuedCode := ⟨utf8Encode code, some (asked.challenge, asked.method), userID, email⟩
  { s with codes := s.codes ++ [issued] }.setTab tab (.returned code (utf8Decode asked.state))

/-- The callback endpoint, and the page on its answer. -/
def answer (E : LoginEnv) (s : LoginFlow) (tab : ℕ) (time : ℚ) (w : AuthWorld) (failure : JsError) (r : CallbackHttp) : LoginFlow :=
  let out := (handleCallback E.deps E.handler r).exec w.serve s.tokenStore
  let b := callbackAnswer E.router E.webApiEndpoint failure out.1 ⟨callbackPath, s.authRedirectPath, none⟩
  { s with
    stateCookie := out.1.cookieAfter time s.stateCookie
    authRedirectPath := b.authRedirectPath
    tokenStore := out.2 }.setTab tab (.shows b)

/-- One step; an action that the tab's page does not allow is not enabled. -/
def step (E : LoginEnv) (s : LoginFlow) : LoginFlowAct → Option LoginFlow
  | .visitLoginPage tab time state array => some (s.visitLoginPage E tab time state array)
  | .followLogin tab time w =>
    match s.tabs tab with
    | .leaving url => some (s.login E tab time w (loginRequest url E.browser).login)
    | _ => none
  | .visitLogin tab time w r => some (s.login E tab time w r)
  | .consent tab code userID email =>
    match s.tabs tab with
    | .google url => some (s.consent E tab code userID email url)
    | _ => none
  | .issueElsewhere issued => some { s with codes := s.codes ++ [issued] }
  | .followReturn tab time =>
    match s.tabs tab with
    | .returned code state => some (s.callback E tab time (some code) (some state))
    | _ => none
  | .openCallback tab time code state => some (s.callback E tab time code state)
  | .answer tab time w failure =>
    match s.tabs tab with
    | .waiting r => some (s.answer E tab time w failure r.callback)
    | _ => none
  | .lose tab =>
    match s.tabs tab with
    | .waiting _ => some (s.setTab tab (.shows ⟨callbackPath, s.authRedirectPath, none⟩))
    | _ => none
  | .setRedirectPath path => some { s with authRedirectPath := path }
  | .leave tab => some (s.setTab tab .elsewhere)

end LoginFlow

/-- The code that a login with this verifier leads to, when this user consents. -/
def ownCode (E : LoginEnv) (codeVerifier code : JsString) (userID email : GoString) : IssuedCode :=
  ⟨utf8Encode code, some (utf8Encode (generateCodeChallenge E.digest codeVerifier), str "S256"), userID, email⟩

/-! ## What the browser has -/

section
variable {E : LoginEnv} {s s' : LoginFlow} {tab : ℕ} {time : ℚ} {w : AuthWorld} {a : LoginFlowAct}

/-- A value of the cookie `oauth_state` is that of a state of this browser. -/
def OwnState (E : LoginEnv) (logins : List GoString) (value : GoString) : Prop :=
  ∃ state ∈ logins, value = E.handler.signState E.deps state

/-- A request of the callback page: its verifier was made here or is empty, its cookie is that of a state of this browser. -/
def OwnCallback (E : LoginEnv) (s : LoginFlow) (r : ServerRequest) : Prop :=
  ∃ code codeVerifier state stateCookie, r = fetchAccessToken code codeVerifier state stateCookie E.browser ∧
    (codeVerifier ∈ s.verifiers ∨ codeVerifier = []) ∧ ∀ value, stateCookie = some value → OwnState E s.logins value

/-- Verifiers in the jar or under way were made here, and state cookies are of states that were brought here. -/
structure LoginFlowInv (E : LoginEnv) (s : LoginFlow) : Prop where
  jar : ∀ c ∈ s.jar, c.name = oauthVerifier → c.path = js "/" ∧ c.value ∈ s.verifiers
  cookie : ∀ value expires, s.stateCookie = some (value, expires) → OwnState E s.logins value
  waiting : ∀ tab r, s.tabs tab = .waiting r → OwnCallback E s r

/-- A state stays one of this browser as it logs in again. -/
theorem OwnState.mono {logins logins' : List GoString} {value : GoString} (h : OwnState E logins value)
    (hsub : logins ⊆ logins') : OwnState E logins' value := by
  obtain ⟨state, hin, hvalue⟩ := h
  exact ⟨state, hsub hin, hvalue⟩

/-- A callback of this browser stays one. -/
theorem OwnCallback.mono {r : ServerRequest} (h : OwnCallback E s r) (hverifiers : s.verifiers ⊆ s'.verifiers)
    (hlogins : s.logins ⊆ s'.logins) : OwnCallback E s' r := by
  obtain ⟨code, codeVerifier, state, stateCookie, rfl, hverifier, hcookie⟩ := h
  exact ⟨code, codeVerifier, state, stateCookie, rfl, hverifier.imp_left fun hin => hverifiers hin,
    fun value hvalue => (hcookie value hvalue).mono hlogins⟩

/-- Only the tab that is set changes. -/
theorem tabs_setTab (s : LoginFlow) (tab tab' : ℕ) (page : LoginTab) :
    (s.setTab tab page).tabs tab' = if tab' = tab then page else s.tabs tab' := Function.update_apply ..

/-- The pages that are not waiting are of no concern. -/
theorem LoginFlowInv.setTab (h : LoginFlowInv E s) {page : LoginTab} (hpage : ∀ r, page = .waiting r → OwnCallback E s r) :
    LoginFlowInv E (s.setTab tab page) := by
  refine ⟨h.jar, h.cookie, fun tab' r hwaiting => ?_⟩
  rw [tabs_setTab] at hwaiting
  split at hwaiting
  · exact hpage r hwaiting
  · exact h.waiting tab' r hwaiting

/-- A cookie is sent while it has not expired. -/
theorem sentCookie_eq_some {old : Option (GoString × ℚ)} {value : GoString} (h : sentCookie time old = some value) :
    ∃ expires, old = some (value, expires) ∧ time < expires := by
  unfold sentCookie at h
  split at h
  · next value' expires =>
      split at h
      · next hlt =>
          cases h
          exact ⟨expires, rfl, hlt⟩
      · cases h
  · cases h

/-- The cookie that the login endpoint sets is that of the state it was given. -/
theorem handleLogin_cookieAfter (r : LoginHttp) {store : TokenStore} {old : Option (GoString × ℚ)} {value : GoString} {expires : ℚ}
    (h : ((handleLogin E.deps E.handler r).exec w.serve store).1.cookieAfter time old = some (value, expires)) :
    old = some (value, expires) ∨ value = E.handler.signState E.deps r.state := by
  unfold handleLogin at h
  split at h
  · exact .inl h
  · split at h
    · exact .inl h
    · split at h
      · exact .inl h
      · refine .inr ?_
        cases h
        rfl

/-- What holds of every reply behind a signature holds of the program that signs first. -/
theorem signJWT_ends {P : AuthReply → Prop} {h : AuthHandler} {userID email : GoString} {k : Except GoError GoString → AuthProg}
    (hk : ∀ a, (k a).Ends P) : (h.signJWT userID email k).Ends P := by
  intro now
  dsimp only
  cases h.privateKey with
  | other type => exact hk _
  | rsa key => exact hk
  | ed25519 key => exact hk

/-- The reply sets no cookie but the one that clears. -/
def AuthReply.ClearsOnly (reply : AuthReply) : Prop := ∀ c, reply.setCookie = some c → c = clearState

/-- A reply that clears the cookie sets no state. -/
theorem AuthReply.clearsOnly_clear (body : AuthBody) : AuthReply.ClearsOnly ⟨some clearState, body⟩ := by
  intro c hc
  cases hc
  rfl

/-- A reply without a cookie sets no state. -/
theorem AuthReply.clearsOnly_none (body : AuthBody) : AuthReply.ClearsOnly ⟨none, body⟩ := by
  intro c hc
  cases hc

/-- Issuing clears the state cookie in each of its replies. -/
theorem issueTokens_ends (h : AuthHandler) (userID email : GoString) :
    (h.issueTokens userID email).Ends AuthReply.ClearsOnly := by
  refine signJWT_ends fun a => ?_
  cases a with
  | error err => exact AuthReply.clearsOnly_clear _
  | ok signedToken =>
      dsimp only
      split
      · exact AuthReply.clearsOnly_clear _
      · intro a
        cases a with
        | error err => exact AuthReply.clearsOnly_clear _
        | ok rt =>
            intro a
            cases a with
            | error err => exact AuthReply.clearsOnly_clear _
            | ok _ => exact AuthReply.clearsOnly_clear _

/-- So does the code exchange, whatever Google answers. -/
theorem exchangeCode_ends (h : AuthHandler) (req : CallbackRequest) : (h.exchangeCode req).Ends AuthReply.ClearsOnly := by
  intro a
  cases a with
  | error err => exact AuthReply.clearsOnly_clear _
  | ok oauthToken =>
      dsimp only
      split
      · exact AuthReply.clearsOnly_clear _
      · intro a
        cases a with
        | error err => exact AuthReply.clearsOnly_clear _
        | ok payload =>
            dsimp only [authorize]
            split
            · exact AuthReply.clearsOnly_clear _
            · split
              · exact AuthReply.clearsOnly_clear _
              · exact issueTokens_ends h _ _

/-- A callback never sets a state cookie of its own. -/
theorem handleCallback_ends (D : AuthDeps) (h : AuthHandler) (r : CallbackHttp) :
    (h.handleCallback D r).Ends AuthReply.ClearsOnly := by
  unfold handleCallback
  split
  · exact AuthReply.clearsOnly_none _
  · split
    · exact AuthReply.clearsOnly_none _
    · split
      · exact AuthReply.clearsOnly_none _
      · split
        · exact AuthReply.clearsOnly_none _
        · split
          · exact AuthReply.clearsOnly_none _
          · split
            · exact AuthReply.clearsOnly_none _
            · exact exchangeCode_ends h _

/-- The callback endpoint sets no state. -/
theorem handleCallback_cookieAfter (r : CallbackHttp) {store : TokenStore} {old : Option (GoString × ℚ)}
    {value : GoString} {expires : ℚ}
    (h : ((handleCallback E.deps E.handler r).exec w.serve store).1.cookieAfter time old = some (value, expires)) :
    old = some (value, expires) := by
  have hends := (handleCallback_ends E.deps E.handler r).exec w.serve store
  unfold AuthReply.cookieAfter at h
  split at h
  · exact h
  · next c hc =>
      rw [hends c hc] at h
      rw [if_neg (by decide)] at h
      cases h

/-! ## One step -/

/-- What a step can do, and what it finds. -/
inductive LoginFlowStep (E : LoginEnv) (s : LoginFlow) : LoginFlowAct → LoginFlow → Prop
  | visitLoginPage (tab : ℕ) (time : ℚ) (state : JsString) (array : Vector UInt32 56) :
      LoginFlowStep E s (.visitLoginPage tab time state array) (s.visitLoginPage E tab time state array)
  | followLogin (tab : ℕ) (time : ℚ) (w : AuthWorld) (url : JsString) (hpage : s.tabs tab = .leaving url) :
      LoginFlowStep E s (.followLogin tab time w) (s.login E tab time w (loginRequest url E.browser).login)
  | visitLogin (tab : ℕ) (time : ℚ) (w : AuthWorld) (r : LoginHttp) :
      LoginFlowStep E s (.visitLogin tab time w r) (s.login E tab time w r)
  | consent (tab : ℕ) (code : JsString) (userID email url : GoString) (hpage : s.tabs tab = .google url) :
      LoginFlowStep E s (.consent tab code userID email) (s.consent E tab code userID email url)
  | issueElsewhere (issued : IssuedCode) : LoginFlowStep E s (.issueElsewhere issued) { s with codes := s.codes ++ [issued] }
  | followReturn (tab : ℕ) (time : ℚ) (code state : JsString) (hpage : s.tabs tab = .returned code state) :
      LoginFlowStep E s (.followReturn tab time) (s.callback E tab time (some code) (some state))
  | openCallback (tab : ℕ) (time : ℚ) (code state : Option JsString) :
      LoginFlowStep E s (.openCallback tab time code state) (s.callback E tab time code state)
  | answer (tab : ℕ) (time : ℚ) (w : AuthWorld) (failure : JsError) (r : ServerRequest) (hpage : s.tabs tab = .waiting r) :
      LoginFlowStep E s (.answer tab time w failure) (s.answer E tab time w failure r.callback)
  | lose (tab : ℕ) (r : ServerRequest) (hpage : s.tabs tab = .waiting r) :
      LoginFlowStep E s (.lose tab) (s.setTab tab (.shows ⟨callbackPath, s.authRedirectPath, none⟩))
  | setRedirectPath (path : Option JsString) : LoginFlowStep E s (.setRedirectPath path) { s with authRedirectPath := path }
  | leave (tab : ℕ) : LoginFlowStep E s (.leave tab) (s.setTab tab .elsewhere)

/-- Every step is one of those listed; the proof unfolds the step function, once and for all. -/
theorem LoginFlow.step_spec (h : LoginFlow.step E s a = some s') : LoginFlowStep E s a s' := by
  cases a with
  | visitLoginPage tab time state array => exact Option.some.inj h ▸ .visitLoginPage tab time state array
  | visitLogin tab time w r => exact Option.some.inj h ▸ .visitLogin tab time w r
  | issueElsewhere issued => exact Option.some.inj h ▸ .issueElsewhere issued
  | openCallback tab time code state => exact Option.some.inj h ▸ .openCallback tab time code state
  | setRedirectPath path => exact Option.some.inj h ▸ .setRedirectPath path
  | leave tab => exact Option.some.inj h ▸ .leave tab
  -- the others need the tab to be on the page that the action starts from
  | followLogin tab time w =>
      dsimp only [LoginFlow.step] at h
      split at h
      · next url hpage => exact Option.some.inj h ▸ .followLogin tab time w url hpage
      · cases h
  | consent tab code userID email =>
      dsimp only [LoginFlow.step] at h
      split at h
      · next url hpage => exact Option.some.inj h ▸ .consent tab code userID email url hpage
      · cases h
  | followReturn tab time =>
      dsimp only [LoginFlow.step] at h
      split at h
      · next code state hpage => exact Option.some.inj h ▸ .followReturn tab time code state hpage
      · cases h
  | answer tab time w failure =>
      dsimp only [LoginFlow.step] at h
      split at h
      · next r hpage => exact Option.some.inj h ▸ .answer tab time w failure r hpage
      · cases h
  | lose tab =>
      dsimp only [LoginFlow.step] at h
      split at h
      · next r hpage => exact Option.some.inj h ▸ .lose tab r hpage
      · cases h

/-- The login endpoint signs the state it is brought, which is thereby one of this browser's. -/
theorem LoginFlowInv.login (h : LoginFlowInv E s) (r : LoginHttp) : LoginFlowInv E (s.login E tab time w r) := by
  let reply := ((handleLogin E.deps E.handler r).exec w.serve s.tokenStore).1
  have hreply : LoginFlowInv E { s with stateCookie := reply.cookieAfter time s.stateCookie, logins := s.logins ++ [r.state] } := by
    refine ⟨h.jar, fun value expires hvalue => ?_, fun tab' r' hwaiting => ?_⟩
    · rcases handleLogin_cookieAfter r hvalue with hold | rfl
      · exact (h.cookie value expires hold).mono (List.subset_append_left _ _)
      · exact ⟨r.state, List.mem_append_right _ (List.mem_singleton_self _), rfl⟩
    · exact (h.waiting tab' r' hwaiting).mono (List.Subset.refl _) (List.subset_append_left _ _)
  refine hreply.setTab fun r' hpage => ?_
  split at hpage <;> cases hpage

/-- The page sends the verifier and the cookie that the browser has. -/
theorem LoginFlowInv.callback (h : LoginFlowInv E s) (code state : Option JsString) :
    LoginFlowInv E (s.callback E tab time code state) := by
  unfold LoginFlow.callback callbackParams
  split
  · next code state _ _ =>
      have hdeleted : LoginFlowInv E { s with jar := deleteCookie oauthVerifier callbackPath s.jar } :=
        ⟨fun c hc => h.jar c (CookieJar.mem_remove.mp hc).1, h.cookie, h.waiting⟩
      refine hdeleted.setTab fun r hpage => ?_
      cases hpage
      refine ⟨code, getCookie oauthVerifier time callbackPath s.jar, state, sentCookie time s.stateCookie, rfl, ?_, ?_⟩
      · unfold getCookie
        cases hget : s.jar.get? time callbackPath oauthVerifier with
        | none => exact .inr rfl
        | some codeVerifier =>
            obtain ⟨c, hin, hname, rfl⟩ := CookieJar.mem_of_get? hget
            exact .inl (h.jar c hin hname).2
      · intro value hvalue
        obtain ⟨expires, hcookie, -⟩ := sentCookie_eq_some hvalue
        exact h.cookie value expires hcookie
  · refine LoginFlowInv.setTab h fun r hpage => ?_
    cases hpage

/-- **Every step keeps it.** -/
theorem LoginFlowInv.step (h : LoginFlowInv E s) (hstep : LoginFlow.step E s a = some s') : LoginFlowInv E s' := by
  cases LoginFlow.step_spec hstep with
  | visitLoginPage tab time state array =>
      have hset : LoginFlowInv E { s with
          jar := setCookie oauthVerifier (generateCodeVerifier array) 300 (js "/") time s.jar
          verifiers := s.verifiers ++ [generateCodeVerifier array] } := by
        refine ⟨fun c hc hname => ?_, h.cookie, fun tab' r hwaiting => ?_⟩
        · rcases CookieJar.mem_of_mem_set hc with rfl | hold
          · exact ⟨rfl, List.mem_append_right _ (List.mem_singleton_self _)⟩
          · exact ⟨(h.jar c hold hname).1, List.mem_append_left _ (h.jar c hold hname).2⟩
        · exact (h.waiting tab' r hwaiting).mono (List.subset_append_left _ _) (List.Subset.refl _)
      exact hset.setTab fun r hpage => by cases hpage
  | followLogin tab time w url hpage => exact h.login _
  | visitLogin tab time w r => exact h.login r
  | consent tab code userID email url hpage =>
      have hcodes : LoginFlowInv E { s with codes := s.codes ++
          [⟨utf8Encode code, some ((E.readAuthCodeURL url).challenge, (E.readAuthCodeURL url).method), userID, email⟩] } :=
        ⟨h.jar, h.cookie, h.waiting⟩
      exact hcodes.setTab fun r hpage => by cases hpage
  | issueElsewhere issued => exact ⟨h.jar, h.cookie, h.waiting⟩
  -- the request takes its verifier and its cookie from the browser
  | followReturn tab time code state hpage => exact h.callback _ _
  | openCallback tab time code state => exact h.callback code state
  | answer tab time w failure r hpage =>
      let out := (handleCallback E.deps E.handler r.callback).exec w.serve s.tokenStore
      let b := callbackAnswer E.router E.webApiEndpoint failure out.1 ⟨callbackPath, s.authRedirectPath, none⟩
      -- an answer clears the state cookie or leaves it, and does not touch the jar
      have hanswered : LoginFlowInv E { s with
          stateCookie := out.1.cookieAfter time s.stateCookie
          authRedirectPath := b.authRedirectPath
          tokenStore := out.2 } :=
        ⟨h.jar, fun value expires hvalue => h.cookie value expires (handleCallback_cookieAfter _ hvalue), h.waiting⟩
      exact hanswered.setTab fun r' hpage => by cases hpage
  | lose tab r hpage => exact h.setTab fun r' hpage' => by cases hpage'
  | setRedirectPath path => exact ⟨h.jar, h.cookie, h.waiting⟩
  | leave tab => exact h.setTab fun r hpage => by cases hpage

/-- The run lemma. -/
theorem loginFlowInv_run {as : List LoginFlowAct} (hrun : run (LoginFlow.step E) LoginFlow.init as = some s) : LoginFlowInv E s := by
  have hinit : LoginFlowInv E LoginFlow.init := by
    refine ⟨fun c hc => ?_, fun value expires hvalue => ?_, fun tab r hwaiting => ?_⟩
    · cases hc
    · cases hvalue
    · cases hwaiting
  exact run_invariant (G := fun _ _ => True) (fun _ _ _ h _ hstep => h.step hstep) hinit (along_of_forall (fun _ _ => trivial) _ _) hrun

/-- The page behind an answer is decided by the handler's reply. -/
theorem tabs_answer {failure : JsError} {r : CallbackHttp} : (s.answer E tab time w failure r).tabs tab =
    .shows (callbackAnswer E.router E.webApiEndpoint failure ((handleCallback E.deps E.handler r).exec w.serve s.tokenStore).1
      ⟨callbackPath, s.authRedirectPath, none⟩) := by
  rw [LoginFlow.answer, tabs_setTab, if_pos rfl]

/-- Codes that were issued stay issued. -/
theorem LoginFlowStep.codes_subset (h : LoginFlowStep E s a s') : s.codes ⊆ s'.codes := by
  cases h with
  | consent tab code userID email url hpage => exact List.subset_append_left _ _
  | issueElsewhere issued => exact List.subset_append_left _ _
  | _ => exact List.Subset.refl _

/-- Verifiers that were made stay made. -/
theorem LoginFlowStep.verifiers_subset (h : LoginFlowStep E s a s') : s.verifiers ⊆ s'.verifiers := by
  cases h with
  | visitLoginPage tab time state array => exact List.subset_append_left _ _
  | _ => exact List.Subset.refl _

end

/-! ### The login of a browser that has been nowhere -/

/-- `AuthCodeURL` of a client with this redirect, on a state and a challenge that need no escapes. -/
def sampleAuthCodeURL (state challenge method : GoString) : GoString :=
  str "https://accounts.google.com/o/oauth2/auth?access_type=offline&client_id=client&code_challenge=" ++ challenge ++
    str "&code_challenge_method=" ++ method ++
    str "&redirect_uri=https%3A%2F%2Fui%2Fcallback&response_type=code&scope=openid+email&state=" ++ state

/-- The values in the places where `AuthCodeURL` has them. -/
def sampleReadAuthCodeURL (url : GoString) : AuthorizationRequest :=
  match url.splitOn (ascii '&') with
  | [_, _, challenge, method, _, _, _, state] => ⟨state.drop 6, challenge.drop 15, method.drop 22⟩
  | _ => ⟨[], [], []⟩

/-- `uuidv4()`. -/
def sampleState : JsString := js "123e4567-e89b-12d3-a456-426614174000"

/-- `window.crypto.getRandomValues`. -/
def sampleArray : Vector UInt32 56 := Vector.replicate 56 0

/-- The SHA-256 digest of the verifier of that. -/
def verifierDigest : Vector UInt8 32 :=
  ⟨#[0x9b, 0x0e, 0xc2, 0x51, 0x0d, 0x12, 0xd2, 0xe5, 0xee, 0xf1, 0xd3, 0x54, 0x97, 0x7c, 0xdf, 0x8a, 0x6a, 0x2d, 0x91, 0x98,
    0x7e, 0x2c, 0x34, 0x2c, 0x68, 0x5d, 0x45, 0x00, 0xdb, 0x19, 0xab, 0x06], rfl⟩

/-- The key that the handler derives from `pem`, and the HMAC of the state under it. -/
def pemDigest : Bytes :=
  [0xf0, 0xae, 0xac, 0xe9, 0x12, 0xcf, 0x19, 0xdc, 0x1c, 0x6f, 0xff, 0xd4, 0x1d, 0xe6, 0xe3, 0x95, 0xda, 0xeb, 0x54, 0x62,
    0xf1, 0x22, 0x19, 0x45, 0x70, 0x6b, 0xd0, 0x67, 0x4c, 0x30, 0x05, 0xeb]

/-- The signature of the sample's state. -/
def stateHmac : Bytes :=
  [0xc7, 0x78, 0x2f, 0x25, 0x5c, 0xdc, 0x22, 0x85, 0xc3, 0xa1, 0xdb, 0x28, 0x84, 0x63, 0x9b, 0x47, 0x6a, 0x7b, 0x9b, 0x76,
    0x03, 0x2d, 0xe6, 0x55, 0x1c, 0x95, 0x43, 0x0a, 0x1d, 0x67, 0xfb, 0x2f]

/-- The handler of the other samples, with a Google whose urls can be read back. -/
def sampleLoginEnv : LoginEnv where
  deps := { sampleDeps with
    sha256 := fun _ => pemDigest
    hmacSHA256 := fun _ _ => stateHmac
    authCodeURL := fun _ => sampleAuthCodeURL }
  handler := { sampleHandler with hmacKey := pemDigest }
  router := angularRouter
  digest := fun _ => verifierDigest
  loginUrl := js "http://localhost:3000/auth/v1/google/login"
  webApiEndpoint := webApiAddress
  browser := samplePost (str "/") []
  readAuthCodeURL := sampleReadAuthCodeURL
  takesVerifier v := 43 ≤ v.length && v.length ≤ 128

/-- What the login page goes to, and what the login endpoint goes to. -/
def sampleLoginUrl : JsString := (loginPage sampleLoginEnv.digest sampleLoginEnv.loginUrl sampleState sampleArray 0 []).1

/-- Where the sample's login endpoint redirects to. -/
def sampleGoogleUrl : GoString :=
  sampleAuthCodeURL (utf8Encode sampleState)
    (utf8Encode (generateCodeChallenge sampleLoginEnv.digest (generateCodeVerifier sampleArray))) (str "S256")

/-- The code that Google issues, and the request that the callback page sends. -/
def sampleCode : IssuedCode := ownCode sampleLoginEnv (generateCodeVerifier sampleArray) (js "code") (str "u") (str "u@mail")

/-- The callback request of the sample's tab. -/
def sampleFetch : ServerRequest :=
  fetchAccessToken (js "code") (generateCodeVerifier sampleArray) sampleState
    (some (sampleLoginEnv.handler.signState sampleLoginEnv.deps (utf8Encode sampleState))) sampleLoginEnv.browser

/-- The challenge that the code was asked for with. -/
def sampleChallenge : GoString := utf8Encode (generateCodeChallenge sampleLoginEnv.digest (generateCodeVerifier sampleArray))

/-- Google takes the one code with a verifier whose digest is the challenge, and the signer is that of the one token. -/
def googleWorld (t : GoString) : AuthWorld :=
  { signingWorld t with
    exchange := fun code codeVerifier =>
      if code = sampleCode.code ∧ utf8Encode (base64urlencode (sampleLoginEnv.digest codeVerifier).toList) = sampleChallenge then
        (signingWorld t).exchange code codeVerifier
      else .error (.external (str "invalid_grant")) }

/-- The sample's Google gives an id token for its one code and a verifier that fits its challenge. -/
theorem googleWorld_exchange (t code codeVerifier : GoString) : (googleWorld t).exchange code codeVerifier =
    if code = sampleCode.code ∧ utf8Encode (base64urlencode (sampleLoginEnv.digest codeVerifier).toList) = sampleChallenge then
      .ok ⟨(∅ : GoMap Json).insert (str "id_token") (.string (str "raw"))⟩
    else .error (.external (str "invalid_grant")) := rfl

/-- The signer of the sample's world is honest. -/
theorem googleWorld_signs (t : GoString) : SignsWith sampleJwt (googleWorld t) :=
  ⟨fun _ _ => rfl, fun _ _ => rfl⟩

/-- **It vouches for the one user**, by the one code and a verifier that fits. -/
theorem googleWorld_vouched {t code codeVerifier userID email : GoString} :
    VouchedFor sampleLoginEnv.handler (googleWorld t) code codeVerifier userID email ↔
      (code = sampleCode.code ∧ sampleCode.Fits sampleLoginEnv.digest codeVerifier) ∧ userID = str "u" ∧ email = str "u@mail" := by
  have hfits : sampleCode.Fits sampleLoginEnv.digest codeVerifier ↔
      utf8Encode (base64urlencode (sampleLoginEnv.digest codeVerifier).toList) = sampleChallenge := by
    constructor
    · rintro (⟨-, hchallenge⟩ | ⟨hplain, -⟩)
      · exact hchallenge.symm
      · exact absurd hplain (by decide)
    · intro hchallenge
      exact .inl ⟨rfl, hchallenge.symm⟩
  rw [hfits]
  constructor
  · rintro ⟨⟨oauthToken, payload, htoken, -, hpayload, rfl, rfl⟩, -⟩
    rw [googleWorld_exchange] at htoken
    split at htoken
    · next htaken =>
        cases hpayload
        exact ⟨htaken, rfl, rfl⟩
    · cases htoken
  · rintro ⟨htaken, rfl, rfl⟩
    have htoken := (googleWorld_exchange t code codeVerifier).trans (if_pos htaken)
    exact ⟨⟨_, _, htoken, by decide, rfl, rfl, rfl⟩, by decide, by decide⟩

/-- The states of the login: at the page, at Google, on the way back, and after the request. -/
def sampleLeaving : LoginFlow := LoginFlow.init.visitLoginPage sampleLoginEnv 0 0 sampleState sampleArray

/-- The tab has been redirected to Google. -/
def sampleAtGoogle : LoginFlow :=
  sampleLeaving.login sampleLoginEnv 0 1 (googleWorld (str "a")) (loginRequest sampleLoginUrl sampleLoginEnv.browser).login

/-- The user has consented and the tab is on its way back. -/
def sampleReturned : LoginFlow := sampleAtGoogle.consent sampleLoginEnv 0 (js "code") (str "u") (str "u@mail") sampleGoogleUrl

/-- The callback page has sent its request. -/
def sampleSent : LoginFlow := sampleReturned.callback sampleLoginEnv 0 2 (some (js "code")) (some sampleState)

/-- The tab leaves for the login endpoint. -/
theorem sampleLeaving_page : sampleLeaving.tabs 0 = .leaving sampleLoginUrl := rfl

/-- The tab is at Google, with the url of the login endpoint. -/
theorem sampleAtGoogle_page : sampleAtGoogle.tabs 0 = .google sampleGoogleUrl := by with_unfolding_all rfl

/-- The tab comes back with the code and its own state. -/
theorem sampleReturned_page : sampleReturned.tabs 0 = .returned (js "code") sampleState := by with_unfolding_all rfl

/-- The tab waits for the answer to its request. -/
theorem sampleSent_page : sampleSent.tabs 0 = .waiting sampleFetch := by with_unfolding_all rfl

/-- From the login page to Google. -/
theorem followLogin_sample : LoginFlow.step sampleLoginEnv sampleLeaving (.followLogin 0 1 (googleWorld (str "a"))) = some sampleAtGoogle := by
  rw [LoginFlow.step, sampleLeaving_page, sampleAtGoogle]

/-- From Google back to the callback page. -/
theorem consent_sample :
    LoginFlow.step sampleLoginEnv sampleAtGoogle (.consent 0 (js "code") (str "u") (str "u@mail")) = some sampleReturned := by
  rw [LoginFlow.step, sampleAtGoogle_page, sampleReturned]

/-- The callback page sends the request with the cookies that are left. -/
theorem followReturn_sample : LoginFlow.step sampleLoginEnv sampleReturned (.followReturn 0 2) = some sampleSent := by
  rw [LoginFlow.step, sampleReturned_page, sampleSent]

/-- The answer is the callback handler's. -/
theorem answer_sample : LoginFlow.step sampleLoginEnv sampleSent (.answer 0 3 (googleWorld (str "a")) ⟨[]⟩) =
    some (sampleSent.answer sampleLoginEnv 0 3 (googleWorld (str "a")) ⟨[]⟩ sampleFetch.callback) := by
  rw [LoginFlow.step, sampleSent_page]

/-- The four steps of a login, as a run from the empty browser. -/
theorem sampleSent_run : run (LoginFlow.step sampleLoginEnv) LoginFlow.init
    [.visitLoginPage 0 0 sampleState sampleArray, .followLogin 0 1 (googleWorld (str "a")),
      .consent 0 (js "code") (str "u") (str "u@mail"), .followReturn 0 2] = some sampleSent :=
  run_cons.mpr ⟨sampleLeaving, rfl, run_cons.mpr ⟨sampleAtGoogle, followLogin_sample,
    run_cons.mpr ⟨sampleReturned, consent_sample, run_cons.mpr ⟨sampleSent, followReturn_sample, rfl⟩⟩⟩⟩

/-- One code has been issued. -/
theorem sampleSent_codes : sampleSent.codes = [sampleCode] := by with_unfolding_all rfl

end RCloneCloud
