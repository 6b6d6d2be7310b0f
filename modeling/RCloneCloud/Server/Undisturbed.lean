import RCloneCloud.Server.LoginFlow

/-!
# `Server.Undisturbed` — a login that no other overtakes

The verifier and the state of a login are kept in cookies that the tabs of a browser share, so a login that another tab
starts in between takes them over, and the first one fails. What a login asks of the others is no more than that: as long as
it still needs the two cookies, no other login page is opened, and no other login reaches the server's endpoints
(`LoginUndisturbed`). Then it goes from stage to stage (`LoginStage.step`), and at no point of any run is the tab thrown out
(`undisturbed_login_on_its_way`).

Google takes a verifier of 43 to 128 characters only. `generateCodeVerifier` makes one of that length only from an array
with small numbers, so that the verifier has a form that Google takes is a condition on the array drawn, not a fact.

`LoginStage` says for each page the tab can be on what the cookies, the code and the request must be for the login to
go on. Each stage has one lemma about the step that leads out of it (`login_redirects`, `consent_returns`,
`callback_sends`, `answer_signs_in`), and one lemma deals with all steps that are not of this tab
(`LoginStage.aside`). The conditions on what is outside, that Google takes the code and both tokens can be made, stand
in `LoginServed` and only concern the step at which the endpoint answers.
-/

set_option autoImplicit false

namespace RCloneCloud

open Lib AuthHandler

/-- The tab that the action is of. -/
def LoginFlowAct.tab : LoginFlowAct → Option ℕ
  | .visitLoginPage tab _ _ _ | .followLogin tab _ _ | .visitLogin tab _ _ _ | .consent tab _ _ _ | .followReturn tab _
  | .openCallback tab _ _ _ | .answer tab _ _ _ | .lose tab | .leave tab => some tab
  | .issueElsewhere _ | .setRedirectPath _ => none

/-- The login page is not opened, which would make another verifier. -/
def LoginFlowAct.keepsVerifier : LoginFlowAct → Bool
  | .visitLoginPage .. => false
  | _ => true

/-- The endpoints of a login are not reached, which would set the cookie of the state. -/
def LoginFlowAct.keepsState : LoginFlowAct → Bool
  | .followLogin .. | .visitLogin .. | .answer .. => false
  | _ => true

/-- The action of another tab. -/
structure LoginFlowAct.Aside (t : ℕ) (a : LoginFlowAct) : Prop where
  tab : a.tab ≠ some t
  verifier : a.keepsVerifier = true
  state : a.keepsState = true

/-- Google and the keys are at hand while a request of the callback page is answered: Google takes the code of the request,
    and both tokens can be made for every user who has consented. -/
structure LoginServed (E : LoginEnv) (s : LoginFlow) (r : ServerRequest) (w : AuthWorld) : Prop where
  google : ∀ req, r.callback.body = .ok req → GoogleServes E.digest E.takesVerifier E.handler s.codes req.code w
  tokens : ∀ issued ∈ s.codes, ∃ response, Issues E.handler w issued.userID issued.email response

/-- What may happen while the tab logs in with a verifier made at `T`: its own next step, by a user who is let in, in time
    and with Google and the keys at hand; or steps of others that neither start a login nor end one. Before the tab has
    reached the login endpoint others may end theirs, and once it has sent its request they may do anything. -/
def LoginUndisturbed (E : LoginEnv) (t : ℕ) (T : ℚ) (s : LoginFlow) (a : LoginFlowAct) : Prop :=
  match s.tabs t with
  | .leaving _ => (∃ time w, a = .followLogin t time w) ∨ a.tab ≠ some t ∧ a.keepsVerifier = true
  | .google _ => (∃ code userID email, a = .consent t code userID email ∧ code ≠ [] ∧ E.handler.LetsIn userID) ∨ a.Aside t
  | .returned _ _ =>
      (∃ time, a = .followReturn t time ∧ time < T + 300 * 86400 ∧ ∀ value expires, s.stateCookie = some (value, expires) → time < expires) ∨
        a.Aside t
  | .waiting r =>
      (∃ time w failure, a = .answer t time w failure ∧ LoginServed E s r w) ∨ a.tab ≠ some t
  | .shows _ | .elsewhere => a.tab ≠ some t

/-- The tab is signed in with a token issued for a user who has consented to the challenge of this verifier. -/
def SignedInWith (E : LoginEnv) (codeVerifier : JsString) (s : LoginFlow) (b : Browser) : Prop :=
  ∃ w code userID email response, ownCode E codeVerifier code userID email ∈ s.codes ∧ Issues E.handler w userID email response ∧
    b.authToken = some (utf8Decode response.token)

/-- What the UI and Google are built with: the url of the API is plain, and Google reads what `AuthCodeURL` writes. -/
structure LoginEnv.Reads (E : LoginEnv) : Prop where
  loginUrl : PlainText E.loginUrl
  authCodeURL : ∀ state challenge : JsString, (∀ c ∈ state, unreserved c = true) → (∀ c ∈ challenge, unreserved c = true) →
    E.readAuthCodeURL (E.deps.authCodeURL E.handler.oauthConfig (utf8Encode state) (utf8Encode challenge) (str "S256")) =
      ⟨utf8Encode state, utf8Encode challenge, str "S256"⟩

/-- The verifier's cookie of a login at `T`. -/
def verifierCookie (codeVerifier : JsString) (T : ℚ) : Cookie JsString ℚ :=
  ⟨oauthVerifier, js "/", codeVerifier, T + 300 * 86400⟩

/-- How far the login is, and what it relies on there. -/
inductive LoginStage (E : LoginEnv) (t : ℕ) (T : ℚ) (codeVerifier state : JsString) (s : LoginFlow) : Prop
  | leaving (url : JsString) (hpage : s.tabs t = .leaving url) (honly : s.jar.Only (verifierCookie codeVerifier T))
      (hasks : (loginRequest url E.browser).login =
        ⟨utf8Encode state, utf8Encode (generateCodeChallenge E.digest codeVerifier), str "S256"⟩)
  | google (url : GoString) (hpage : s.tabs t = .google url) (honly : s.jar.Only (verifierCookie codeVerifier T))
      (hasks : E.readAuthCodeURL url = ⟨utf8Encode state, utf8Encode (generateCodeChallenge E.digest codeVerifier), str "S256"⟩)
      (expires : ℚ) (hcookie : s.stateCookie = some (E.handler.signState E.deps (utf8Encode state), expires))
  | returned (code : JsString) (userID email : GoString) (hpage : s.tabs t = .returned code state)
      (honly : s.jar.Only (verifierCookie codeVerifier T)) (expires : ℚ)
      (hcookie : s.stateCookie = some (E.handler.signState E.deps (utf8Encode state), expires))
      (hcode : code ≠ [] ∧ E.handler.LetsIn userID ∧ ownCode E codeVerifier code userID email ∈ s.codes)
  | waiting (code : JsString) (userID email : GoString)
      (hpage : s.tabs t = .waiting
        (fetchAccessToken code codeVerifier state (some (E.handler.signState E.deps (utf8Encode state))) E.browser))
      (hcode : code ≠ [] ∧ E.handler.LetsIn userID ∧ ownCode E codeVerifier code userID email ∈ s.codes)
  | signedIn (b : Browser) (hpage : s.tabs t = .shows b) (hsigned : SignedInWith E codeVerifier s b)

section
variable {E : LoginEnv} {s s' : LoginFlow} {a : LoginFlowAct} {t : ℕ} {T time : ℚ} {w : AuthWorld} {codeVerifier st : JsString}

/-! ### What others leave alone -/

/-- A step of one tab leaves the pages of the others. -/
theorem LoginFlowStep.tabs_of_ne (h : LoginFlowStep E s a s') (hne : a.tab ≠ some t) : s'.tabs t = s.tabs t := by
  have hset : ∀ (s : LoginFlow) (tab : ℕ) (page : LoginTab), some tab ≠ some t → (s.setTab tab page).tabs t = s.tabs t := by
    intro s tab page hother
    rw [tabs_setTab, if_neg]
    rintro rfl
    exact hother rfl
  cases h with
  | issueElsewhere issued => rfl
  | setRedirectPath path => rfl
  | visitLoginPage tab time state array => exact hset _ _ _ hne
  | followLogin tab time w url hpage => exact hset _ _ _ hne
  | visitLogin tab time w r => exact hset _ _ _ hne
  | consent tab code userID email url hpage => exact hset _ _ _ hne
  | followReturn tab time code state hpage => exact hset _ _ _ hne
  | openCallback tab time code state => exact hset _ _ _ hne
  | answer tab time w failure r hpage => exact hset _ _ _ hne
  | lose tab r hpage => exact hset _ _ _ hne
  | leave tab => exact hset _ _ _ hne

/-- The callback page does not delete the verifier: its own directory is not the root. -/
theorem only_callback (h : s.jar.Only (verifierCookie codeVerifier T)) {tab : ℕ} (code state : Option JsString) :
    (s.callback E tab time code state).jar.Only (verifierCookie codeVerifier T) := by
  show CookieJar.Only (callbackParams code state time (sentCookie time s.stateCookie) E.browser s.jar).2 _
  unfold callbackParams
  split
  · have hpath : defaultPath callbackPath ≠ js "/" := by decide
    exact h.remove hpath
  · exact h

/-- A step that keeps the verifier leaves its cookie the only one of its name. -/
theorem LoginFlowStep.only_of_keeps (h : LoginFlowStep E s a s') (ha : a.keepsVerifier = true)
    (honly : s.jar.Only (verifierCookie codeVerifier T)) : s'.jar.Only (verifierCookie codeVerifier T) := by
  cases h with
  | visitLoginPage tab time state array => cases ha
  | followReturn tab time code state hpage => exact only_callback honly _ _
  | openCallback tab time code state => exact only_callback honly code state
  | _ => exact honly

/-- A step that keeps the state leaves its cookie as it is. -/
theorem LoginFlowStep.stateCookie_of_keeps (h : LoginFlowStep E s a s') (ha : a.keepsState = true) : s'.stateCookie = s.stateCookie := by
  cases h with
  | followLogin tab time w url hpage => cases ha
  | visitLogin tab time w r => cases ha
  | answer tab time w failure r hpage => cases ha
  | _ => rfl

/-! ### The steps of a login -/

/-- The login page sets its verifier in place of any other and leaves with its state and challenge. -/
theorem LoginStage.start (hinv : LoginFlowInv E s) (hreads : E.Reads) (hst : ∀ c ∈ st, unreserved c = true)
    (array : Vector UInt32 56) : LoginStage E t T (generateCodeVerifier array) st (s.visitLoginPage E t T st array) := by
  refine .leaving (loginPage E.digest E.loginUrl st array T s.jar).1 ?_ ?_ ?_
  · rw [LoginFlow.visitLoginPage, tabs_setTab, if_pos rfl]
  · show (s.jar.set T (verifierCookie (generateCodeVerifier array) T)).Only _
    refine CookieJar.only_set (fun c hc hname => (hinv.jar c hc hname).1) ?_
    show T < T + 300 * 86400
    linarith
  · exact loginRequest_loginPage E.digest array T s.jar E.browser hreads.loginUrl hst

/-- The login endpoint goes on to Google. -/
theorem login_redirects (hreads : E.Reads) (hst : st ≠ [] ∧ ∀ c ∈ st, unreserved c = true) {r : LoginHttp}
    (hr : r = ⟨utf8Encode st, utf8Encode (generateCodeChallenge E.digest codeVerifier), str "S256"⟩)
    (honly : s.jar.Only (verifierCookie codeVerifier T)) : LoginStage E t T codeVerifier st (s.login E t time w r) := by
  have hchallenge : generateCodeChallenge E.digest codeVerifier ≠ [] := by
    intro hnil
    have hlength := (generateCodeChallenge_legal E.digest codeVerifier).1
    rw [hnil] at hlength
    cases hlength
  have hreply : handleLogin E.deps E.handler r = .pure ⟨some ⟨E.handler.signState E.deps (utf8Encode st), 300⟩,
      .redirect (E.deps.authCodeURL E.handler.oauthConfig (utf8Encode st)
        (utf8Encode (generateCodeChallenge E.digest codeVerifier)) (str "S256")) 302⟩ := by
    have hmethod : str "S256" ≠ [] := by decide
    rw [hr, handleLogin, if_neg (utf8Encode_ne_nil hst.1), if_neg (utf8Encode_ne_nil hchallenge), if_neg hmethod]
  have hlegal := (generateCodeChallenge_legal E.digest codeVerifier).2.2.2
  refine .google _ ?_ honly (hreads.authCodeURL st _ hst.2 hlegal) (time + 300) ?_
  · rw [LoginFlow.login, tabs_setTab, if_pos rfl, hreply]
    rfl
  · show AuthReply.cookieAfter ((handleLogin E.deps E.handler r).exec w.serve s.tokenStore).1 time s.stateCookie = _
    rw [hreply]
    show (if (0 : ℤ) < 300 then some (_, time + ((300 : ℤ) : ℚ)) else none) = some (_, time + 300)
    rw [if_pos (by norm_num), Int.cast_ofNat]

/-- Google goes back with the state it was given. -/
theorem consent_returns {url : GoString} {code : JsString} {userID email : GoString} {expires : ℚ}
    (hasks : E.readAuthCodeURL url = ⟨utf8Encode st, utf8Encode (generateCodeChallenge E.digest codeVerifier), str "S256"⟩)
    (honly : s.jar.Only (verifierCookie codeVerifier T))
    (hcookie : s.stateCookie = some (E.handler.signState E.deps (utf8Encode st), expires)) (hcode : code ≠ [])
    (hletsIn : E.handler.LetsIn userID) : LoginStage E t T codeVerifier st (s.consent E t code userID email url) := by
  refine .returned code userID email ?_ honly expires hcookie ⟨hcode, hletsIn, ?_⟩
  · rw [LoginFlow.consent, tabs_setTab, if_pos rfl, hasks, utf8Decode_encode]
  · show ownCode E codeVerifier code userID email ∈ s.codes ++ [_]
    rw [hasks]
    exact List.mem_append_right _ (List.mem_singleton_self _)

/-- The callback page still has the verifier and the cookie. -/
theorem callback_sends {code : JsString} {userID email : GoString} {expires : ℚ} (hst : st ≠ [])
    (honly : s.jar.Only (verifierCookie codeVerifier T))
    (hcookie : s.stateCookie = some (E.handler.signState E.deps (utf8Encode st), expires))
    (hcode : code ≠ [] ∧ E.handler.LetsIn userID ∧ ownCode E codeVerifier code userID email ∈ s.codes)
    (hverifier : time < T + 300 * 86400) (hstate : time < expires) :
    LoginStage E t T codeVerifier st (s.callback E t time (some code) (some st)) := by
  have hgiven : ∀ {text : JsString}, text ≠ [] → givenParam (some text) = some text := by
    intro text hne
    cases text with
    | nil => exact absurd rfl hne
    | cons c rest => rfl
  have hget : getCookie oauthVerifier time callbackPath s.jar = codeVerifier := by
    have hpath : pathMatches (js "/") callbackPath = true := by decide
    have hread : s.jar.get? time callbackPath (verifierCookie codeVerifier T).name = some codeVerifier :=
      honly.get? hverifier hpath
    exact congrArg (fun value => value.getD []) hread
  have hsent : sentCookie time s.stateCookie = some (E.handler.signState E.deps (utf8Encode st)) := by
    rw [hcookie]
    exact if_pos hstate
  refine .waiting code userID email ?_ hcode
  rw [LoginFlow.callback, tabs_setTab, if_pos rfl, callbackParams, hgiven hcode.1, hgiven hst]
  dsimp only
  rw [hget, hsent]

/-- The request is answered with tokens, and the page takes them. -/
theorem answer_signs_in {code : JsString} {userID email : GoString} {failure : JsError} (hst : st ≠ [])
    (hsigned : E.handler.signState E.deps (utf8Encode st) ≠ [])
    (hcode : code ≠ [] ∧ E.handler.LetsIn userID ∧ ownCode E codeVerifier code userID email ∈ s.codes)
    (htakes : E.takesVerifier (utf8Encode codeVerifier) = true)
    (hserved : LoginServed E s
      (fetchAccessToken code codeVerifier st (some (E.handler.signState E.deps (utf8Encode st))) E.browser) w) :
    LoginStage E t T codeVerifier st (s.answer E t time w failure
      (fetchAccessToken code codeVerifier st (some (E.handler.signState E.deps (utf8Encode st))) E.browser).callback) := by
  let r := fetchAccessToken code codeVerifier st (some (E.handler.signState E.deps (utf8Encode st))) E.browser
  let req : CallbackRequest := ⟨utf8Encode code, utf8Encode codeVerifier, utf8Encode st⟩
  -- the request shows the cookie of its own state
  have hpresents : Presents E.deps E.handler r.callback req :=
    ⟨rfl, utf8Encode_ne_nil hcode.1, utf8Encode_ne_nil hst, rfl, hsigned⟩
  -- Google takes the code with this verifier, for the user who has consented
  have hvouched : VouchedFor E.handler w req.code req.codeVerifier userID email := by
    have hfits : (ownCode E codeVerifier code userID email).Fits E.digest req.codeVerifier := .inl ⟨rfl, rfl⟩
    exact hserved.google req rfl _ htakes _ hcode.2.2 rfl hfits
  obtain ⟨response, hissues⟩ : ∃ response, Issues E.handler w userID email response := hserved.tokens _ hcode.2.2
  -- so none of the handler's checks fails
  have hbody : ((handleCallback E.deps E.handler r.callback).exec w.serve s.tokenStore).1.body = .tokens response := by
    rcases handleCallback_exec (D := E.deps) (h := E.handler) (w := w) (s := s.tokenStore) r.callback with
      ⟨req', hpresents', hexec⟩ | ⟨hno, -, -⟩
    · obtain rfl : req = req' := hpresents.unique hpresents'
      rw [hexec]
      cases exchangeCode_exec (h := E.handler) (w := w) (s := s.tokenStore) req with
      | issued userID' email' response' hvouched' _ hissues' hreply _ =>
          obtain ⟨rfl, rfl⟩ := hvouched.unique hvouched'
          rw [hreply, hissues'.unique hissues]
      | refused hno _ _ => exact absurd hissues (hno userID email response hvouched hcode.2.1)
    · exact absurd hpresents (hno req)
  refine .signedIn _ tabs_answer ⟨w, code, userID, email, response, hcode.2.2, hissues, ?_⟩
  rw [callbackAnswer, hbody]
  rfl

/-- What others do at a stage leaves it. -/
theorem LoginStage.aside (h : LoginStage E t T codeVerifier st s) (hstep : LoginFlowStep E s a s') (htab : a.tab ≠ some t)
    (hleaving : ∀ url, s.tabs t = .leaving url → a.keepsVerifier = true)
    (hgoogle : ∀ url, s.tabs t = .google url → a.Aside t)
    (hreturned : ∀ code state, s.tabs t = .returned code state → a.Aside t) : LoginStage E t T codeVerifier st s' := by
  have hpage := hstep.tabs_of_ne htab
  cases h with
  | leaving url hat honly hasks =>
      exact .leaving url (hpage.trans hat) (hstep.only_of_keeps (hleaving url hat) honly) hasks
  | google url hat honly hasks expires hcookie =>
      have haside := hgoogle url hat
      exact .google url (hpage.trans hat) (hstep.only_of_keeps haside.verifier honly) hasks expires
        ((hstep.stateCookie_of_keeps haside.state).trans hcookie)
  | returned code userID email hat honly expires hcookie hcode =>
      have haside := hreturned code st hat
      exact .returned code userID email (hpage.trans hat) (hstep.only_of_keeps haside.verifier honly) expires
        ((hstep.stateCookie_of_keeps haside.state).trans hcookie) ⟨hcode.1, hcode.2.1, hstep.codes_subset hcode.2.2⟩
  | waiting code userID email hat hcode =>
      exact .waiting code userID email (hpage.trans hat) ⟨hcode.1, hcode.2.1, hstep.codes_subset hcode.2.2⟩
  | signedIn b hat hsigned =>
      obtain ⟨w, code, userID, email, response, hcode, hissues, htoken⟩ := hsigned
      exact .signedIn b (hpage.trans hat) ⟨w, code, userID, email, response, hstep.codes_subset hcode, hissues, htoken⟩

/-- The step lemma: the tab's own step leads to the next stage, any other step leaves it in its stage. -/
theorem LoginStage.step (h : LoginStage E t T codeVerifier st s) (hreads : E.Reads)
    (hst : st ≠ [] ∧ ∀ c ∈ st, unreserved c = true) (htakes : E.takesVerifier (utf8Encode codeVerifier) = true)
    (hsigned : E.handler.signState E.deps (utf8Encode st) ≠ []) (hundisturbed : LoginUndisturbed E t T s a)
    (hstep : LoginFlow.step E s a = some s') : LoginStage E t T codeVerifier st s' := by
  have hspec := LoginFlow.step_spec hstep
  unfold LoginUndisturbed at hundisturbed
  -- in each stage the step is the tab's own, with what it needs, or one that stands aside
  cases h with
  | leaving url hpage honly hasks =>
      rw [hpage] at hundisturbed
      rcases hundisturbed with ⟨time, w, rfl⟩ | ⟨htab, hkeeps⟩
      · cases hspec with
        | followLogin _ _ _ url' hpage' =>
            obtain rfl : url = url' := LoginTab.leaving.inj (hpage.symm.trans hpage')
            exact login_redirects hreads hst hasks honly
      · refine LoginStage.aside (.leaving url hpage honly hasks) hspec htab (fun _ _ => hkeeps) ?_ ?_
        · intro url' hpage'
          cases hpage.symm.trans hpage'
        · intro code state hpage'
          cases hpage.symm.trans hpage'
  -- at Google both cookies are still needed
  | google url hpage honly hasks expires hcookie =>
      rw [hpage] at hundisturbed
      rcases hundisturbed with ⟨code, userID, email, rfl, hcode, hletsIn⟩ | haside
      · cases hspec with
        | consent _ _ _ _ url' hpage' =>
            obtain rfl : url = url' := LoginTab.google.inj (hpage.symm.trans hpage')
            exact consent_returns hasks honly hcookie hcode hletsIn
      · exact LoginStage.aside (.google url hpage honly hasks expires hcookie) hspec haside.tab (fun _ _ => haside.verifier)
          (fun _ _ => haside) fun _ _ _ => haside
  | returned code userID email hpage honly expires hcookie hcode =>
      rw [hpage] at hundisturbed
      rcases hundisturbed with ⟨time, rfl, hverifier, hstate⟩ | haside
      · cases hspec with
        | followReturn _ _ code' state' hpage' =>
            obtain ⟨rfl, rfl⟩ := LoginTab.returned.inj (hpage.symm.trans hpage')
            exact callback_sends hst.1 honly hcookie hcode hverifier (hstate _ _ hcookie)
      · exact LoginStage.aside (.returned code userID email hpage honly expires hcookie hcode) hspec haside.tab
          (fun _ _ => haside.verifier) (fun _ _ => haside) fun _ _ _ => haside
  -- the request carries the verifier and the state, so the cookies are needed no more
  | waiting code userID email hpage hcode =>
      rw [hpage] at hundisturbed
      rcases hundisturbed with ⟨time, w, failure, rfl, hserved⟩ | htab
      · cases hspec with
        | answer _ _ _ _ r' hpage' =>
            obtain rfl := LoginTab.waiting.inj (hpage.symm.trans hpage')
            exact answer_signs_in hst.1 hsigned hcode htakes hserved
      · refine LoginStage.aside (.waiting code userID email hpage hcode) hspec htab ?_ ?_ ?_
        · intro url hpage'
          cases hpage.symm.trans hpage'
        · intro url hpage'
          cases hpage.symm.trans hpage'
        · intro code' state hpage'
          cases hpage.symm.trans hpage'
  | signedIn b hpage hsignedIn =>
      rw [hpage] at hundisturbed
      refine LoginStage.aside (.signedIn b hpage hsignedIn) hspec hundisturbed ?_ ?_ ?_
      · intro url hpage'
        cases hpage.symm.trans hpage'
      · intro url hpage'
        cases hpage.symm.trans hpage'
      · intro code' state hpage'
        cases hpage.symm.trans hpage'

end

end RCloneCloud
