import RCloneCloud.Server.LoginFlow

/-!
# `Server.Challenge` — who a tab is signed in as

Others may plant urls in the browser: of the login endpoint, with a state and a challenge of theirs, and of the callback
page, with a state and a code of theirs. What keeps a tab from being signed in as one of them is the verifier: the callback
page sends the one that the login page of this browser has made, and Google takes the code only with a verifier that fits
the challenge it was asked for with.

A token in a tab comes from one step of the run, the answer of the callback endpoint to the tab's request
(`token_from_answer`, by the rule of causes). What that answer has done is said of one step (`answer_redeems`), and
`signed_in_by_challenge` puts the two together.

Google's honesty is asked for at every argument of `Exchange` and `Validate` (`HonestAnswer`), and the signer's for
all keys and claims. That the handler passes on the code and the verifier of its request, and hands the signer the
claims of the vouched user, is therefore proved and not assumed.
-/

set_option autoImplicit false

namespace RCloneCloud

open Lib AuthHandler

/-- While the callback endpoint answers, Google is honest and so is the signer. -/
structure HonestAnswer (E : LoginEnv) (J : JwtLib) (s : LoginFlow) (w : AuthWorld) : Prop where
  google : GoogleHonest E.digest E.handler s.codes w
  signs : SignsWith J w

/-- The condition on a run: at every answer Google and the signer are honest, whatever they are asked. -/
def HonestAnswers (E : LoginEnv) (J : JwtLib) (s : LoginFlow) : LoginFlowAct → Prop
  | .answer _ _ w _ => HonestAnswer E J s w
  | _ => True

/-- The step from `s` to `s'` has answered the request of the tab with this token. The request brings a code of this user
    and a verifier of this browser, or none, that fits it, and the cookie of a state that this browser has brought to the
    login endpoint; the token is signed for the user of the code, and the refresh token is stored for the same user. -/
structure RedeemedHere (E : LoginEnv) (J : JwtLib) (s s' : LoginFlow) (tab : ℕ) (w : AuthWorld) (token : JsString)
    (req : CallbackRequest) (issued : IssuedCode) (codeVerifier : JsString) (response : TokenResponse) : Prop where
  sent : ∃ r, s.tabs tab = .waiting r ∧ r.callback.body = .ok req
  code : issued ∈ s.codes ∧ issued.code = req.code
  fits : issued.Fits E.digest req.codeVerifier
  verifier : req.codeVerifier = utf8Encode codeVerifier ∧ (codeVerifier ∈ s.verifiers ∨ codeVerifier = [])
  state : OwnState E s.logins (E.handler.signState E.deps req.state)
  letsIn : E.handler.LetsIn issued.userID
  signed : signToken J E.handler.privateKey w.now E.handler.tokenTTL issued.userID issued.email = .ok response.token
  issues : Issues E.handler w issued.userID issued.email response
  token : token = utf8Decode response.token
  store : s'.tokenStore = E.handler.storeWith s.tokenStore issued.userID issued.email response

section
variable {E : LoginEnv} {J : JwtLib} {s s' : LoginFlow} {a : LoginFlowAct} {tab : ℕ} {time : ℚ} {w : AuthWorld} {token : JsString}

/-! ## One answer -/

/-- The page has a token only from an answer with tokens. -/
theorem callbackAnswer_authToken {R : Router} {webApiEndpoint : JsString} {failure : JsError} {reply : AuthReply} {b : Browser}
    {token : JsString} (hb : b.authToken = none) (h : (callbackAnswer R webApiEndpoint failure reply b).authToken = some token) :
    ∃ response, reply.body = .tokens response ∧ token = utf8Decode response.token := by
  unfold callbackAnswer at h
  split at h
  · next response hbody =>
      refine ⟨response, hbody, ?_⟩
      cases h
      rfl
  · next status _ =>
      have hinterceptor : (webApiAuthRequestInterceptor R webApiEndpoint (webApiEndpoint ++ callbackPath) status b).1.authToken = none := by
        unfold webApiAuthRequestInterceptor
        split
        · exact hb
        · exact hb
      split at h
      · next b' _ heq =>
          rw [heq] at hinterceptor
          cases hinterceptor.symm.trans h
      · next b' heq =>
          rw [heq] at hinterceptor
          cases hinterceptor.symm.trans h
  · cases hb.symm.trans h

/-- **An answer with a token has redeemed a code here.** -/
theorem answer_redeems {r : ServerRequest} {failure : JsError} (time : ℚ) (hinv : LoginFlowInv E s) (hpage : s.tabs tab = .waiting r)
    (hhonest : HonestAnswer E J s w)
    (htoken : (callbackAnswer E.router E.webApiEndpoint failure
      ((handleCallback E.deps E.handler r.callback).exec w.serve s.tokenStore).1 ⟨callbackPath, s.authRedirectPath, none⟩).authToken =
        some token) :
    ∃ req issued codeVerifier response,
      RedeemedHere E J s (s.answer E tab time w failure r.callback) tab w token req issued codeVerifier response := by
  obtain ⟨code, codeVerifier, state, stateCookie, hr, hverifier, hcookie⟩ := hinv.waiting tab r hpage
  obtain ⟨response', hbody, rfl⟩ := callbackAnswer_authToken rfl htoken
  -- an answer with tokens comes from the exchange of the code
  rcases handleCallback_exec (D := E.deps) (h := E.handler) (w := w) (s := s.tokenStore) r.callback with
    ⟨req, hpresents, hexec⟩ | ⟨-, herr, -⟩
  · rw [hexec] at hbody
    cases exchangeCode_exec (h := E.handler) (w := w) (s := s.tokenStore) req with
    | issued userID email response hvouched hletsIn hissues hreply hstore =>
        rw [hreply] at hbody
        obtain rfl : response = response' := AuthBody.tokens.inj hbody
        obtain ⟨issued, hin, hcode, rfl, rfl, hfits⟩ := hhonest.google req.code req.codeVerifier userID email hvouched
        have hreq : req = ⟨utf8Encode code, utf8Encode codeVerifier, utf8Encode state⟩ := by
          have hsent := hpresents.body
          rw [hr] at hsent
          exact (Except.ok.inj hsent).symm
        have hsent : stateCookie = some (E.handler.signState E.deps req.state) := by
          rw [← hpresents.cookie, hr]
          rfl
        have hstored : (s.answer E tab time w failure r.callback).tokenStore =
            E.handler.storeWith s.tokenStore issued.userID issued.email response := by
          show ((handleCallback E.deps E.handler r.callback).exec w.serve s.tokenStore).2 = _
          rw [hexec, hstore]
        exact ⟨req, issued, codeVerifier, response, {
          sent := ⟨r, hpage, hpresents.body⟩
          code := ⟨hin, hcode⟩
          fits := hfits
          verifier := ⟨by rw [hreq], hverifier⟩
          state := hcookie _ hsent
          letsIn := hletsIn
          signed := (hhonest.signs.signResult E.handler issued.userID issued.email).symm.trans hissues.access
          issues := hissues
          token := rfl
          store := hstored }⟩
    | refused _ herr _ =>
        rw [AuthReply.isError, hbody] at herr
        cases herr
  · rw [AuthReply.isError, hbody] at herr
    cases herr

/-! ## Where a token comes from -/

/-- A page with a token was there, or is the answer. -/
theorem LoginFlowStep.shows {t : ℕ} {b : Browser} (h : LoginFlowStep E s a s') (hpage : s'.tabs t = .shows b)
    (htoken : b.authToken = some token) :
    s.tabs t = .shows b ∨ ∃ time w failure r, a = .answer t time w failure ∧ s.tabs t = .waiting r ∧
      b = callbackAnswer E.router E.webApiEndpoint failure
        ((handleCallback E.deps E.handler r.callback).exec w.serve s.tokenStore).1 ⟨callbackPath, s.authRedirectPath, none⟩ := by
  -- a tab that is sent to a page without a token does not show one
  have hset : ∀ (m : LoginFlow) (tab : ℕ) (page : LoginTab), m.tabs = s.tabs → (m.setTab tab page).tabs t = .shows b →
      (∀ b', page = .shows b' → b'.authToken = none) → s.tabs t = .shows b := by
    intro m tab page hm hshows hno
    rw [tabs_setTab, hm] at hshows
    split at hshows
    · cases (hno b hshows).symm.trans htoken
    · exact hshows
  have hlogin : ∀ (time : ℚ) (w : AuthWorld) (r : LoginHttp) (tab : ℕ), (s.login E tab time w r).tabs t = .shows b → s.tabs t = .shows b := by
    intro time w r tab hshows
    refine hset _ _ _ rfl hshows fun b' hb' => ?_
    split at hb' <;> cases hb'
  have hcallback : ∀ (time : ℚ) (code state : Option JsString) (tab : ℕ),
      (s.callback E tab time code state).tabs t = .shows b → s.tabs t = .shows b := by
    intro time code state tab hshows
    refine hset _ _ _ rfl hshows fun b' hb' => ?_
    split at hb'
    · cases hb'
    · cases hb'
      rfl
  cases h with
  | issueElsewhere issued => exact .inl hpage
  | setRedirectPath path => exact .inl hpage
  | visitLoginPage tab time state array =>
      refine .inl (hset _ _ _ rfl hpage fun b' hb' => ?_)
      cases hb'
  | followLogin tab time w url hat => exact .inl (hlogin time w _ tab hpage)
  | visitLogin tab time w r => exact .inl (hlogin time w r tab hpage)
  | consent tab code userID email url hat =>
      refine .inl (hset _ _ _ rfl hpage fun b' hb' => ?_)
      cases hb'
  | followReturn tab time code state hat => exact .inl (hcallback time _ _ tab hpage)
  | openCallback tab time code state => exact .inl (hcallback time code state tab hpage)
  | answer tab time w failure r hat =>
      -- only the answer of the callback endpoint can bring a token
      by_cases htab : t = tab
      · subst htab
        rw [tabs_answer] at hpage
        exact .inr ⟨time, w, failure, r, rfl, hat, (LoginTab.shows.inj hpage).symm⟩
      · rw [LoginFlow.answer, tabs_setTab, if_neg htab] at hpage
        exact .inl hpage
  | lose tab r hat =>
      refine .inl (hset s tab _ rfl hpage fun b' hb' => ?_)
      cases hb'
      rfl
  | leave tab =>
      refine .inl (hset _ _ _ rfl hpage fun b' hb' => ?_)
      cases hb'

/-- **A token in a tab comes from an answer to the tab's request**, at some step of the run. -/
theorem token_from_answer {as : List LoginFlowAct} {b : Browser} (hrun : run (LoginFlow.step E) LoginFlow.init as = some s)
    (hshows : s.tabs tab = .shows b) (htoken : b.authToken = some token) :
    ∃ m m' time w failure r, Passes (LoginFlow.step E) LoginFlow.init as s m (.answer tab time w failure) m' ∧
      m.tabs tab = .waiting r ∧ m' = m.answer E tab time w failure r.callback ∧
      b = callbackAnswer E.router E.webApiEndpoint failure
        ((handleCallback E.deps E.handler r.callback).exec w.serve m.tokenStore).1 ⟨callbackPath, m.authRedirectPath, none⟩ := by
  have hnone : ¬ LoginFlow.init.tabs tab = .shows b := by
    intro hinit
    cases hinit
  obtain ⟨m, a, m', hpasses, hbefore, hafter⟩ := exists_cause (P := fun s => s.tabs tab = .shows b) hrun hnone hshows
  obtain ⟨-, -, -, -, hstep, -⟩ := id hpasses
  rcases (LoginFlow.step_spec hstep).shows hafter htoken with hthere | ⟨time, w, failure, r, rfl, hwaiting, hb⟩
  · exact absurd hthere hbefore
  · cases LoginFlow.step_spec hstep with
    | answer _ _ _ _ r' hpage =>
        obtain rfl := LoginTab.waiting.inj (hwaiting.symm.trans hpage)
        exact ⟨m, _, time, w, failure, r, hpasses, hwaiting, rfl, hb⟩

end

/-- **A tab is signed in only as who has consented to a challenge of this browser**, if it sent a verifier. In every run
    whose answers are honest, a token that a tab shows was answered to a request of the tab, at a step that has redeemed a
    code here and has signed the token for the user of the code. -/
theorem signed_in_by_challenge {E : LoginEnv} {J : JwtLib} {as : List LoginFlowAct} {s : LoginFlow} {tab : ℕ} {b : Browser}
    {token : JsString} (hhonest : Along (LoginFlow.step E) (HonestAnswers E J) LoginFlow.init as)
    (hrun : run (LoginFlow.step E) LoginFlow.init as = some s) (hshows : s.tabs tab = .shows b) (htoken : b.authToken = some token) :
    ∃ m m' time w failure, Passes (LoginFlow.step E) LoginFlow.init as s m (.answer tab time w failure) m' ∧
      ∃ req issued codeVerifier response, RedeemedHere E J m m' tab w token req issued codeVerifier response := by
  obtain ⟨m, m', time, w, failure, r, hpasses, hwaiting, rfl, rfl⟩ := token_from_answer hrun hshows htoken
  obtain ⟨before, -, -, hbefore, -, -⟩ := id hpasses
  exact ⟨m, _, time, w, failure, hpasses, answer_redeems time (loginFlowInv_run hbefore) hwaiting (hhonest.passes hpasses) htoken⟩

/-! ### After the login of `sampleSent_run` -/

/-- The login, from the login page to the answer. -/
def sampleLogin : List LoginFlowAct :=
  [.visitLoginPage 0 0 sampleState sampleArray, .followLogin 0 1 (googleWorld (str "a")),
    .consent 0 (js "code") (str "u") (str "u@mail"), .followReturn 0 2, .answer 0 3 (googleWorld (str "a")) ⟨[]⟩]

/-- The tab of the sample's login shows its token. -/
def sampleSignedIn : LoginFlow := sampleSent.answer sampleLoginEnv 0 3 (googleWorld (str "a")) ⟨[]⟩ sampleFetch.callback

/-- The sample's login goes through to the answer. -/
theorem sampleLogin_run : run (LoginFlow.step sampleLoginEnv) LoginFlow.init sampleLogin = some sampleSignedIn :=
  run_append.mpr ⟨sampleSent, sampleSent_run, run_cons.mpr ⟨_, answer_sample, rfl⟩⟩

/-- The one answer of the sample is by an honest Google and an honest signer. -/
theorem sampleLogin_honest : Along (LoginFlow.step sampleLoginEnv) (HonestAnswers sampleLoginEnv sampleJwt) LoginFlow.init sampleLogin := by
  have hgoogle : GoogleHonest sampleLoginEnv.digest sampleLoginEnv.handler sampleSent.codes (googleWorld (str "a")) := by
    intro code codeVerifier userID email hvouched
    obtain ⟨⟨rfl, hfits⟩, rfl, rfl⟩ := googleWorld_vouched.mp hvouched
    rw [sampleSent_codes]
    exact ⟨sampleCode, List.mem_singleton_self _, rfl, rfl, rfl, hfits⟩
  have hanswer : HonestAnswer sampleLoginEnv sampleJwt sampleSent (googleWorld (str "a")) :=
    ⟨hgoogle, googleWorld_signs _⟩
  exact along_cons trivial rfl (along_cons trivial followLogin_sample (along_cons trivial consent_sample
    (along_cons trivial followReturn_sample (along_cons hanswer answer_sample trivial))))

/-- The signed-in tab of the sample: its token came with its own code and its own verifier. -/
theorem signed_in_by_challenge_sample :
    ∃ m m' time w failure, Passes (LoginFlow.step sampleLoginEnv) LoginFlow.init sampleLogin sampleSignedIn m (.answer 0 time w failure) m' ∧
      ∃ req issued codeVerifier response, RedeemedHere sampleLoginEnv sampleJwt m m' 0 w (js "jwt") req issued codeVerifier response :=
  signed_in_by_challenge sampleLogin_honest sampleLogin_run tabs_answer (by with_unfolding_all rfl)

end RCloneCloud
