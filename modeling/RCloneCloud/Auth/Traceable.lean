import RCloneCloud.Auth.Tokens

/-!
# `Auth.Traceable` — every access token traces back to an authorised login

A login is what one callback has checked (`Passed`). The user data in the token store, and so those a refresh
gets back, are those of a login: `traceInv_preserved` carries this through any number of refreshes, and a
signature is made for checked or redeemed data only.

The invariant is needed because a refresh has no login of its own: what it may sign for is what its token was stored
with, by a request whose own right goes back to a login in the same way. `LoggedIn` refers to the log up to the call,
so the login that is found came before the token that is traced back to it.
-/

set_option autoImplicit false

namespace RCloneCloud

open Lib

/-- Some callback in the log has accepted a login of this user. -/
def LoggedIn (D : AuthDeps) (h : AuthHandler) (log : AuthLog) (userID email : GoString) : Prop :=
  ∃ e ∈ log, ∃ r, e.req = .callback r ∧ Passed D h r (done log e.thread) userID email

/-- The user data in the store and those a refresh has got back are those of a login, and so are those of
    every signature made so far. -/
structure TraceInv (D : AuthDeps) (h : AuthHandler) (s : TokenStore) (log : AuthLog) : Prop where
  valid : ∀ (t : GoString) (d : UserData), s[t]? = some d → LoggedIn D h log d.userID d.email
  redeemed : ∀ e t d, (e, t, d) ∈ redemptions log → LoggedIn D h log d.userID d.email
  signed : EachAfter (fun pre e => ∀ key claims, e.op = .signedString key claims →
    LoggedIn D h pre claims.sub claims.email) log

section
variable {D : AuthDeps} {h : AuthHandler}

/-- A login stays one however many calls follow. -/
theorem LoggedIn.append {log : AuthLog} {userID email : GoString} (hl : LoggedIn D h log userID email)
    (more : AuthLog) : LoggedIn D h (log ++ more) userID email := by
  obtain ⟨e, he, r, hr, hp⟩ := hl
  refine ⟨e, List.mem_append_left _ he, r, hr, ?_⟩
  rw [done_append]
  exact hp.append _

/-- A callback that has checked a login has left it in the log. -/
theorem loggedIn_of_passed {log : AuthLog} {i : Nat} {r : CallbackHttp} {userID email : GoString}
    (hreq : ∀ e ∈ log, e.thread = i → e.req = .callback r)
    (hp : Passed D h r (done log i) userID email) : LoggedIn D h log userID email := by
  have hp' := hp
  obtain ⟨req, oauthToken, payload, hc⟩ := hp'
  obtain ⟨e, he, rfl, -⟩ := mem_done.mp hc.exchanged
  exact ⟨e, he, r, hreq e he rfl, hp⟩

/-- A refresh that has redeemed a token has got back the data of a login. -/
theorem loggedIn_of_redeemed {s : TokenStore} {log : AuthLog} (hI : TraceInv D h s log) {i : Nat}
    {userID email : GoString} (hr : Redeemed (done log i) userID email) : LoggedIn D h log userID email := by
  obtain ⟨t, ht⟩ := hr
  obtain ⟨e, he, -, hcall⟩ := mem_done.mp ht
  exact hI.redeemed e t ⟨userID, email⟩ (mem_redemptions.mpr ⟨he, by rw [← hcall]; rfl⟩)

/-- **Whoever stores a token or signs one acts for a user who has logged in.** -/
theorem loggedIn_of_permits {s : TokenStore} {log : AuthLog} (hI : TraceInv D h s log) {i : Nat}
    {req : AuthRequest} (hreq : ∀ e ∈ log, e.thread = i → e.req = req) {op : AuthCall}
    (hp : Permits D h req (done log i) op) :
    (∀ userID email t, op = .store userID email t → LoggedIn D h log userID email) ∧
    (∀ key claims, op = .signedString key claims → LoggedIn D h log claims.sub claims.email) := by
  refine ⟨?_, ?_⟩
  · rintro userID email t rfl
    rcases (permits_store hp).2 with ⟨r, rfl, hpass⟩ | ⟨r, rfl, hred⟩
    · exact loggedIn_of_passed hreq hpass
    · exact loggedIn_of_redeemed hI hred
  · rintro key claims rfl
    cases req with
    | login r => exact hp.elim
    | callback r => exact loggedIn_of_passed hreq hp
    | refresh r => exact loggedIn_of_redeemed hI hp

/-- One permitted call keeps every entry of the store traceable. -/
theorem traceInv_preserved :
    Pool.Preserved AuthWorld.serve (Permits D h) (fun s log => TraceInv D h s log) := by
  intro s log i req op w hI hpermits hreq
  generalize he : (⟨i, req, op, (w.serve op s).1⟩ : AuthEntry) = e
  have hcall : e.call = ⟨op, (w.serve op s).1⟩ := by rw [← he]; rfl
  obtain ⟨hstores, hsigns⟩ := loggedIn_of_permits hI hreq hpermits
  have hsigned : EachAfter (fun pre e => ∀ key claims, e.op = .signedString key claims →
      LoggedIn D h pre claims.sub claims.email) (log ++ [e]) :=
    hI.signed.append fun key claims hop => hsigns key claims (by rw [← hop, ← he])
  -- one call leaves the store alone, stores a token, or redeems one
  rcases serve_cases w s op with ⟨hs, _, hre⟩ | ⟨userID, email, t, hop, hs, _, hre⟩ |
    ⟨t, d, _, ht, hs, _, hre⟩
  · rw [hs]
    refine ⟨fun t d hd => (hI.valid t d hd).append _, fun e' t d hm => ?_, hsigned⟩
    rw [redemptions_none (hcall ▸ hre)] at hm
    exact (hI.redeemed e' t d hm).append _
  · rw [hs]
    refine ⟨fun t' d' hd => ?_, fun e' t d hm => ?_, hsigned⟩
    · rw [TokenStore.store, GoMap.getElem?_insert] at hd
      split at hd
      · cases hd
        exact (hstores userID email t hop).append _
      · exact (hI.valid t' d' hd).append _
    · rw [redemptions_none (hcall ▸ hre)] at hm
      exact (hI.redeemed e' t d hm).append _
  · rw [hs]
    refine ⟨fun t' d' hd => ?_, fun e' t' d' hm => ?_, hsigned⟩
    · rw [GoMap.getElem?_erase] at hd
      split at hd
      · cases hd
      · exact (hI.valid t' d' hd).append _
    · rw [redemptions_some (hcall ▸ hre)] at hm
      rcases List.mem_append.mp hm with hm | hm
      · exact (hI.redeemed e' t' d' hm).append _
      · -- what has just been redeemed was in the store
        cases List.mem_singleton.mp hm
        exact (hI.valid t d ht).append _

/-- The Google ID of a login is on the configured list, or the list lets everyone in. -/
theorem Passed.configured {cfg : AuthConfig} {tokenStore : Bool} (hnew : newHandler D cfg tokenStore = .ok h)
    {r : CallbackHttp} {calls : AuthCalls} {userID email : GoString} (hp : Passed D h r calls userID email) :
    userID ∈ cfg.allowedGoogleIDs ∨ str "*" ∈ cfg.allowedGoogleIDs := by
  obtain ⟨req, oauthToken, payload, hc⟩ := hp
  unfold newHandler at hnew
  cases hkey : D.loadPrivateKey cfg.privateKeyPEM with
  | error err => rw [hkey] at hnew; cases hnew
  | ok privateKey =>
      rw [hkey] at hnew
      cases hnew
      exact (allowIDs_spec cfg.allowedGoogleIDs userID).mp hc.allowed

/-- **Every access token traces back to an authorised login.** In every run of logins, callbacks and
    refreshes, their calls interleaved in any order and answered in any way: a token is signed for the
    non-empty sub and email of an ID token that was accepted, before, in a callback whose cookie is the
    signature of the posted state, and the sub is allowed by the configuration; and a callback that has not
    passed every check neither signs nor stores anything. -/
theorem jwt_traces_back {cfg : AuthConfig} {tokenStore : Bool} (hnew : newHandler D cfg tokenStore = .ok h)
    {as : List (PoolAction AuthRequest AuthWorld)} {p : AuthPool}
    (hrun : run (h.step D) AuthPool.init as = some p) :
    (∀ pre e post key claims token, p.log = pre ++ e :: post →
      e.call = ⟨.signedString key claims, .ok token⟩ →
      LoggedIn D h pre claims.sub claims.email ∧
      (claims.sub ∈ cfg.allowedGoogleIDs ∨ str "*" ∈ cfg.allowedGoogleIDs)) ∧
    ∀ e ∈ p.log, ∀ r, e.req = .callback r →
      (∀ userID email, ¬ Passed D h r (done p.log e.thread) userID email) →
      (∀ key claims, e.op ≠ .signedString key claims) ∧ ∀ userID email t, e.op ≠ .store userID email t := by
  -- the invariant of the run, and what each call was permitted by
  have hI : TraceInv D h p.shared p.log :=
    (pool_invariant (body_keeps D h) traceInv_preserved
      ⟨by simp, by simp [redemptions], EachAfter.nil⟩ hrun).related
  have hpermitted := pool_permitted (body_keeps D h) hrun
  constructor
  · intro pre e post key claims token hlog hcall
    have hop : e.op = .signedString key claims := congrArg Sigma.fst hcall
    have hlogin := hI.signed pre e post hlog key claims hop
    obtain ⟨e', he', r, hr, hp⟩ := hlogin
    exact ⟨⟨e', he', r, hr, hp⟩, hp.configured hnew⟩
  · intro e he r hr hnone
    obtain ⟨pre, post, hlog, hpermit⟩ := hpermitted.mem he
    rw [hr] at hpermit
    -- what a callback has checked at the call it has checked at the end
    have hgrow : ∀ {userID email}, Passed D h r (done pre e.thread) userID email → False := by
      intro userID email hp
      refine hnone userID email ?_
      rw [hlog, done_append]
      exact hp.append _
    refine ⟨fun key claims hop => ?_, fun userID email t hop => ?_⟩
    · rw [hop] at hpermit
      exact hgrow hpermit
    · rw [hop] at hpermit
      exact hgrow hpermit.1

end

/-- The configuration that lets `u` in. -/
def sampleConfig : AuthConfig :=
  ⟨str "client", str "secret", str "https://ui/callback", str "pem", [str "u"]⟩

/-- A login, then a refresh with its token. -/
def loginThenRefresh : List (PoolAction AuthRequest AuthWorld) :=
  let w := sampleWorld (str "a")
  let w' := sampleWorld (str "b")
  [.start (.callback sampleCallback), .call 0 w, .call 0 w, .call 0 w, .call 0 w, .call 0 w, .call 0 w,
    .start (.refresh ⟨.ok ⟨str "a"⟩⟩), .call 1 w', .call 1 w', .call 1 w', .call 1 w', .call 1 w']

/-- A login and a refresh: what the refresh signs goes back to the login before it. -/
theorem jwt_traces_back_refresh :
    ∃ h p, newHandler sampleDeps sampleConfig true = .ok h ∧
      run (h.step sampleDeps) AuthPool.init loginThenRefresh = some p ∧ p.log.length = 11 ∧
      LoggedIn sampleDeps h (p.log.take 10) (str "u") (str "u@mail") := by
  have hnew : newHandler sampleDeps sampleConfig true = .ok sampleHandler := rfl
  have hrun : run (sampleHandler.step sampleDeps) AuthPool.init loginThenRefresh
      = some ((run (sampleHandler.step sampleDeps) AuthPool.init loginThenRefresh).get rfl) :=
    (Option.some_get _).symm
  obtain ⟨hsigned, -⟩ := jwt_traces_back hnew hrun
  exact ⟨_, _, hnew, hrun, rfl, (hsigned _ _ [] _ _ (str "jwt") rfl rfl).1⟩

end RCloneCloud
