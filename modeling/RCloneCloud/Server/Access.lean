import RCloneCloud.Auth.Traceable
import RCloneCloud.Server.Pipeline

/-!
# `Server.Access` — who reaches rclone

One inversion lemma for each part of the state says what a request can do to it (`handle_rclone`, `handle_auth`,
`handle_served`). The auth handler's part of a run of the server is a run of its pool (`auth_run`), so what holds
of every such run holds here; with it, a request that reaches rclone is traced back to the login behind its token
(`served_traces_back`).

The order of the proofs is that of a request's way in: the RC handler behind the bearer (`serveRclone_rclone`), the
routes (`serveRoute_cases`), the mux (`serveMux_cases`), CORS and the rate limit. A request that is for the handlers
and is let through (`Forwarded`, `ForHandlers`) is handled; every other request leaves all but the visitors as it was.

Behind the trace is `SignsAt`: a program only signs claims that carry a time the clock has told it. It holds of each
handler by the same branches as in `Auth.Promises`, and gives a token its time of issue, hence its fifteen minutes.
`Unforged` is the assumption that a verified token was signed by this server, which the library cannot give by itself.
-/

set_option autoImplicit false

namespace RCloneCloud

open Lib AuthHandler

/-! ## One request -/

section
variable {W : WebApi} {env : RcEnv} {ping : Option GoError} {time : ℚ} {r : ServerRequest} {s : WebServer}
  {path : GoString} {claims : TokenClaims} {reply : Reply}

/-- The RC handler is reached with the claims of a verified token, and with the path that is left of the route. -/
theorem serveRclone_rclone : W.serveRclone env time r path = .rclone claims reply ↔
    bearerMiddleware W.jwt W.publicKey ⌊time⌋ r.authorization = .ok claims ∧
      ∃ urlPath, stripPrefix r.rawPath path = some urlPath ∧ serveHTTP env (r.rc urlPath) = reply := by
  unfold WebApi.serveRclone
  constructor
  · intro h
    split at h
    · cases h
    · next c hbearer =>
        split at h
        · cases h
        · next urlPath hstrip =>
            cases h
            exact ⟨hbearer, urlPath, hstrip, rfl⟩
  · rintro ⟨hbearer, urlPath, hstrip, rfl⟩
    rw [hbearer]
    dsimp only
    rw [hstrip]

/-- What a route does: it starts a program of the auth handler, or it answers and changes nothing, or it has reached
    the RC handler. -/
theorem serveRoute_cases (route : Route) :
    (∃ req, W.serveRoute env ping time r path s route = W.startAuth req s) ∨
    (route = .health ∧ W.serveRoute env ping time r path s route = (.health ping.isNone, s)) ∨
    (route = .rclone ∧ (∀ claims reply, W.serveRclone env time r path ≠ .rclone claims reply) ∧
      W.serveRoute env ping time r path s route = (W.serveRclone env time r path, s)) ∨
    (route = .rclone ∧ ∃ claims reply, W.serveRclone env time r path = .rclone claims reply ∧
      W.serveRoute env ping time r path s route = (.rclone claims reply,
        { s with served := s.served ++ [⟨time, clientIP r.remoteAddr, claims, reply⟩] })) := by
  cases route with
  | login => exact .inl ⟨_, rfl⟩
  | callback => exact .inl ⟨_, rfl⟩
  | refresh => exact .inl ⟨_, rfl⟩
  | health => exact .inr (.inl ⟨rfl, rfl⟩)
  | rclone =>
      cases hr : W.serveRclone env time r path with
      | rclone claims reply =>
          refine .inr (.inr (.inr ⟨rfl, claims, reply, rfl, ?_⟩))
          simp only [WebApi.serveRoute, hr]
      | _ =>
          refine .inr (.inr (.inl ⟨rfl, nofun, ?_⟩))
          simp only [WebApi.serveRoute, hr]

/-- What the mux does with a request. -/
theorem serveMux_cases :
    (∃ req, W.serveMux env ping time r path s = W.startAuth req s) ∨
    ((W.serveMux env ping time r path s).2 = s ∧
      ∀ claims reply, (W.serveMux env ping time r path s).1 ≠ .rclone claims reply) ∨
    (mux r.method r.rawPath path = .handler .rclone ∧ ∃ claims reply,
      W.serveRclone env time r path = .rclone claims reply ∧
      W.serveMux env ping time r path s = (.rclone claims reply,
        { s with served := s.served ++ [⟨time, clientIP r.remoteAddr, claims, reply⟩] })) := by
  unfold WebApi.serveMux
  cases hmux : mux r.method r.rawPath path with
  | badRequest => exact .inr (.inl ⟨rfl, nofun⟩)
  | redirect path => exact .inr (.inl ⟨rfl, nofun⟩)
  | methodNotAllowed => exact .inr (.inl ⟨rfl, nofun⟩)
  | notFound => exact .inr (.inl ⟨rfl, nofun⟩)
  | handler route =>
      dsimp only
      rcases @serveRoute_cases W env ping time r s path route with ⟨req, hreq⟩ | ⟨-, hhealth⟩ | ⟨-, hnone, hsame⟩ |
        ⟨rfl, claims, reply, hr, hserved⟩
      · exact .inl ⟨req, hreq⟩
      · rw [hhealth]
        exact .inr (.inl ⟨rfl, nofun⟩)
      · rw [hsame]
        exact .inr (.inl ⟨rfl, hnone⟩)
      · exact .inr (.inr ⟨rfl, claims, reply, hr, hserved⟩)

/-- The request gets past the rate limit. -/
def Forwarded (s : WebServer) (r : ServerRequest) (time : ℚ) : Prop := (handleRequest s.visitors r.remoteAddr time).1 = true

/-- The request is for the handlers: its path can be decoded, and it is not the server's own `OPTIONS *`. -/
def ForHandlers (r : ServerRequest) (path : GoString) : Prop :=
  percentDecode r.rawPath = some path ∧ ¬ (r.method = str "OPTIONS" ∧ r.rawPath = [ascii '*'])

/-- Whether the rate limit gets to see it. -/
def ServerRequest.isForHandlers (r : ServerRequest) : Bool :=
  (percentDecode r.rawPath).isSome && !decide (r.method = str "OPTIONS" ∧ r.rawPath = [ascii '*'])

/-- The check is the predicate, read off the path of the request. -/
theorem isForHandlers_iff : r.isForHandlers = true ↔ ∃ path, ForHandlers r path := by
  rw [ServerRequest.isForHandlers, Bool.and_eq_true, Option.isSome_iff_exists, Bool.not_eq_true', decide_eq_false_iff_not]
  constructor
  · rintro ⟨⟨path, hpath⟩, hown⟩
    exact ⟨path, hpath, hown⟩
  · rintro ⟨path, hpath, hown⟩
    exact ⟨⟨path, hpath⟩, hown⟩

/-- A request for the handlers goes on to the rate limit. -/
theorem handle_of_forHandlers (h : ForHandlers r path) : W.handle env ping time r s = W.serve env ping time r path s := by
  unfold WebApi.handle
  rw [h.1]
  exact if_neg h.2

/-- A request that is not for the handlers changes nothing. -/
theorem handle_of_not_forHandlers (h : ∀ path, ¬ ForHandlers r path) :
    (W.handle env ping time r s).2 = s ∧ (W.handle env ping time r s).1.cors = none ∧
      ∀ claims reply, (W.handle env ping time r s).1.reply ≠ .rclone claims reply := by
  unfold WebApi.handle
  split
  · exact ⟨rfl, rfl, nofun⟩
  · next path hdecode =>
      split
      · exact ⟨rfl, rfl, nofun⟩
      · next hown => exact absurd ⟨hdecode, hown⟩ (h path)

/-- Over the limit a request only counts as one of its address. -/
theorem serve_limited (h : ¬ Forwarded s r time) :
    W.serve env ping time r path s =
      (⟨none, .tooManyRequests⟩, { s with visitors := (handleRequest s.visitors r.remoteAddr time).2 }) := by
  unfold WebApi.serve
  split
  · next visitors hv => rw [hv]
  · next visitors hv => exact absurd (congrArg Prod.fst hv) h

/-- Below the limit it is counted, CORS adds its headers, and the mux has it. -/
theorem serve_forwarded (h : Forwarded s r time) :
    W.serve env ping time r path s =
      let out := W.serveCors env ping time r path
        { s with visitors := (handleRequest s.visitors r.remoteAddr time).2 }
      (⟨W.corsHeaders r.origin, out.1⟩, out.2) := by
  unfold WebApi.serve
  split
  · next visitors hv => exact absurd ((congrArg Prod.fst hv).symm.trans h) Bool.false_ne_true
  · next visitors hv => rw [hv]

/-- **When a request reaches rclone**: it gets past the rate limit, is no OPTIONS, has a clean path under the route
    and a verified token; and the RC handler is given what follows the route. -/
theorem handle_rclone : (W.handle env ping time r s).1.reply = .rclone claims reply ↔
    ∃ path, ForHandlers r path ∧ Forwarded s r time ∧ r.method ≠ str "OPTIONS" ∧
      mux r.method r.rawPath path = .handler .rclone ∧
      bearerMiddleware W.jwt W.publicKey ⌊time⌋ r.authorization = .ok claims ∧
      ∃ urlPath, stripPrefix r.rawPath path = some urlPath ∧ serveHTTP env (r.rc urlPath) = reply := by
  constructor
  · intro h
    by_cases hfor : ∃ path, ForHandlers r path
    · obtain ⟨path, hpath⟩ := hfor
      rw [handle_of_forHandlers hpath] at h
      by_cases hforwarded : Forwarded s r time
      · rw [serve_forwarded hforwarded] at h
        unfold WebApi.serveCors at h
        dsimp only at h
        split at h
        · cases h
        · next hoptions =>
            -- of the three outcomes behind CORS only one reaches rclone
            rcases @serveMux_cases W env ping time r { s with visitors := (handleRequest s.visitors r.remoteAddr time).2 } path
              with ⟨req, hreq⟩ | ⟨-, hnone⟩ | ⟨hmux, claims', reply', hr, hserved⟩
            · rw [hreq] at h
              cases h
            · exact absurd h (hnone claims reply)
            · rw [hserved] at h
              cases h
              exact ⟨path, hpath, hforwarded, hoptions, hmux, serveRclone_rclone.mp hr⟩
      · rw [serve_limited hforwarded] at h
        cases h
    · exact absurd h ((handle_of_not_forHandlers (not_exists.mp hfor)).2.2 claims reply)
  · rintro ⟨path, hpath, hforwarded, hoptions, hmux, hreached⟩
    rw [handle_of_forHandlers hpath, serve_forwarded hforwarded]
    show (W.serveCors env ping time r path _).1 = _
    rw [WebApi.serveCors, if_neg hoptions, WebApi.serveMux, hmux]
    simp only [WebApi.serveRoute, serveRclone_rclone.mpr hreached]

/-- What a request can do to the visitors, to the auth handler and to what has reached rclone. -/
structure Handled (W : WebApi) (env : RcEnv) (ping : Option GoError) (time : ℚ) (r : ServerRequest) (s : WebServer) : Prop where
  visitors : (W.handle env ping time r s).2.visitors =
    if r.isForHandlers then (handleRequest s.visitors r.remoteAddr time).2 else s.visitors
  auth : (W.handle env ping time r s).2.auth = s.auth ∨
    ∃ req, (W.handle env ping time r s).2.auth =
      { s.auth with threads := s.auth.threads ++ [⟨req, W.auth.body W.deps req⟩] }
  served : (W.handle env ping time r s).2.served = s.served ∨
    Forwarded s r time ∧ r.isForHandlers = true ∧ ∃ claims reply,
      (W.handle env ping time r s).1.reply = .rclone claims reply ∧
      (W.handle env ping time r s).2.served = s.served ++ [⟨time, clientIP r.remoteAddr, claims, reply⟩]

/-- Every request is of one of the kinds; the proof goes down the chain once, so later modules need not. -/
theorem handled (W : WebApi) (env : RcEnv) (ping : Option GoError) (time : ℚ) (r : ServerRequest) (s : WebServer) :
    Handled W env ping time r s := by
  by_cases hfor : ∃ path, ForHandlers r path
  · have hfor' := isForHandlers_iff.mpr hfor
    obtain ⟨path, hpath⟩ := hfor
    by_cases hforwarded : Forwarded s r time
    · have heq : W.handle env ping time r s = _ := (handle_of_forHandlers hpath).trans (serve_forwarded hforwarded)
      by_cases hoptions : r.method = str "OPTIONS"
      -- a preflight is answered by CORS
      · have hstate : (W.handle env ping time r s).2 =
            { s with visitors := (handleRequest s.visitors r.remoteAddr time).2 } := by
          rw [heq]
          show (W.serveCors env ping time r path _).2 = _
          rw [WebApi.serveCors, if_pos hoptions]
        refine ⟨?_, .inl ?_, .inl ?_⟩
        · rw [hstate, if_pos hfor']
        · rw [hstate]
        · rw [hstate]
      · have hstate : (W.handle env ping time r s).2 = (W.serveMux env ping time r path
            { s with visitors := (handleRequest s.visitors r.remoteAddr time).2 }).2 := by
          rw [heq]
          show (W.serveCors env ping time r path _).2 = _
          rw [WebApi.serveCors, if_neg hoptions]
        -- behind CORS: a handler of the auth routes, an answer of the mux, or rclone
        rcases @serveMux_cases W env ping time r { s with visitors := (handleRequest s.visitors r.remoteAddr time).2 } path
          with ⟨req, hreq⟩ | ⟨hsame, -⟩ | ⟨hmux, claims, reply, hr, hserved⟩
        · rw [hreq] at hstate
          refine ⟨?_, .inr ⟨req, ?_⟩, .inl ?_⟩
          · rw [hstate, if_pos hfor']
            rfl
          · rw [hstate]
            rfl
          · rw [hstate]
            rfl
        · rw [hsame] at hstate
          refine ⟨?_, .inl ?_, .inl ?_⟩
          · rw [hstate, if_pos hfor']
          · rw [hstate]
          · rw [hstate]
        · rw [hserved] at hstate
          have hreply : (W.handle env ping time r s).1.reply = .rclone claims reply :=
            handle_rclone.mpr ⟨path, hpath, hforwarded, hoptions, hmux, serveRclone_rclone.mp hr⟩
          refine ⟨?_, .inl ?_, .inr ⟨hforwarded, hfor', claims, reply, hreply, ?_⟩⟩
          · rw [hstate, if_pos hfor']
          · rw [hstate]
          · rw [hstate]
    -- over the limit only the visitors change
    · have heq : W.handle env ping time r s = _ := (handle_of_forHandlers hpath).trans (serve_limited hforwarded)
      refine ⟨?_, .inl ?_, .inl ?_⟩
      · rw [heq, if_pos hfor']
      · rw [heq]
      · rw [heq]
  · have hstate := (@handle_of_not_forHandlers W env ping time r s (not_exists.mp hfor)).1
    refine ⟨?_, .inl ?_, .inl ?_⟩
    · rw [hstate, if_neg (fun hin => hfor (isForHandlers_iff.mp hin))]
    · rw [hstate]
    · rw [hstate]

end

/-! ## The auth handler in a run of the server -/

/-- **The auth handler of the server**, whatever else the server is doing, runs as it does alone. -/
theorem auth_run {W : WebApi} {as : List ServerAction} {s : WebServer} (hrun : run W.step WebServer.init as = some s) :
    ∃ bs, run (W.auth.step W.deps) AuthPool.init bs = some s.auth := by
  have hsnoc : ∀ (bs : List (PoolAction AuthRequest AuthWorld)) (b : PoolAction AuthRequest AuthWorld) (p q : AuthPool),
      run (W.auth.step W.deps) AuthPool.init bs = some p → W.auth.step W.deps p b = some q →
      run (W.auth.step W.deps) AuthPool.init (bs ++ [b]) = some q := fun bs b p q hbs hb =>
    run_append.mpr ⟨p, hbs, run_cons.mpr ⟨q, hb, rfl⟩⟩
  refine run_invariant (I := fun s => ∃ bs, run (W.auth.step W.deps) AuthPool.init bs = some s.auth)
    (G := fun _ _ => True) (fun s a s' hI _ hstep => ?_) ⟨[], rfl⟩ (along_of_forall (fun _ _ => trivial) _ as) hrun
  obtain ⟨bs, hbs⟩ := hI
  cases a with
  | request env ping time r =>
      cases hstep
      rcases (handled W env ping time r s).auth with hsame | ⟨req, hstart⟩
      · exact ⟨bs, by rw [hsame]; exact hbs⟩
      · exact ⟨bs ++ [.start req], hsnoc bs (.start req) s.auth _ hbs (by rw [hstart]; rfl)⟩
  | cleanup time =>
      cases hstep
      exact ⟨bs, hbs⟩
  | call i w =>
      obtain ⟨auth, hauth, rfl⟩ := Option.map_eq_some_iff.mp hstep
      exact ⟨bs ++ [.call i w], hsnoc bs (.call i w) s.auth auth hbs hauth⟩

/-! ## When a token was issued -/

/-- A signature is made for claims of this API, valid from the time the request has read from the clock. -/
def SignsAt (h : AuthHandler) (calls : AuthCalls) (op : AuthCall) : Prop :=
  match op with
  | .signedString _ claims => ∃ now, ⟨.now, now⟩ ∈ calls ∧ claims = jwtClaims now h.tokenTTL claims.sub claims.email
  | _ => True

section
variable {D : AuthDeps} {h : AuthHandler} {calls : AuthCalls}

/-- Signing asks for the time first, so the claims that are signed carry that time. -/
theorem signJWT_signsAt {userID email : GoString} {k : Except GoError GoString → AuthProg}
    (hk : ∀ a more, (k a).Keeps (SignsAt h) (calls ++ more)) : (h.signJWT userID email k).Keeps (SignsAt h) calls := by
  refine signJWT_keeps trivial (fun now key => ?_) fun a more _ => hk a more
  exact ⟨now, List.mem_append_right _ (List.mem_singleton_self _), rfl⟩

/-- Issuing signs once and then deals with the refresh token. -/
theorem issueTokens_signsAt (userID email : GoString) : (h.issueTokens userID email).Keeps (SignsAt h) calls := by
  refine signJWT_signsAt fun a more => ?_
  cases a with
  | error err => trivial
  | ok signedToken =>
      dsimp only
      split
      · trivial
      · refine ⟨trivial, fun a => ?_⟩
        cases a with
        | error err => trivial
        | ok rt =>
            refine ⟨trivial, fun a => ?_⟩
            cases a <;> trivial

/-- What Google answers has no part in the time of the claims. -/
theorem exchangeCode_signsAt (req : CallbackRequest) : (h.exchangeCode req).Keeps (SignsAt h) calls := by
  refine ⟨trivial, fun a => ?_⟩
  cases a with
  | error err => trivial
  | ok oauthToken =>
      dsimp only
      split
      · trivial
      · refine ⟨trivial, fun a => ?_⟩
        cases a with
        | error err => trivial
        | ok payload =>
            dsimp only [authorize]
            split
            · trivial
            · split
              · trivial
              · exact issueTokens_signsAt _ _

/-- A rotation signs last, after the new token is stored. -/
theorem rotate_signsAt (data : UserData) : (h.rotate data).Keeps (SignsAt h) calls := by
  refine ⟨trivial, fun a => ?_⟩
  cases a with
  | error err => trivial
  | ok newRefreshToken =>
      refine ⟨trivial, fun a => ?_⟩
      cases a with
      | error err => trivial
      | ok u =>
          refine signJWT_signsAt fun a more => ?_
          cases a <;> trivial

/-- **Every program of the handler signs only as of the time it has read.** -/
theorem body_signsAt (D : AuthDeps) (h : AuthHandler) (req : AuthRequest) : (h.body D req).Keeps (SignsAt h) [] := by
  -- the branches before the code exchange and the rotation make no call at all
  cases req with
  | login r =>
      show (h.handleLogin D r).Keeps (SignsAt h) []
      unfold handleLogin
      split
      · trivial
      · split
        · trivial
        · split <;> trivial
  | callback r =>
      show (h.handleCallback D r).Keeps (SignsAt h) []
      unfold handleCallback
      split
      · trivial
      · split
        · trivial
        · split
          · trivial
          · split
            · trivial
            · split
              · trivial
              · split
                · trivial
                · exact exchangeCode_signsAt _
  | refresh r =>
      show (h.handleRefresh r).Keeps (SignsAt h) []
      unfold handleRefresh
      split
      · trivial
      · split
        · trivial
        · split
          · trivial
          · refine ⟨trivial, fun a => ?_⟩
            cases a with
            | error err => trivial
            | ok data => exact rotate_signsAt data

end

/-! ## Tracing a request back -/

/-- The token was signed in the log, for the claims that are read off it. -/
def SignedIn (J : JwtLib) (log : AuthLog) (raw : GoString) : Prop :=
  ∃ e ∈ log, ∃ key claims, e.call = ⟨.signedString key claims, .ok raw⟩ ∧ J.claims raw = some claims.decoded

/-- The token of the request is not forged: when its signature is one under the key of the server, the server has made
    it. -/
def Unforged (W : WebApi) (s : WebServer) (r : ServerRequest) : Prop :=
  ∀ raw m, extractBearer r.authorization = some raw → W.jwt.verifies m W.publicKey raw = true → SignedIn W.jwt s.auth.log raw

/-- The token was signed in the log for a user, at a time. -/
structure IssuedTo (D : AuthDeps) (h : AuthHandler) (log : AuthLog) (raw userID email : GoString) (issued : Int) : Prop where
  signed : ∃ pre e post key, log = pre ++ e :: post ∧
    e.call = ⟨.signedString key (jwtClaims issued h.tokenTTL userID email), .ok raw⟩ ∧
    ⟨.now, issued⟩ ∈ done pre e.thread ∧ LoggedIn D h pre userID email

/-- What is signed in a run of the handler is issued to someone. -/
theorem issuedTo_of_signed {D : AuthDeps} {h : AuthHandler} {as : List (PoolAction AuthRequest AuthWorld)} {p : AuthPool}
    (hrun : run (h.step D) AuthPool.init as = some p) {e : AuthEntry} (he : e ∈ p.log) {key : PrivateKey} {claims : Claims}
    {raw : GoString} (hcall : e.call = ⟨.signedString key claims, .ok raw⟩) :
    ∃ issued, claims = jwtClaims issued h.tokenTTL claims.sub claims.email ∧
      IssuedTo D h p.log raw claims.sub claims.email issued := by
  have htrace : TraceInv D h p.shared p.log :=
    (pool_invariant (body_keeps D h) traceInv_preserved ⟨by simp, by simp [redemptions], EachAfter.nil⟩ hrun).related
  have hsigns : EachAfter (fun pre e => SignsAt h (done pre e.thread) e.op) p.log :=
    pool_permitted (P := fun _ => SignsAt h) (body_signsAt D h) hrun
  have hop : e.op = .signedString key claims := congrArg Sigma.fst hcall
  obtain ⟨pre, post, hlog⟩ := List.append_of_mem he
  have hsignsAt : SignsAt h (done pre e.thread) e.op := hsigns pre e post hlog
  rw [hop] at hsignsAt
  obtain ⟨issued, hnow, hclaims⟩ := hsignsAt
  refine ⟨issued, hclaims, ⟨pre, e, post, key, hlog, ?_, hnow, htrace.signed pre e post hlog key claims hop⟩⟩
  rw [← hclaims]
  exact hcall

/-- An access token is good for fifteen minutes, as no configuration changes it. -/
theorem newHandler_tokenTTL {D : AuthDeps} {h : AuthHandler} {cfg : AuthConfig} {tokenStore : Bool}
    (hnew : newHandler D cfg tokenStore = .ok h) : h.tokenTTL = 15 * 60 := by
  unfold newHandler at hnew
  split at hnew
  · cases hnew
  · cases hnew
    rfl

/-- **Who reaches rclone.** In every run of the server, with its requests interleaved in any order and answered in any
    way: a request that reaches rclone carries, in its `Authorization` header, a token that the server has signed
    before, less than a quarter of an hour earlier on its clock, for the very user the request is let through as;
    this user's login has passed every check in a callback before that, and the configuration allows it. -/
theorem served_traces_back {W : WebApi} {cfg : AuthConfig} {tokenStore : Bool}
    (hnew : newHandler W.deps cfg tokenStore = .ok W.auth) {as : List ServerAction} {s : WebServer}
    (hrun : run W.step WebServer.init as = some s) {env : RcEnv} {ping : Option GoError} {time : ℚ} {r : ServerRequest}
    (hunforged : Unforged W s r) {claims : TokenClaims} {reply : Reply}
    (hserved : (W.handle env ping time r s).1.reply = .rclone claims reply) :
    ∃ raw issued, extractBearer r.authorization = some raw ∧
      IssuedTo W.deps W.auth s.auth.log raw claims.sub claims.email issued ∧ ⌊time⌋ < issued + 15 * 60 ∧
      (claims.sub ∈ cfg.allowedGoogleIDs ∨ str "*" ∈ cfg.allowedGoogleIDs) := by
  obtain ⟨path, -, -, -, -, hbearer, -⟩ := handle_rclone.mp hserved
  obtain ⟨raw, hraw, hverify⟩ := bearerMiddleware_ok.mp hbearer
  obtain ⟨⟨m, -, -, hv⟩, hclaims, hvalid⟩ := verifyToken_ok.mp hverify
  -- the verified token was signed here, and its claims are those that were signed
  obtain ⟨e, he, key, signed, hcall, hsigned⟩ := hunforged raw m hraw hv
  cases hclaims.symm.trans hsigned
  obtain ⟨bs, hauth⟩ := auth_run hrun
  obtain ⟨issued, hdates, hissued⟩ := issuedTo_of_signed hauth he hcall
  refine ⟨raw, issued, hraw, hissued, ?_, ?_⟩
  · -- the claims that were signed expire a quarter of an hour after the time they were signed as of
    have httl : W.auth.tokenTTL = 15 * 60 := newHandler_tokenTTL hnew
    have hexpires : signed.expiresAt = issued + W.auth.tokenTTL := congrArg Claims.expiresAt hdates
    have hbefore : ⌊time⌋ < signed.expiresAt := hvalid.unexpired signed.expiresAt rfl
    rw [hexpires, httl] at hbefore
    exact hbefore
  · obtain ⟨pre, e', post, key', -, -, -, hlogin⟩ := hissued.signed
    obtain ⟨e'', -, r', -, hpassed⟩ := hlogin
    exact hpassed.configured hnew

/-! ### A login, then a call with its token -/

/-- The server that lets `u` in. -/
def sampleApi : WebApi where
  deps := sampleDeps
  auth := sampleHandler
  jwt := sampleJwt
  publicKey := .ed25519 (str "pem")
  allowedOrigins := originMap [str "https://ui"]

/-- Every rc call is registered and asks for nothing. -/
def sampleRc : RcEnv := ⟨[str "r"], fun _ => some ⟨false, false⟩⟩

/-- A POST from one client, with the cookie and the body of `sampleCallback`. -/
def samplePost (rawPath authorization : GoString) : ServerRequest where
  method := str "POST"
  remoteAddr := str "10.0.0.7:443"
  rawPath := rawPath
  origin := str "https://ui"
  authorization := authorization
  stateCookie := sampleCallback.stateCookie
  callbackBody := sampleCallback.body
  refreshBody := .error (.external (str "EOF"))
  contentType := []
  mediaType := .error (.external (str "mime: no media type"))
  query := ∅
  form := .ok ∅
  body := .failed (.external (str "EOF"))
  files := []

/-- A call of `rc/noop` with the token. -/
def noopPost : ServerRequest := samplePost (str "/api/v1/rclone/rc/noop") (str "Bearer jwt")

/-- The callback, and the calls its program makes. -/
def loginActions : List ServerAction :=
  let w := sampleWorld (str "a")
  [.request sampleRc none 0 (samplePost (str "/auth/v1/google/callback") []), .call 0 w, .call 0 w, .call 0 w, .call 0 w,
    .call 0 w, .call 0 w]

/-- After them the token is signed, and the client may go on. -/
theorem loginActions_run : ∃ s, run sampleApi.step WebServer.init loginActions = some s ∧
    s.auth.log[3]? = some ⟨0, .callback sampleCallback, .signedString (.ed25519 (str "pem")) sampleClaims, .ok (str "jwt")⟩ ∧
    Forwarded s noopPost 899 := by
  have hrun : (run sampleApi.step WebServer.init loginActions).isSome = true := by with_unfolding_all rfl
  refine ⟨_, (Option.some_get hrun).symm, ?_, ?_⟩
  · with_unfolding_all rfl
  · with_unfolding_all rfl

/-- A login and a call 899 seconds later: the call is traced to the login and is within the token's time. -/
theorem served_traces_back_noop : ∃ s claims reply raw issued, run sampleApi.step WebServer.init loginActions = some s ∧
    (sampleApi.handle sampleRc none 899 noopPost s).1.reply = .rclone claims reply ∧
    IssuedTo sampleDeps sampleHandler s.auth.log raw claims.sub claims.email issued ∧ 899 < issued + 15 * 60 := by
  have hnew : newHandler sampleDeps sampleConfig true = .ok sampleHandler := rfl
  obtain ⟨s, hrun, hentry, hforwarded⟩ := loginActions_run
  have hunforged : Unforged sampleApi s noopPost := by
    intro raw m _ hv
    obtain ⟨-, -, rfl⟩ := of_decide_eq_true hv
    exact ⟨_, List.mem_of_getElem? hentry, _, _, rfl, rfl⟩
  have hfloor : ⌊(899 : ℚ)⌋ = 899 := Int.floor_ofNat 899
  have hbearer : bearerMiddleware sampleApi.jwt sampleApi.publicKey ⌊(899 : ℚ)⌋ noopPost.authorization
      = .ok sampleClaims.decoded := by
    rw [hfloor]
    decide
  have hserved : (sampleApi.handle sampleRc none 899 noopPost s).1.reply
      = .rclone sampleClaims.decoded (serveHTTP sampleRc (noopPost.rc (str "/rc/noop"))) :=
    handle_rclone.mpr ⟨str "/api/v1/rclone/rc/noop", ⟨by decide, by decide⟩, hforwarded, by decide, by decide, hbearer,
      str "/rc/noop", by decide, rfl⟩
  obtain ⟨raw, issued, -, hissued, hbefore, -⟩ := served_traces_back hnew hrun hunforged hserved
  exact ⟨s, _, _, raw, issued, hrun, hserved, hissued, hfloor ▸ hbefore⟩

end RCloneCloud
