import RCloneCloud.Handler.Params
import RCloneCloud.Lib.Pool

/-!
# `Auth.Handler` — login, callback and refresh

The three handlers as programs over the calls they make: Google's token endpoint and ID-token validation,
the clock, the JWT signature, `GenerateRefreshToken` and the token store. Each such call is one step, so the
same programs are run alone (`Prog.exec`) and next to each other (`Lib.Pool`). What the standard library
makes of a request, the decoded body, the cookie and the query, is part of the request.

The state that the handlers share is the token store alone, so `TokenStore` is the state type of the service.
`AuthWorld` is everything else that an answer may depend on at the moment of a call: its answers are functions of the
arguments of the call, so that an assumption about Google or the signer speaks of what the handler really hands over.
-/

set_option autoImplicit false

namespace RCloneCloud

open Lib

/-! ## Calls -/

/-- A key as `LoadPrivateKey` returns it; of the last kind only its type is looked at. -/
inductive PrivateKey where
  | rsa (key : Bytes)
  | ed25519 (key : Bytes)
  | other (type : GoString)
deriving DecidableEq

/-- The claims of an access token. -/
structure Claims where
  sub : GoString
  email : GoString
  issuedAt : Int
  expiresAt : Int
  issuer : GoString
  audience : List GoString
deriving DecidableEq

/-- `*oauth2.Token`: its `Extra` fields. -/
structure OAuthToken where
  extra : GoMap Json

/-- `*idtoken.Payload`. -/
structure Payload where
  claims : GoMap Json

/-- For whom a refresh token was stored. -/
structure UserData where
  userID : GoString
  email : GoString
deriving DecidableEq

/-- The calls that leave the handlers, each with its arguments. -/
inductive AuthCall where
  | exchange (code codeVerifier : GoString)
  | validate (idToken audience : GoString)
  | now
  | signedString (key : PrivateKey) (claims : Claims)
  | generateRefreshToken
  | store (userID email refreshToken : GoString)
  | validateAndRevoke (refreshToken : GoString)
deriving DecidableEq

/-- What each call returns; the fallible ones return an error beside it. -/
def AuthCall.Answer : AuthCall → Type
  | .exchange _ _ => Except GoError OAuthToken
  | .validate _ _ => Except GoError Payload
  | .now => Int
  | .signedString _ _ => Except GoError GoString
  | .generateRefreshToken => Except GoError GoString
  | .store _ _ _ => Except GoError Unit
  | .validateAndRevoke _ => Except GoError UserData

/-! ## Requests and replies -/

/-- The body of a callback: the code, the state, and the verifier of the challenge. -/
structure CallbackRequest where
  code : GoString
  codeVerifier : GoString
  state : GoString

/-- The body of a refresh. -/
structure RefreshRequest where
  refreshToken : GoString

/-- The query of a login, `""` for a missing parameter. -/
structure LoginHttp where
  state : GoString
  challenge : GoString
  codeChallengeMethod : GoString

/-- A callback: the decoded body, and the value of the cookie `oauth_state` if there is one. -/
structure CallbackHttp where
  body : Except GoError CallbackRequest
  stateCookie : Option GoString

/-- A refresh: the decoded body. -/
structure RefreshHttp where
  body : Except GoError RefreshRequest

/-- The cookie `oauth_state`; its path and flags are the same wherever it is set. -/
structure StateCookie where
  value : GoString
  maxAge : Int
deriving DecidableEq

/-- The body of a successful answer. -/
structure TokenResponse where
  token : GoString
  refreshToken : GoString
deriving DecidableEq

/-- What an answer carries: tokens, a redirect to Google or the text of an error. -/
inductive AuthBody where
  | error (msg : GoString) (status : Nat)
  | redirect (url : GoString) (status : Nat)
  | tokens (response : TokenResponse)
deriving DecidableEq

/-- An answer of a handler, with the state cookie that it sets, if any. -/
structure AuthReply where
  setCookie : Option StateCookie
  body : AuthBody
deriving DecidableEq

/-- The response is an error. -/
def AuthReply.isError (r : AuthReply) : Bool :=
  match r.body with
  | .error _ _ => true
  | _ => false

/-- A handler in progress. -/
abbrev AuthProg := Prog AuthCall AuthCall.Answer AuthReply

/-- An error answer: its text and its status, with the state cookie that goes with it. -/
def writeError (cookie : Option StateCookie) (msg : String) (status : Nat) : AuthProg :=
  .pure ⟨cookie, .error (str msg) status⟩

/-! ## `NewHandler` -/

/-- What the environment configures. -/
structure AuthConfig where
  googleClientID : GoString
  googleClientSecret : GoString
  redirectURL : GoString
  privateKeyPEM : GoString
  allowedGoogleIDs : List GoString

/-- `oauth2.Config`; the endpoint and the scopes are constants. -/
structure OAuthConfig where
  clientID : GoString
  clientSecret : GoString
  redirectURL : GoString

/-- What the handler takes from packages outside: `LoadPrivateKey` (PEM and X.509 decoding), SHA-256, HMAC
    and `AuthCodeURL`. -/
structure AuthDeps where
  loadPrivateKey : GoString → Except GoError PrivateKey
  sha256 : Bytes → Bytes
  hmacSHA256 : Bytes → Bytes → Bytes
  authCodeURL : OAuthConfig → GoString → GoString → GoString → GoString

/-- The handler. `tokenStore` says whether there is one (`h.tokenStore != nil`). -/
structure AuthHandler where
  oauthConfig : OAuthConfig
  privateKey : PrivateKey
  tokenTTL : Int
  allowedGoogleIDs : GoMap Bool
  allowAllGoogleIDs : Bool
  hmacKey : Bytes
  tokenStore : Bool

/-- In seconds. -/
def defaultTokenTTL : Int := 15 * 60

/-- The key under which states are signed, derived from the private key. -/
def deriveHMACKey (D : AuthDeps) (privateKeyPEM : GoString) : Bytes := D.sha256 privateKeyPEM

/-- The loop over `cfg.AllowedGoogleIDs`. -/
def allowIDs (ids : List GoString) : GoMap Bool × Bool :=
  ids.foldl (fun acc id => (acc.1.insert id true, if id = str "*" then true else acc.2)) (∅, false)

/-- The handler of a configuration: the parsed private key, the ids that are let in, and the key that states are
signed with. Only the private key can be at fault. -/
def newHandler (D : AuthDeps) (cfg : AuthConfig) (tokenStore : Bool) : Except GoError AuthHandler :=
  match D.loadPrivateKey cfg.privateKeyPEM with
  | .error err => .error (.wrapf "load private key: %w" [] err)
  | .ok privateKey => .ok {
      oauthConfig := ⟨cfg.googleClientID, cfg.googleClientSecret, cfg.redirectURL⟩
      privateKey := privateKey
      tokenTTL := defaultTokenTTL
      allowedGoogleIDs := (allowIDs cfg.allowedGoogleIDs).1
      allowAllGoogleIDs := (allowIDs cfg.allowedGoogleIDs).2
      hmacKey := deriveHMACKey D cfg.privateKeyPEM
      tokenStore := tokenStore }

/-- What the loop over the ids adds to the map, and when it has found one at all. -/
theorem allowIDs_foldl (ids : List GoString) (acc : GoMap Bool × Bool) (id : GoString) :
    let r := ids.foldl (fun acc id => (acc.1.insert id true, if id = str "*" then true else acc.2)) acc
    (r.1[id]? = if id ∈ ids then some true else acc.1[id]?) ∧
    (r.2 = true ↔ str "*" ∈ ids ∨ acc.2 = true) := by
  induction ids generalizing acc with
  | nil => simp
  | cons id' rest ih =>
      obtain ⟨hmap, hall⟩ := ih (acc.1.insert id' true, if id' = str "*" then true else acc.2)
      refine ⟨hmap.trans ?_, hall.trans ?_⟩
      · rw [GoMap.getElem?_insert]
        by_cases hm : id ∈ rest
        · simp [hm]
        · by_cases he : id' = id <;> simp [hm, he, eq_comm (a := id)]
      · by_cases he : id' = str "*"
        · simp [he]
        · simp [he, eq_comm (a := str "*")]

/-- **The check of `handleCallback` is on the configured list.** -/
theorem allowIDs_spec (ids : List GoString) (id : GoString) :
    (allowIDs ids).2 = true ∨ (allowIDs ids).1[id]?.getD false = true ↔ id ∈ ids ∨ str "*" ∈ ids := by
  obtain ⟨hmap, hall⟩ := allowIDs_foldl ids (∅, false) id
  have hmap' : (allowIDs ids).1[id]? = if id ∈ ids then some true else none := hmap.trans (by simp)
  have hall' : (allowIDs ids).2 = true ↔ str "*" ∈ ids := hall.trans (by simp)
  rw [hmap', hall']
  by_cases hm : id ∈ ids <;> simp [hm]

namespace AuthHandler

/-! ## The state cookie -/

/-- A hexadecimal digit in lower case. -/
def hexDigit (n : UInt8) : UInt8 := if n < 10 then ascii '0' + n else ascii 'a' + (n - 10)

/-- `hex.EncodeToString`. -/
def hexEncode (b : Bytes) : GoString := b.flatMap fun x => [hexDigit (x / 16), hexDigit (x % 16)]

/-- The signature of a state, as it stands in the cookie. -/
def signState (D : AuthDeps) (h : AuthHandler) (state : GoString) : GoString :=
  hexEncode (D.hmacSHA256 h.hmacKey state)

/-- Whether a cookie holds the signature of a state. -/
def verifyState (D : AuthDeps) (h : AuthHandler) (state signature : GoString) : Bool :=
  h.signState D state = signature

/-- The login endpoint: it signs the state that the page sends and redirects to Google with the page's challenge. -/
def handleLogin (D : AuthDeps) (h : AuthHandler) (r : LoginHttp) : AuthProg :=
  if r.state = [] then writeError none "missing state parameter" 400
  else if r.challenge = [] then writeError none "missing challenge parameter" 400
  else if r.codeChallengeMethod = [] then writeError none "missing code_challenge_method parameter" 400
  else
    .pure ⟨some ⟨h.signState D r.state, 300⟩,
      .redirect (D.authCodeURL h.oauthConfig r.state r.challenge r.codeChallengeMethod) 302⟩

/-! ## Tokens -/

/-- The claims `SignToken` puts into a token. -/
def jwtClaims (now ttl : Int) (userID email : GoString) : Claims :=
  ⟨userID, email, now, now + ttl, str "rclone-cloud-api", [str "rclone-cloud-ui"]⟩

/-- `signJWT`, that is `SignToken` under the handler's key, followed by `k`. -/
def signJWT (h : AuthHandler) (userID email : GoString) (k : Except GoError GoString → AuthProg) :
    AuthProg :=
  .call .now fun now =>
    match h.privateKey with
    | .other type => k (.error (.errorf "unsupported private key type: %T" [type]))
    | key => .call (.signedString key (jwtClaims now h.tokenTTL userID email)) k

/-- `payload.Claims[key].(string)`, or `""`. -/
def claimString (claims : GoMap Json) (key : GoString) : GoString :=
  match claims[key]? with
  | some (.string s) => s
  | _ => []

/-- The cookie that clears `oauth_state`. -/
def clearState : StateCookie := ⟨[], -1⟩

/-! ## `handleCallback` -/

/-- From "5. Issue our own JWT" on: the token is signed before a refresh token is generated and stored. -/
def issueTokens (h : AuthHandler) (userID email : GoString) : AuthProg :=
  h.signJWT userID email fun
    | .error _ => writeError (some clearState) "could not issue token" 500
    | .ok signedToken =>
      if h.tokenStore = false then .pure ⟨some clearState, .tokens ⟨signedToken, []⟩⟩
      else
        .call .generateRefreshToken fun
          | .error _ => writeError (some clearState) "could not issue refresh token" 500
          | .ok rt => .call (.store userID email rt) fun
            | .error _ => writeError (some clearState) "could not store refresh token" 500
            | .ok () => .pure ⟨some clearState, .tokens ⟨signedToken, rt⟩⟩

/-- "4. Extract user info from validated payload", and the check of the Google ID. -/
def authorize (h : AuthHandler) (payload : Payload) : AuthProg :=
  let userID := claimString payload.claims (str "sub")
  let email := claimString payload.claims (str "email")
  if userID = [] ∨ email = [] then
    writeError (some clearState) "missing sub or email in id_token" 401
  else if h.allowAllGoogleIDs = false ∧ h.allowedGoogleIDs[userID]?.getD false = false then
    writeError (some clearState) "unauthorized access" 403
  else h.issueTokens userID email

/-- "3. Extract and validate the Google ID token", after the exchange of the code. -/
def exchangeCode (h : AuthHandler) (req : CallbackRequest) : AuthProg :=
  .call (.exchange req.code req.codeVerifier) fun
    | .error _ => writeError (some clearState) "token exchange failed" 401
    | .ok oauthToken =>
      let rawIDToken := claimString oauthToken.extra (str "id_token")
      -- a missing `id_token`, one of another type and an empty one are refused alike
      if rawIDToken = [] then writeError (some clearState) "no id_token in response" 401
      else
        .call (.validate rawIDToken h.oauthConfig.clientID) fun
          | .error _ => writeError (some clearState) "id token validation failed" 401
          | .ok payload => h.authorize payload

/-- The callback: the code is exchanged only where the cookie holds the signature of the state that is sent along. -/
def handleCallback (D : AuthDeps) (h : AuthHandler) (r : CallbackHttp) : AuthProg :=
  match r.body with
  | .error _ => writeError none "invalid request body" 400
  | .ok req =>
    if req.code = [] then writeError none "missing code parameter" 400
    else
      match r.stateCookie with
      | none => writeError none "missing oauth_state cookie" 403
      | some stateCookie =>
        if stateCookie = [] then writeError none "missing oauth_state cookie" 403
        else if req.state = [] then writeError none "missing state parameter" 400
        else if h.verifyState D req.state stateCookie = false then
          writeError none "invalid state parameter" 403
        else h.exchangeCode req

/-! ## `handleRefresh` -/

/-- The rest of `handleRefresh` once the presented token is revoked: the new one is stored before the
    access token is signed. -/
def rotate (h : AuthHandler) (data : UserData) : AuthProg :=
  .call .generateRefreshToken fun
    | .error _ => writeError none "could not issue new refresh token" 500
    | .ok newRefreshToken => .call (.store data.userID data.email newRefreshToken) fun
      | .error _ => writeError none "could not store new refresh token" 500
      | .ok () => h.signJWT data.userID data.email fun
        | .error _ => writeError none "could not issue new token" 500
        | .ok signedToken => .pure ⟨none, .tokens ⟨signedToken, newRefreshToken⟩⟩

/-- The refresh: a body with a token, then the rotation. -/
def handleRefresh (h : AuthHandler) (r : RefreshHttp) : AuthProg :=
  match r.body with
  | .error _ => writeError none "invalid request body" 400
  | .ok req =>
    if req.refreshToken = [] then writeError none "missing refresh token" 400
    else if h.tokenStore = false then writeError none "refresh tokens not supported" 500
    else
      .call (.validateAndRevoke req.refreshToken) fun
        | .error _ => writeError none "invalid or expired refresh token" 401
        | .ok data => h.rotate data

end AuthHandler

/-- A request to one of the three routes. -/
inductive AuthRequest where
  | login (r : LoginHttp)
  | callback (r : CallbackHttp)
  | refresh (r : RefreshHttp)

/-- The program that serves a request. -/
def AuthHandler.body (D : AuthDeps) (h : AuthHandler) : AuthRequest → AuthProg
  | .login r => h.handleLogin D r
  | .callback r => h.handleCallback D r
  | .refresh r => h.handleRefresh r

/-! ## The token store -/

/-- `InMemoryTokenStore`. -/
abbrev TokenStore := GoMap UserData

namespace TokenStore

/-- Storing binds a token to its user, in place of whom it was bound to before. -/
def store (s : TokenStore) (userID email refreshToken : GoString) : TokenStore :=
  s.insert refreshToken ⟨userID, email⟩

/-- `ValidateAndRevoke`: the check and the deletion under one lock. -/
def validateAndRevoke (s : TokenStore) (refreshToken : GoString) : Except GoError UserData × TokenStore :=
  match s[refreshToken]? with
  | none => (.error (.errorf "invalid or expired refresh token" []), s)
  | some data => (.ok data, s.erase refreshToken)

end TokenStore

/-- What the world outside answers to a call, from the arguments of the call: Google to a code and a verifier, and to
    an ID token and an audience; the JWT library to a key and claims. `storeErr` is an error of `Store`: the in-memory
    store has none, another one may fail, storing nothing. -/
structure AuthWorld where
  exchange : GoString → GoString → Except GoError OAuthToken
  validate : GoString → GoString → Except GoError Payload
  now : Int
  signedString : PrivateKey → Claims → Except GoError GoString
  generate : Except GoError GoString
  storeErr : Option GoError

/-- The answer to a call, and the store after it. -/
def AuthWorld.serve (w : AuthWorld) : (op : AuthCall) → TokenStore → op.Answer × TokenStore
  | .exchange code codeVerifier, s => (w.exchange code codeVerifier, s)
  | .validate idToken audience, s => (w.validate idToken audience, s)
  | .now, s => (w.now, s)
  | .signedString key claims, s => (w.signedString key claims, s)
  | .generateRefreshToken, s => (w.generate, s)
  | .store userID email refreshToken, s =>
    match w.storeErr with
    | some err => (.error err, s)
    | none => (.ok (), s.store userID email refreshToken)
  | .validateAndRevoke refreshToken, s => s.validateAndRevoke refreshToken

/-! ## Stand-ins on concrete inputs -/

/-- Every key is accepted, and the HMAC is the key followed by the message. -/
def sampleDeps : AuthDeps where
  loadPrivateKey pem := .ok (.ed25519 pem)
  sha256 b := b
  hmacSHA256 key msg := key ++ msg
  authCodeURL _ state _ _ := str "https://accounts.google.com/o/oauth2/auth?state=" ++ state

/-- A handler that lets the user `u` in. -/
def sampleHandler : AuthHandler where
  oauthConfig := ⟨str "client", str "secret", str "https://ui/callback"⟩
  privateKey := .ed25519 (str "pem")
  tokenTTL := defaultTokenTTL
  allowedGoogleIDs := (∅ : GoMap Bool).insert (str "u") true
  allowAllGoogleIDs := false
  hmacKey := str "pem"
  tokenStore := true

/-- Every call succeeds; the user is `u`, and the token to be generated `t`. -/
def sampleWorld (t : GoString) : AuthWorld where
  exchange _ _ := .ok ⟨(∅ : GoMap Json).insert (str "id_token") (.string (str "raw"))⟩
  validate _ _ := .ok ⟨((∅ : GoMap Json).insert (str "sub") (.string (str "u"))).insert (str "email")
    (.string (str "u@mail"))⟩
  now := 0
  signedString _ _ := .ok (str "jwt")
  generate := .ok t
  storeErr := none

/-- A callback whose cookie is the signature of its state. -/
def sampleCallback : CallbackHttp :=
  ⟨.ok ⟨str "code", str "verifier", str "s"⟩, some (sampleHandler.signState sampleDeps (str "s"))⟩

end RCloneCloud
