import RCloneCloud.Auth.Tokens
import RCloneCloud.Handler.Bearer
import RCloneCloud.Handler.Route
import RCloneCloud.Security.RateLimit

/-!
# `Server.Pipeline` — the web API as one server

What `main` puts together: the rate limit, then CORS, then the mux with the routes of the auth handler, of the
health check and of rclone, the last behind the bearer token. A request for the auth handler starts one of its
programs, whose calls are steps of their own (`Lib.Pool`); every other request is answered in one step. The
telemetry around the mux changes nothing here.

The chain is built as the source builds it, from the inside out, so that each wrapper is a function of what it wraps.
`Served` records what reached rclone, for the results about runs. The rc request, `rc`, is what the wrappers leave of
the server's request: the path behind the route, and the body with its limit as `Ui.WebApiService` sends it.
-/

set_option autoImplicit false

namespace RCloneCloud

open Lib

/-! ## The mux -/

/-- The patterns registered on the mux. -/
inductive Route where
  | login
  | callback
  | refresh
  | health
  | rclone
deriving DecidableEq

/-- The patterns that are registered with the mux. -/
def routes : List Route := [.login, .callback, .refresh, .health, .rclone]

namespace Route

/-- The literal segments of the pattern; that of rclone ends with a slash, so more has to follow. -/
def literals : Route → List GoString
  | .login => [str "auth", str "v1", str "google", str "login"]
  | .callback => [str "auth", str "v1", str "google", str "callback"]
  | .refresh => [str "auth", str "v1", str "google", str "refresh"]
  | .health => [str "health"]
  | .rclone => [str "api", str "v1", str "rclone"]

/-- A pattern for GET also takes HEAD. -/
def fitsMethod (route : Route) (method : GoString) : Bool :=
  match route with
  | .login | .health => method = str "GET" || method = str "HEAD"
  | .callback | .refresh => method = str "POST"
  | .rclone => true

/-- A pattern fits when its segments are those of the path; only that of rclone ends in a wildcard, for one segment or
more. -/
def fitsPath (route : Route) (segments : List GoString) : Bool :=
  match route with
  | .rclone => route.literals.isPrefixOf segments && route.literals.length < segments.length
  | _ => segments = route.literals

end Route

/-- The segments of a rooted path as the mux compares them: each is decoded, if it can be. -/
def muxPath (path : GoString) : List GoString :=
  (splitSlash path).tail.map fun segment => (percentDecode segment).getD segment

/-- The route whose pattern fits the method and the path. -/
def matchRoute (method path : GoString) : Option Route :=
  routes.find? fun route => route.fitsMethod method && route.fitsPath (muxPath path)

/-- What the mux does with a request. -/
inductive MuxReply where
  | badRequest
  | redirect (path : GoString)
  | methodNotAllowed
  | notFound
  | handler (route : Route)
deriving DecidableEq

/-- `ServeMux`, for the path `raw` of a request and what it decodes to. The path of a CONNECT is not cleaned. -/
def mux (method raw path : GoString) : MuxReply :=
  if raw = [ascii '*'] then .badRequest
  else
    let escaped := escapedPath raw path
    let clean := if method = str "CONNECT" then escaped else cleanPath escaped
    match matchRoute method clean with
    | some route => if clean ≠ escaped then .redirect clean else .handler route
    | none =>
      -- the one pattern that a slash at the end would make match
      if muxPath clean = Route.rclone.literals then .redirect (cleanPath path ++ [ascii '/'])
      else if clean ≠ escaped then .redirect clean
      else if routes.any fun route => route.fitsPath (muxPath clean) then .methodNotAllowed
      else .notFound

/-- `http.StripPrefix("/api/v1/rclone", …)`: the prefix has to be there both in the path and as it was received. -/
def stripPrefix (raw path : GoString) : Option GoString :=
  if rclonePrefix.isPrefixOf path && rclonePrefix.isPrefixOf raw then some (path.drop rclonePrefix.length) else none

/-! ## Requests and replies -/

/-- A file of a multipart form: the name of its field, its own name and its bytes. -/
structure FormFile where
  field : GoString
  fileName : GoString
  content : Bytes
deriving DecidableEq

/-- A request as `net/http` hands it to the handlers, so one whose request line and headers are within the limits of
    the HTTP server, with what the standard library makes of it; a header that is missing is `""`. What the body holds
    besides a JSON value, the files of a multipart form, is read by rclone only. -/
structure ServerRequest where
  method : GoString
  remoteAddr : GoString
  rawPath : GoString
  origin : GoString
  authorization : GoString
  stateCookie : Option GoString
  callbackBody : Except GoError CallbackRequest
  refreshBody : Except GoError RefreshRequest
  contentType : GoString
  mediaType : Except GoError (GoString × GoMap GoString)
  query : Values
  form : Except GoError Values
  body : Body
  files : List FormFile

/-- `url.Values.Get`. -/
def Values.get (values : Values) (key : GoString) : GoString := (values[key]?.getD []).headD []

namespace ServerRequest

/-- What the login handler reads of a request. -/
def login (r : ServerRequest) : LoginHttp :=
  ⟨r.query.get (str "state"), r.query.get (str "challenge"), r.query.get (str "code_challenge_method")⟩

/-- What the callback handler reads of a request. -/
def callback (r : ServerRequest) : CallbackHttp := ⟨r.callbackBody, r.stateCookie⟩

/-- What the refresh handler reads of a request. -/
def refresh (r : ServerRequest) : RefreshHttp := ⟨r.refreshBody⟩

/-- What the RC handler is given. -/
def rc (r : ServerRequest) (urlPath : GoString) : Request :=
  ⟨r.method, urlPath, r.contentType, r.mediaType, r.query, r.form, r.body⟩

end ServerRequest

/-- The headers that `NewMiddleware` sets. -/
structure CorsHeaders where
  allowOrigin : GoString
  allowMethods : GoString
  allowHeaders : GoString
  allowCredentials : GoString
deriving DecidableEq

/-- Which part of the server answers, and with what. -/
inductive ServerReply where
  | badRequest
  /-- The server's own answer to `OPTIONS *`. -/
  | serverOptions
  | tooManyRequests
  | preflight
  | redirect (path : GoString)
  | methodNotAllowed
  | notFound
  | health (ok : Bool)
  | unauthorized (err : JsonError)
  | rclone (claims : TokenClaims) (reply : Reply)
  /-- The auth handler answers, as the thread of its pool. -/
  | auth (thread : Nat)

/-- The answer with the headers that CORS adds. -/
structure ServerResponse where
  cors : Option CorsHeaders
  reply : ServerReply

/-! ## The server -/

/-- What `main` builds once. -/
structure WebApi where
  deps : AuthDeps
  auth : AuthHandler
  jwt : JwtLib
  publicKey : PublicKey
  allowedOrigins : GoMap Bool

/-- A request that the RC handler was reached with. -/
structure Served where
  time : ℚ
  ip : GoString
  claims : TokenClaims
  reply : Reply

/-- The visitors of the rate limit, the requests of the auth handler with their token store, and what has reached the
    RC handler. -/
structure WebServer where
  visitors : Visitors
  auth : AuthPool
  served : List Served

/-- Nobody has visited, nothing is stored and nothing was served. -/
def WebServer.init : WebServer := ⟨∅, AuthPool.init, []⟩

/-- The map of `NewMiddleware`. -/
def originMap (allowedOrigins : List GoString) : GoMap Bool := allowedOrigins.foldl (fun m origin => m.insert origin true) ∅

namespace WebApi

variable (W : WebApi)

/-- The headers for an origin that is allowed. -/
def corsHeaders (origin : GoString) : Option CorsHeaders :=
  if W.allowedOrigins[origin]?.getD false then
    some ⟨origin, str "GET, POST, PUT, DELETE, OPTIONS", str "Content-Type, Authorization", str "true"⟩
  else none

/-- What is registered under `/api/v1/rclone/`. -/
def serveRclone (env : RcEnv) (time : ℚ) (r : ServerRequest) (path : GoString) : ServerReply :=
  match bearerMiddleware W.jwt W.publicKey ⌊time⌋ r.authorization with
  | .error err => .unauthorized err
  | .ok claims =>
    match stripPrefix r.rawPath path with
    | none => .notFound
    | some urlPath => .rclone claims (serveHTTP env (r.rc urlPath))

/-- A program of the auth handler starts. -/
def startAuth (req : AuthRequest) (s : WebServer) : ServerReply × WebServer :=
  (.auth s.auth.threads.length,
    { s with auth := { s.auth with threads := s.auth.threads ++ [⟨req, W.auth.body W.deps req⟩] } })

/-- A handler of the mux; `ping` is what MongoDB answers the health check. -/
def serveRoute (env : RcEnv) (ping : Option GoError) (time : ℚ) (r : ServerRequest) (path : GoString) (s : WebServer) :
    Route → ServerReply × WebServer
  | .login => W.startAuth (.login r.login) s
  | .callback => W.startAuth (.callback r.callback) s
  | .refresh => W.startAuth (.refresh r.refresh) s
  | .health => (.health ping.isNone, s)
  | .rclone =>
    match W.serveRclone env time r path with
    | .rclone claims reply =>
      (.rclone claims reply, { s with served := s.served ++ [⟨time, clientIP r.remoteAddr, claims, reply⟩] })
    | reply => (reply, s)

/-- The mux: malformed and unclean paths are answered by it, the others go to their route. -/
def serveMux (env : RcEnv) (ping : Option GoError) (time : ℚ) (r : ServerRequest) (path : GoString) (s : WebServer) :
    ServerReply × WebServer :=
  match mux r.method r.rawPath path with
  | .badRequest => (.badRequest, s)
  | .redirect path => (.redirect path, s)
  | .methodNotAllowed => (.methodNotAllowed, s)
  | .notFound => (.notFound, s)
  | .handler route => W.serveRoute env ping time r path s route

/-- `NewMiddleware`: an OPTIONS is answered here. -/
def serveCors (env : RcEnv) (ping : Option GoError) (time : ℚ) (r : ServerRequest) (path : GoString) (s : WebServer) :
    ServerReply × WebServer :=
  if r.method = str "OPTIONS" then (.preflight, s) else W.serveMux env ping time r path s

/-- The handlers, the rate limit first. -/
def serve (env : RcEnv) (ping : Option GoError) (time : ℚ) (r : ServerRequest) (path : GoString) (s : WebServer) :
    ServerResponse × WebServer :=
  match handleRequest s.visitors r.remoteAddr time with
  | (false, visitors) => (⟨none, .tooManyRequests⟩, { s with visitors := visitors })
  | (true, visitors) =>
    let out := W.serveCors env ping time r path { s with visitors := visitors }
    (⟨W.corsHeaders r.origin, out.1⟩, out.2)

/-- The whole server: a path that cannot be decoded and `OPTIONS *` are answered before any handler. -/
def handle (env : RcEnv) (ping : Option GoError) (time : ℚ) (r : ServerRequest) (s : WebServer) : ServerResponse × WebServer :=
  match percentDecode r.rawPath with
  | none => (⟨none, .badRequest⟩, s)
  | some path =>
    if r.method = str "OPTIONS" ∧ r.rawPath = [ascii '*'] then (⟨none, .serverOptions⟩, s)
    else W.serve env ping time r path s

end WebApi

/-- What happens to the server: a request arrives, the cleanup loop passes, a program of the auth handler makes its
    next call. -/
inductive ServerAction where
  | request (env : RcEnv) (ping : Option GoError) (time : ℚ) (r : ServerRequest)
  | cleanup (time : ℚ)
  | call (i : Nat) (w : AuthWorld)

/-- A request is handled, a thread of the auth handler takes a call, or the visitors are cleaned up. -/
def WebApi.step (W : WebApi) (s : WebServer) : ServerAction → Option WebServer
  | .request env ping time r => some (W.handle env ping time r s).2
  | .cleanup time => some { s with visitors := cleanup s.visitors time }
  | .call i w => (W.auth.step W.deps s.auth (.call i w)).map fun auth => { s with auth := auth }

end RCloneCloud
