import RCloneCloud.Ui.JobState
import RCloneCloud.Lib.Run

/-!
# `Ui.HttpCache` — file reads through the cache of the HTTP client

The interceptor answers a GET from the cache while an entry is live, and stores what the server answers to the
others for an hour. It passes POSTs on and drops nothing when one changes a file: a read is what the server
could have answered exactly when the file is still what it was when the cached response was read.

The server is a parameter: what it answers to a GET in each of its states, and what a call that has completed
makes of the state. Only this client's calls change the state.

A GET is three events: it is issued, the server answers it, the answer arrives; others may come in between. An entry
of the cache remembers in which state of the server its response was read (`readAt`), which the source does not keep
and no decision looks at. Entries go when their hour is over, when space is short or by their timer (`.evict`), at any
time.
-/

set_option autoImplicit false

namespace RCloneCloud

open Lib

/-! ## Requests -/

/-- The path of a file in its remote; an empty `dirPath` is falsy. -/
def filePath (dirPath : Option JsString) (fileName : JsString) : JsString :=
  match orUndefined dirPath with
  | some dirPath => dirPath ++ '/' :: fileName
  | none => fileName

/-- The url of `WebApiService.fetchFileContent`. -/
def fetchFileContentUrl (webApiEndpoint remote : JsString) (dirPath : Option JsString) (fileName : JsString) :
    JsString :=
  webApiEndpoint ++ js "/api/v1/rclone/[" ++ remote ++ js ":]" ++ filePath dirPath fileName

/-- The methods that the client uses. -/
inductive HttpMethod where
  | GET
  | POST
deriving DecidableEq

/-- What the interceptor reads of a request. -/
structure HttpRequest where
  method : HttpMethod
  urlWithParams : JsString

/-- The files behind the API: the content that a GET is answered with, `none` for an error, and the state after
    a call that changes files has completed. -/
structure FileServer (σ : Type) where
  get : σ → JsString → Option Bytes
  post : σ → JobRequest → σ

/-! ## The cache -/

/-- A response and its time to live. Which of the server's states it was read in is kept for the statements
    only. -/
structure CacheEntry where
  response : Bytes
  start : Nat
  ttl : Nat
  readAt : Nat

/-- A GET on its way: the states of the server it was issued and answered in. -/
structure Flight where
  request : HttpRequest
  issuedAt : Nat
  answer : Option (Option Bytes × Nat)

/-- What a GET has returned, and the states of the server between which it was under way. -/
structure Returned where
  url : JsString
  answer : Option Bytes
  issuedAt : Nat
  returnedAt : Nat

/-- The client and the server. The server's earlier states and the answers returned are kept for the statements
    only. -/
structure HttpClient (σ : Type) where
  server : σ
  earlier : List σ
  clock : Nat
  cache : JsMap CacheEntry
  flights : Std.ExtTreeMap Nat Flight compare
  issued : Nat
  returned : List Returned

section
variable {σ : Type}

/-- Its states so far, the current one last. -/
def HttpClient.states (c : HttpClient σ) : List σ := c.earlier ++ [c.server]

/-- The current state's place among them. -/
def HttpClient.epoch (c : HttpClient σ) : Nat := c.earlier.length

/-- An empty cache and nothing under way. -/
def HttpClient.initial (s : σ) : HttpClient σ := ⟨s, [], 0, ∅, ∅, 0, []⟩

/-- An entry is live until its time is over. -/
def CacheEntry.live (clock : Nat) (entry : CacheEntry) : Bool := clock - entry.start ≤ entry.ttl

/-- `HttpCacheService.get`. -/
def cacheGet (c : HttpClient σ) (url : JsString) : Option Bytes :=
  match c.cache[url]? with
  | some entry => if entry.live c.clock then some entry.response else none
  | none => none

/-- `HttpCacheService.set`. -/
def cacheSet (c : HttpClient σ) (url : JsString) (response : Bytes) (ttlMs readAt : Nat) : HttpClient σ :=
  { c with cache := c.cache.insert url ⟨response, c.clock, ttlMs, readAt⟩ }

/-- An hour, in milliseconds, for every url. -/
def getTTLForUrl : Nat := 60 * 60 * 1000

/-- The interceptor looks at GETs to the API only. -/
def cacheable (webApiEndpoint : JsString) (req : HttpRequest) : Bool :=
  req.method = .GET && webApiEndpoint.isPrefixOf req.urlWithParams

/-- `webApiHttpCacheInterceptor` before the request is sent: the response it answers with, if it does not pass
    the request on. -/
def interceptRequest (webApiEndpoint : JsString) (c : HttpClient σ) (req : HttpRequest) : Option Bytes :=
  if cacheable webApiEndpoint req then cacheGet c req.urlWithParams else none

/-- `webApiHttpCacheInterceptor` on the response to a request it has passed on. -/
def interceptResponse (webApiEndpoint : JsString) (c : HttpClient σ) (req : HttpRequest)
    (answer : Option Bytes) (readAt : Nat) : HttpClient σ :=
  match answer with
  | some response =>
      if cacheable webApiEndpoint req then cacheSet c req.urlWithParams response getTTLForUrl readAt else c
  -- an error is no `HttpResponse` event
  | none => c

/-! ## Steps -/

/-- What can happen to the client. -/
inductive ClientEvent where
  /-- a GET is issued -/
  | get (url : JsString)
  /-- the server answers it -/
  | serve (n : Nat)
  /-- the answer arrives -/
  | deliver (n : Nat)
  /-- a POST that uploads, deletes, moves or copies has completed -/
  | complete (call : JobRequest)
  | tick (ms : Nat)
  /-- an entry is dropped, by its timer or for space -/
  | evict (url : JsString)

namespace HttpClient

/-- An answer is returned to its caller. -/
def emit (c : HttpClient σ) (url : JsString) (answer : Option Bytes) (issuedAt : Nat) : HttpClient σ :=
  { c with returned := c.returned ++ [⟨url, answer, issuedAt, c.epoch⟩] }

/-- A step of the client; an event that concerns a GET is possible only while this GET is at that point. -/
def step (S : FileServer σ) (webApiEndpoint : JsString) (c : HttpClient σ) : ClientEvent → Option (HttpClient σ)
  | .get url =>
      let req : HttpRequest := ⟨.GET, url⟩
      match interceptRequest webApiEndpoint c req with
      | some response => some (c.emit url (some response) c.epoch)
      | none => some { c with flights := c.flights.insert c.issued ⟨req, c.epoch, none⟩, issued := c.issued + 1 }
  | .serve n =>
      match c.flights[n]? with
      | some ⟨req, issuedAt, none⟩ =>
          let answer := S.get c.server req.urlWithParams
          some { c with flights := c.flights.insert n ⟨req, issuedAt, some (answer, c.epoch)⟩ }
      | _ => none
  | .deliver n =>
      match c.flights[n]? with
      | some ⟨req, issuedAt, some (answer, readAt)⟩ =>
          let c := interceptResponse webApiEndpoint { c with flights := c.flights.erase n } req answer readAt
          some (c.emit req.urlWithParams answer issuedAt)
      | _ => none
  | .complete call =>
      -- the interceptor passes a POST on, and its response too
      some { c with server := S.post c.server call, earlier := c.earlier ++ [c.server] }
  | .tick ms => some { c with clock := c.clock + ms }
  | .evict url => some { c with cache := c.cache.erase url }

end HttpClient

end

end RCloneCloud
