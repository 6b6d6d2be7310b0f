import RCloneCloud.Handler.Params

/-!
# `Handler.Serve` — from an HTTP request to rclone

`ServeHTTP`, `handlePost` and `handleGet` up to the point where rclone takes over: `jobs.NewJob` for a POST,
`serveRemote` for a GET. What the standard library makes of a request, the parsed `Content-Type`, the query,
the form and the first JSON value of the body, is part of the request; the registered rc calls and the
configured sections are the environment.

A reply is what the handler does last: it writes an error with its text and status, hands a job to rclone or serves a
remote, or panics. `handlePost` is split where the source reads in steps: the content type, the values, the JSON body,
the handles, the dispatch. `buildParams_get?` says where a parameter comes from, which `Handler.Mediation` and
`Handler.PostParams` both use.
-/

set_option autoImplicit false

namespace RCloneCloud

/-- `url.Values`. -/
abbrev Values := GoMap (List GoString)

/-- What `json.NewDecoder(r.Body).Decode` reads: a value, or the error it ends with (`EOF` for an empty
    body). -/
inductive Body where
  | failed (err : GoError)
  | value (j : Json)

/-- A request, with what the standard library makes of it. -/
structure Request where
  method : GoString
  urlPath : GoString
  /-- `r.Header.Get("Content-Type")`. -/
  contentType : GoString
  /-- `mime.ParseMediaType(contentType)`. -/
  mediaType : Except GoError (GoString × GoMap GoString)
  /-- `r.URL.Query()`. -/
  query : Values
  /-- `r.Form` after `r.ParseForm()`. -/
  form : Except GoError Values
  body : Body

/-- What the handler looks at of an `rc.Call`. -/
structure Call where
  needsRequest : Bool
  needsResponse : Bool

/-- `config.FileSections()` and `rc.Calls.Get`. -/
structure RcEnv where
  sections : List GoString
  calls : GoString → Option Call

/-- What the handler does with a request. -/
inductive Reply where
  | writeError (path : GoString) (err : GoError) (status : Nat)
  | httpError (status : Nat)
  | writeHeader (status : Nat)
  | newJob (path : GoString) (params : Params)
  | serveRemote (path fsName : GoString)
  | panicked

/-! ## The parameters of a POST -/

/-- Lower case of an ASCII letter. -/
def lowerByte (b : UInt8) : UInt8 := if ascii 'A' ≤ b ∧ b ≤ ascii 'Z' then b + 32 else b

/-- `strings.EqualFold(charset, "utf-8")`: no letter of it folds outside ASCII. -/
def isUtf8 (charset : GoString) : Bool := charset.map lowerByte = str "utf-8"

/-- The media type and its parameters, both empty when there is no `Content-Type`. -/
def parseContentType (r : Request) : Except GoError (GoString × GoMap GoString) :=
  if r.contentType = [] then .ok ([], ∅)
  else
    match r.mediaType with
    | .error err => .error (.wrapf "failed to parse Content-Type: %w" [] err)
    | .ok mediaType => .ok mediaType

/-- The query; for a form body what `ParseForm` has gathered. -/
def readValues (r : Request) (mediaType : GoString) : Except GoError Values :=
  if mediaType = str "application/x-www-form-urlencoded" then
    match r.form with
    | .error err => .error (.wrapf "failed to parse form/URL parameters: %w" [] err)
    | .ok form => .ok form
  else .ok r.query

/-- The last value of each key. -/
def paramsOf (values : Values) : GoMap Value :=
  values.filterMap fun _ vs => vs.getLast?.map fun s => .json (.string s)

/-- What an unmarshal error calls a value. -/
def Json.kind : Json → GoString
  | .null => str "null"
  | .bool _ => str "bool"
  | .number _ => str "number"
  | .string _ => str "string"
  | .array _ => str "array"
  | .object _ => str "object"

/-- The members of an object, set one after the other. -/
def mergeMembers (m : GoMap Value) (members : List (GoString × Json)) : GoMap Value :=
  members.foldl (fun m e => m.insert e.1 (.json e.2)) m

/-- `Decode(&in)`: an object is merged into the map, null makes it nil. -/
def decode (body : Body) (p : Params) : Except GoError Params :=
  match body with
  | .failed err => .error err
  | .value .null => .ok none
  | .value (.object members) => .ok (some (mergeMembers (p.getD ∅) members))
  | .value j => .error (.external
      (str "json: cannot unmarshal " ++ j.kind ++ str " into Go value of type rc.Params"))

/-- A JSON body is decoded into the parameters that are already there; other bodies are not read. -/
def readJSON (r : Request) (mediaType : GoString) (mediaParams : GoMap GoString) (p : Params) :
    Except GoError Params :=
  if mediaType = str "application/json" then
    match mediaParams[str "charset"]? with
    | some charset =>
      if isUtf8 charset then decodeBody p
      else .error (.errorf "unsupported charset %q for JSON input" [charset])
    | none => decodeBody p
  else .ok p
where
  decodeBody (p : Params) : Except GoError Params :=
    match decode r.body p with
    | .ok p => .ok p
    | .error err =>
      if err = .external (str "EOF") then .ok p
      else .error (.wrapf "failed to read input JSON: %w" [] err)

/-- The parameter map `handlePost` builds; every failure is a bad request. -/
def buildParams (r : Request) : Except GoError Params :=
  match parseContentType r with
  | .error err => .error err
  | .ok (mediaType, mediaParams) =>
    match readValues r mediaType with
    | .error err => .error err
    -- the JSON body is decoded into the map that the query or the form has filled
    | .ok values => readJSON r mediaType mediaParams (some (paramsOf values))

/-! ## Dispatch -/

/-- The rc endpoints that may be called. -/
def allowedMethods : List GoString :=
  [str "rc/noop", str "config/listremotes", str "operations/list", str "operations/about",
    str "operations/stat", str "operations/uploadfile", str "operations/purge",
    str "operations/deletefile", str "sync/copy", str "operations/copyfile", str "operations/movefile",
    str "sync/move", str "operations/mkdir", str "operations/cleanup", str "job/status", str "job/stop"]

/-- `in[key] = v`, which panics on a nil map. -/
def Params.assign (p : Params) (key : GoString) (v : Value) : Option Params :=
  match p with
  | none => none
  | some m => some (some (m.insert key v))

/-- The request and the response writer, for the calls that ask for them. -/
def addHandles (call : Call) (p : Params) : Option Params :=
  match if call.needsRequest then p.assign (str "_request") .request else some p with
  | none => none
  | some p => if call.needsResponse then p.assign (str "_response") .responseWriter else some p

/-- `handlePost` once the parameters are built. -/
def dispatch (env : RcEnv) (path : GoString) (p : Params) : Reply :=
  if !allowedMethods.contains path then .writeError path (.errorf "method %q is not allowed" [path]) 403
  else
    match env.calls path with
    | none => .writeError path (.errorf "couldn't find method %q" [path]) 404
    | some call =>
      match validateRCParams env.sections p with
      | .error err => .writeError path err 403
      | .ok () =>
        match addHandles call p with
        -- the map is nil after a JSON null
        | none => .panicked
        | some p => .newJob path p

/-- `handlePost`. -/
def handlePost (env : RcEnv) (r : Request) (path : GoString) : Reply :=
  match buildParams r with
  | .error err => .writeError path err 400
  | .ok p => dispatch env path p

/-- `fsMatch.FindStringSubmatch`, for the expression `^\[(.*?)\](.*)$`: the dot matches no newline, and the
    first group ends at the first bracket that closes it. -/
def fsMatch (path : GoString) : Option (GoString × GoString) :=
  match path with
  | [] => none
  | c :: s =>
    if c = ascii '[' ∧ ascii '\n' ∉ s then
      match index s (ascii ']') with
      | none => none
      | some i => some (s.take i, s.drop (i + 1))
    else none

/-- `handleGet`. -/
def handleGet (env : RcEnv) (path : GoString) : Reply :=
  match fsMatch path with
  | none => .httpError 404
  | some (fsName, remotePath) =>
    match validateFsParam env.sections fsName with
    | .error err => .writeError path err 403
    | .ok () =>
      match validateRemoteParam remotePath with
      | .error err => .writeError path err 403
      | .ok () => .serveRemote remotePath fsName

/-- `ServeHTTP`. -/
def serveHTTP (env : RcEnv) (r : Request) : Reply :=
  let path := r.urlPath.dropWhile fun c => c = ascii '/'
  if r.method = str "POST" then handlePost env r path
  else if r.method = str "GET" ∨ r.method = str "HEAD" then handleGet env path
  else if r.method = str "OPTIONS" then .writeHeader 200
  else .writeError path (.errorf "method %q not allowed" [r.method]) 405

/-! ## What reaches rclone -/

/-- The member of an object that counts for a key: the last one. -/
def lastMember : List (GoString × Json) → GoString → Option Json
  | [], _ => none
  | (k, j) :: rest, key =>
    match lastMember rest key with
    | some j' => some j'
    | none => if k = key then some j else none

/-- What the JSON body of a request says under a key, if the request has one and it is an object. -/
def jsonMember (r : Request) (key : GoString) : Option Json :=
  match parseContentType r with
  | .error _ => none
  | .ok (mediaType, _) =>
    if mediaType = str "application/json" then
      match r.body with
      | .value (.object members) => lastMember members key
      | _ => none
    else none

/-- Of members with one key the last one counts, and it replaces what the map had. -/
theorem mergeMembers_getElem? (m : GoMap Value) (members : List (GoString × Json)) (key : GoString) :
    (mergeMembers m members)[key]? =
      match lastMember members key with
      | some j => some (.json j)
      | none => m[key]? := by
  induction members generalizing m with
  | nil => rfl
  | cons e rest ih =>
      obtain ⟨k, j⟩ := e
      have hstep : mergeMembers m ((k, j) :: rest) = mergeMembers (m.insert k (.json j)) rest := rfl
      rw [hstep, ih, lastMember]
      cases hlast : lastMember rest key with
      | some j' => rfl
      | none =>
          rw [GoMap.getElem?_insert]
          by_cases hk : k = key
          · simp [hk]
          · simp [hk]

/-- What the query and the form contribute is a string. -/
theorem paramsOf_getElem? {values : Values} {key : GoString} {v : Value}
    (h : (paramsOf values)[key]? = some v) : ∃ s, v = .json (.string s) := by
  rw [paramsOf, Std.ExtTreeMap.getElem?_filterMap'] at h
  obtain ⟨vs, -, hv⟩ := Option.bind_eq_some_iff.mp h
  obtain ⟨s, -, rfl⟩ := Option.map_eq_some_iff.mp hv
  exact ⟨s, rfl⟩

/-- What is decoded without an error, or is empty: nothing, null or an object. -/
theorem decodeBody_ok {r : Request} {p q : Params} (h : readJSON.decodeBody r p = .ok q) :
    (r.body = .failed (.external (str "EOF")) ∧ q = p) ∨ (r.body = .value .null ∧ q = none) ∨
      ∃ members, r.body = .value (.object members) ∧ q = some (mergeMembers (p.getD ∅) members) := by
  unfold readJSON.decodeBody at h
  cases hb : r.body with
  | failed err =>
      rw [hb] at h
      simp only [decode] at h
      split at h
      · next heof =>
          cases h
          exact .inl ⟨by rw [heof], rfl⟩
      · cases h
  | value j =>
      rw [hb] at h
      -- a value of another type is an error, and not the one that an empty body gives
      have hother : ∀ j : Json, decode (.value j) p = .error (.external
          (str "json: cannot unmarshal " ++ j.kind ++ str " into Go value of type rc.Params")) →
          r.body = .value j → False := by
        intro j hj hbody
        rw [hbody.symm.trans hb] at hj
        rw [hj] at h
        dsimp only at h
        split at h
        · next heof =>
            have hhead := congrArg List.head? (GoError.external.inj heof)
            rw [List.append_assoc, List.head?_append_of_ne_nil _ (by decide)] at hhead
            exact absurd hhead (by decide)
        · cases h
      cases j with
      | null =>
          simp only [decode] at h
          cases h
          exact .inr (.inl ⟨rfl, rfl⟩)
      | object members =>
          simp only [decode] at h
          cases h
          exact .inr (.inr ⟨members, rfl, rfl⟩)
      | bool b => exact (hother _ rfl hb).elim
      | number text => exact (hother _ rfl hb).elim
      | string s => exact (hother _ rfl hb).elim
      | array items => exact (hother _ rfl hb).elim

/-- How the parameters of a request are built. -/
theorem buildParams_ok {r : Request} {p : Params} (h : buildParams r = .ok p) :
    ∃ mediaType mediaParams values, parseContentType r = .ok (mediaType, mediaParams) ∧
      readValues r mediaType = .ok values ∧
      if mediaType = str "application/json" then readJSON.decodeBody r (some (paramsOf values)) = .ok p
      else p = some (paramsOf values) := by
  unfold buildParams at h
  cases hct : parseContentType r with
  | error err => rw [hct] at h; cases h
  | ok mt =>
      obtain ⟨mediaType, mediaParams⟩ := mt
      rw [hct] at h
      dsimp only at h
      cases hvals : readValues r mediaType with
      | error err => rw [hvals] at h; cases h
      | ok values =>
          rw [hvals] at h
          dsimp only at h
          refine ⟨mediaType, mediaParams, values, rfl, hvals, ?_⟩
          -- another charset is an error, so what is left is the decoding of the body
          unfold readJSON at h
          split at h
          · next hjson =>
              rw [if_pos hjson]
              split at h
              · split at h
                · exact h
                · cases h
              · exact h
          · next hjson =>
              rw [if_neg hjson]
              cases h
              rfl

/-- In a JSON request a member is looked up in the object of the body. -/
theorem jsonMember_json {r : Request} {mediaType : GoString} {mediaParams : GoMap GoString}
    (hct : parseContentType r = .ok (mediaType, mediaParams)) (hjson : mediaType = str "application/json")
    (key : GoString) :
    jsonMember r key = match r.body with
      | .value (.object members) => lastMember members key
      | _ => none := by
  rw [jsonMember, hct]
  exact if_pos hjson

/-- **What the built parameters hold under a key**: the member of the JSON body, if it has one; else
    nothing or a string. -/
theorem buildParams_get? {r : Request} {p : Params} (h : buildParams r = .ok p) (key : GoString) :
    (∀ j, jsonMember r key = some j → p.get? key = some (.json j)) ∧
    (jsonMember r key = none → ∀ v, p.get? key = some v → ∃ s, v = .json (.string s)) := by
  obtain ⟨mediaType, mediaParams, values, hct, -, hbody⟩ := buildParams_ok h
  have hstrings : ∀ v, Params.get? (some (paramsOf values)) key = some v →
      ∃ s, v = .json (.string s) := fun v hv => paramsOf_getElem? hv
  by_cases hjson : mediaType = str "application/json"
  · rw [if_pos hjson] at hbody
    rw [jsonMember_json hct hjson]
    rcases decodeBody_ok hbody with ⟨hb, rfl⟩ | ⟨hb, rfl⟩ | ⟨members, hb, rfl⟩
    · rw [hb]
      exact ⟨fun _ hj => (nomatch hj), fun _ => hstrings⟩
    · rw [hb]
      exact ⟨fun _ hj => (nomatch hj), fun _ _ hv => nomatch hv⟩
    · -- an object: its member for the key, or what was there
      rw [hb]
      dsimp only
      have hget : Params.get? (some (mergeMembers (paramsOf values) members)) key = _ :=
        mergeMembers_getElem? (paramsOf values) members key
      cases hlast : lastMember members key with
      | some j =>
          rw [hlast] at hget
          exact ⟨fun j' hj' => Option.some.inj hj' ▸ hget, fun hnone => nomatch hnone⟩
      | none =>
          rw [hlast] at hget
          exact ⟨fun _ hj' => (nomatch hj'), fun _ v hv => hstrings v (hget.symm.trans hv)⟩
  · rw [if_neg hjson] at hbody
    subst hbody
    have hnone : jsonMember r key = none := by
      rw [jsonMember, hct]
      exact if_neg hjson
    rw [hnone]
    exact ⟨fun _ hj' => (nomatch hj'), fun _ => hstrings⟩

/-- A built value under a key is a string exactly when the JSON body has no other under it. -/
theorem buildParams_strings {r : Request} {p : Params} (h : buildParams r = .ok p) (key : GoString) :
    (∀ v, p.get? key = some v → ∃ s, v = .json (.string s)) ↔
      ∀ j, jsonMember r key = some j → ∃ s, j = .string s := by
  obtain ⟨hmember, hother⟩ := buildParams_get? h key
  constructor
  · intro hstring j hj
    obtain ⟨s, hs⟩ := hstring _ (hmember j hj)
    cases hs
    exact ⟨s, rfl⟩
  · intro hstring v hv
    cases hj : jsonMember r key with
    | none => exact hother hj v hv
    | some j =>
        obtain ⟨s, rfl⟩ := hstring j hj
        have hget := hmember _ hj
        rw [hv] at hget
        cases hget
        exact ⟨s, rfl⟩

/-- Only a POST reaches `jobs.NewJob`. -/
theorem serveHTTP_newJob {env : RcEnv} {r : Request} {path : GoString} {p : Params}
    (h : serveHTTP env r = .newJob path p) :
    r.method = str "POST" ∧
      handlePost env r (r.urlPath.dropWhile fun c => c = ascii '/') = .newJob path p := by
  unfold serveHTTP at h
  dsimp only at h
  split at h
  · next hpost => exact ⟨hpost, h⟩
  · split at h
    · unfold handleGet at h
      split at h
      · cases h
      · split at h
        · cases h
        · split at h <;> cases h
    · split at h <;> cases h

end RCloneCloud
