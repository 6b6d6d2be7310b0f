import RCloneCloud.Handler.Mediation
import RCloneCloud.Handler.PostParams
import RCloneCloud.Server.Reach
import RCloneCloud.Ui.WebApiService

/-!
# `Server.ServiceCalls` — what the UI asks for and what the server starts

A call of the service, as its request passes the whole server. Its url, its body and the query of an upload come out
as the method and the parameters that the service was given, and what decides about them is whether the body is within
the limit of `handlePost`, the remotes are configured and the paths stay inside (`service_call_started`). The paths of a folder that is moved or copied are part
of the fs values, so no one looks at their components.

The proofs follow a call outwards: its parameters as members of the body (`fsTexts_rcCall`, `remoteTexts_rcCall`), the
validation of exactly these texts (`validateRCParams_rcCall`), the decoding of the body (`buildParams_json` within the
limit, `buildParams_request_large` over it, `buildParams_multipart` for an upload), the dispatch, and the bearer and
mux in front. `Allowed` is the condition in the caller's terms, about remotes and paths of the page rather than rc
keys.
-/

set_option autoImplicit false

namespace RCloneCloud

open Lib

/-! ## What is looked at -/

/-- The remote is configured, as an fs value names it: up to its first colon. -/
def ConfiguredRemote (sections : List GoString) (remote : JsString) : Prop :=
  remote.takeWhile (fun c => c ≠ ':') ≠ [] ∧ utf8Encode (remote.takeWhile fun c => c ≠ ':') ∈ sections

namespace WebApiCall

/-- The remotes that a call names. -/
def remotes : WebApiCall → List JsString
  | getJobStatus _ | listRemotes => []
  | uploadFile remote _ _ | mkdirAsync remote _ | listFolder remote _ | listRemoteUsage remote
  | deleteFileAsync remote _ | deleteFolderAsync remote _ => [remote]
  | moveFileAsync fromRemote _ toRemote _ | moveFolderAsync fromRemote _ toRemote _
  | copyFolderAsync fromRemote _ toRemote _ _ | copyFileAsync fromRemote _ toRemote _ => [fromRemote, toRemote]

/-- The fs values of a call. -/
def fsValues : WebApiCall → List JsString
  | getJobStatus _ | listRemotes => []
  | uploadFile remote _ _ | mkdirAsync remote _ | listFolder remote _ | listRemoteUsage remote
  | deleteFileAsync remote _ | deleteFolderAsync remote _ => [remoteFs remote]
  | moveFileAsync fromRemote _ toRemote _ | copyFileAsync fromRemote _ toRemote _ => [remoteFs fromRemote, remoteFs toRemote]
  | moveFolderAsync fromRemote fromPath toRemote toPath | copyFolderAsync fromRemote fromPath toRemote toPath _ =>
      [folderFs fromRemote fromPath, folderFs toRemote toPath]

/-- The paths that stand alone in a parameter. -/
def paths : WebApiCall → List JsString
  | getJobStatus _ | listRemoteUsage _ | listRemotes | moveFolderAsync .. | copyFolderAsync .. => []
  | uploadFile _ path _ | mkdirAsync _ path | listFolder _ path | deleteFileAsync _ path | deleteFolderAsync _ path => [path]
  | moveFileAsync _ fromPath _ toPath | copyFileAsync _ fromPath _ toPath => [fromPath, toPath]

/-- What the server asks of a call. -/
structure Allowed (sections : List GoString) (call : WebApiCall) : Prop where
  configured : ∀ remote ∈ call.remotes, ConfiguredRemote sections remote
  inside : ∀ path ∈ call.paths, js ".." ∉ path.splitOn '/'

end WebApiCall

/-! ## The parameters -/

section
variable {sections : List GoString} {members : List (GoString × Json)} {s t : GoString} {remote path : JsString}

/-- The text of a body under a key. -/
def memberText (members : List (GoString × Json)) (key : GoString) : Option GoString :=
  match lastMember members key with
  | some (.string s) => some s
  | _ => none

/-- A text member of the body is the parameter under its key. -/
theorem mergeMembers_text {key : GoString} :
    Params.get? (some (mergeMembers ∅ members)) key = some (.json (.string s)) ↔ memberText members key = some s := by
  show (mergeMembers ∅ members)[key]? = _ ↔ _
  rw [mergeMembers_getElem?, memberText]
  cases lastMember members key with
  | none => simp
  | some j => cases j <;> simp

/-- The check accepts exactly the paths without a component `..`. -/
theorem validateRemoteParam_eq_ok : validateRemoteParam s = .ok () ↔ str ".." ∉ splitSlash s := by
  refine ⟨validateRemoteParam_ok, fun hno => ?_⟩
  exact if_neg hno

/-- The texts that validation looks at. -/
theorem validateRCParams_members : validateRCParams sections (some (mergeMembers ∅ members)) = .ok () ↔
    (∀ value ∈ fsParamKeys.filterMap (memberText members), NamesRemote sections value) ∧
      ∀ value ∈ remoteParamKeys.filterMap (memberText members), str ".." ∉ splitSlash value := by
  rw [validateRCParams_ok]
  simp only [mergeMembers_text, validateFsParam_eq_ok, validateRemoteParam_eq_ok, List.mem_filterMap]
  constructor
  · rintro ⟨hfs, hremote⟩
    refine ⟨?_, ?_⟩
    · rintro value ⟨key, hkey, hvalue⟩
      exact hfs key hkey value hvalue
    · rintro value ⟨key, hkey, hvalue⟩
      exact hremote key hkey value hvalue
  · rintro ⟨hfs, hremote⟩
    exact ⟨fun key hkey value hvalue => hfs value ⟨key, hkey, hvalue⟩,
      fun key hkey value hvalue => hremote value ⟨key, hkey, hvalue⟩⟩

/-- What follows the colon of an fs value does not matter. -/
theorem namesRemote_append (h : ascii ':' ∈ s) : NamesRemote sections (s ++ t) ↔ NamesRemote sections s := by
  constructor
  · rintro ⟨name, rest, heq, hcolon, hne, hmem⟩
    have hname : name ++ [ascii ':'] <+: s ++ t := ⟨rest, by rw [heq, List.append_assoc, List.singleton_append]⟩
    rcases List.prefix_or_prefix_of_prefix hname (List.prefix_append s t) with ⟨r, rfl⟩ | hshort
    · exact ⟨name, r, by rw [List.append_assoc, List.singleton_append], hcolon, hne, hmem⟩
    · -- the text ends with the first colon
      rcases List.prefix_concat_iff.mp hshort with rfl | hinside
      · exact ⟨name, [], rfl, hcolon, hne, hmem⟩
      · exact absurd (hinside.subset h) hcolon
  · rintro ⟨name, rest, rfl, hcolon, hne, hmem⟩
    exact ⟨name, rest ++ t, by rw [List.append_assoc, List.cons_append], hcolon, hne, hmem⟩

/-- The fs value of a remote names it. -/
theorem namesRemote_remoteFs : NamesRemote sections (utf8Encode (remoteFs remote)) ↔ ConfiguredRemote sections remote :=
  namesRemote_iff

/-- The fs value of a folder names the folder's remote; the path behind the colon is not looked at. -/
theorem namesRemote_folderFs : NamesRemote sections (utf8Encode (folderFs remote path)) ↔ ConfiguredRemote sections remote := by
  have hcolon : ascii ':' ∈ utf8Encode (remoteFs remote) :=
    (ascii_mem_utf8Encode (by decide) _).mpr (List.mem_append_right remote (List.mem_singleton_self ':'))
  have hcut : utf8Encode (folderFs remote path) = utf8Encode (remoteFs remote) ++ utf8Encode path := by
    rw [← utf8Encode_append, folderFs, remoteFs, List.append_assoc, List.singleton_append]
  rw [hcut, namesRemote_append hcolon, namesRemote_remoteFs]

/-- A component `..` is one before encoding and after it. -/
theorem dots_mem_splitSlash (path : JsString) : str ".." ∈ splitSlash (utf8Encode path) ↔ js ".." ∈ path.splitOn '/' := by
  have hdots : str ".." = utf8Encode (js "..") := by decide
  have hsplit : splitSlash (utf8Encode path) = (path.splitOn '/').map utf8Encode := splitOn_utf8Encode (by decide) path
  rw [hdots, hsplit, List.mem_map_of_injective utf8Encode_injective]

/-- Under the fs keys of a call stand its fs values. -/
theorem fsTexts_rcCall (call : WebApiCall) :
    fsParamKeys.filterMap (memberText call.rcCall.params) = call.fsValues.map utf8Encode := by
  cases call <;> rfl

/-- Under the remote keys of a call stand its paths. -/
theorem remoteTexts_rcCall (call : WebApiCall) :
    remoteParamKeys.filterMap (memberText call.rcCall.params) = call.paths.map utf8Encode := by
  cases call <;> rfl

/-- Each fs value names its remote, whatever path follows. -/
theorem namesRemote_fsValues (call : WebApiCall) :
    (∀ value ∈ call.fsValues, NamesRemote sections (utf8Encode value)) ↔
      ∀ remote ∈ call.remotes, ConfiguredRemote sections remote := by
  cases call <;>
    simp only [WebApiCall.fsValues, WebApiCall.remotes, List.forall_mem_cons, namesRemote_remoteFs, namesRemote_folderFs,
      List.not_mem_nil, false_implies, implies_true]

/-- **Validation of a call.** -/
theorem validateRCParams_rcCall (call : WebApiCall) :
    validateRCParams sections (some (mergeMembers ∅ call.rcCall.params)) = .ok () ↔ call.Allowed sections := by
  have hsplit : call.Allowed sections ↔
      (∀ remote ∈ call.remotes, ConfiguredRemote sections remote) ∧ ∀ path ∈ call.paths, js ".." ∉ path.splitOn '/' :=
    ⟨fun h => ⟨h.configured, h.inside⟩, fun h => ⟨h.1, h.2⟩⟩
  rw [validateRCParams_members, hsplit, fsTexts_rcCall, remoteTexts_rcCall, List.forall_mem_map, List.forall_mem_map,
    namesRemote_fsValues]
  simp only [dots_mem_splitSlash]

/-! ## The request -/

variable {authToken : JsString} {boundary : GoString} {browser : ServerRequest}

/-- The values of an upload's query, as parameters. -/
theorem paramsOf_upload (fs dirPath : GoString) :
    paramsOf (Values.add (Values.add ∅ (str "fs") fs) (str "remote") dirPath) =
      mergeMembers ∅ [(str "fs", .string fs), (str "remote", .string dirPath)] := by
  refine Std.ExtTreeMap.ext_getElem? fun key => ?_
  have hne : str "fs" ≠ str "remote" := by decide
  rw [paramsOf_eq, mergeMembers_getElem?]
  simp only [Values.add, GoMap.getElem?_insert, lastMember, hne, if_false, Std.ExtTreeMap.getElem?_empty, Option.getD_none,
    List.nil_append]
  by_cases hremote : str "remote" = key
  · simp [hremote]
  · by_cases hfs : str "fs" = key
    · simp [hremote, hfs]
    · simp [hremote, hfs]

/-- No query gives no parameters. -/
theorem paramsOf_empty : paramsOf ∅ = ∅ := by
  refine Std.ExtTreeMap.ext_getElem? fun key => ?_
  rw [paramsOf_eq, Std.ExtTreeMap.getElem?_empty]
  rfl

/-- The parameters of a JSON body come from the body alone. -/
theorem buildParams_json {r : Request} (hcontent : r.contentType = str "application/json")
    (hmedia : r.mediaType = .ok (str "application/json", ∅)) (hquery : r.query = ∅)
    (hbody : r.body = .value (.object members)) : buildParams r = .ok (some (mergeMembers ∅ members)) := by
  have hcontentType : parseContentType r = .ok (str "application/json", ∅) := by
    have hne : str "application/json" ≠ [] := by decide
    rw [parseContentType, hcontent, if_neg hne, hmedia]
  have hvalues : readValues r (str "application/json") = .ok ∅ := by
    have hne : str "application/json" ≠ str "application/x-www-form-urlencoded" := by decide
    rw [readValues, if_neg hne, hquery]
  have hread : readJSON r (str "application/json") ∅ (some (paramsOf ∅)) = .ok (some (mergeMembers ∅ members)) := by
    rw [readJSON, if_pos rfl, Std.ExtTreeMap.getElem?_empty]
    simp only [readJSON.decodeBody, hbody, decode, Option.getD_some, paramsOf_empty]
  rw [buildParams, hcontentType]
  simp only [hvalues, hread]

/-- The parameters of a form that is no query come from the query alone. -/
theorem buildParams_multipart {r : Request} {mediaParams : GoMap GoString} {values : Values} (hcontent : r.contentType ≠ [])
    (hmedia : r.mediaType = .ok (str "multipart/form-data", mediaParams)) (hquery : r.query = values) :
    buildParams r = .ok (some (paramsOf values)) := by
  have hcontentType : parseContentType r = .ok (str "multipart/form-data", mediaParams) := by
    rw [parseContentType, if_neg hcontent, hmedia]
  have hvalues : readValues r (str "multipart/form-data") = .ok values := by
    have hne : str "multipart/form-data" ≠ str "application/x-www-form-urlencoded" := by decide
    rw [readValues, if_neg hne, hquery]
  have hread : readJSON r (str "multipart/form-data") mediaParams (some (paramsOf values)) = .ok (some (paramsOf values)) := by
    have hne : str "multipart/form-data" ≠ str "application/json" := by decide
    rw [readJSON, if_neg hne]
  rw [buildParams, hcontentType]
  simp only [hvalues, hread]

/-- A JSON body that cannot be read to its end. -/
theorem buildParams_unread {r : Request} {err : GoError} (hcontent : r.contentType = str "application/json")
    (hmedia : r.mediaType = .ok (str "application/json", ∅)) (hbody : r.body = .failed err) (heof : err ≠ .external (str "EOF")) :
    buildParams r = .error (.wrapf "failed to read input JSON: %w" [] err) := by
  have hcontentType : parseContentType r = .ok (str "application/json", ∅) := by
    have hne : str "application/json" ≠ [] := by decide
    rw [parseContentType, hcontent, if_neg hne, hmedia]
  have hvalues : readValues r (str "application/json") = .ok r.query := by
    have hne : str "application/json" ≠ str "application/x-www-form-urlencoded" := by decide
    rw [readValues, if_neg hne]
  have hread : readJSON r (str "application/json") ∅ (some (paramsOf r.query)) =
      .error (.wrapf "failed to read input JSON: %w" [] err) := by
    rw [readJSON, if_pos rfl, Std.ExtTreeMap.getElem?_empty]
    simp only [readJSON.decodeBody, hbody, decode, if_neg heof]
  rw [buildParams, hcontentType]
  simp only [hvalues, hread]

/-- **The parameters arrive as the service was given them**, if the body is within the limit. -/
theorem buildParams_request {call : WebApiCall} (hfits : call.Fits) (urlPath : GoString) :
    buildParams ((call.request authToken boundary browser).rc urlPath) = .ok (some (mergeMembers ∅ call.rcCall.params)) := by
  have hquery : ((call.request authToken boundary browser).rc urlPath).query = _ := parseQuery_url call
  cases call with
  | uploadFile remote dirPath file =>
      have hcontent : str "multipart/form-data; boundary=" ++ boundary ≠ [] := by
        intro hnil
        exact absurd (List.append_eq_nil_iff.mp hnil).1 (by decide)
      rw [buildParams_multipart hcontent rfl hquery, paramsOf_upload]
      rfl
  | _ => exact buildParams_json rfl rfl hquery (maxBytesReader_fits hfits _)

/-- What a body beyond the limit is answered with. -/
def bodyTooLarge : GoError :=
  .wrapf "failed to read input JSON: %w" [] (.external (str "http: request body too large"))

/-- A body over the limit is an error before anything of it counts. -/
theorem buildParams_request_large {call : WebApiCall} (hlarge : ¬ call.Fits) (urlPath : GoString) :
    buildParams ((call.request authToken boundary browser).rc urlPath) = .error bodyTooLarge := by
  have heof : GoError.external (str "http: request body too large") ≠ .external (str "EOF") := by decide
  cases call with
  | uploadFile remote dirPath file => exact absurd trivial hlarge
  | _ => exact buildParams_unread rfl rfl (maxBytesReader_large hlarge _) heof

/-- What dispatch makes of parameters that are a map. -/
theorem dispatch_eq_newJob {env : RcEnv} {method path : GoString} {p q : Params} (hallowed : method ∈ allowedMethods) :
    dispatch env method p = .newJob path q ↔ path = method ∧ validateRCParams env.sections p = .ok () ∧
      ∃ rc, env.calls method = some rc ∧ addHandles rc p = some q := by
  constructor
  · intro h
    obtain ⟨hpath, -, hvalid, hcall⟩ := dispatch_newJob h
    exact ⟨hpath, hvalid, hcall⟩
  · rintro ⟨rfl, hvalid, rc, hcall, hadd⟩
    simp only [dispatch, List.contains_eq_mem, decide_eq_true hallowed, hcall, hvalid, hadd]
    rfl

/-- Whatever else it makes of them is a refusal. -/
theorem dispatch_map {env : RcEnv} {method : GoString} {m : GoMap Value} (hallowed : method ∈ allowedMethods) :
    (∃ q, dispatch env method (some m) = .newJob method q) ∨
    (env.calls method = none ∧ ∃ err, dispatch env method (some m) = .writeError method err 404) ∨
    (validateRCParams env.sections (some m) ≠ .ok () ∧ ∃ err, dispatch env method (some m) = .writeError method err 403) := by
  unfold dispatch
  rw [List.contains_eq_mem, decide_eq_true hallowed, if_neg (by simp)]
  split
  · next hcall => exact .inr (.inl ⟨hcall, _, rfl⟩)
  · next rc hcall =>
      split
      · next err hvalid => exact .inr (.inr ⟨by rw [hvalid]; exact nofun, err, rfl⟩)
      · split
        · next hnone => exact absurd hnone (addHandles_some rc m)
        · next q hadd => exact .inl ⟨q, rfl⟩

/-! ## Behind the chain -/

/-- The token of the header. -/
theorem bearerMiddleware_header {J : JwtLib} {publicKey : PublicKey} {now : Int} {c : TokenClaims} :
    bearerMiddleware J publicKey now (utf8Encode (js "Bearer " ++ authToken)) = .ok c ↔
      trimSpace (utf8Encode authToken) ≠ [] ∧ verifyToken J (trimSpace (utf8Encode authToken)) publicKey now = .ok c := by
  have hheader : utf8Encode (js "Bearer " ++ authToken) = str "Bearer" ++ ascii ' ' :: utf8Encode authToken := by
    rw [utf8Encode_append]
    rfl
  rw [bearerMiddleware_ok, hheader]
  constructor
  · rintro ⟨raw, hraw, hverify⟩
    obtain ⟨scheme, rest, heq, hscheme, rfl, hne⟩ := extractBearer_eq_some.mp hraw
    -- the first space ends the scheme
    have hspace : ascii ' ' ∉ str "Bearer" := by decide
    have hsent := splitSpace_eq_some.mpr ⟨@rfl _ (str "Bearer" ++ ascii ' ' :: utf8Encode authToken), hspace⟩
    rw [splitSpace_eq_some.mpr ⟨heq, space_not_mem_scheme hscheme⟩] at hsent
    cases hsent
    exact ⟨hne, hverify⟩
  · rintro ⟨hne, hverify⟩
    exact ⟨_, extractBearer_eq_some.mpr ⟨str "Bearer", _, rfl, by decide, rfl, hne⟩, hverify⟩

variable {W : WebApi} {env : RcEnv} {ping : Option GoError} {time : ℚ} {st : WebServer} {claims : TokenClaims} {reply : Reply}

/-- The path of a call is clean and under the route; what follows the route is the method. -/
theorem methodPath_route : ∀ method ∈ webApiMethods,
    percentDecode (methodPath method) = some (methodPath method) ∧
    cleanPath (escapedPath (methodPath method) (methodPath method)) = escapedPath (methodPath method) (methodPath method) ∧
    rclonePattern.isPrefixOf (escapedPath (methodPath method) (methodPath method)) = true ∧
    rclonePrefix.isPrefixOf (methodPath method) = true ∧
    ((methodPath method).drop rclonePrefix.length).dropWhile (fun c => c = ascii '/') = str method := by
  decide +kernel

/-- What the handler makes of a call: the dispatch of its method and its parameters, if the body is within the limit. -/
theorem handlePost_request (call : WebApiCall) (urlPath : GoString) :
    (call.Fits ∧ handlePost env ((call.request authToken boundary browser).rc urlPath) (str call.rcCall.method) =
      dispatch env (str call.rcCall.method) (some (mergeMembers ∅ call.rcCall.params))) ∨
    (¬ call.Fits ∧ handlePost env ((call.request authToken boundary browser).rc urlPath) (str call.rcCall.method) =
      .writeError (str call.rcCall.method) bodyTooLarge 400) := by
  by_cases hfits : call.Fits
  · refine .inl ⟨hfits, ?_⟩
    rw [handlePost, buildParams_request hfits]
  · refine .inr ⟨hfits, ?_⟩
    rw [handlePost, buildParams_request_large hfits]

/-- A call of the service reaches its handler with its method, and nothing but the rate limit and the token stands
    before that. -/
theorem handle_serviceCall (call : WebApiCall) :
    (W.handle env ping time (call.request authToken boundary browser) st).1.reply = .rclone claims reply ↔
      Forwarded st browser time ∧
      bearerMiddleware W.jwt W.publicKey ⌊time⌋ (utf8Encode (js "Bearer " ++ authToken)) = .ok claims ∧
      handlePost env ((call.request authToken boundary browser).rc
        ((methodPath call.rcCall.method).drop rclonePrefix.length)) (str call.rcCall.method) = reply := by
  have hmethod : (call.request authToken boundary browser).method ≠ str "OPTIONS" ∧
      (call.request authToken boundary browser).method ≠ str "CONNECT" := by
    show str "POST" ≠ str "OPTIONS" ∧ str "POST" ≠ str "CONNECT"
    decide
  have hraw : (call.request authToken boundary browser).rawPath = methodPath call.rcCall.method := requestPath_url call
  obtain ⟨hdecode, hclean, hpattern, hprefixed, hpath⟩ := methodPath_route _ call.method_mem
  have hserve : serveHTTP env ((call.request authToken boundary browser).rc ((methodPath call.rcCall.method).drop rclonePrefix.length)) =
      handlePost env ((call.request authToken boundary browser).rc
        ((methodPath call.rcCall.method).drop rclonePrefix.length)) (str call.rcCall.method) := by
    have hpost : ((call.request authToken boundary browser).rc ((methodPath call.rcCall.method).drop rclonePrefix.length)).method =
        str "POST" := rfl
    rw [serveHTTP, if_pos hpost]
    show handlePost env _ (((methodPath call.rcCall.method).drop rclonePrefix.length).dropWhile _) = _
    rw [hpath]
  constructor
  · intro h
    obtain ⟨path, -, hforwarded, -, -, hbearer, -⟩ := handle_rclone.mp h
    obtain ⟨path, hdecoded, -, -, -, hreply⟩ := (handle_rclone_of_path hmethod hforwarded hbearer).mp h
    rw [hraw, hdecode] at hdecoded
    cases hdecoded
    exact ⟨hforwarded, hbearer, hserve.symm.trans hreply⟩
  · rintro ⟨hforwarded, hbearer, hreply⟩
    refine (handle_rclone_of_path hmethod hforwarded hbearer).mpr ?_
    rw [hraw]
    exact ⟨_, hdecode, hclean, hpattern, hprefixed, hserve.trans hreply⟩

/-- Every method that the service uses is allowed by the handler. -/
theorem methods_allowed : ∀ method ∈ webApiMethods, str method ∈ allowedMethods := by decide +kernel

/-- When a call starts a job, and which one. -/
theorem serviceCall_newJob (call : WebApiCall) {path : GoString} {p : Params} :
    (W.handle env ping time (call.request authToken boundary browser) st).1.reply = .rclone claims (.newJob path p) ↔
      Forwarded st browser time ∧
      (trimSpace (utf8Encode authToken) ≠ [] ∧
        verifyToken W.jwt (trimSpace (utf8Encode authToken)) W.publicKey ⌊time⌋ = .ok claims) ∧
      call.Fits ∧ path = str call.rcCall.method ∧ call.Allowed env.sections ∧
      ∃ rc, env.calls path = some rc ∧ addHandles rc (some (mergeMembers ∅ call.rcCall.params)) = some p := by
  rw [handle_serviceCall, bearerMiddleware_header]
  rcases @handlePost_request authToken boundary browser env call ((methodPath call.rcCall.method).drop rclonePrefix.length) with
    ⟨hfits, hpost⟩ | ⟨hlarge, hpost⟩
  · rw [hpost, dispatch_eq_newJob (methods_allowed _ call.method_mem), validateRCParams_rcCall]
    constructor
    · rintro ⟨hforwarded, htoken, rfl, hcall, hrc⟩
      exact ⟨hforwarded, htoken, hfits, rfl, hcall, hrc⟩
    · rintro ⟨hforwarded, htoken, -, rfl, hcall, hrc⟩
      exact ⟨hforwarded, htoken, rfl, hcall, hrc⟩
  · rw [hpost]
    constructor
    · rintro ⟨-, -, hjob⟩
      cases hjob
    · rintro ⟨-, -, hfits, -⟩
      exact absurd hfits hlarge

end

/-- **What the UI asks for is what the server starts.** For every call of the service, from any state of the server: it
    starts a job exactly when the request gets past the rate limit with a token that verifies, its body is within the
    limit, rclone has the method, every remote the call names is configured and no path of its own has a component `..`;
    the job is that method with exactly the parameters the service was given and the handles rclone asks for. Every other
    answer of the handler is a refusal of that method: 400 if the body is too large, 404 if rclone does not have the
    method, 403 if the call is not allowed. -/
theorem service_call_started (W : WebApi) (env : RcEnv) (ping : Option GoError) (time : ℚ) (authToken : JsString)
    (boundary : GoString) (browser : ServerRequest) (st : WebServer) (call : WebApiCall) (claims : TokenClaims) :
    (∀ path p, (W.handle env ping time (call.request authToken boundary browser) st).1.reply = .rclone claims (.newJob path p) ↔
      Forwarded st browser time ∧
      (trimSpace (utf8Encode authToken) ≠ [] ∧
        verifyToken W.jwt (trimSpace (utf8Encode authToken)) W.publicKey ⌊time⌋ = .ok claims) ∧
      call.Fits ∧ path = str call.rcCall.method ∧ call.Allowed env.sections ∧
      ∃ rc, env.calls path = some rc ∧ addHandles rc (some (mergeMembers ∅ call.rcCall.params)) = some p) ∧
    ∀ reply, (W.handle env ping time (call.request authToken boundary browser) st).1.reply = .rclone claims reply →
      (∃ p, reply = .newJob (str call.rcCall.method) p) ∨
      (¬ call.Fits ∧ reply = .writeError (str call.rcCall.method) bodyTooLarge 400) ∨
      (env.calls (str call.rcCall.method) = none ∧ ∃ err, reply = .writeError (str call.rcCall.method) err 404) ∨
      (¬ call.Allowed env.sections ∧ ∃ err, reply = .writeError (str call.rcCall.method) err 403) := by
  refine ⟨fun path p => serviceCall_newJob call, fun reply h => ?_⟩
  obtain ⟨-, -, hreply⟩ := (handle_serviceCall call).mp h
  rw [← hreply]
  rcases @handlePost_request authToken boundary browser env call ((methodPath call.rcCall.method).drop rclonePrefix.length) with
    ⟨-, hpost⟩ | ⟨hlarge, hpost⟩
  · rw [hpost]
    rcases @dispatch_map env _ (mergeMembers ∅ call.rcCall.params) (methods_allowed _ call.method_mem) with
      hjob | ⟨hnone, herr⟩ | ⟨hvalid, herr⟩
    · exact .inl hjob
    · exact .inr (.inr (.inl ⟨hnone, herr⟩))
    · rw [ne_eq, validateRCParams_rcCall] at hvalid
      exact .inr (.inr (.inr ⟨hvalid, herr⟩))
  · exact .inr (.inl ⟨hlarge, hpost⟩)

/-! ## The content of a file -/

/-- **The file asked for is the file served**, through the whole server: exactly when the request gets past the rate limit
    with a token that verifies and the file's address is one that reaches the handler as it is. -/
theorem file_request_served (W : WebApi) (env : RcEnv) (ping : Option GoError) (time : ℚ) (webApiEndpoint authToken remote : JsString)
    (dirPath : Option JsString) (fileName : JsString) (browser : ServerRequest) (st : WebServer) (claims : TokenClaims)
    (hbracket : ']' ∉ remote) (hpath : Components (filePath dirPath fileName)) :
    (W.handle env ping time (fetchFileContentRequest webApiEndpoint authToken remote dirPath fileName browser) st).1.reply =
        .rclone claims (.serveRemote (utf8Encode (filePath dirPath fileName)) (utf8Encode (remoteFs remote))) ↔
      Forwarded st browser time ∧
      (trimSpace (utf8Encode authToken) ≠ [] ∧
        verifyToken W.jwt (trimSpace (utf8Encode authToken)) W.publicKey ⌊time⌋ = .ok claims) ∧
      Addressable env.sections remote (filePath dirPath fileName) := by
  have haddress : apiGet env (fetchFileContentRequest webApiEndpoint authToken remote dirPath fileName browser).rawPath =
        .handled (.serveRemote (utf8Encode (filePath dirPath fileName)) (utf8Encode (remoteFs remote))) ↔
      Addressable env.sections remote (filePath dirPath fileName) := by
    show apiGet env (requestPath (List.drop _ _)) = _ ↔ _
    rw [fetchFileContentUrl_drop]
    exact ⟨Addressable.of_served hbracket hpath, Addressable.served hbracket hpath⟩
  have hget : (fetchFileContentRequest webApiEndpoint authToken remote dirPath fileName browser).method = str "GET" := rfl
  have hsame : Forwarded st (fetchFileContentRequest webApiEndpoint authToken remote dirPath fileName browser) time ↔
      Forwarded st browser time := Iff.rfl
  rw [← bearerMiddleware_header, ← haddress, ← hsame]
  constructor
  · intro h
    obtain ⟨path, -, hforwarded, -, -, hbearer, -⟩ := handle_rclone.mp h
    exact ⟨hforwarded, hbearer, (handle_get hget hforwarded hbearer).mp h⟩
  · rintro ⟨hforwarded, hbearer, hserved⟩
    exact (handle_get hget hforwarded hbearer).mpr hserved

/-- A file of a folder, asked for with the token of `sampleJwt`. -/
theorem file_request_served_sample :
    (sampleApi.handle sampleRc none 899
        (fetchFileContentRequest localEndpoint (js "jwt") (js "r") (some (js "d")) (js "a b") (samplePost [] [])) .init).1.reply =
      .rclone sampleClaims.decoded (.serveRemote (utf8Encode (js "d/a b")) (utf8Encode (remoteFs (js "r")))) := by
  have hforwarded : Forwarded .init (samplePost [] []) 899 := by with_unfolding_all rfl
  have hfloor : ⌊(899 : ℚ)⌋ = 899 := Int.floor_ofNat 899
  have htoken : trimSpace (utf8Encode (js "jwt")) ≠ [] ∧
      verifyToken sampleApi.jwt (trimSpace (utf8Encode (js "jwt"))) sampleApi.publicKey ⌊(899 : ℚ)⌋ = .ok sampleClaims.decoded := by
    rw [hfloor]
    decide
  have haddress : Addressable sampleRc.sections (js "r") (js "d/a b") := by
    refine ⟨?_, ?_, by unfold Components; decide, by decide⟩
    · rw [List.disjoint_left]
      simp [fileAddress, urlSyntax, js]
    · intro c hc
      cases hc
      decide
  exact (file_request_served sampleApi sampleRc none 899 localEndpoint (js "jwt") (js "r") (some (js "d")) (js "a b")
    (samplePost [] []) .init sampleClaims.decoded (by decide) (by unfold Components; decide)).mpr ⟨hforwarded, htoken, haddress⟩

end RCloneCloud
