import RCloneCloud.Ui.FileAddress
import RCloneCloud.Ui.JobState
import RCloneCloud.Server.Pipeline
import RCloneCloud.Ui.QueryUrl

/-!
# `Ui.WebApiService` — the requests of the UI

Every call of the service is a POST with a JSON body, but for the upload, whose parameters stand in the query and whose
body is a form, and the content of a file, which is a GET. The path and the query are what the browser makes of the
url; the address of the sender, the origin and the cookies are the browser's own.

A JSON body is decided by its text: `stringify` writes it as `JSON.stringify` does, for its length, and
`maxBytesReader` lets the server read the first ten megabytes of it. Of a body that fits the server's decoder reads
the value back; the decoder fails on one that does not, as the closing brace is its last byte. An upload is a form
with the file in it, whose length nobody limits here (`Fits`).
-/

set_option autoImplicit false

namespace RCloneCloud

open Lib

/-! ## The calls -/

/-- A member of a body that is a text. -/
def textMember (key : String) (s : JsString) : GoString × Json := (str key, .string (utf8Encode s))

/-- `${remote}:`. -/
def remoteFs (remote : JsString) : JsString := remote ++ [':']

/-- `${remote}:${path}`. -/
def folderFs (remote path : JsString) : JsString := remote ++ ':' :: path

/-- What `JSON.stringify` writes for a byte of a text; the bytes of a character beyond ASCII stay as they are. -/
def jsonEscape (b : UInt8) : GoString :=
  if b = ascii '"' then str "\\\""
  else if b = ascii '\\' then str "\\\\"
  else if b = 8 then str "\\b"
  else if b = 9 then str "\\t"
  else if b = 10 then str "\\n"
  else if b = 12 then str "\\f"
  else if b = 13 then str "\\r"
  else if b < 32 then str "\\u00" ++ [AuthHandler.hexDigit (b / 16), AuthHandler.hexDigit (b % 16)]
  else [b]

/-- A text between quotation marks. -/
def quoted (s : GoString) : GoString := ascii '"' :: (s.flatMap jsonEscape ++ [ascii '"'])

mutual

/-- `JSON.stringify`, in UTF-8. -/
def stringify : Json → GoString
  | .null => str "null"
  | .bool b => if b then str "true" else str "false"
  | .number text => text
  | .string s => quoted s
  | .array items => ascii '[' :: (stringifyItems items ++ [ascii ']'])
  | .object members => ascii '{' :: (stringifyMembers members ++ [ascii '}'])

/-- The items of an array, with commas between them. -/
def stringifyItems : List Json → GoString
  | [] => []
  | [item] => stringify item
  | item :: next :: rest => stringify item ++ ascii ',' :: stringifyItems (next :: rest)

/-- The members of an object, with commas between them. -/
def stringifyMembers : List (GoString × Json) → GoString
  | [] => []
  | [(key, value)] => quoted key ++ ascii ':' :: stringify value
  | (key, value) :: next :: rest =>
      quoted key ++ ascii ':' :: (stringify value ++ ascii ',' :: stringifyMembers (next :: rest))

end

/-- `10<<20`, the limit of `handlePost`. -/
def bodyLimit : ℕ := 10 * 2 ^ 20

/-- What the decoder behind `http.MaxBytesReader` reads of a text that is a JSON object: its last byte ends the value,
    so a text that is longer than the limit is never read to its end. -/
def maxBytesReader (text : GoString) (value : Json) : Body :=
  if text.length ≤ bodyLimit then .value value else .failed (.external (str "http: request body too large"))

/-- A body within the limit is read as its value. -/
theorem maxBytesReader_fits {text : GoString} (h : text.length ≤ bodyLimit) (value : Json) :
    maxBytesReader text value = .value value := if_pos h

/-- A body over the limit is an error of the reader. -/
theorem maxBytesReader_large {text : GoString} (h : ¬ text.length ≤ bodyLimit) (value : Json) :
    maxBytesReader text value = .failed (.external (str "http: request body too large")) := if_neg h

/-- A method of rclone, and its parameters. -/
structure RcCall where
  method : String
  params : List (GoString × Json)

/-- A call of a method of `WebApiService`, but for `fetchFileContent`. -/
inductive WebApiCall where
  | getJobStatus (jobId : JsString)
  | uploadFile (remote dirPath : JsString) (file : BrowserFile)
  | mkdirAsync (remote dirPath : JsString)
  | listFolder (remote path : JsString)
  | listRemoteUsage (remote : JsString)
  | listRemotes
  | deleteFileAsync (remote path : JsString)
  | deleteFolderAsync (remote path : JsString)
  | moveFileAsync (fromRemote fromPath toRemote toPath : JsString)
  | moveFolderAsync (fromRemote fromPath toRemote toPath : JsString)
  | copyFolderAsync (fromRemote fromPath toRemote toPath : JsString) (createEmptySrcDirs : Bool)
  | copyFileAsync (fromRemote fromPath toRemote toPath : JsString)

namespace WebApiCall

/-- What is asked of rclone. -/
def rcCall : WebApiCall → RcCall
  | getJobStatus jobId => ⟨"job/status", [textMember "jobid" jobId]⟩
  | uploadFile remote dirPath _ =>
      ⟨"operations/uploadfile", [textMember "fs" (remoteFs remote), textMember "remote" dirPath]⟩
  | mkdirAsync remote dirPath =>
      ⟨"operations/mkdir",
        [textMember "fs" (remoteFs remote), textMember "remote" dirPath, (str "_async", .bool true)]⟩
  | listFolder remote path =>
      ⟨"operations/list",
        [textMember "fs" (remoteFs remote), textMember "remote" path,
          (str "opt", .object [(str "recurse", .bool false)])]⟩
  | listRemoteUsage remote => ⟨"operations/about", [textMember "fs" (remoteFs remote)]⟩
  | listRemotes => ⟨"config/listremotes", []⟩
  | deleteFileAsync remote path =>
      ⟨"operations/deletefile",
        [textMember "fs" (remoteFs remote), textMember "remote" path, (str "_async", .bool true)]⟩
  | deleteFolderAsync remote path =>
      ⟨"operations/purge", [textMember "fs" (remoteFs remote), textMember "remote" path, (str "_async", .bool true)]⟩
  | moveFileAsync fromRemote fromPath toRemote toPath =>
      ⟨"operations/movefile",
        [textMember "srcFs" (remoteFs fromRemote), textMember "srcRemote" fromPath,
          textMember "dstFs" (remoteFs toRemote), textMember "dstRemote" toPath, (str "_async", .bool true)]⟩
  | moveFolderAsync fromRemote fromPath toRemote toPath =>
      ⟨"sync/move",
        [textMember "srcFs" (folderFs fromRemote fromPath), textMember "dstFs" (folderFs toRemote toPath),
          (str "_async", .bool true)]⟩
  | copyFolderAsync fromRemote fromPath toRemote toPath createEmptySrcDirs =>
      ⟨"sync/copy",
        [textMember "srcFs" (folderFs fromRemote fromPath), textMember "dstFs" (folderFs toRemote toPath),
          (str "createEmptySrcDirs", .bool createEmptySrcDirs), (str "_async", .bool true)]⟩
  | copyFileAsync fromRemote fromPath toRemote toPath =>
      ⟨"operations/copyfile",
        [textMember "srcFs" (remoteFs fromRemote), textMember "srcRemote" fromPath,
          textMember "dstFs" (remoteFs toRemote), textMember "dstRemote" toPath, (str "_async", .bool true)]⟩

/-- The url after the endpoint, which is an origin. -/
def url : WebApiCall → JsString
  | uploadFile remote dirPath _ =>
      js "/api/v1/rclone/operations/uploadfile" ++ js "?fs=" ++ encodeURIComponent (remoteFs remote) ++
        js "&remote=" ++ encodeURIComponent dirPath
  | call => js "/api/v1/rclone/" ++ js call.rcCall.method

/-- The texts of a JSON body are in UTF-8, and the server reads no more than `bodyLimit` bytes of them. -/
def jsonBody (call : WebApiCall) : GoString := stringify (.object call.rcCall.params)

/-- The request as the server receives it. The form of an upload has a boundary of the browser's choice and the file in
    the field `file`, and its body is no JSON value; that of any other call is read up to the limit. -/
def request (authToken : JsString) (boundary : GoString) (browser : ServerRequest) (call : WebApiCall) : ServerRequest :=
  { browser with
    method := str "POST"
    rawPath := requestPath call.url
    query := parseQuery (requestQuery call.url)
    authorization := utf8Encode (js "Bearer " ++ authToken)
    contentType :=
      match call with
      | uploadFile .. => str "multipart/form-data; boundary=" ++ boundary
      | _ => str "application/json"
    mediaType :=
      match call with
      | uploadFile .. => .ok (str "multipart/form-data", (∅ : GoMap GoString).insert (str "boundary") boundary)
      | _ => .ok (str "application/json", ∅)
    body :=
      match call with
      | uploadFile .. => browser.body
      | _ => maxBytesReader call.jsonBody (.object call.rcCall.params)
    files :=
      match call with
      | uploadFile _ _ file => [⟨str "file", utf8Encode file.name, file.content⟩]
      | _ => [] }

/-- The body is within the limit, which is none for a form. -/
def Fits : WebApiCall → Prop
  | uploadFile .. => True
  | call => call.jsonBody.length ≤ bodyLimit

end WebApiCall

/-- The request of `fetchFileContent`; the endpoint is an origin. -/
def fetchFileContentRequest (webApiEndpoint authToken remote : JsString) (dirPath : Option JsString) (fileName : JsString)
    (browser : ServerRequest) : ServerRequest :=
  { browser with
    method := str "GET"
    rawPath := requestPath ((fetchFileContentUrl webApiEndpoint remote dirPath fileName).drop webApiEndpoint.length)
    query := parseQuery (requestQuery ((fetchFileContentUrl webApiEndpoint remote dirPath fileName).drop webApiEndpoint.length))
    authorization := utf8Encode (js "Bearer " ++ authToken)
    contentType := [] }

/-- `JobsEffects.submitJob`, and the upload of `submitJob$`. -/
def submitJob : JobRequest → WebApiCall
  | .uploadFile remote dirPath file => .uploadFile remote (dirPath.getD []) file
  | .deleteFile remote path => .deleteFileAsync remote path
  | .deleteFolder remote path => .deleteFolderAsync remote path
  | .moveFile fromRemote fromPath toRemote toPath => .moveFileAsync fromRemote fromPath toRemote toPath
  | .moveFolder fromRemote fromPath toRemote toPath => .moveFolderAsync fromRemote fromPath toRemote toPath
  | .copyFile fromRemote fromPath toRemote toPath => .copyFileAsync fromRemote fromPath toRemote toPath
  | .copyFolder fromRemote fromPath toRemote toPath createEmptySrcDirs =>
      .copyFolderAsync fromRemote fromPath toRemote toPath createEmptySrcDirs
  | .mkdir remote dirPath => .mkdirAsync remote dirPath

/-! ## What reaches the server of a url -/

/-- The methods of rclone that the service calls. -/
def webApiMethods : List String :=
  ["job/status", "operations/uploadfile", "operations/mkdir", "operations/list", "operations/about",
    "config/listremotes", "operations/deletefile", "operations/purge", "operations/movefile", "sync/move", "sync/copy",
    "operations/copyfile"]

/-- Every call is one of the service's methods. -/
theorem WebApiCall.method_mem (call : WebApiCall) : call.rcCall.method ∈ webApiMethods := by
  cases call <;> simp [WebApiCall.rcCall, webApiMethods]

/-! ## The upload -/

section
variable (remote dirPath : JsString)

/-- The path of an upload's url. -/
def uploadPath : JsString := js "/api/v1/rclone/operations/uploadfile"

/-- The pairs of an upload's query. -/
def uploadPairs : List (JsString × JsString) := [(js "fs", remoteFs remote), (js "remote", dirPath)]

/-- The url of an upload is the path of its method and its query. -/
theorem url_uploadFile (file : BrowserFile) : (WebApiCall.uploadFile remote dirPath file).url = uploadPath ++ '?' :: queryOf (uploadPairs remote dirPath) := by
  have hcut : js "?fs=" = '?' :: (encodeURIComponent (js "fs") ++ ['=']) := by decide +kernel
  have hremote : js "&remote=" = '&' :: (encodeURIComponent (js "remote") ++ ['=']) := by decide +kernel
  have hjoin : ∀ first second : JsString, ['&'].intercalate [first, second] = first ++ '&' :: second := by
    intro first second
    simp [List.intercalate]
  simp only [WebApiCall.url, uploadPath, queryOf, uploadPairs, List.map_cons, List.map_nil, hjoin, hcut, hremote,
    List.append_assoc, List.cons_append, List.nil_append]

/-- The path of the upload is plain. -/
theorem plain_uploadPath : PlainText uploadPath := by
  have hall : uploadPath.all (fun c => decide (' ' < c ∧ c ≠ '#' ∧ c ≠ '?')) = true := by decide +kernel
  intro c hc
  exact of_decide_eq_true (List.all_eq_true.mp hall c hc)

end

/-! ## The path and the query of every call -/

/-- The path of a method under the route. -/
def methodPath (method : String) : GoString := str "/api/v1/rclone/" ++ str method

/-- The browser requests the path of the method, with or without a query behind it. -/
theorem requestPath_url (call : WebApiCall) : requestPath call.url = methodPath call.rcCall.method := by
  have hall : ∀ method ∈ webApiMethods, requestPath (js "/api/v1/rclone/" ++ js method) = methodPath method := by
    decide +kernel
  have hrc := hall _ call.method_mem
  cases call with
  | uploadFile remote dirPath file =>
      have hpath : pathText uploadPath = uploadPath := by decide +kernel
      have hsame : requestPath (WebApiCall.uploadFile remote dirPath file).url = requestPath uploadPath := by
        rw [url_uploadFile, requestPath, requestPath, parsePath, parsePath, pathText_append plain_uploadPath (plain_queryOf _), hpath]
      have hroute : uploadPath = js "/api/v1/rclone/" ++ js "operations/uploadfile" := by decide +kernel
      rw [hsame, hroute]
      exact hrc
  | _ => exact hrc

/-- The upload sends its two texts in the query, and the others send nothing there. -/
theorem parseQuery_url (call : WebApiCall) : parseQuery (requestQuery call.url) =
    match call with
    | .uploadFile remote dirPath _ =>
        Values.add (Values.add ∅ (str "fs") (utf8Encode (remoteFs remote))) (str "remote") (utf8Encode dirPath)
    | _ => ∅ := by
  have hall : ∀ method ∈ webApiMethods, queryText (js "/api/v1/rclone/" ++ js method) = [] := by decide +kernel
  have hrc := hall _ call.method_mem
  cases call with
  | uploadFile remote dirPath file =>
      rw [url_uploadFile, parseQuery_queryOf plain_uploadPath]
      rfl
  | _ =>
      show parseQuery (requestQuery (js "/api/v1/rclone/" ++ js _)) = ∅
      rw [requestQuery, hrc]
      rfl

end RCloneCloud
