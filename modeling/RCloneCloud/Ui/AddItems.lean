import RCloneCloud.Server.ServiceCalls
import RCloneCloud.Ui.DialogPaths

/-!
# `Ui.AddItems` — uploads and new folders

A folder picked on the user's disk is uploaded file by file: the directory that the browser reports for a file is joined
to the folder shown, and the server adds the file's name. Through the service and the server, each file of the picked
folder gets its own place below the folder shown, the one it has in the picked folder, and it is uploaded exactly where
the server allows that place (`folder_upload_mirrors`).

`PickedFile` is a file as a browser hands it over, with what the browser guarantees of its name and its relative path
as fields. Paths are compared by their components, so the slashes that joining puts between them do not matter. The
last part goes through `Server.ServiceCalls`: an upload has no JSON body, so the limit of `handlePost` has no say in
it.
-/

set_option autoImplicit false

namespace RCloneCloud

open Lib

/-! ## The dropdown -/

/-- A file as an input element gives it; the relative path is that of a file of a picked folder, which ends with the
    file's name, and is empty for other files. -/
structure PickedFile where
  file : BrowserFile
  webkitRelativePath : Option JsString
  named : file.name ≠ []
  plain : '/' ∉ file.name
  ends : ∀ path, webkitRelativePath = some path → path ≠ [] → (path.splitOn '/').getLast? = some file.name

/-- The path of a file below the folder that was picked; empty for a file picked on its own. -/
def getWebkitRelativePath (picked : PickedFile) : JsString := picked.webkitRelativePath.getD picked.file.name

/-- `parts.slice(0, -1).join('/')`. -/
def getTargetDirectory (webkitRelativePath : JsString) : JsString :=
  ['/'].intercalate (webkitRelativePath.splitOn '/').dropLast

/-- Joins two paths by one slash, leaving out the one that is empty. -/
def joinRemotePath (basePath childPath : JsString) : JsString :=
  if basePath.isEmpty then childPath
  else if childPath.isEmpty then basePath
  else basePath ++ '/' :: childPath

/-- The jobs that `onFileSelected` submits: only the first file is looked at. -/
def onFileSelected (remotePath : Option RemotePath) (files : List PickedFile) : List JobRequest :=
  match files.head?, remotePath with
  | some picked, some remotePath => [.uploadFile remotePath.remote remotePath.path picked.file]
  | _, _ => []

/-- The jobs that `onFolderSelected` submits. -/
def onFolderSelected (remotePath : Option RemotePath) (files : List PickedFile) : List JobRequest :=
  match remotePath with
  | none => []
  | some remotePath =>
      files.map fun picked =>
        let targetDir := getTargetDirectory (getWebkitRelativePath picked)
        .uploadFile remotePath.remote (some (joinRemotePath (remotePath.path.getD []) targetDir)) picked.file

/-- The job that `submitCreateFolder` submits. -/
def submitCreateFolder (remotePath : Option RemotePath) (newFolderName : JsString) : List JobRequest :=
  let folderName := trim newFolderName
  if folderName.isEmpty then []
  else
    match remotePath with
    | none => []
    | some remotePath => [.mkdir remotePath.remote (joinRemotePath (remotePath.path.getD []) folderName)]

/-! ## Where a job puts what it makes -/

/-- The place of the file of an upload, and of a new folder. -/
def JobRequest.place : JobRequest → List JsString
  | .uploadFile _ dirPath file => components '/' (dirPath.getD []) ++ [file.name]
  | .mkdir _ dirPath => components '/' dirPath
  | _ => []

/-- The file's path from the folder that was picked, or its name. -/
def PickedFile.relativePath (picked : PickedFile) : JsString :=
  match orUndefined picked.webkitRelativePath with
  | some path => path
  | none => picked.file.name

section
variable {remotePath : RemotePath} {picked : PickedFile}

/-- Joining paths is joining their components, whatever slashes they begin or end with. -/
theorem components_joinRemotePath (basePath childPath : JsString) :
    components '/' (joinRemotePath basePath childPath) = components '/' basePath ++ components '/' childPath := by
  unfold joinRemotePath
  split
  · next hbase => rw [List.isEmpty_iff.mp hbase, components_nil, List.nil_append]
  · split
    · next hchild => rw [List.isEmpty_iff.mp hchild, components_nil, List.append_nil]
    · exact components_append_cons '/' basePath childPath

/-- The name of a picked file is one component, since a browser gives names without slashes. -/
theorem components_name (picked : PickedFile) : components '/' picked.file.name = [picked.file.name] :=
  components_of_not_mem picked.named picked.plain

/-- A path without a separator has no directory. -/
theorem getTargetDirectory_plain {path : JsString} (h : '/' ∉ path) : getTargetDirectory path = [] := by
  unfold getTargetDirectory
  rw [List.splitOn_eq_singleton h]
  rfl

/-- **The directory of a picked file**, and its name, make up its relative path. -/
theorem components_targetDirectory (picked : PickedFile) :
    components '/' (getTargetDirectory (getWebkitRelativePath picked)) ++ [picked.file.name] =
      components '/' picked.relativePath := by
  have hplain : components '/' (getTargetDirectory picked.file.name) ++ [picked.file.name] = components '/' picked.file.name := by
    rw [getTargetDirectory_plain picked.plain, components_nil, components_name, List.nil_append]
  unfold getWebkitRelativePath PickedFile.relativePath
  cases hpath : picked.webkitRelativePath with
  | none => exact hplain
  | some path =>
      cases path with
      | nil =>
          show components '/' (getTargetDirectory []) ++ [picked.file.name] = components '/' picked.file.name
          rw [getTargetDirectory_plain List.not_mem_nil, components_nil, components_name, List.nil_append]
      | cons c rest =>
          show components '/' (getTargetDirectory (c :: rest)) ++ [picked.file.name] = components '/' (c :: rest)
          rw [components_dropLast (picked.ends _ hpath (List.cons_ne_nil c rest)), components_name]
          rfl

/-- A component is one of the pieces, and a piece that is not empty is a component. -/
theorem mem_components_iff {path name : JsString} (hne : name ≠ []) : name ∈ components '/' path ↔ name ∈ path.splitOn '/' := by
  rw [components, List.mem_filter, decide_eq_true_iff]
  exact and_iff_left hne

end

/-- The form of an upload has the file, and nothing else. -/
theorem files_uploadFile (remote dirPath : JsString) (file : BrowserFile) (authToken : JsString) (boundary : GoString)
    (browser : ServerRequest) :
    ((WebApiCall.uploadFile remote dirPath file).request authToken boundary browser).files =
      [⟨str "file", utf8Encode file.name, file.content⟩] := rfl

/-- What the server asks of an upload. -/
theorem uploadFile_allowed {sections : List GoString} {remote dirPath : JsString} {file : BrowserFile} :
    (WebApiCall.uploadFile remote dirPath file).Allowed sections ↔
      ConfiguredRemote sections remote ∧ js ".." ∉ components '/' dirPath := by
  have hdots : js ".." ≠ [] := by decide
  rw [mem_components_iff hdots]
  constructor
  · intro h
    exact ⟨h.configured _ (List.mem_singleton_self _), h.inside _ (List.mem_singleton_self _)⟩
  · rintro ⟨hconfigured, hinside⟩
    refine ⟨fun r hr => ?_, fun path hpath => ?_⟩
    · rw [List.mem_singleton.mp hr]
      exact hconfigured
    · rw [List.mem_singleton.mp hpath]
      exact hinside

/-- **A picked folder is uploaded as it is.** For every list of files picked, one upload is submitted for each, in their
    order, and its place is the folder shown with the file's relative path below it. The request of each has that file in
    its form, under its name and with its content, and the server starts it exactly when the request gets past the rate
    limit with a token that verifies, rclone has the method, the remote is configured and neither the folder shown nor the
    file's directory has a component `..`; it is started for that remote and directory, with the request as its handle. -/
theorem folder_upload_mirrors (remotePath : RemotePath) (files : List PickedFile) :
    (onFolderSelected (some remotePath) files).map JobRequest.place =
        files.map (fun picked => remotePath.folders ++ components '/' picked.relativePath) ∧
      ∀ (i : ℕ) (picked : PickedFile), files[i]? = some picked →
        ∃ dirPath, (onFolderSelected (some remotePath) files)[i]? =
            some (.uploadFile remotePath.remote (some dirPath) picked.file) ∧
          ∀ (authToken : JsString) (boundary : GoString) (browser : ServerRequest),
            ((submitJob (.uploadFile remotePath.remote (some dirPath) picked.file)).request authToken boundary browser).files =
                [⟨str "file", utf8Encode picked.file.name, picked.file.content⟩] ∧
            ∀ (W : WebApi) (env : RcEnv) (ping : Option GoError) (time : ℚ) (st : WebServer) (claims : TokenClaims)
              (path : GoString) (p : Params),
              (W.handle env ping time ((submitJob (.uploadFile remotePath.remote (some dirPath) picked.file)).request authToken
                  boundary browser) st).1.reply = .rclone claims (.newJob path p) ↔
                Forwarded st browser time ∧
                (trimSpace (utf8Encode authToken) ≠ [] ∧
                  verifyToken W.jwt (trimSpace (utf8Encode authToken)) W.publicKey ⌊time⌋ = .ok claims) ∧
                path = str "operations/uploadfile" ∧ ConfiguredRemote env.sections remotePath.remote ∧
                js ".." ∉ remotePath.folders ++ (components '/' picked.relativePath).dropLast ∧
                ∃ rc, env.calls path = some rc ∧
                  addHandles rc (some (mergeMembers ∅
                    [textMember "fs" (remoteFs remotePath.remote), textMember "remote" dirPath])) = some p := by
  constructor
  · show (files.map _).map JobRequest.place = _
    rw [List.map_map]
    refine List.map_congr_left fun picked _ => ?_
    show components '/' (joinRemotePath _ _) ++ [picked.file.name] = _
    rw [components_joinRemotePath, List.append_assoc, components_targetDirectory]
    rfl
  · intro i picked hi
    let dirPath := joinRemotePath (remotePath.path.getD []) (getTargetDirectory (getWebkitRelativePath picked))
    have hsubmitted : (onFolderSelected (some remotePath) files)[i]? =
        some (.uploadFile remotePath.remote (some dirPath) picked.file) := by
      show (files.map _)[i]? = _
      rw [List.getElem?_map, hi]
      rfl
    have hcall : submitJob (.uploadFile remotePath.remote (some dirPath) picked.file) =
        .uploadFile remotePath.remote dirPath picked.file := rfl
    -- the directory of the file, without its name
    have hdir : components '/' dirPath = remotePath.folders ++ (components '/' picked.relativePath).dropLast := by
      rw [← components_targetDirectory, List.dropLast_concat]
      exact components_joinRemotePath _ _
    refine ⟨dirPath, hsubmitted, fun authToken boundary browser => ⟨files_uploadFile _ _ _ _ _ _, ?_⟩⟩
    intro W env ping time st claims path p
    have hfits : (WebApiCall.uploadFile remotePath.remote dirPath picked.file).Fits := trivial
    have hrc : (WebApiCall.uploadFile remotePath.remote dirPath picked.file).rcCall =
        ⟨"operations/uploadfile", [textMember "fs" (remoteFs remotePath.remote), textMember "remote" dirPath]⟩ := rfl
    rw [hcall, serviceCall_newJob, uploadFile_allowed, hdir, hrc, @and_assoc (ConfiguredRemote env.sections remotePath.remote),
      and_iff_right hfits]

/-- The file `a.txt` of the picked folder `docs`. -/
def pickedDocs : PickedFile where
  file := ⟨js "a.txt", [104, 105]⟩
  webkitRelativePath := some (js "docs/a.txt")
  named := by decide
  plain := by decide
  ends := by
    intro path hpath _
    obtain rfl := Option.some_inj.mp hpath
    decide

/-- A file that was not picked with its folder. -/
def pickedAlone : PickedFile where
  file := ⟨js "b", []⟩
  webkitRelativePath := none
  named := by decide
  plain := by decide
  ends := by
    intro path hpath
    cases hpath

/-- A folder `docs` with a file in a folder of its own, and a file picked alone: both go below the folder shown. -/
theorem folder_upload_mirrors_docs :
    (onFolderSelected (some docsFolder) [pickedDocs, pickedAlone]).map JobRequest.place =
        [[js "docs", js "docs", js "a.txt"], [js "docs", js "b"]] ∧
      ∃ dirPath, (onFolderSelected (some docsFolder) [pickedDocs, pickedAlone])[0]? =
          some (.uploadFile (js "r") (some dirPath) pickedDocs.file) ∧
        ((submitJob (.uploadFile (js "r") (some dirPath) pickedDocs.file)).request (js "jwt") (str "x") (samplePost [] [])).files =
          [⟨str "file", str "a.txt", [104, 105]⟩] := by
  obtain ⟨hplaces, hfiles⟩ := folder_upload_mirrors docsFolder [pickedDocs, pickedAlone]
  obtain ⟨dirPath, hsubmitted, hrequest⟩ := hfiles 0 pickedDocs rfl
  refine ⟨?_, dirPath, hsubmitted, (hrequest (js "jwt") (str "x") (samplePost [] [])).1⟩
  rw [hplaces]
  decide

end RCloneCloud
