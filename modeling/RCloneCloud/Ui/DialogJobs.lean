import RCloneCloud.Server.ServiceCalls
import RCloneCloud.Ui.DialogPaths
import RCloneCloud.Ui.DialogStack

/-!
# `Ui.DialogJobs` — from a dialog to rclone

Every job that the dialogs submit is one that the user has confirmed in a dialog that was open for its item, and what that
dialog showed is what rclone is told: the item's path and the previewed one, both on the remote of the page. What the
server asks of it depends on the kind of item, as the paths of a folder that is moved or copied are not looked at
(`dialog_jobs_started`).

The first half is about the dialogs alone. A job is submitted only by the handlers that confirm
(`DialogPage.step_submits`), in a dialog whose request is on top and was opened for an item, which the run theorem of
`Ui.DialogStack` traces back to its opening. The second half takes the job that `submitJob` makes of it through
`Server.ServiceCalls`; the two kinds of items are told apart by `addressOf`, as a folder's path becomes part of the fs
value.
-/

set_option autoImplicit false

namespace RCloneCloud

open Lib

/-! ## What a dialog shows -/

/-- `getPreviewPath` of the dialogs that move and copy. -/
def getPreviewPath (dialog : ItemsDialog) (p : DialogPage) (destinationPath : JsString) : JsString :=
  match p.requestItem dialog with
  | none => []
  | some item => joinPath (normalizePath destinationPath) item.name

/-- **The path that the user has asked for**: the preview, or the shown folder with the new name. -/
def askedPath (dialog : ItemsDialog) (remotePath : RemotePath) (p : DialogPage) (input : JsString) : JsString :=
  match dialog with
  | .move | .copy => getPreviewPath dialog p input
  | .rename => inFolder remotePath (trim input)
  | .delete => []

/-- The job of a dialog. -/
def dialogJob (dialog : ItemsDialog) (remote : JsString) (item : ListFolderItem) (toPath : JsString) : JobRequest :=
  match dialog, item.isDir with
  | .move, true | .rename, true => .moveFolder remote item.path remote toPath
  | .move, false | .rename, false => .moveFile remote item.path remote toPath
  | .copy, true => .copyFolder remote item.path remote toPath false
  | .copy, false => .copyFile remote item.path remote toPath
  | .delete, true => .deleteFolder remote item.path
  | .delete, false => .deleteFile remote item.path

/-- The method of rclone for it. -/
def dialogMethod (dialog : ItemsDialog) (isDir : Bool) : String :=
  match dialog, isDir with
  | .move, true | .rename, true => "sync/move"
  | .move, false | .rename, false => "operations/movefile"
  | .copy, true => "sync/copy"
  | .copy, false => "operations/copyfile"
  | .delete, true => "operations/purge"
  | .delete, false => "operations/deletefile"

/-! ## What is submitted -/

section
variable {folder : Option RemotePath} {input : JsString} {p p' : DialogPage} {dialog : ItemsDialog} {item : ListFolderItem}

/-- Without a folder nothing is submitted. -/
theorem confirmDialog_none (dialog : ItemsDialog) (p : DialogPage) (input : JsString) :
    (confirmDialog dialog none p input).submitted = p.submitted := by
  cases dialog with
  | move =>
      unfold confirmDialog confirmMove
      cases p.requestItem .move <;> rfl
  | copy =>
      unfold confirmDialog confirmCopy
      cases p.requestItem .copy <;> rfl
  | rename =>
      unfold confirmDialog confirmRename
      cases p.requestItem .rename <;> rfl
  | delete =>
      unfold confirmDialog confirmDelete
      cases p.requestItem .delete <;> rfl

/-- A confirmation submits the job of its dialog, or nothing. -/
theorem confirmDialog_submits (hitem : p.requestItem dialog = some item) :
    (confirmDialog dialog folder p input).submitted = p.submitted ∨
      ∃ remotePath, folder = some remotePath ∧ (confirmDialog dialog folder p input).submitted =
        p.submitted ++ [dialogJob dialog remotePath.remote item (askedPath dialog remotePath p input)] := by
  cases folder with
  | none => exact .inl (confirmDialog_none dialog p input)
  | some remotePath =>
      obtain ⟨path, name, isDir⟩ := item
      cases dialog with
      | move =>
          refine .inr ⟨remotePath, rfl, ?_⟩
          unfold confirmDialog confirmMove askedPath getPreviewPath dialogJob
          rw [hitem]
          cases isDir <;> rfl
      | copy =>
          refine .inr ⟨remotePath, rfl, ?_⟩
          unfold confirmDialog confirmCopy askedPath getPreviewPath dialogJob
          rw [hitem]
          cases isDir <;> rfl
      | rename =>
          unfold confirmDialog confirmRename
          rw [hitem]
          dsimp only
          split
          · exact .inl rfl
          · refine .inr ⟨remotePath, rfl, ?_⟩
            unfold askedPath dialogJob
            cases isDir <;> rfl
      | delete =>
          refine .inr ⟨remotePath, rfl, ?_⟩
          unfold confirmDialog confirmDelete dialogJob
          rw [hitem]
          cases isDir <;> rfl

/-- The confirm button of a dialog runs its handler, and so does the key. -/
theorem items_template (dialog : ItemsDialog) (item : ListFolderItem) :
    (∀ path, (DialogRequest.items dialog item).template.confirm = some path →
      click folder input path p = confirmDialog dialog folder p input) ∧
    ∀ handler, (DialogRequest.items dialog item).template.enter = some handler →
      handler.run folder input p = confirmDialog dialog folder p input := by
  cases dialog with
  | delete =>
      refine ⟨fun path h => ?_, fun handler h => ?_⟩
      · cases h
        rfl
      · cases h
  | _ =>
      refine ⟨fun path h => ?_, fun handler h => ?_⟩
      · cases h
        rfl
      · cases h
        rfl

/-- Where the page shows no folder, no click submits a job. -/
theorem click_none_submitted (path : Bubble) : (click none input path p).submitted = p.submitted := by
  unfold click
  generalize path.reduceOption = handlers
  induction handlers generalizing p with
  | nil => rfl
  | cons handler rest ih =>
      have hrun : (handler.run none input p).submitted = p.submitted := by
        cases handler with
        | closeDialog => rfl
        | confirmMove => exact confirmDialog_none .move p input
        | confirmCopy => exact confirmDialog_none .copy p input
        | confirmRename => exact confirmDialog_none .rename p input
        | confirmDelete => exact confirmDialog_none .delete p input
      exact ih.trans hrun

/-- The dialog on top shows its item. -/
theorem requestItem_of_top {ref : Nat} (htop : p.dialogs.requests.getLast? = some ⟨ref, .items dialog item⟩) :
    p.requestItem dialog = some item := by
  simp [DialogPage.requestItem, selectTopDialogRequest, htop, DialogRequest.ctor]

/-- An item that a dialog shows is the item of the request on top. -/
theorem top_of_requestItem (hitem : p.requestItem dialog = some item) :
    ∃ ref, p.dialogs.requests.getLast? = some ⟨ref, .items dialog item⟩ := by
  unfold DialogPage.requestItem selectTopDialogRequest at hitem
  split at hitem
  · next ref dialog' item' h =>
      split at h
      · next r htop =>
          split at h
          · next hctor =>
              cases h
              cases hctor
              cases hitem
              exact ⟨ref, htop⟩
          · cases h
      · cases h
  · cases hitem

/-- The user confirms a dialog of a page that shows this folder. -/
def UserAction.Confirms (action : UserAction) (remotePath : RemotePath) (input : JsString) : Prop :=
  action = .confirm (some remotePath) input ∨ action = .confirmByEnter (some remotePath) input

/-- **One step**: a job that is submitted is that of the dialog on top, which the user confirms. -/
theorem DialogPage.step_submits {action : UserAction} (h : p.step action = some p') :
    p'.submitted = p.submitted ∨ ∃ dialog item remotePath input, action.Confirms remotePath input ∧
      p.requestItem dialog = some item ∧
      p'.submitted = p.submitted ++ [dialogJob dialog remotePath.remote item (askedPath dialog remotePath p input)] := by
  -- whatever is bound to confirming runs the one handler of the dialog on top
  have hconfirmed : ∀ {folder : Option RemotePath} {input : JsString} {r : RequestObject} {dialog item},
      r.value = .items dialog item → p.dialogs.requests.getLast? = some r → p' = confirmDialog dialog folder p input →
      p'.submitted = p.submitted ∨ ∃ remotePath, folder = some remotePath ∧ p.requestItem dialog = some item ∧
        p'.submitted = p.submitted ++ [dialogJob dialog remotePath.remote item (askedPath dialog remotePath p input)] := by
    rintro folder input ⟨ref, value⟩ dialog item rfl htop rfl
    have hitem := requestItem_of_top htop
    have hsubmits : (confirmDialog dialog folder p input).submitted = p.submitted ∨ _ := confirmDialog_submits hitem
    rcases hsubmits with hnone | ⟨remotePath, rfl, hjob⟩
    · exact .inl hnone
    · exact .inr ⟨remotePath, rfl, hitem, hjob⟩
  cases action with
  | openDialog request =>
      cases h
      exact .inl rfl
  | confirm folder input =>
      obtain ⟨template, htemplate, h⟩ := Option.bind_eq_some_iff.mp h
      obtain ⟨r, htop, rfl⟩ := Option.map_eq_some_iff.mp htemplate
      split at h
      · cases h
      · obtain ⟨path, hpath, rfl⟩ := Option.map_eq_some_iff.mp h
        cases hvalue : r.value with
        -- the file viewer has nothing to confirm
        | fileViewer remote dirPath fileName mimeType =>
            rw [hvalue] at hpath
            cases hpath
        | items dialog item =>
            rw [hvalue] at hpath
            rcases hconfirmed hvalue htop ((items_template dialog item).1 path hpath) with hnone | ⟨remotePath, rfl, hjob⟩
            · exact .inl hnone
            · exact .inr ⟨dialog, item, remotePath, input, .inl rfl, hjob⟩
  | confirmByEnter folder input =>
      obtain ⟨template, htemplate, h⟩ := Option.bind_eq_some_iff.mp h
      obtain ⟨r, htop, rfl⟩ := Option.map_eq_some_iff.mp htemplate
      obtain ⟨handler, hhandler, rfl⟩ := Option.map_eq_some_iff.mp h
      cases hvalue : r.value with
      | fileViewer remote dirPath fileName mimeType =>
          rw [hvalue] at hhandler
          cases hhandler
      | items dialog item =>
          rw [hvalue] at hhandler
          rcases hconfirmed hvalue htop ((items_template dialog item).2 handler hhandler) with hnone | ⟨remotePath, rfl, hjob⟩
          · exact .inl hnone
          · exact .inr ⟨dialog, item, remotePath, input, .inr rfl, hjob⟩
  -- the other actions run handlers that submit nothing
  | cancel =>
      obtain ⟨template, -, rfl⟩ := Option.map_eq_some_iff.mp h
      exact .inl (click_none_submitted _)
  | clickBackdrop onButton =>
      obtain ⟨template, -, rfl⟩ := Option.map_eq_some_iff.mp h
      exact .inl (click_none_submitted _)
  | pressEscape =>
      obtain ⟨template, -, rfl⟩ := Option.map_eq_some_iff.mp h
      exact .inl rfl

end

/-! ## Runs -/

/-- **The `i`-th job was confirmed**: in a dialog that was opened for the item and was on top, on a page that showed the
    remote; `toPath` is the path that the user asked for there. -/
def ConfirmedAs (actions : List UserAction) (i : ℕ) (dialog : ItemsDialog) (item : ListFolderItem) (remote toPath : JsString) : Prop :=
  ∃ earlier action later q remotePath input, actions = earlier ++ action :: later ∧
    run DialogPage.step .initial earlier = some q ∧ q.submitted.length = i ∧ action.Confirms remotePath input ∧
    .openDialog (.items dialog item) ∈ earlier ∧ q.requestItem dialog = some item ∧ remote = remotePath.remote ∧
    toPath = askedPath dialog remotePath q input

section
variable {actions : List UserAction} {p : DialogPage} {i : ℕ} {dialog : ItemsDialog} {item : ListFolderItem}
  {remote toPath : JsString}

/-- What was confirmed stays so as the user goes on. -/
theorem ConfirmedAs.append (h : ConfirmedAs actions i dialog item remote toPath) (a : UserAction) :
    ConfirmedAs (actions ++ [a]) i dialog item remote toPath := by
  obtain ⟨earlier, action, later, q, remotePath, input, rfl, hrest⟩ := h
  exact ⟨earlier, action, later ++ [a], q, remotePath, input, by simp, hrest⟩

/-- A dialog that shows an item has been opened for it. -/
theorem opened_of_requestItem (hrun : run DialogPage.step .initial actions = some p) (hitem : p.requestItem dialog = some item) :
    .openDialog (.items dialog item) ∈ actions := by
  obtain ⟨ref, htop⟩ := top_of_requestItem hitem
  obtain ⟨below, hstack⟩ := List.getLast?_eq_some_iff.mp htop
  obtain ⟨earlier, later, -, rfl, -⟩ := openedOn_of_run hrun below ⟨ref, .items dialog item⟩ [] hstack
  exact List.mem_append_right _ List.mem_cons_self

/-- **The run**: every job has its confirmation. -/
theorem submitted_confirmed (hrun : run DialogPage.step .initial actions = some p) :
    ∀ (i : ℕ) (request : JobRequest), p.submitted[i]? = some request → ∃ dialog item remote toPath,
      ConfirmedAs actions i dialog item remote toPath ∧ request = dialogJob dialog remote item toPath := by
  refine (run_beginnings (C := fun _ => True) (I := fun actions p => run DialogPage.step .initial actions = some p ∧
    ∀ (i : ℕ) (request : JobRequest), p.submitted[i]? = some request → ∃ dialog item remote toPath,
      ConfirmedAs actions i dialog item remote toPath ∧ request = dialogJob dialog remote item toPath)
    (fun _ _ _ => trivial) ⟨rfl, fun i request h => by simp [DialogPage.initial] at h⟩ ?_ trivial hrun).2
  rintro actions a p p' - ⟨hrun, ih⟩ hstep
  refine ⟨run_append.mpr ⟨p, hrun, run_cons.mpr ⟨p', hstep, rfl⟩⟩, fun i request hi => ?_⟩
  -- what was submitted before was confirmed before
  have hold : p.submitted[i]? = some request → ∃ dialog item remote toPath,
      ConfirmedAs (actions ++ [a]) i dialog item remote toPath ∧ request = dialogJob dialog remote item toPath := by
    intro hi
    obtain ⟨dialog, item, remote, toPath, hconfirmed, hrequest⟩ := ih i request hi
    exact ⟨dialog, item, remote, toPath, hconfirmed.append a, hrequest⟩
  rcases DialogPage.step_submits hstep with hsame | ⟨dialog, item, remotePath, input, hconfirms, hitem, hnew⟩
  · rw [hsame] at hi
    exact hold hi
  · rw [hnew] at hi
    rcases lt_or_ge i p.submitted.length with hlt | hge
    · rw [List.getElem?_append_left hlt] at hi
      exact hold hi
    · rw [List.getElem?_append_right hge, List.getElem?_singleton] at hi
      split at hi
      -- the last job is the one just confirmed
      · next hlast =>
          refine ⟨dialog, item, remotePath.remote, askedPath dialog remotePath p input, ?_, (Option.some_inj.mp hi).symm⟩
          exact ⟨actions, a, [], p, remotePath, input, rfl, hrun, by omega, hconfirms, opened_of_requestItem hrun hitem, hitem,
            rfl, rfl⟩
      · cases hi

/-! ## What rclone is told -/

/-- The address that two parameters name: an fs value, and the path after it if there is one. -/
def addressOf (members : List (GoString × Json)) (fs remote : GoString) : GoString :=
  (memberText members fs).getD [] ++ (memberText members remote).getD []

/-- The addresses of a job of a dialog: the item's, and the one asked for. -/
def NamesPlaces (dialog : ItemsDialog) (remote fromPath toPath : JsString) (members : List (GoString × Json)) : Prop :=
  match dialog with
  | .delete => addressOf members (str "fs") (str "remote") = utf8Encode (remoteFs remote ++ fromPath)
  | _ => addressOf members (str "srcFs") (str "srcRemote") = utf8Encode (remoteFs remote ++ fromPath) ∧
      addressOf members (str "dstFs") (str "dstRemote") = utf8Encode (remoteFs remote ++ toPath)

/-- What the server asks of a job of a dialog: the paths of a folder that is moved or copied are not looked at. -/
structure DialogAllowed (sections : List GoString) (dialog : ItemsDialog) (remote : JsString) (item : ListFolderItem)
    (toPath : JsString) : Prop where
  configured : ConfiguredRemote sections remote
  inside : dialog = .delete ∨ item.isDir = false → js ".." ∉ item.path.splitOn '/'
  lands : dialog ≠ .delete → item.isDir = false → js ".." ∉ toPath.splitOn '/'

/-- The job of a dialog is called by the method for its kind of item. -/
theorem dialogJob_method (dialog : ItemsDialog) (remote : JsString) (item : ListFolderItem) (toPath : JsString) :
    (submitJob (dialogJob dialog remote item toPath)).rcCall.method = dialogMethod dialog item.isDir := by
  obtain ⟨path, name, isDir⟩ := item
  cases dialog <;> cases isDir <;> rfl

/-- **A folder and a file are named alike**, however the parameters are cut. -/
theorem dialogJob_names (dialog : ItemsDialog) (remote : JsString) (item : ListFolderItem) (toPath : JsString) :
    NamesPlaces dialog remote item.path toPath (submitJob (dialogJob dialog remote item toPath)).rcCall.params := by
  have hfile : ∀ path : JsString, utf8Encode (remoteFs remote) ++ utf8Encode path = utf8Encode (remoteFs remote ++ path) :=
    fun path => (utf8Encode_append _ _).symm
  have hfolder : ∀ path : JsString, utf8Encode (folderFs remote path) ++ [] = utf8Encode (remoteFs remote ++ path) := by
    intro path
    rw [List.append_nil, folderFs, remoteFs, List.append_assoc, List.singleton_append]
  obtain ⟨path, name, isDir⟩ := item
  cases dialog with
  | delete => cases isDir <;> exact hfile path
  | _ =>
      cases isDir
      · exact ⟨hfile path, hfile toPath⟩
      · exact ⟨hfolder path, hfolder toPath⟩

/-- The remotes that a job of a dialog names. -/
theorem mem_dialogJob_remotes {r : JsString} : r ∈ (submitJob (dialogJob dialog remote item toPath)).remotes ↔ r = remote := by
  obtain ⟨path, name, isDir⟩ := item
  cases dialog <;> cases isDir <;> simp [dialogJob, submitJob, WebApiCall.remotes]

/-- The paths of it that stand alone. -/
theorem mem_dialogJob_paths {path : JsString} : path ∈ (submitJob (dialogJob dialog remote item toPath)).paths ↔
    ((dialog = .delete ∨ item.isDir = false) ∧ path = item.path) ∨ (dialog ≠ .delete ∧ item.isDir = false ∧ path = toPath) := by
  obtain ⟨itemPath, name, isDir⟩ := item
  cases dialog <;> cases isDir <;> simp [dialogJob, submitJob, WebApiCall.paths]

/-- What the server asks of the job, in the dialog's terms. -/
theorem dialogJob_allowed {sections : List GoString} :
    (submitJob (dialogJob dialog remote item toPath)).Allowed sections ↔ DialogAllowed sections dialog remote item toPath := by
  constructor
  · intro h
    refine ⟨h.configured remote (mem_dialogJob_remotes.mpr rfl), fun hlooked => ?_, fun hdialog hfile => ?_⟩
    · exact h.inside item.path (mem_dialogJob_paths.mpr (.inl ⟨hlooked, rfl⟩))
    · exact h.inside toPath (mem_dialogJob_paths.mpr (.inr ⟨hdialog, hfile, rfl⟩))
  · intro h
    refine ⟨fun r hr => ?_, fun path hpath => ?_⟩
    · rw [mem_dialogJob_remotes.mp hr]
      exact h.configured
    · rcases mem_dialogJob_paths.mp hpath with ⟨hlooked, rfl⟩ | ⟨hdialog, hfile, rfl⟩
      · exact h.inside hlooked
      · exact h.lands hdialog hfile

end

/-- **What a dialog shows is what rclone is told.** In every run of the dialogs, every job submitted was confirmed by an
    action of its own, in a dialog on top that had been opened for the item. Its parameters name the item's path and the
    path asked for, on the remote of the page. And the server starts it, from any state, exactly when the request gets past
    the rate limit with a token that verifies, its body is within the limit of `handlePost`, rclone has the method, the
    remote is configured and no path that is looked at has a component `..`. -/
theorem dialog_jobs_started {actions : List UserAction} {p : DialogPage} {i : ℕ} {request : JobRequest}
    (hrun : run DialogPage.step .initial actions = some p) (hi : p.submitted[i]? = some request) :
    ∃ dialog item remote toPath, ConfirmedAs actions i dialog item remote toPath ∧
      NamesPlaces dialog remote item.path toPath (submitJob request).rcCall.params ∧
      ∀ (W : WebApi) (env : RcEnv) (ping : Option GoError) (time : ℚ) (authToken : JsString) (boundary : GoString)
        (browser : ServerRequest) (st : WebServer) (claims : TokenClaims) (path : GoString) (params : Params),
        (W.handle env ping time ((submitJob request).request authToken boundary browser) st).1.reply =
            .rclone claims (.newJob path params) ↔
          Forwarded st browser time ∧
          (trimSpace (utf8Encode authToken) ≠ [] ∧
            verifyToken W.jwt (trimSpace (utf8Encode authToken)) W.publicKey ⌊time⌋ = .ok claims) ∧
          (submitJob request).Fits ∧ path = str (dialogMethod dialog item.isDir) ∧
          DialogAllowed env.sections dialog remote item toPath ∧
          ∃ rc, env.calls path = some rc ∧ addHandles rc (some (mergeMembers ∅ (submitJob request).rcCall.params)) = some params := by
  obtain ⟨dialog, item, remote, toPath, hconfirmed, rfl⟩ := submitted_confirmed hrun i request hi
  refine ⟨dialog, item, remote, toPath, hconfirmed, dialogJob_names dialog remote item toPath, ?_⟩
  intro W env ping time authToken boundary browser st claims path params
  rw [serviceCall_newJob, dialogJob_method, dialogJob_allowed]

/-- A file is moved. -/
def sampleMove : List UserAction :=
  [.openDialog (moveItemsDialogRequest docsFile), .confirm (some docsFolder) (js " /backup/ ")]

/-- A move that is opened, previewed and confirmed. -/
theorem dialog_jobs_started_move : ∃ p dialog item remote toPath, run DialogPage.step .initial sampleMove = some p ∧
    p.submitted[0]? = some (.moveFile (js "r") (js "docs/a.txt") (js "r") (js "/backup/a.txt")) ∧
    ConfirmedAs sampleMove 0 dialog item remote toPath ∧
    NamesPlaces dialog remote item.path toPath
      (submitJob (.moveFile (js "r") (js "docs/a.txt") (js "r") (js "/backup/a.txt"))).rcCall.params := by
  obtain ⟨p, hrun, hjob⟩ : ∃ p, run DialogPage.step .initial sampleMove = some p ∧
      p.submitted[0]? = some (.moveFile (js "r") (js "docs/a.txt") (js "r") (js "/backup/a.txt")) := ⟨_, rfl, by decide⟩
  obtain ⟨dialog, item, remote, toPath, hconfirmed, hnames, -⟩ := dialog_jobs_started hrun hjob
  exact ⟨p, dialog, item, remote, toPath, hrun, hjob, hconfirmed, hnames⟩

end RCloneCloud
