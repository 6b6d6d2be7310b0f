import RCloneCloud.Ui.Dialogs
import RCloneCloud.Lib.Signal

/-!
# `Ui.FileViewer` — what the file viewer shows

The component holds the current request in a plain field, the store the content in a signal. The details
are computed from both, but anew only when the content has changed, and where there is no current request
the content's result is handed on as it is. `fileViewer_complete_iff`: every success shown consists of full
details of one request, exactly if no success arrives, or is left unread, while the viewer is closed or
covered.

Two things that are read at different times make up what is shown: the store's signal and the component's own field.
`Lib.Signal` says when the computed value is kept. `Consistent` is the invariant: the content and the fetch that runs
are for the current request, if there is one, and nothing kept is newer than the content; `InTime` the condition on
one event, and `step_showsComplete` the step lemma, with one lemma below it for each kind of event. Object urls are
numbered as they are created, so that a url shown can be seen to be one that was created for the very blob.
-/

set_option autoImplicit false

namespace RCloneCloud

open Lib

variable {Blob : Type}

/-! ## The store of the contents -/

/-- A `FileViewerRequest` object. -/
structure FileViewerRequest where
  ref : Nat
  remote : JsString
  dirPath : Option JsString
  fileName : JsString
  mimeType : JsString
deriving DecidableEq

/-- `selectTopDialogRequest(FileViewerRequest)`. -/
def selectFileViewerRequest (state : DialogState) : Option FileViewerRequest :=
  match selectTopDialogRequest .fileViewer state with
  | some ⟨ref, .fileViewer remote dirPath fileName mimeType⟩ => some ⟨ref, remote, dirPath, fileName, mimeType⟩
  | _ => none

/-- What `toResult` makes of a fetch. -/
inductive FetchResult (Blob : Type) where
  | pending
  | success (blob : Blob)
  | failure (error : JsError)

/-- What the store makes of the outcome of a fetch. -/
def FetchResult.toResult : FetchResult Blob → Result Blob
  | .pending => toPending
  | .success blob => toSuccess blob
  | .failure error => toFailure error

/-- The signal with the content, the fetch that is subscribed to, and what was fetched for whom. -/
structure FileViewerStore (Blob : Type) where
  fileContentResult : Signal (Result Blob)
  /-- the fetch that `switchMap` is subscribed to: its number, and the request it is for -/
  running : Option (Nat × FileViewerRequest)
  /-- how many fetches have been begun -/
  begun : Nat
  /-- what has been fetched, each content with the request it was fetched for -/
  fetched : List (FileViewerRequest × Blob)

namespace FileViewerStore

/-- Nothing has been asked for. -/
def initial : FileViewerStore Blob := ⟨⟨toPending, 0⟩, none, 0, []⟩

/-- `loadFile` with the remote, the path and the name of the request. The fetch before it is cancelled; the
    state is patched and then set to the pending result that the new one starts with. -/
def loadFile (s : FileViewerStore Blob) (request : FileViewerRequest) : FileViewerStore Blob :=
  { s with
    fileContentResult := (s.fileContentResult.set toPending).set toPending
    running := some (s.begun, request)
    begun := s.begun + 1 }

/-- A result of a fetch arrives; nothing is subscribed to one that was cancelled. A response is the last
    thing that comes of a fetch. -/
def arrives (s : FileViewerStore Blob) (fetch : Nat) (result : FetchResult Blob) : FileViewerStore Blob :=
  match s.running with
  | none => s
  | some (running, request) =>
    if running = fetch then
      let s := { s with fileContentResult := s.fileContentResult.set result.toResult }
      match result with
      | .pending => s
      | .success blob => { s with running := none, fetched := s.fetched ++ [(request, blob)] }
      | .failure _ => { s with running := none }
    else s

section
variable {s : FileViewerStore Blob} {fetch : Nat} {request : FileViewerRequest}

/-- The running fetch reports that it has started. -/
theorem arrives_pending (h : s.running = some (fetch, request)) :
    s.arrives fetch .pending = { s with fileContentResult := s.fileContentResult.set toPending } := by
  unfold arrives
  rw [h]
  exact if_pos rfl

/-- The running fetch brings its blob, which is what was fetched for its request. -/
theorem arrives_success (h : s.running = some (fetch, request)) (blob : Blob) :
    s.arrives fetch (.success blob) = { s with
      fileContentResult := s.fileContentResult.set (toSuccess blob)
      running := none
      fetched := s.fetched ++ [(request, blob)] } := by
  unfold arrives
  rw [h]
  exact if_pos rfl

/-- The running fetch fails. -/
theorem arrives_failure (h : s.running = some (fetch, request)) (error : JsError) :
    s.arrives fetch (.failure error) = { s with
      fileContentResult := s.fileContentResult.set (toFailure error)
      running := none } := by
  unfold arrives
  rw [h]
  exact if_pos rfl

/-- What comes of another fetch than the running one is dropped. -/
theorem arrives_other (h : ¬ ∃ request, s.running = some (fetch, request)) (result : FetchResult Blob) :
    s.arrives fetch result = s := by
  unfold arrives
  cases hrun : s.running with
  | none => rfl
  | some running =>
      refine if_neg ?_
      rintro rfl
      exact h ⟨running.2, hrun⟩

end

end FileViewerStore

/-! ## The component -/

/-- What the viewer shows of a file: its content with the object url, and the type and the name of its request. -/
structure FileDetails (Blob : Type) where
  blob : Blob
  blobUrl : Nat
  mimeType : JsString
  fileName : JsString

/-- What the data of a `Result<FileDetails>` is at run time, where a `Result<Blob>` has been cast to it. -/
inductive ShownData (Blob : Type) where
  | details (details : FileDetails Blob)
  | blob (blob : Blob)

/-- `contentResult as unknown as Result<FileDetails>`. -/
def Result.asDetails (result : Result Blob) : Result (ShownData Blob) :=
  ⟨result.data.map .blob, result.isLoading, result.error⟩

/-- The object URLs: what each was created for, and those revoked. -/
structure ObjectUrls (Blob : Type) where
  created : List Blob
  revoked : List Nat

/-- A url that is revoked is noted as such. -/
def ObjectUrls.revokeObjectURL (urls : ObjectUrls Blob) (url : Option Nat) : ObjectUrls Blob :=
  { urls with revoked := urls.revoked ++ url.toList }

/-- A new url has a number that none had before. -/
def ObjectUrls.createObjectURL (urls : ObjectUrls Blob) (blob : Blob) : Nat × ObjectUrls Blob :=
  (urls.created.length, { urls with created := urls.created ++ [blob] })

/-- The component: its field, the store it reads and the details kept. -/
structure FileViewer (Blob : Type) where
  page : DialogPage
  currentRequest : Option FileViewerRequest
  store : FileViewerStore Blob
  currentBlobUrl : Option Nat
  urls : ObjectUrls Blob
  /-- what the computed `fileDetailsResult` keeps -/
  details : Computed (Result (ShownData Blob))

namespace FileViewer

/-- The dialogs have changed: the subscriber of `request$`, which emits when the request is another object. -/
def dialogsChanged (v : FileViewer Blob) (page : DialogPage) : FileViewer Blob :=
  let request := selectFileViewerRequest page.dialogs
  if request = v.currentRequest then { v with page := page }
  else
    match request with
    | none => { v with page := page, currentRequest := none }
    | some r => { v with page := page, currentRequest := some r, store := v.store.loadFile r }

/-- The constructor, on a page where dialogs may be open. -/
def construct (page : DialogPage) : FileViewer Blob :=
  dialogsChanged ⟨page, none, .initial, none, ⟨[], []⟩, ⟨none⟩⟩ page

/-- The function that `fileDetailsResult` is computed with. -/
def computeDetails (v : FileViewer Blob) : Result (ShownData Blob) × FileViewer Blob :=
  let contentResult := v.store.fileContentResult.value
  if hasSucceed contentResult then
    match v.currentRequest, contentResult.data with
    | some request, some blob =>
        let created := (v.urls.revokeObjectURL v.currentBlobUrl).createObjectURL blob
        (toSuccess (.details ⟨blob, created.1, request.mimeType, request.fileName⟩),
          { v with urls := created.2, currentBlobUrl := some created.1 })
    | _, _ => (contentResult.asDetails, v)
  else (contentResult.asDetails, v)

/-- `fileDetailsResult()`. -/
def fileDetailsResult (v : FileViewer Blob) : Result (ShownData Blob) × FileViewer Blob :=
  match v.details.current v.store.fileContentResult with
  | some shown => (shown, v)
  | none =>
    let computed := v.computeDetails
    (computed.1, { computed.2 with details := .keep v.store.fileContentResult computed.1 })

/-- The viewer's own closing dispatches the action for the dialog on top. -/
def closeDialog (v : FileViewer Blob) : FileViewer Blob :=
  let v := { v with urls := v.urls.revokeObjectURL v.currentBlobUrl, currentBlobUrl := none }
  v.dialogsChanged v.page.closeDialog

end FileViewer

/-- What the viewer reacts to. -/
inductive ViewerEvent (Blob : Type) where
  /-- a request for a file, or for another dialog -/
  | openDialog (request : DialogRequest)
  /-- another dialog closes the one on top -/
  | closeOther
  | closeDialog
  | arrives (fetch : Nat) (result : FetchResult Blob)
  /-- the template is evaluated -/
  | changeDetection

/-- A step of the viewer; every event is possible at any time. -/
def FileViewer.step (v : FileViewer Blob) : ViewerEvent Blob → Option (FileViewer Blob)
  | .openDialog request => some (v.dialogsChanged (v.page.openDialog request))
  | .closeOther => some (v.dialogsChanged v.page.closeDialog)
  | .closeDialog => some v.closeDialog
  | .arrives fetch result => some { v with store := v.store.arrives fetch result }
  | .changeDetection => some v.fileDetailsResult.2

/-! ## The content area -/

/-- What the content area shows. -/
inductive ContentArea (Blob : Type) where
  | spinner
  | error (message : JsString)
  | image (blobUrl : Nat)
  | video (blobUrl : Nat)
  | audio (blobUrl : Nat)
  | pdf (blobUrl : Nat)
  | text (blob : Blob)
  | unsupported (fileName : JsString) (blobUrl : Nat)

/-- What is drawn for details of a file, by the kind of the file. -/
def FileDetails.area (d : FileDetails Blob) : ContentArea Blob :=
  if js "image/" <+: d.mimeType then .image d.blobUrl
  else if js "video/" <+: d.mimeType then .video d.blobUrl
  else if js "audio/" <+: d.mimeType then .audio d.blobUrl
  else if d.mimeType = js "application/pdf" then .pdf d.blobUrl
  else if js "text/" <+: d.mimeType ∨ d.mimeType = js "application/json" ∨ d.mimeType = js "application/xml" ∨
      d.mimeType = js "application/javascript" then .text d.blob
  else .unsupported d.fileName d.blobUrl

/-- The content area; `none` where the template throws, since a blob has no `mimeType`. -/
def contentArea (fileDetails : Result (ShownData Blob)) : Option (ContentArea Blob) :=
  if isPending fileDetails then some .spinner
  else if hasFailed fileDetails then fileDetails.error.map fun error => .error error.message
  else
    match fileDetails.data with
    | some (.details d) => some d.area
    | _ => none

/-! ## Complete details -/

namespace FileViewer

/-- If the result is a success, its data are full details: a content fetched for a request, under a URL
    created for it, with the name and the type of the same request. -/
def Complete (v : FileViewer Blob) (shown : Result (ShownData Blob)) : Prop :=
  hasSucceed shown = true → ∃ r d, shown.data = some (.details d) ∧ (r, d.blob) ∈ v.store.fetched ∧
    d.fileName = r.fileName ∧ d.mimeType = r.mimeType ∧ v.urls.created[d.blobUrl]? = some d.blob

/-- What `fileDetailsResult()` gives now is complete. -/
def ShowsComplete (v : FileViewer Blob) : Prop := v.fileDetailsResult.2.Complete v.fileDetailsResult.1

/-- The content is a success that the template has not been evaluated on. -/
def Unread (v : FileViewer Blob) : Prop :=
  hasSucceed v.store.fileContentResult.value = true ∧ v.details.current v.store.fileContentResult = none

/-- A success arrives while there is a current request, and the current request stays until it has been
    read. -/
def InTime (v : FileViewer Blob) : ViewerEvent Blob → Prop
  | .openDialog request => v.Unread → selectFileViewerRequest (v.page.openDialog request).dialogs ≠ none
  | .closeOther => v.Unread → selectFileViewerRequest v.page.closeDialog.dialogs ≠ none
  | .closeDialog => v.Unread → selectFileViewerRequest v.page.closeDialog.dialogs ≠ none
  | .arrives fetch (.success _) => (∃ r, v.store.running = some (fetch, r)) → v.currentRequest ≠ none
  | .arrives _ _ => True
  | .changeDetection => True

/-- What the parts of the component have to do with each other: the current request, if there is one, is that
    of the running fetch, and that of the content. -/
structure Consistent (v : FileViewer Blob) : Prop where
  behind : v.details.Behind v.store.fileContentResult
  running : ∀ n r, v.store.running = some (n, r) → ∀ r' ∈ v.currentRequest, r' = r
  content : hasSucceed v.store.fileContentResult.value = true → ∃ r blob,
    v.store.fileContentResult.value = toSuccess blob ∧ (r, blob) ∈ v.store.fetched ∧
      ∀ r' ∈ v.currentRequest, r' = r

/-! ### Reading -/

section
variable {v : FileViewer Blob} {shown : Result (ShownData Blob)}

/-- Computing the details leaves the store alone. -/
theorem computeDetails_store (v : FileViewer Blob) : v.computeDetails.2.store = v.store := by
  unfold computeDetails
  dsimp only
  split
  · split <;> rfl
  · rfl

/-- It leaves the current request alone too. -/
theorem computeDetails_currentRequest (v : FileViewer Blob) :
    v.computeDetails.2.currentRequest = v.currentRequest := by
  unfold computeDetails
  dsimp only
  split
  · split <;> rfl
  · rfl

/-- **What is computed is complete**, exactly if a success meets a current request. -/
theorem computeDetails_complete (h : v.Consistent) :
    v.computeDetails.2.Complete v.computeDetails.1 ↔
      (hasSucceed v.store.fileContentResult.value = true → v.currentRequest ≠ none) := by
  by_cases hs : hasSucceed v.store.fileContentResult.value = true
  · obtain ⟨r, blob, hvalue, hfetched, hsame⟩ := h.content hs
    cases hcurrent : v.currentRequest with
    | none =>
        -- the blob is handed on as it is
        have hcast : v.computeDetails = ((toSuccess blob).asDetails, v) := by
          unfold computeDetails
          rw [if_pos hs, hcurrent, hvalue]
        rw [hcast]
        refine iff_of_false (fun hcomplete => ?_) fun hno => hno hs rfl
        obtain ⟨r, d, hdata, -⟩ := hcomplete rfl
        cases hdata
    | some r' =>
        obtain rfl := hsame r' hcurrent
        have hfull : v.computeDetails.1 =
            toSuccess (.details ⟨blob, v.urls.created.length, r'.mimeType, r'.fileName⟩) ∧
            v.computeDetails.2.urls.created = v.urls.created ++ [blob] := by
          unfold computeDetails
          rw [if_pos hs, hcurrent, hvalue]
          exact ⟨rfl, rfl⟩
        refine iff_of_true (fun _ => ?_) fun _ => Option.some_ne_none _
        rw [hfull.1]
        refine ⟨r', _, rfl, ?_, rfl, rfl, ?_⟩
        · rw [computeDetails_store]
          exact hfetched
        · rw [hfull.2]
          exact List.getElem?_concat_length
  · have hcast : v.computeDetails = (v.store.fileContentResult.value.asDetails, v) := if_neg hs
    rw [hcast]
    exact iff_of_true (fun hs' => absurd hs' hs) fun hs' => absurd hs' hs

/-- Details that are not out of date are shown as they are. -/
theorem fileDetailsResult_current (h : v.details.current v.store.fileContentResult = some shown) :
    v.fileDetailsResult = (shown, v) := by
  unfold fileDetailsResult
  rw [h]

/-- Details that are out of date are computed anew and kept. -/
theorem fileDetailsResult_stale (h : v.details.current v.store.fileContentResult = none) :
    v.fileDetailsResult = (v.computeDetails.1,
      { v.computeDetails.2 with details := .keep v.store.fileContentResult v.computeDetails.1 }) := by
  unfold fileDetailsResult
  rw [h]

/-- What is shown is complete when the kept details are. -/
theorem showsComplete_current (h : v.details.current v.store.fileContentResult = some shown) :
    v.ShowsComplete ↔ v.Complete shown := by
  rw [ShowsComplete, fileDetailsResult_current h]

/-- What is computed anew is complete unless a success is read without a current request. -/
theorem showsComplete_stale (hv : v.Consistent) (h : v.details.current v.store.fileContentResult = none) :
    v.ShowsComplete ↔ (hasSucceed v.store.fileContentResult.value = true → v.currentRequest ≠ none) := by
  rw [← computeDetails_complete hv, ShowsComplete, fileDetailsResult_stale h]
  rfl

/-- Reading makes the value current. -/
theorem fileDetailsResult_reads (v : FileViewer Blob) :
    v.fileDetailsResult.2.details.current v.fileDetailsResult.2.store.fileContentResult
      = some v.fileDetailsResult.1 := by
  cases hcurrent : v.details.current v.store.fileContentResult with
  | none =>
      rw [fileDetailsResult_stale hcurrent]
      dsimp only
      rw [computeDetails_store, Computed.current_keep]
  | some shown =>
      rw [fileDetailsResult_current hcurrent]
      exact hcurrent

end

/-! ### Steps -/

section
variable {v w : FileViewer Blob}

/-- Details that are complete stay so as more is fetched. -/
theorem Complete.mono {shown : Result (ShownData Blob)} (h : v.Complete shown)
    (hfetched : v.store.fetched ⊆ w.store.fetched) (hurls : w.urls.created = v.urls.created) :
    w.Complete shown := by
  intro hs
  obtain ⟨r, d, hdata, hd, hname, htype, hurl⟩ := h hs
  exact ⟨r, d, hdata, hfetched hd, hname, htype, hurls ▸ hurl⟩

/-- What is shown depends on the content, the current request, what has been computed, and the URLs created. -/
theorem showsComplete_congr (hv : v.Consistent) (hw : w.Consistent) (hstore : w.store = v.store)
    (hcurrent : w.currentRequest = v.currentRequest) (hdetails : w.details = v.details)
    (hurls : w.urls.created = v.urls.created) : w.ShowsComplete ↔ v.ShowsComplete := by
  cases hread : v.details.current v.store.fileContentResult with
  | none =>
      have hread' : w.details.current w.store.fileContentResult = none := by rw [hdetails, hstore, hread]
      rw [showsComplete_stale hv hread, showsComplete_stale hw hread', hstore, hcurrent]
  | some shown =>
      have hread' : w.details.current w.store.fileContentResult = some shown := by rw [hdetails, hstore, hread]
      rw [showsComplete_current hread, showsComplete_current hread']
      constructor
      · exact fun h => h.mono (by rw [hstore]; exact List.Subset.refl _) hurls.symm
      · exact fun h => h.mono (by rw [hstore]; exact List.Subset.refl _) hurls

/-- The invariant only looks at the store, the current request and the kept details. -/
theorem Consistent.congr (hv : v.Consistent) (hstore : w.store = v.store)
    (hcurrent : ∀ r ∈ w.currentRequest, r ∈ v.currentRequest) (hdetails : w.details = v.details) :
    w.Consistent := by
  constructor
  · rw [hstore, hdetails]
    exact hv.behind
  · rw [hstore]
    exact fun n r hrun r' hr' => hv.running n r hrun r' (hcurrent r' hr')
  · rw [hstore]
    intro hs
    obtain ⟨r, blob, hvalue, hfetched, hsame⟩ := hv.content hs
    exact ⟨r, blob, hvalue, hfetched, fun r' hr' => hsame r' (hcurrent r' hr')⟩

/-- A value that is not current and a content that is no success are complete. -/
theorem showsComplete_of_not_succeed (hv : v.Consistent)
    (hread : v.details.current v.store.fileContentResult = none)
    (hs : hasSucceed v.store.fileContentResult.value = false) : v.ShowsComplete :=
  (showsComplete_stale hv hread).mpr fun hs' => Bool.noConfusion (hs.symm.trans hs')

/-- A load leaves nothing to read but a pending result. -/
theorem loadFile_shows (hv : v.Consistent) (page : DialogPage) (r : FileViewerRequest) :
    Consistent { v with page := page, currentRequest := some r, store := v.store.loadFile r } ∧
      ShowsComplete { v with page := page, currentRequest := some r, store := v.store.loadFile r } := by
  have hread : v.details.current (v.store.loadFile r).fileContentResult = none :=
    (hv.behind.set toPending).current_set toPending
  have hw : Consistent { v with page := page, currentRequest := some r, store := v.store.loadFile r } := by
    refine ⟨(hv.behind.set _).set _, ?_, fun hs => nomatch hs⟩
    intro n r' hrun r'' hr''
    cases hrun
    cases hr''
    rfl
  exact ⟨hw, showsComplete_of_not_succeed hw hread rfl⟩

/-- Without a current request, what has been read is still complete, and an unread success is not. -/
theorem covered_shows (hv : v.Consistent) (hT : v.ShowsComplete) (page : DialogPage) :
    Consistent { v with page := page, currentRequest := none } ∧
      (ShowsComplete { v with page := page, currentRequest := none } ↔ ¬ v.Unread) := by
  have hw : Consistent { v with page := page, currentRequest := none } :=
    hv.congr rfl (fun _ hr => nomatch hr) rfl
  refine ⟨hw, ?_⟩
  cases hread : v.details.current v.store.fileContentResult with
  | none =>
      rw [showsComplete_stale hw hread]
      exact ⟨fun h hu => h hu.1 rfl, fun h hs => absurd ⟨hs, hread⟩ h⟩
  | some shown =>
      refine iff_of_true ?_ fun hu => nomatch hread.symm.trans hu.2
      have hshown := (showsComplete_current hread).mp hT
      refine (@showsComplete_current _ { v with page := page, currentRequest := none } _ hread).mpr ?_
      exact hshown.mono (List.Subset.refl _) rfl

/-- **The current request follows the dialogs**: it loses an unread success where no viewer is on top any
    more. -/
theorem dialogsChanged_step (hv : v.Consistent) (hT : v.ShowsComplete) (page : DialogPage) :
    (v.dialogsChanged page).Consistent ∧
      ((v.dialogsChanged page).ShowsComplete ↔ (v.Unread → selectFileViewerRequest page.dialogs ≠ none)) := by
  unfold dialogsChanged
  dsimp only
  by_cases hsame : selectFileViewerRequest page.dialogs = v.currentRequest
  · rw [if_pos hsame]
    have hw : Consistent { v with page := page } := hv.congr rfl (fun _ hr => hr) rfl
    refine ⟨hw, iff_of_true ?_ ?_⟩
    · exact (showsComplete_congr hv hw rfl rfl rfl rfl).mpr hT
    · rintro ⟨hs, hread⟩
      rw [hsame]
      exact (showsComplete_stale hv hread).mp hT hs
  · rw [if_neg hsame]
    cases hsel : selectFileViewerRequest page.dialogs with
    | none =>
        obtain ⟨hw, hshows⟩ := covered_shows hv hT page
        exact ⟨hw, hshows.trans ⟨fun h hu => absurd hu h, fun h hu => h hu rfl⟩⟩
    | some r =>
        obtain ⟨hw, hshows⟩ := loadFile_shows hv page r
        exact ⟨hw, iff_of_true hshows fun _ => Option.some_ne_none r⟩

/-- The component's own `closeDialog` revokes the URL as well. -/
theorem closeDialog_step (hv : v.Consistent) (hT : v.ShowsComplete) :
    v.closeDialog.Consistent ∧
      (v.closeDialog.ShowsComplete ↔ (v.Unread → selectFileViewerRequest v.page.closeDialog.dialogs ≠ none)) := by
  have hw : Consistent { v with urls := v.urls.revokeObjectURL v.currentBlobUrl, currentBlobUrl := none } :=
    hv.congr rfl (fun _ hr => hr) rfl
  exact dialogsChanged_step hw ((showsComplete_congr hv hw rfl rfl rfl rfl).mpr hT) v.page.closeDialog

/-- **A result of the running fetch** is for the current request, if there is one. -/
theorem arrives_step (hv : v.Consistent) (hT : v.ShowsComplete) (fetch : Nat) (result : FetchResult Blob) :
    Consistent { v with store := v.store.arrives fetch result } ∧
      (ShowsComplete { v with store := v.store.arrives fetch result } ↔ v.InTime (.arrives fetch result)) := by
  by_cases hrunning : ∃ r, v.store.running = some (fetch, r)
  · obtain ⟨request, hrunning⟩ := hrunning
    have hsame := hv.running fetch request hrunning
    have hread : ∀ content, v.details.current (v.store.fileContentResult.set content) = none :=
      hv.behind.current_set
    cases result with
    | pending =>
        rw [FileViewerStore.arrives_pending hrunning]
        have hw : Consistent { v with store := { v.store with
            fileContentResult := v.store.fileContentResult.set toPending } } :=
          ⟨hv.behind.set _, hv.running, fun hs => nomatch hs⟩
        exact ⟨hw, iff_of_true (showsComplete_of_not_succeed hw (hread _) rfl) trivial⟩
    | failure error =>
        rw [FileViewerStore.arrives_failure hrunning]
        have hw : Consistent { v with store := { v.store with
            fileContentResult := v.store.fileContentResult.set (toFailure error), running := none } } :=
          ⟨hv.behind.set _, (fun _ _ hnone => nomatch hnone), fun hs => nomatch hs⟩
        exact ⟨hw, iff_of_true (showsComplete_of_not_succeed hw (hread _) rfl) trivial⟩
    -- only a success needs a current request when it is read
    | success blob =>
        rw [FileViewerStore.arrives_success hrunning]
        have hw : Consistent { v with store := { v.store with
            fileContentResult := v.store.fileContentResult.set (toSuccess blob), running := none,
            fetched := v.store.fetched ++ [(request, blob)] } } :=
          ⟨hv.behind.set _, (fun _ _ hnone => nomatch hnone), fun _ =>
            ⟨request, blob, rfl, List.mem_append_right _ (List.mem_singleton_self _), hsame⟩⟩
        refine ⟨hw, ?_⟩
        rw [showsComplete_stale hw (hread _)]
        exact ⟨fun h _ => h rfl, fun h _ => h ⟨request, hrunning⟩⟩
  -- nobody is subscribed to this fetch any more
  · rw [FileViewerStore.arrives_other hrunning]
    refine ⟨hv, iff_of_true hT ?_⟩
    cases result with
    | pending => trivial
    | failure error => trivial
    | success blob => exact fun hr => absurd hr hrunning

/-- **Reading** leaves what is read. -/
theorem changeDetection_step (hv : v.Consistent) (hT : v.ShowsComplete) :
    v.fileDetailsResult.2.Consistent ∧ v.fileDetailsResult.2.ShowsComplete := by
  refine ⟨?_, (showsComplete_current (fileDetailsResult_reads v)).mpr hT⟩
  cases hread : v.details.current v.store.fileContentResult with
  | some shown =>
      rw [fileDetailsResult_current hread]
      exact hv
  | none =>
      have hcomputed : v.computeDetails.2.currentRequest = v.currentRequest :=
        computeDetails_currentRequest v
      rw [fileDetailsResult_stale hread]
      constructor
      · dsimp only
        rw [computeDetails_store]
        exact Computed.behind_keep _ _
      · dsimp only
        rw [computeDetails_store, hcomputed]
        exact hv.running
      · dsimp only
        rw [computeDetails_store, hcomputed]
        exact hv.content

/-- The step lemma: the invariant is kept, and what is shown stays complete exactly if the event comes in time. -/
theorem step_showsComplete {e : ViewerEvent Blob} (hv : v.Consistent) (hT : v.ShowsComplete)
    (hstep : v.step e = some w) : w.Consistent ∧ (w.ShowsComplete ↔ v.InTime e) := by
  cases e with
  | openDialog request =>
      cases hstep
      exact dialogsChanged_step hv hT _
  | closeOther =>
      cases hstep
      exact dialogsChanged_step hv hT _
  | closeDialog =>
      cases hstep
      exact closeDialog_step hv hT
  | arrives fetch result =>
      cases hstep
      exact arrives_step hv hT fetch result
  | changeDetection =>
      cases hstep
      obtain ⟨hw, hshows⟩ := changeDetection_step hv hT
      exact ⟨hw, iff_of_true hshows trivial⟩

end

/-- The component as it is constructed. -/
theorem construct_consistent (page : DialogPage) :
    (construct page : FileViewer Blob).Consistent ∧ (construct page : FileViewer Blob).ShowsComplete := by
  have hv : Consistent (⟨page, none, .initial, none, ⟨[], []⟩, ⟨none⟩⟩ : FileViewer Blob) :=
    ⟨Computed.behind_none, (fun _ _ hnone => nomatch hnone), fun hs => nomatch hs⟩
  obtain ⟨hw, hshows⟩ := dialogsChanged_step hv (showsComplete_of_not_succeed hv rfl rfl) page
  exact ⟨hw, hshows.mpr fun hu => nomatch hu.1⟩

/-- No event is ever refused. -/
theorem exists_step (v : FileViewer Blob) (e : ViewerEvent Blob) : ∃ w, v.step e = some w := by
  cases e <;> exact ⟨_, rfl⟩

/-- Complete details can be shown: the template does not throw on them. -/
theorem contentArea_of_complete {v : FileViewer Blob} {shown : Result (ShownData Blob)} (h : v.Complete shown) :
    contentArea shown ≠ none := by
  by_cases hpending : isPending shown = true
  · rw [contentArea, if_pos hpending]
    exact Option.some_ne_none _
  · by_cases hfailed : hasFailed shown = true
    · rw [contentArea, if_neg hpending, if_pos hfailed]
      obtain ⟨error, herror⟩ := Option.isSome_iff_exists.mp hfailed
      rw [herror]
      exact Option.some_ne_none _
    · rw [contentArea, if_neg hpending, if_neg hfailed]
      have hs : hasSucceed shown = true := by
        have hloading : shown.isLoading = false := Bool.eq_false_of_not_eq_true hpending
        have herror : shown.error = none := Option.not_isSome_iff_eq_none.mp hfailed
        rw [hasSucceed, herror, hloading]
        rfl
      obtain ⟨r, d, hdata, -⟩ := h hs
      rw [hdata]
      exact Option.some_ne_none _

end FileViewer

/-- **The viewer shows complete files only**, at every moment of a run, exactly if every success arrives while
    there is a current request, which then stays until the template has been evaluated. -/
theorem fileViewer_complete_iff (page : DialogPage) (events : List (ViewerEvent Blob)) :
    (∀ v, Reaches FileViewer.step (.construct page) events v → v.ShowsComplete) ↔
      Along FileViewer.step FileViewer.InTime (.construct page) events := by
  obtain ⟨hv, hshows⟩ := @FileViewer.construct_consistent Blob page
  obtain ⟨w, hrun⟩ := exists_run FileViewer.exists_step (FileViewer.construct page) events
  exact always_iff_along (fun _ _ _ => FileViewer.step_showsComplete) hv hshows hrun

/-! ## A viewer closed too early -/

/-- A request for a text file. -/
def textRequest : DialogRequest := .fileViewer (js "r") none (js "a.txt") (js "text/plain")

/-- The file is opened, closed before its content is there, and fetched. -/
def closedEarly : List (ViewerEvent Bytes) := [.openDialog textRequest, .closeDialog, .arrives 0 (.success [104, 105])]

/-- **The template throws on a blob**: the content of a viewer that was closed early is handed on as a success
    without a name, a type and a URL. -/
theorem closedEarly_shows_blob :
    ∃ v, run FileViewer.step (.construct .initial) closedEarly = some v ∧
      hasSucceed v.fileDetailsResult.1 = true ∧ v.fileDetailsResult.1.data = some (.blob [104, 105]) ∧
      contentArea v.fileDetailsResult.1 = none ∧ ¬ v.ShowsComplete := by
  refine ⟨_, rfl, rfl, rfl, rfl, fun h => ?_⟩
  obtain ⟨r, d, hdata, -⟩ := h rfl
  cases hdata

/-- The file is opened, fetched, shown and closed. -/
example : ∃ v, run FileViewer.step (.construct .initial)
    [.openDialog textRequest, .changeDetection, .arrives 0 (.success [104, 105]), .changeDetection, .closeDialog]
      = some v ∧
    (v.fileDetailsResult.1 : Result (ShownData Bytes)).data =
      some (.details ⟨[104, 105], 0, js "text/plain", js "a.txt"⟩) :=
  ⟨_, rfl, rfl⟩

end RCloneCloud
