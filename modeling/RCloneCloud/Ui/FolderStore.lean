import RCloneCloud.Lib.Latest
import RCloneCloud.Ui.FolderTable
import RCloneCloud.Ui.ReloadRuns

/-!
# `Ui.FolderStore` — the store behind the folder's page, and what its lists of jobs lead to

`FolderListViewStore` keeps the result of the latest `loadItems`; `switchMap` drops what comes of the ones before. The
page calls `loadItems` on each navigation, and on each list of jobs in which one has just completed. The lists are those
after each action of the jobs' effects: `sees_actions` says what the page has loaded by the time it has seen them all.
-/

set_option autoImplicit false

namespace RCloneCloud

open Lib

/-! ## The store -/

/-- `FolderListViewState`, with the request that `loadItems` is subscribed to. -/
structure FolderListViewStore where
  items : Result ListFolderResponse
  requests : Latest LoadItems

/-- Nothing has been loaded. -/
def FolderListViewStore.initial : FolderListViewStore := ⟨toPending, .empty⟩

/-- `loadItems`. The state is patched, and patched once more by the pending result that `listFolder` starts with. -/
def FolderListViewStore.loadItems (s : FolderListViewStore) (request : LoadItems) : FolderListViewStore :=
  { s with items := toPending, requests := s.requests.request request }

/-- The answer to request `k` arrives. A 401 emits nothing: the page is on its way to the login. -/
def FolderListViewStore.arrives (s : FolderListViewStore) (k : ℕ) (answer : HttpAnswer ListFolderResponse) :
    FolderListViewStore :=
  match s.requests.takes k with
  | none => s
  | some _ => ⟨answer.result.getD s.items, s.requests.stop⟩

/-! ## The page -/

/-- The component with its store, and the requests that have not reached the server. -/
structure FolderPage where
  view : FolderListView
  store : FolderListViewStore
  asked : List (ℕ × LoadItems)

namespace FolderPage

/-- No folder is shown and no listing was asked for. -/
def initial : FolderPage := ⟨none, .initial, []⟩

/-- A call of `loadItems`: a POST is on its way. -/
def load (p : FolderPage) (request : LoadItems) : FolderPage :=
  { p with store := p.store.loadItems request, asked := p.asked ++ [(p.store.requests.begun, request)] }

/-- An event of the component, with the loads it leads to. -/
def event (p : FolderPage) (e : FolderListEvent) : FolderPage :=
  (p.view.step e).2.foldl load { p with view := (p.view.step e).1 }

/-- The lists of jobs are emitted, one after the other. -/
def sees (p : FolderPage) (lists : List (List JobEntry)) : FolderPage :=
  lists.foldl (fun p jobs => p.event (.jobs jobs)) p

/-- Another folder in the address: both subscriptions get it, and the second one the list of the jobs as well. -/
def navigate (p : FolderPage) (remotePath : RemotePath) (jobs : List JobEntry) : FolderPage :=
  (p.event (.remotePath remotePath)).event (.jobs jobs)

/-- `ngOnDestroy`: the subscriptions end, and the store goes with the component. -/
def leave (p : FolderPage) : FolderPage := { p with view := none, store := ⟨toPending, p.store.requests.stop⟩ }

end FolderPage

/-- The list of jobs after each of the actions. -/
def jobEmissions (s : JobState) : List JobsAction → List (List JobEntry)
  | [] => []
  | a :: rest => selectAllJobs (jobsReducer s a) :: jobEmissions (jobsReducer s a) rest

/-! ## One list of jobs -/

section
variable {p : FolderPage} {remotePath : RemotePath} {scan : ScanState} {jobs : List JobEntry} {key : JobId}

/-- While no folder is shown the job list has no effect on the page. -/
theorem FolderPage.event_jobs_none (h : p.view = none) (jobs : List JobEntry) : p.event (.jobs jobs) = p := by
  obtain ⟨view, store, asked⟩ := p
  obtain rfl : view = none := h
  rfl

/-- What a list of jobs does to the page: its scan goes on, and the folder is loaded where a job that the scan waits
    for is successful. -/
theorem FolderPage.event_jobs (h : p.view = some (remotePath, scan)) (hunique : (jobs.map (·.key)).Nodup) :
    ((∃ key, SucceededIn jobs key ∧ key ∈ scan.pendingFiles) ∧
        p.event (.jobs jobs) = { p with view := some (remotePath, scanJobs scan jobs) }.load (loadItems remotePath)) ∨
      ((∀ key, SucceededIn jobs key → key ∉ scan.pendingFiles) ∧
        p.event (.jobs jobs) = { p with view := some (remotePath, scanJobs scan jobs) }) := by
  have hflag := @flag_foldl_scanJob jobs ⟨scan.pendingFiles, false⟩ hunique
  have hstep : p.view.step (.jobs jobs) = (some (remotePath, scanJobs scan jobs),
      if (scanJobs scan jobs).hasNewSuccess then [loadItems remotePath] else []) := by
    rw [h]
    rfl
  unfold FolderPage.event
  rw [hstep]
  by_cases hnew : (scanJobs scan jobs).hasNewSuccess = true
  · refine .inl ⟨?_, by rw [if_pos hnew]; rfl⟩
    rcases hflag.mp hnew with hno | hsome
    · cases hno
    · exact hsome
  · refine .inr ⟨fun key hsucceeded hwaiting => hnew (hflag.mpr (.inr ⟨key, hsucceeded, hwaiting⟩)), ?_⟩
    rw [if_neg hnew]
    rfl

/-- The scan waits on for what is not successful. -/
theorem mem_scanJobs (hunique : (jobs.map (·.key)).Nodup) :
    key ∈ (scanJobs scan jobs).pendingFiles ↔ PendingIn jobs key ∨ (key ∈ scan.pendingFiles ∧ ¬ SucceededIn jobs key) :=
  mem_foldl_scanJob hunique

end

/-! ## What is stored -/

section
variable {s : JobState} {a : JobsAction} {key : JobId}

/-- A success stands in the store. -/
def StoredSuccess (s : JobState) (key : JobId) : Prop := ∃ result, s.jobIdToResult[key]? = some result ∧ hasSucceed result = true

/-- A success in the list is one in the store. -/
theorem SucceededIn.storedSuccess (h : SucceededIn (selectAllJobs s) key) : StoredSuccess s key := by
  obtain ⟨job, hjob, rfl, hsucceeded⟩ := h
  rw [(mem_selectAllJobs.mp hjob).2] at hsucceeded
  cases hstored : s.jobIdToResult[job.key]? with
  | none =>
      rw [hstored] at hsucceeded
      cases hsucceeded
  | some result =>
      rw [hstored] at hsucceeded
      exact ⟨result, hstored, hsucceeded⟩

/-- What an action writes is listed, where the id has a request. -/
theorem listed_write (h : (jobsReducer s a).jobIdToRequest[a.write.jobId]?.isSome = true) :
    ∃ job ∈ selectAllJobs (jobsReducer s a), job.key = a.write.jobId ∧ job.result = a.write.result := by
  obtain ⟨request, hrequest⟩ := Option.isSome_iff_exists.mp h
  refine ⟨⟨a.write.jobId, request, a.write.result⟩, mem_selectAllJobs.mpr ⟨hrequest, ?_⟩, rfl, rfl⟩
  rw [jobsReducer_result, JobsAction.resultUnder, if_pos rfl]
  rfl

/-- A success in the store is an old one or written by the action. -/
theorem storedSuccess_jobsReducer :
    StoredSuccess (jobsReducer s a) key →
      (a.write.jobId = key ∧ hasSucceed a.write.result = true) ∨ StoredSuccess s key := by
  rintro ⟨result, hresult, hsucceeded⟩
  rw [jobsReducer_result, JobsAction.resultUnder] at hresult
  split at hresult
  · next hid =>
      obtain rfl := Option.some_inj.mp hresult
      exact .inl ⟨hid, hsucceeded⟩
  · exact .inr ⟨result, hresult, hsucceeded⟩

end

end RCloneCloud
