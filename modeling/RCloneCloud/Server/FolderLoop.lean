import RCloneCloud.Ui.FolderStore

/-!
# `Server.FolderLoop` — the folder shown, and the server it is listed by

The page asks for listings while its jobs run; requests and answers are late, lost, or come out of order. What the page
shows is never older than what it says about its jobs: a listing that it shows is one of the folder in its address,
given after that folder was opened, by the server in a state in which every job that the page lists as successful had
finished; and a failure that it shows is the one its latest request was answered with (`shown_folder_is_current`).

The state has two halves that meet in one place. The folder page has its store, with the listing that runs; the jobs'
effects have theirs, with the polls. They meet where a successful job makes the page reload: `FolderInv` relates what
is shown to the jobs that the page lists as won, and to those still waiting for their verdict, whose success will
cause a reload.

`FolderInv` is proved over abstract predicates (`current`, `answered`, `won`, `waiting`), which only grow along a run
(`FolderInv.mono`). `FolderLoopInv` puts the run's own in their place: the server states since the folder was opened,
and the answers given to each request. An error shown must be the answer to the latest request (`LatestAnswer`), so a
late error of an earlier request cannot be what the page shows.
-/

set_option autoImplicit false

namespace RCloneCloud

open Lib

/-! ## The loop -/

/-- rclone as the folder's page sees it: the answer to a listing, and the ids of the jobs that have finished with success;
    the id of an upload is the page's own. -/
structure FolderServer (S : Type) where
  list : S → LoadItems → HttpAnswer ListFolderResponse
  finished : S → Finset JobId

variable {S : Type}

/-- The jobs, the folder's page, the server, and the answers to listings on their way, each with the state of the server
    that it was given in. -/
structure FolderLoop (S : Type) where
  jobs : JobsPage
  folder : FolderPage
  server : S
  listed : List (ℕ × LoadItems × S)

/-- What can happen: the jobs' effects take an event, the page moves to a folder or leaves it, a listing reaches the
server, its answer arrives or is lost, and the server changes. -/
inductive FolderAction (S : Type) where
  | jobs (e : JobsEvent)
  | navigate (remotePath : RemotePath)
  | leave
  /-- The POST of a listing reaches the server. -/
  | list (i : ℕ)
  | arrive (i : ℕ)
  /-- The connection of a listing fails; its POST may reach the server all the same. -/
  | lose (k : ℕ) (error : JsError)
  /-- Anything that happens on the server; a job that has finished remains so. -/
  | server (s : S)

/-- Whether the folder shown is opened or left. -/
def FolderAction.moves : FolderAction S → Bool
  | .navigate _ | .leave => true
  | _ => false

/-- The id that a success is reported for, if the event reports one. -/
def reportedSuccess (p : JobsPage) : JobsEvent → Option JobId
  | .uploadResponse k (.ok _) =>
      match p.tasks[k]? with
      | some (.uploading jobId _) => some jobId
      | _ => none
  | .pollResponse k (.ok status) =>
      match p.tasks[k]? with
      | some (.polling jobId _) => if status.error = [] ∧ status.success = true then some jobId else none
      | _ => none
  | _ => none

namespace FolderLoop

/-- No folder is shown and no job was submitted. -/
def init (s : S) : FolderLoop S := ⟨.initial, .initial, s, []⟩

/-- An event of the jobs; the page sees the list after each of the actions that it leads to. -/
def jobsEvent (l : FolderLoop S) (e : JobsEvent) : Option (FolderLoop S) :=
  (l.jobs.step e).map fun jobs =>
    { l with
      jobs := jobs
      folder := l.folder.sees (jobEmissions l.jobs.jobs ((jobs.log.drop l.jobs.log.length).map Prod.snd)) }

/-- An answer to request `k` reaches the page. -/
def answered (l : FolderLoop S) (k : ℕ) (answer : HttpAnswer ListFolderResponse) : FolderLoop S :=
  { l with folder := { l.folder with store := l.folder.store.arrives k answer } }

end FolderLoop

/-- An action is taken where the page or the server is in a position to take it. -/
def FolderServer.step (W : FolderServer S) (l : FolderLoop S) : FolderAction S → Option (FolderLoop S)
  | .jobs e =>
      -- a success that the server reports is one of a job that has finished
      if (reportedSuccess l.jobs e).all (· ∈ W.finished l.server) then l.jobsEvent e else none
  | .navigate remotePath => some { l with folder := l.folder.navigate remotePath (selectAllJobs l.jobs.jobs) }
  | .leave => some { l with folder := l.folder.leave }
  | .list i =>
      match l.folder.asked[i]? with
      | none => none
      | some (k, request) =>
          some { l with
            folder := { l.folder with asked := l.folder.asked.eraseIdx i }
            listed := l.listed ++ [(k, request, l.server)] }
  | .arrive i =>
      match l.listed[i]? with
      | none => none
      | some (k, request, s) => some ({ l with listed := l.listed.eraseIdx i }.answered k (W.list s request))
  | .lose k error => some (l.answered k (.failed error))
  | .server s => if W.finished l.server ⊆ W.finished s then some { l with server := s } else none

/-! ## What the jobs' effects write -/

section
variable {events : List JobsEvent} {p p' : JobsPage} {e : JobsEvent} {key : JobId}

/-- A success was stored under the id. -/
def Won (p : JobsPage) (key : JobId) : Prop := ∃ entry ∈ p.log, entry.2.write.jobId = key ∧ hasSucceed entry.2.write.result = true

/-- The id is that of an upload under way or of a job being polled. -/
def Waiting (p : JobsPage) (key : JobId) : Prop :=
  ∃ k : ℕ, (∃ request, p.tasks[k]? = some (.uploading key request)) ∨ ∃ inFlight, p.tasks[k]? = some (.polling key inFlight)

/-- A success in the job store belongs to a job that was submitted. -/
theorem StoredSuccess.won (hI : JobsInv events p) (h : StoredSuccess p.jobs key) : Won p key := by
  obtain ⟨result, hresult, hsucceeded⟩ := h
  rw [hI.result_eq] at hresult
  obtain ⟨entry, hentry, hstored⟩ := List.mem_filterMap.mp (List.mem_of_getLast? hresult)
  unfold JobsAction.resultUnder at hstored
  split at hstored
  · next hid =>
      obtain rfl := Option.some_inj.mp hstored
      exact ⟨entry, hentry, hid, hsucceeded⟩
  · cases hstored

/-- A job that waits for its verdict is listed by the page. -/
theorem Waiting.stored (hI : JobsInv events p) (h : Waiting p key) : p.jobs.jobIdToRequest[key]?.isSome = true := by
  obtain ⟨k, htask⟩ := h
  obtain ⟨a, ha, rfl⟩ := hI.wrote htask
  have hresult : a.write.jobId ∈ p.jobs.jobIdToResult := by
    rw [JsMap.mem_iff, hI.result_eq]
    have hmem : a.write.result ∈ storedResults a.write.jobId p :=
      List.mem_filterMap.mpr ⟨(k, a), ha, by rw [JobsAction.resultUnder, if_pos rfl]⟩
    exact ⟨_, List.getLast?_eq_getLast_of_ne_nil (List.ne_nil_of_mem hmem)⟩
  obtain ⟨request, hrequest⟩ := JsMap.mem_iff.mp ((hI.same_keys _).mp hresult)
  rw [hrequest]
  rfl

/-- What is waited for is listed as pending. -/
theorem Waiting.pending (hI : JobsInv events p) (hO : Owned p) (h : Waiting p key) : PendingIn (selectAllJobs p.jobs) key := by
  obtain ⟨request, hrequest⟩ := Option.isSome_iff_exists.mp (h.stored hI)
  refine ⟨⟨key, request, p.jobs.jobIdToResult[key]?.getD toPending⟩, mem_selectAllJobs.mpr ⟨hrequest, rfl⟩, rfl, ?_⟩
  obtain ⟨k, htask⟩ := h
  obtain ⟨a, ha, rfl⟩ := hI.wrote htask
  have hpending : ∀ w ∈ p.writes k, w.result = toPending := by
    rcases htask with ⟨r, hr⟩ | ⟨inFlight, hr⟩
    · obtain ⟨request, -, -, -, -, -, hall⟩ := hI.request_of_task hr
      exact hall
    · obtain ⟨request, -, -, -, hall⟩ := hI.request_of_task hr
      exact hall
  show isPending (p.jobs.jobIdToResult[a.write.jobId]?.getD toPending) = true
  cases hstored : p.jobs.jobIdToResult[a.write.jobId]? with
  | none => rfl
  | some result =>
      -- whatever was stored under the id was written by this submission
      rw [hI.result_eq] at hstored
      obtain ⟨⟨j, b⟩, hb, hresult⟩ := List.mem_filterMap.mp (List.mem_of_getLast? hstored)
      unfold JobsAction.resultUnder at hresult
      split at hresult
      · next hid =>
          obtain rfl := hO j k b a hb ha hid
          obtain rfl := Option.some_inj.mp hresult
          rw [hpending _ (JobsPage.mem_writes.mpr ⟨b, hb, rfl⟩)]
          rfl
      · cases hresult

/-- Only a status without an error and with its success flag becomes a success. -/
theorem pollResult_success {status : JobStatus} (h : hasSucceed (pollResult (toSuccess status)) = true) :
    status.error = [] ∧ status.success = true := by
  have hresult : pollResult (toSuccess status) =
      if status.error ≠ [] then toFailure ⟨status.error⟩ else if status.success then toSuccess () else toPending := rfl
  rw [hresult] at h
  split at h
  · cases h
  · next herror =>
      split at h
      · next hsuccess => exact ⟨not_not.mp herror, hsuccess⟩
      · cases h

/-- A success is written under an id that was waited for, and reported. -/
theorem Reacts.success {counter : ℕ} {old new : Option JobTask} {actions : List JobsAction} (hR : Reacts counter e old actions new)
    (hold : p.tasks[e.submission p]? = old) {a : JobsAction} (ha : a ∈ actions) (hsucceeded : hasSucceed a.write.result = true) :
    Waiting p a.write.jobId ∧ reportedSuccess p e = some a.write.jobId := by
  -- only an upload that is answered and a poll that ends can write a success
  cases hR with
  | upload => rw [List.mem_singleton.mp ha] at hsucceeded; cases hsucceeded
  | failed => rw [List.mem_singleton.mp ha] at hsucceeded; cases hsucceeded
  | tick => rw [List.mem_singleton.mp ha] at hsucceeded; cases hsucceeded
  | status => rw [List.mem_singleton.mp ha] at hsucceeded; cases hsucceeded
  | accepted =>
      rcases List.mem_cons.mp ha with rfl | hsecond
      · cases hsucceeded
      · rw [List.mem_singleton.mp hsecond] at hsucceeded
        cases hsucceeded
  | @uploaded k id request answer result hresult =>
      rw [List.mem_singleton.mp ha] at hsucceeded ⊢
      cases answer with
      | ok body =>
          have hreport : reportedSuccess p (.uploadResponse k (.ok body)) = some id := by
            show (match p.tasks[k]? with | some (.uploading jobId _) => some jobId | _ => none) = some id
            rw [show p.tasks[k]? = some (.uploading id request) from hold]
          exact ⟨⟨k, .inl ⟨request, hold⟩⟩, hreport⟩
      | failed error => cases hresult; cases hsucceeded
      | unauthorized => cases hresult
  | @finished k id answer result hresult hfinal =>
      rw [List.mem_singleton.mp ha] at hsucceeded ⊢
      cases answer with
      | ok status =>
          have hstatus : status.error = [] ∧ status.success = true := by
            cases hresult
            exact pollResult_success hsucceeded
          have hreport : reportedSuccess p (.pollResponse k (.ok status)) = some id := by
            show (match p.tasks[k]? with
              | some (.polling jobId _) => if status.error = [] ∧ status.success = true then some jobId else none
              | _ => none) = some id
            rw [show p.tasks[k]? = some (.polling id true) from hold]
            exact if_pos hstatus
          exact ⟨⟨k, .inr ⟨true, hold⟩⟩, hreport⟩
      | failed error => cases hresult; cases hsucceeded
      | unauthorized => cases hresult
  | submit | uploadRefused | refused | tickIgnored | statusRefused => cases ha

end

/-! ## The invariant of the page -/

/-- The latest request was answered so, where `answered` says what each request was answered. -/
def LatestAnswer (answered : ℕ → HttpAnswer ListFolderResponse → Prop) (store : FolderListViewStore)
    (answer : HttpAnswer ListFolderResponse) : Prop :=
  ∃ k, k + 1 = store.requests.begun ∧ answered k answer

/-- What the page shows of a folder: the latest request's listing, which is current and was given when what has been
    successful had finished; the latest request's failure; or nothing, while the latest request is unanswered or where its
    answer was a 401. -/
def Shown (W : FolderServer S) (current : S → Prop) (answered : ℕ → HttpAnswer ListFolderResponse → Prop)
    (won : JobId → Prop) (store : FolderListViewStore) (remotePath : RemotePath) : Prop :=
  (∃ response s, store.items = toSuccess response ∧ LatestAnswer answered store (.ok response) ∧ current s ∧
      W.list s (loadItems remotePath) = .ok response ∧ ∀ key, won key → key ∈ W.finished s) ∨
    (∃ error, store.items = toFailure error ∧ LatestAnswer answered store (.failed error)) ∨
    (store.items = toPending ∧
      ((∃ k, store.requests.running = some (k, loadItems remotePath)) ∨
        LatestAnswer answered store .unauthorized ∧ ∃ s, current s ∧ W.list s (loadItems remotePath) = .unauthorized))

/-- What the page knows, where the jobs under `won` have been successful, those under `waiting` may become so, a
    listing given in a state under `current` is one of the folder as opened, and requests have been answered as `answered`
    says: the number of a request tells it apart from the later ones, the scan waits for what may become successful, and
    what is shown, or is shown next, is current and was given by a server that had finished what was successful. -/
structure FolderInv (W : FolderServer S) (current : S → Prop) (answered : ℕ → HttpAnswer ListFolderResponse → Prop)
    (won waiting : JobId → Prop) (listed : List (ℕ × LoadItems × S)) (p : FolderPage) : Prop where
  asked : ∀ k request, (k, request) ∈ p.asked →
    k < p.store.requests.begun ∧ ∀ r, p.store.requests.running = some (k, r) → request = r
  listed : ∀ k request s, (k, request, s) ∈ listed →
    k < p.store.requests.begun ∧ ∀ r, p.store.requests.running = some (k, r) →
      request = r ∧ current s ∧ ∀ key, won key → key ∈ W.finished s
  subscribed : ∀ k r, p.store.requests.running = some (k, r) →
    ∃ remotePath scan, p.view = some (remotePath, scan) ∧ r = loadItems remotePath
  waits : ∀ remotePath scan, p.view = some (remotePath, scan) → ∀ key, waiting key → key ∈ scan.pendingFiles ∨ won key
  blank : ∀ k r, p.store.requests.running = some (k, r) → p.store.items = toPending
  shown : ∀ remotePath scan, p.view = some (remotePath, scan) → Shown W current answered won p.store remotePath

section
variable {W : FolderServer S} {current current' : S → Prop} {answered answered' : ℕ → HttpAnswer ListFolderResponse → Prop}
  {won won' waiting waiting' : JobId → Prop}
  {listed : List (ℕ × LoadItems × S)} {p : FolderPage} {remotePath : RemotePath} {scan : ScanState}

/-- That an answer was given to the latest request stays true as more answers are given. -/
theorem LatestAnswer.mono {store : FolderListViewStore} {answer : HttpAnswer ListFolderResponse}
    (h : LatestAnswer answered store answer) (hanswered : ∀ k answer, answered k answer → answered' k answer) :
    LatestAnswer answered' store answer := by
  obtain ⟨k, hk, hanswer⟩ := h
  exact ⟨k, hk, hanswered k answer hanswer⟩

/-- What is shown stays right when more is known about the run and no job is newly won. -/
theorem Shown.mono {store : FolderListViewStore} (h : Shown W current answered won store remotePath)
    (hcurrent : ∀ s, current s → current' s) (hanswered : ∀ k answer, answered k answer → answered' k answer)
    (hwon : ∀ key, won' key → won key) : Shown W current' answered' won' store remotePath := by
  rcases h with ⟨response, s, hitems, hlatest, hs, hlist, hfinished⟩ | ⟨error, hitems, hlatest⟩ | ⟨hpending, hwhy⟩
  · exact .inl ⟨response, s, hitems, hlatest.mono hanswered, hcurrent s hs, hlist, fun key hkey => hfinished key (hwon key hkey)⟩
  · exact .inr (.inl ⟨error, hitems, hlatest.mono hanswered⟩)
  · refine .inr (.inr ⟨hpending, ?_⟩)
    rcases hwhy with hrunning | ⟨hlatest, s, hs, hlist⟩
    · exact .inl hrunning
    · exact .inr ⟨hlatest.mono hanswered, s, hcurrent s hs, hlist⟩

/-- The invariant is kept by steps that do not touch the page, as the predicates it is stated over only grow. -/
theorem FolderInv.mono (hI : FolderInv W current answered won waiting listed p) (hcurrent : ∀ s, current s → current' s)
    (hanswered : ∀ k answer, answered k answer → answered' k answer) (hwon : ∀ key, won' key ↔ won key)
    (hwaiting : ∀ key, waiting' key → waiting key ∨ won key) : FolderInv W current' answered' won' waiting' listed p where
  asked := hI.asked
  listed k request s hmem := by
    obtain ⟨hlt, hrunning⟩ := hI.listed k request s hmem
    refine ⟨hlt, fun r hr => ?_⟩
    obtain ⟨hsame, hs, hfinished⟩ := hrunning r hr
    exact ⟨hsame, hcurrent s hs, fun key hkey => hfinished key ((hwon key).mp hkey)⟩
  subscribed := hI.subscribed
  waits remotePath scan hview key hkey := by
    rw [hwon]
    rcases hwaiting key hkey with hwait | hdone
    · exact hI.waits remotePath scan hview key hwait
    · exact .inr hdone
  blank := hI.blank
  shown remotePath scan hview := (hI.shown remotePath scan hview).mono hcurrent hanswered fun key => (hwon key).mp

/-- **After a load** nothing is shown, and no listing given so far is the one waited for. -/
theorem FolderInv.load (hI : FolderInv W current answered won waiting listed p)
    (hwaits : ∀ key, waiting' key → key ∈ scan.pendingFiles ∨ won' key) :
    FolderInv W current' answered' won' waiting' listed ({ p with view := some (remotePath, scan) }.load (loadItems remotePath)) where
  asked k request hmem := by
    show k < p.store.requests.begun + 1 ∧ _
    rcases List.mem_append.mp hmem with hold | hnew
    · have hlt := (hI.asked k request hold).1
      exact ⟨Nat.lt_succ_of_lt hlt, fun r hr => absurd hr (Latest.running_ne_of_lt hlt)⟩
    · obtain ⟨rfl, rfl⟩ := Prod.mk.inj (List.mem_singleton.mp hnew)
      refine ⟨Nat.lt_succ_self _, fun r hr => ?_⟩
      exact (Prod.mk.inj (Option.some_inj.mp hr)).2
  listed k request s hmem := by
    have hlt := (hI.listed k request s hmem).1
    exact ⟨Nat.lt_succ_of_lt hlt, fun r hr => absurd hr (Latest.running_ne_of_lt hlt)⟩
  subscribed k r hr := ⟨remotePath, scan, rfl, ((Prod.mk.inj (Option.some_inj.mp hr)).2).symm⟩
  waits remotePath' scan' hview key hkey := by
    obtain ⟨rfl, rfl⟩ := Prod.mk.inj (Option.some_inj.mp hview)
    exact hwaits key hkey
  blank _ _ _ := rfl
  shown remotePath' scan' hview := by
    obtain ⟨rfl, rfl⟩ := Prod.mk.inj (Option.some_inj.mp hview)
    exact .inr (.inr ⟨rfl, .inl ⟨_, rfl⟩⟩)

/-! ## An action of the jobs' effects -/

/-- What has been successful after an action. -/
def wonAfter (a : JobsAction) (won : JobId → Prop) (key : JobId) : Prop :=
  won key ∨ (a.write.jobId = key ∧ hasSucceed a.write.result = true)

/-- What may become successful after an action. -/
def waitingAfter (a : JobsAction) (waiting : JobId → Prop) (key : JobId) : Prop :=
  waiting key ∨ (a.write.jobId = key ∧ isPending a.write.result = true)

/-- **The page sees an action**: a job that was waited for and is successful leads to a load. -/
theorem FolderInv.seesAction (hI : FolderInv W current answered won waiting listed p) {s : JobState} {a : JobsAction}
    (hsucceeds : hasSucceed a.write.result = true → waiting a.write.jobId)
    (hkey : (jobsReducer s a).jobIdToRequest[a.write.jobId]?.isSome = true) (hstored : ∀ key, StoredSuccess s key → won key) :
    FolderInv W current answered (wonAfter a won) (waitingAfter a waiting) listed
      (p.event (.jobs (selectAllJobs (jobsReducer s a)))) := by
  have hunique := nodup_keys_selectAllJobs (jobsReducer s a)
  obtain ⟨job, hjob, hid, hresult⟩ := listed_write hkey
  cases hview : p.view with
  | none =>
      -- nobody looks: nothing is subscribed to either
      rw [p.event_jobs_none hview]
      have hidle : ∀ k r, p.store.requests.running ≠ some (k, r) := by
        intro k r hr
        obtain ⟨remotePath, scan, hsome, -⟩ := hI.subscribed k r hr
        rw [hview] at hsome
        cases hsome
      refine ⟨hI.asked, fun k request s hmem => ⟨(hI.listed k request s hmem).1, fun r hr => absurd hr (hidle k r)⟩,
        hI.subscribed, ?_, hI.blank, ?_⟩
      · intro remotePath scan hsome
        rw [hview] at hsome
        cases hsome
      · intro remotePath scan hsome
        rw [hview] at hsome
        cases hsome
  | some view =>
      obtain ⟨remotePath, scan⟩ := view
      have hwaits : ∀ key, waitingAfter a waiting key →
          key ∈ (scanJobs scan (selectAllJobs (jobsReducer s a))).pendingFiles ∨ wonAfter a won key := by
        intro key hwait
        rw [mem_scanJobs hunique]
        rcases hwait with hold | ⟨rfl, hpending⟩
        · rcases hI.waits remotePath scan hview key hold with hmem | hwon
          · by_cases hsucceeded : SucceededIn (selectAllJobs (jobsReducer s a)) key
            · rcases storedSuccess_jobsReducer hsucceeded.storedSuccess with hthis | hbefore
              · exact .inr (.inr hthis)
              · exact .inr (.inl (hstored key hbefore))
            · exact .inl (.inr ⟨hmem, hsucceeded⟩)
          · exact .inr (.inl hwon)
        · exact .inl (.inl ⟨job, hjob, hid, by rw [hresult]; exact hpending⟩)
      rcases FolderPage.event_jobs hview hunique with ⟨-, hevent⟩ | ⟨hnone, hevent⟩
      · rw [hevent]
        exact hI.load hwaits
      · -- no load: what has been successful was so before
        have hwon : ∀ key, wonAfter a won key → won key := by
          rintro key (hold | ⟨rfl, hsucceeded⟩)
          · exact hold
          · rcases hI.waits remotePath scan hview _ (hsucceeds hsucceeded) with hmem | hold
            · exact absurd hmem (hnone _ ⟨job, hjob, hid, by rw [hresult]; exact hsucceeded⟩)
            · exact hold
        rw [hevent]
        refine ⟨hI.asked, ?_, ?_, ?_, hI.blank, ?_⟩
        · intro k request s' hmem
          obtain ⟨hlt, hrunning⟩ := hI.listed k request s' hmem
          refine ⟨hlt, fun r hr => ?_⟩
          obtain ⟨hsame, hs, hfinished⟩ := hrunning r hr
          exact ⟨hsame, hs, fun key hkey' => hfinished key (hwon key hkey')⟩
        · intro k r hr
          obtain ⟨remotePath', scan', hview', hr'⟩ := hI.subscribed k r hr
          rw [hview] at hview'
          obtain ⟨rfl, rfl⟩ := Prod.mk.inj (Option.some_inj.mp hview')
          exact ⟨remotePath, _, rfl, hr'⟩
        · intro remotePath' scan' hview' key hwait
          obtain ⟨rfl, rfl⟩ := Prod.mk.inj (Option.some_inj.mp hview')
          exact hwaits key hwait
        · intro remotePath' scan' hview'
          obtain ⟨rfl, rfl⟩ := Prod.mk.inj (Option.some_inj.mp hview')
          exact (hI.shown remotePath scan hview).mono (fun _ hs => hs) (fun _ _ ha => ha) hwon

/-- Adding alternatives one by one is adding them all. -/
theorem foldl_or_iff {α β : Type} {Q : α → β → Prop} {l : List α} {P : β → Prop} {b : β} :
    l.foldl (fun P a b => P b ∨ Q a b) P b ↔ P b ∨ ∃ a ∈ l, Q a b := by
  induction l generalizing P with
  | nil => simp
  | cons a rest ih =>
      rw [List.foldl_cons, ih]
      simp only [List.mem_cons, exists_eq_or_imp, or_assoc]

/-- After a list of actions those jobs are won that were, and those for which an action reports success. -/
theorem foldl_wonAfter {actions : List JobsAction} {key : JobId} :
    actions.foldl (fun won a => wonAfter a won) won key ↔
      won key ∨ ∃ a ∈ actions, a.write.jobId = key ∧ hasSucceed a.write.result = true :=
  foldl_or_iff (Q := fun (a : JobsAction) key => a.write.jobId = key ∧ hasSucceed a.write.result = true)

/-- After a list of actions those jobs may wait that did, and those for which an action starts a poll. -/
theorem foldl_waitingAfter {actions : List JobsAction} {key : JobId} :
    actions.foldl (fun waiting a => waitingAfter a waiting) waiting key ↔
      waiting key ∨ ∃ a ∈ actions, a.write.jobId = key ∧ isPending a.write.result = true :=
  foldl_or_iff (Q := fun (a : JobsAction) key => a.write.jobId = key ∧ isPending a.write.result = true)

/-- Each of the actions writes under an id with a request: its own, that of one before it, or that in the store. -/
def Requested (s : JobState) : List JobsAction → Prop
  | [] => True
  | a :: rest => (jobsReducer s a).jobIdToRequest[a.write.jobId]?.isSome = true ∧ Requested (jobsReducer s a) rest

/-- The page sees the actions of an event, one after the other. -/
theorem FolderInv.seesActions {s : JobState} {actions : List JobsAction} (hI : FolderInv W current answered won waiting listed p)
    (hsucceeds : ∀ a ∈ actions, hasSucceed a.write.result = true → waiting a.write.jobId)
    (hkey : Requested s actions) (hstored : ∀ key, StoredSuccess s key → won key) :
    FolderInv W current answered (actions.foldl (fun won a => wonAfter a won) won)
      (actions.foldl (fun waiting a => waitingAfter a waiting) waiting) listed (p.sees (jobEmissions s actions)) := by
  induction actions generalizing s p won waiting with
  | nil => exact hI
  | cons a rest ih =>
      obtain ⟨hown, hrest⟩ := hkey
      have hfirst : FolderInv W current answered (wonAfter a won) (waitingAfter a waiting) listed
          (p.event (.jobs (selectAllJobs (jobsReducer s a)))) :=
        hI.seesAction (hsucceeds a List.mem_cons_self) hown hstored
      refine ih hfirst ?_ hrest ?_
      · intro b hb hsucceeded
        exact .inl (hsucceeds b (List.mem_cons_of_mem a hb) hsucceeded)
      · intro key hsuccess
        rcases storedSuccess_jobsReducer hsuccess with hthis | hold
        · exact .inr hthis
        · exact .inl (hstored key hold)

end

/-! ## One event of the jobs -/

section
variable {events : List JobsEvent} {p p' : JobsPage} {e : JobsEvent} {key : JobId} {actions : List JobsAction}
  {task : Option JobTask}

/-- What a step of the jobs' effects adds to the jobs that are won. -/
theorem Moves.won_iff (hM : Moves p e p' actions task) :
    Won p' key ↔ Won p key ∨ ∃ a ∈ actions, a.write.jobId = key ∧ hasSucceed a.write.result = true := by
  unfold Won
  rw [hM.log]
  simp only [List.mem_append, or_and_right, exists_or, List.mem_map]
  refine or_congr_right ⟨?_, ?_⟩
  · rintro ⟨entry, ⟨a, ha, rfl⟩, hid, hsucceeded⟩
    exact ⟨a, ha, hid, hsucceeded⟩
  · rintro ⟨a, ha, hid, hsucceeded⟩
    exact ⟨_, ⟨a, ha, rfl⟩, hid, hsucceeded⟩

/-- What is waited for was so before, or has just been written as pending. -/
theorem Reacts.waiting {counter : ℕ} {old new : Option JobTask} (hR : Reacts counter e old actions new)
    (hnew : (∃ request, new = some (.uploading key request)) ∨ ∃ inFlight, new = some (.polling key inFlight)) :
    (∃ inFlight, old = some (.polling key inFlight)) ∨
      ∃ a ∈ actions, a.write.jobId = key ∧ isPending a.write.result = true := by
  cases hR with
  | upload =>
      rcases hnew with ⟨request, hsome⟩ | ⟨inFlight, hsome⟩
      · cases hsome
        exact .inr ⟨_, List.mem_singleton_self _, rfl, rfl⟩
      · cases hsome
  | accepted =>
      rcases hnew with ⟨request, hsome⟩ | ⟨inFlight, hsome⟩
      · cases hsome
      · cases hsome
        exact .inr ⟨_, List.mem_cons_self, rfl, rfl⟩
  | tick | tickIgnored | statusRefused | status =>
      rcases hnew with ⟨request, hsome⟩ | ⟨inFlight, hsome⟩
      · cases hsome
      · cases hsome
        exact .inl ⟨_, rfl⟩
  | submit | uploadRefused | uploaded | refused | failed | finished =>
      rcases hnew with ⟨request, hsome⟩ | ⟨inFlight, hsome⟩ <;> cases hsome

/-- A job that waits after a step waited before it or is put to wait by it. -/
theorem Moves.waiting (hM : Moves p e p' actions task) (h : Waiting p' key) :
    Waiting p key ∨ ∃ a ∈ actions, a.write.jobId = key ∧ isPending a.write.result = true := by
  obtain ⟨k, htask⟩ := h
  rw [hM.tasks] at htask
  split at htask
  · next hk =>
      subst hk
      rcases hM.reacts.waiting htask with ⟨inFlight, hold⟩ | hwritten
      · exact .inl ⟨_, .inr ⟨inFlight, hold⟩⟩
      · exact .inr hwritten
  · exact .inl ⟨k, htask⟩

/-- An action about an id that has a request, or that brings one. -/
theorem isSome_request {s : JobState} {a : JobsAction}
    (h : a.write.request.isSome = true ∨ s.jobIdToRequest[a.write.jobId]?.isSome = true) :
    (jobsReducer s a).jobIdToRequest[a.write.jobId]?.isSome = true := by
  rw [jobsReducer_request, JobsAction.requestUnder, if_pos rfl, Option.isSome_or, Bool.or_eq_true]
  exact h

/-- An action about a job follows the one that stored its request. -/
theorem Reacts.requested {counter : ℕ} {old new : Option JobTask} (hR : Reacts counter e old actions new)
    (hI : JobsInv events p) (hold : p.tasks[e.submission p]? = old) : Requested p.jobs actions := by
  cases hR with
  | upload | uploaded | failed => exact ⟨isSome_request (.inl rfl), trivial⟩
  | @accepted k now jobid request =>
      have hfirst : (jobsReducer p.jobs (.assignJobId (serverJobId jobid) request toPending)).jobIdToRequest[
          serverJobId jobid]?.isSome = true := isSome_request (.inl rfl)
      exact ⟨hfirst, isSome_request (.inr hfirst), trivial⟩
  | tick | status | finished =>
      have hwaiting : Waiting p _ := ⟨_, .inr ⟨_, hold⟩⟩
      exact ⟨isSome_request (.inr (hwaiting.stored hI)), trivial⟩
  | submit | uploadRefused | refused | tickIgnored | statusRefused => trivial

end

/-! ## The invariant of the loop -/

/-- The server was in the state since the folder shown was opened: nothing has been opened or left after it. -/
def SinceOpened (W : FolderServer S) (s₀ : S) (as : List (FolderAction S)) (s : S) : Prop :=
  ∃ before after l, as = before ++ after ∧ run W.step (.init s₀) before = some l ∧ l.server = s ∧
    ∀ a ∈ after, a.moves = false

/-- The action brings this answer to the request of this number, which is subscribed to: the connection fails, or what the
    server has given arrives. -/
def FolderLoop.Brings (W : FolderServer S) (l : FolderLoop S) (a : FolderAction S) (k : ℕ)
    (answer : HttpAnswer ListFolderResponse) : Prop :=
  (∃ r, l.folder.store.requests.running = some (k, r)) ∧
    ((∃ error, a = .lose k error ∧ answer = .failed error) ∨
      ∃ i request s, a = .arrive i ∧ l.listed[i]? = some (k, request, s) ∧ answer = W.list s request)

/-- The request of this number was answered so. -/
def AnsweredIn (W : FolderServer S) (s₀ : S) (as : List (FolderAction S)) (k : ℕ) (answer : HttpAnswer ListFolderResponse) : Prop :=
  ∃ before a after l, as = before ++ a :: after ∧ run W.step (.init s₀) before = some l ∧ l.Brings W a k answer

/-- The events of the jobs among the actions. -/
def jobEvents (as : List (FolderAction S)) : List JobsEvent :=
  as.filterMap fun
    | .jobs e => some e
    | _ => none

/-- What holds after the actions `as`: the server's state was reached, and the two halves are in their invariants. -/
structure FolderLoopInv (W : FolderServer S) (s₀ : S) (as : List (FolderAction S)) (l : FolderLoop S) : Prop where
  reached : run W.step (.init s₀) as = some l
  jobs : JobsInv (jobEvents as) l.jobs
  owned : Owned l.jobs
  honest : ∀ key, Won l.jobs key → key ∈ W.finished l.server
  folder : FolderInv W (SinceOpened W s₀ as) (AnsweredIn W s₀ as) (Won l.jobs) (Waiting l.jobs) l.listed l.folder

section
variable {W : FolderServer S} {s₀ : S} {as : List (FolderAction S)} {a : FolderAction S} {l l' : FolderLoop S}

/-- The events of the jobs' effects are taken in order. -/
theorem jobEvents_snoc (as : List (FolderAction S)) (a : FolderAction S) : jobEvents (as ++ [a]) = jobEvents as ++ jobEvents [a] :=
  List.filterMap_append ..

/-- The jobs after an action that is none of theirs. -/
theorem FolderLoopInv.otherJobs (hI : FolderLoopInv W s₀ as l) (ha : jobEvents [a] = []) :
    JobsInv (jobEvents (as ++ [a])) l.jobs := by
  rw [jobEvents_snoc, ha, List.append_nil]
  exact hI.jobs

/-- An action that does not move the page leaves its past since the opening in place. -/
theorem SinceOpened.snoc {s : S} (h : SinceOpened W s₀ as s) (ha : a.moves = false) : SinceOpened W s₀ (as ++ [a]) s := by
  obtain ⟨before, after, m, rfl, hrun, hs, hafter⟩ := h
  refine ⟨before, after ++ [a], m, List.append_assoc _ _ _, hrun, hs, fun b hb => ?_⟩
  rcases List.mem_append.mp hb with hold | hlast
  · exact hafter b hold
  · rw [List.mem_singleton.mp hlast]
    exact ha

/-- An answer that was given has been given. -/
theorem AnsweredIn.snoc {k : ℕ} {answer : HttpAnswer ListFolderResponse} (h : AnsweredIn W s₀ as k answer) :
    AnsweredIn W s₀ (as ++ [a]) k answer := by
  obtain ⟨before, b, after, m, rfl, hrun, hbrings⟩ := h
  exact ⟨before, b, after ++ [a], m, List.append_assoc _ _ _, hrun, hbrings⟩

/-- An answer that the last action brings. -/
theorem FolderLoopInv.answeredNow (hI : FolderLoopInv W s₀ as l) {k : ℕ} {answer : HttpAnswer ListFolderResponse}
    (h : l.Brings W a k answer) : AnsweredIn W s₀ (as ++ [a]) k answer :=
  ⟨as, a, [], l, rfl, hI.reached, h⟩

/-- The server's present state, before an action that opens nothing. -/
theorem FolderLoopInv.present (hI : FolderLoopInv W s₀ as l) (ha : a.moves = false) :
    SinceOpened W s₀ (as ++ [a]) l.server := by
  refine ⟨as, [a], l, rfl, hI.reached, rfl, fun b hb => ?_⟩
  rw [List.mem_singleton.mp hb]
  exact ha

/-- The page after an action that opens nothing and leaves it alone. -/
theorem FolderLoopInv.still (hI : FolderLoopInv W s₀ as l) (ha : a.moves = false) :
    FolderInv W (SinceOpened W s₀ (as ++ [a])) (AnsweredIn W s₀ (as ++ [a])) (Won l.jobs) (Waiting l.jobs) l.listed l.folder :=
  hI.folder.mono (fun _ hs => hs.snoc ha) (fun _ _ hanswer => hanswer.snoc) (fun _ => Iff.rfl) fun _ => .inl

/-- The jobs' effects take a step, and the page sees the actions it makes. -/
theorem FolderLoopInv.jobsStep (hI : FolderLoopInv W s₀ as l) {e : JobsEvent}
    (hD : DistinctIds (jobEvents (as ++ [.jobs e]))) (hs : W.step l (.jobs e) = some l') : FolderLoopInv W s₀ (as ++ [.jobs e]) l' := by
  have hreached : run W.step (.init s₀) (as ++ [.jobs e]) = some l' :=
    run_append.mpr ⟨l, hI.reached, run_cons.mpr ⟨l', hs, rfl⟩⟩
  have hjobs := hI.jobs
  rw [jobEvents_snoc] at hD
  replace hs : (if (reportedSuccess l.jobs e).all (· ∈ W.finished l.server) then l.jobsEvent e else none) = some l' := hs
  split at hs
  · next hhonest =>
      obtain ⟨jobs, hstep, rfl⟩ := Option.map_eq_some_iff.mp hs
      obtain ⟨actions, task, hM⟩ := hjobs.moves hstep
      have hnew : (jobs.log.drop l.jobs.log.length).map Prod.snd = actions := by
        rw [hM.log, List.drop_left, List.map_map]
        exact List.map_id actions
      -- a success that is written is one that the server has just reported
      have hsuccess : ∀ a ∈ actions, hasSucceed a.write.result = true →
          Waiting l.jobs a.write.jobId ∧ reportedSuccess l.jobs e = some a.write.jobId :=
        fun a ha hsucceeded => hM.reacts.success rfl ha hsucceeded
      have hjobs' : JobsInv (jobEvents (as ++ [.jobs e])) jobs := by
        rw [jobEvents_snoc]
        exact hjobs.step hstep
      refine ⟨hreached, hjobs', hI.owned.step hjobs hD hstep, fun key hkey => ?_, ?_⟩
      · rcases hM.won_iff.mp hkey with hold | ⟨a, ha, rfl, hsucceeded⟩
        · exact hI.honest key hold
        · rw [(hsuccess a ha hsucceeded).2, Option.all_some, decide_eq_true_iff] at hhonest
          exact hhonest
      -- the page sees the lists one action at a time
      · have hsees := hI.folder.seesActions
          (fun a ha hsucceeded => (hsuccess a ha hsucceeded).1) (hM.reacts.requested hjobs rfl)
          fun key hstored => hstored.won hjobs
        show FolderInv W _ _ (Won jobs) (Waiting jobs) l.listed
          (l.folder.sees (jobEmissions l.jobs.jobs ((jobs.log.drop l.jobs.log.length).map Prod.snd)))
        rw [hnew]
        refine hsees.mono (fun s hs => hs.snoc rfl) (fun _ _ hanswer => hanswer.snoc) (fun key => ?_) fun key hwaiting => .inl ?_
        · exact hM.won_iff.trans foldl_wonAfter.symm
        · exact foldl_waitingAfter.mpr (hM.waiting hwaiting)
  · cases hs

/-- **The answer to a listing arrives**, or its connection fails: what is not the answer to the latest request is
    dropped. -/
theorem FolderInv.answered {current : S → Prop} {answered : ℕ → HttpAnswer ListFolderResponse → Prop}
    {won waiting : JobId → Prop} {listed listed' : List (ℕ × LoadItems × S)} {p : FolderPage} {k : ℕ}
    {answer : HttpAnswer ListFolderResponse} (hI : FolderInv W current answered won waiting listed p)
    (hlisted : listed'.Subset listed)
    (hanswer : ∀ r, p.store.requests.running = some (k, r) → answered k answer ∧
      ((∃ error, answer = .failed error) ∨
        ∃ s, current s ∧ answer = W.list s r ∧ ∀ key, won key → key ∈ W.finished s)) :
    FolderInv W current answered won waiting listed' { p with store := p.store.arrives k answer } := by
  cases hrunning : p.store.requests.takes k with
  -- the answer is to an earlier request: nobody takes it
  | none =>
      have hsame : p.store.arrives k answer = p.store := by
        unfold FolderListViewStore.arrives
        rw [hrunning]
      rw [hsame]
      exact ⟨hI.asked, fun k request s hmem => hI.listed k request s (hlisted hmem), hI.subscribed, hI.waits, hI.blank,
        hI.shown⟩
  -- the answer is to the latest request, which is thereby over
  | some r =>
      have hstore : p.store.arrives k answer = ⟨answer.result.getD p.store.items, p.store.requests.stop⟩ := by
        unfold FolderListViewStore.arrives
        rw [hrunning]
      rw [Latest.takes_eq_some] at hrunning
      rw [hstore]
      have hidle : ∀ {j : ℕ} {r' : LoadItems} {P : Prop}, p.store.requests.stop.running = some (j, r') → P := by
        intro j r' P hr'
        cases hr'
      refine ⟨fun j request hmem => ⟨(hI.asked j request hmem).1, fun r' hr' => hidle hr'⟩,
        fun j request s hmem => ⟨(hI.listed j request s (hlisted hmem)).1, fun r' hr' => hidle hr'⟩,
        fun j r' hr' => hidle hr', hI.waits, fun j r' hr' => hidle hr', ?_⟩
      intro remotePath scan hview
      obtain ⟨remotePath', scan', hview', rfl⟩ := hI.subscribed k r hrunning
      obtain ⟨rfl, rfl⟩ := Prod.mk.inj (Option.some_inj.mp (hview.symm.trans hview'))
      obtain ⟨hnow, hwhence⟩ := hanswer _ hrunning
      have hlatest : LatestAnswer answered ⟨answer.result.getD p.store.items, p.store.requests.stop⟩ answer :=
        ⟨k, p.store.requests.latest k _ hrunning, hnow⟩
      rcases hwhence with ⟨error, rfl⟩ | ⟨s, hs, rfl, hfinished⟩
      · exact .inr (.inl ⟨error, rfl, hlatest⟩)
      · cases hlist : W.list s (loadItems remotePath) with
        | ok response =>
            rw [hlist] at hlatest
            exact .inl ⟨response, s, rfl, hlatest, hs, hlist, hfinished⟩
        | failed error =>
            rw [hlist] at hlatest
            exact .inr (.inl ⟨error, rfl, hlatest⟩)
        | unauthorized =>
            rw [hlist] at hlatest
            exact .inr (.inr ⟨hI.blank k _ hrunning, .inr ⟨hlatest, s, hs, hlist⟩⟩)

/-- **Another folder is opened**: it is loaded, and the scan starts with what is under way now. -/
theorem FolderLoopInv.navigateStep (hI : FolderLoopInv W s₀ as l) (remotePath : RemotePath) :
    FolderInv W (SinceOpened W s₀ (as ++ [.navigate remotePath])) (AnsweredIn W s₀ (as ++ [.navigate remotePath])) (Won l.jobs)
      (Waiting l.jobs) l.listed (l.folder.navigate remotePath (selectAllJobs l.jobs.jobs)) := by
  have hloaded : FolderInv W (SinceOpened W s₀ (as ++ [.navigate remotePath])) (AnsweredIn W s₀ (as ++ [.navigate remotePath]))
      (Won l.jobs) (fun _ => False) l.listed (l.folder.event (.remotePath remotePath)) := by
    show FolderInv W _ _ _ _ _ ({ l.folder with view := some (remotePath, .initial) }.load (loadItems remotePath))
    exact hI.folder.load fun key hkey => hkey.elim
  have hview : (l.folder.event (.remotePath remotePath)).view = some (remotePath, .initial) := rfl
  have hunique := nodup_keys_selectAllJobs l.jobs.jobs
  unfold FolderPage.navigate
  rcases FolderPage.event_jobs hview hunique with
    ⟨⟨key, -, hmem⟩, -⟩ | ⟨-, hevent⟩
  · cases hmem
  · rw [hevent]
    refine ⟨hloaded.asked, hloaded.listed, ?_, ?_, hloaded.blank, ?_⟩
    · intro k r hr
      obtain ⟨remotePath', scan, hview, hr'⟩ := hloaded.subscribed k r hr
      obtain ⟨rfl, rfl⟩ := Prod.mk.inj (Option.some_inj.mp hview)
      exact ⟨remotePath, _, rfl, hr'⟩
    · intro remotePath' scan hview key hkey
      obtain ⟨rfl, rfl⟩ := Prod.mk.inj (Option.some_inj.mp hview)
      exact .inl ((mem_scanJobs hunique).mpr (.inl (hkey.pending hI.jobs hI.owned)))
    · intro remotePath' scan hview
      obtain ⟨rfl, rfl⟩ := Prod.mk.inj (Option.some_inj.mp hview)
      exact hloaded.shown remotePath .initial rfl

/-- **The page is left.** -/
theorem FolderInv.leave {current current' : S → Prop} {answered answered' : ℕ → HttpAnswer ListFolderResponse → Prop}
    {won waiting : JobId → Prop} {listed : List (ℕ × LoadItems × S)} {p : FolderPage}
    (hI : FolderInv W current answered won waiting listed p) : FolderInv W current' answered' won waiting listed p.leave := by
  have hidle : ∀ {j : ℕ} {r : LoadItems} {P : Prop}, p.leave.store.requests.running = some (j, r) → P := by
    intro j r P hr
    cases hr
  refine ⟨fun k request hmem => ⟨(hI.asked k request hmem).1, fun r hr => hidle hr⟩,
    fun k request s hmem => ⟨(hI.listed k request s hmem).1, fun r hr => hidle hr⟩, fun k r hr => hidle hr, ?_,
    fun k r hr => hidle hr, ?_⟩
  · intro remotePath scan hview
    cases hview
  · intro remotePath scan hview
    cases hview

/-- The step lemma: one case for each kind of action. -/
theorem FolderLoopInv.step (hI : FolderLoopInv W s₀ as l) (hD : DistinctIds (jobEvents (as ++ [a]))) (hs : W.step l a = some l') :
    FolderLoopInv W s₀ (as ++ [a]) l' := by
  have hreached : run W.step (.init s₀) (as ++ [a]) = some l' :=
    run_append.mpr ⟨l, hI.reached, run_cons.mpr ⟨l', hs, rfl⟩⟩
  cases a with
  | jobs e => exact hI.jobsStep hD hs
  | navigate remotePath =>
      cases hs
      exact ⟨hreached, hI.otherJobs rfl, hI.owned, hI.honest, hI.navigateStep remotePath⟩
  | leave =>
      cases hs
      exact ⟨hreached, hI.otherJobs rfl, hI.owned, hI.honest, hI.folder.leave⟩
  -- the listing is given now, on the state of the server now, which knows of every job that is won
  | list i =>
      have hstill := hI.still (a := .list i) rfl
      have hpresent := hI.present (a := .list i) rfl
      simp only [FolderServer.step] at hs
      split at hs
      · cases hs
      · next k request hi =>
          cases hs
          have hmem := List.mem_of_getElem? hi
          refine ⟨hreached, hI.otherJobs rfl, hI.owned, hI.honest, ⟨?_, ?_, hstill.subscribed, hstill.waits, hstill.blank, hstill.shown⟩⟩
          · intro j r hr
            exact hstill.asked j r (List.mem_of_mem_eraseIdx hr)
          · intro j r s hr
            rcases List.mem_append.mp hr with hold | hnew
            · exact hstill.listed j r s hold
            · obtain ⟨rfl, rfl, rfl⟩ := List.mem_singleton.mp hnew
              obtain ⟨hlt, hsame⟩ := hstill.asked _ _ hmem
              exact ⟨hlt, fun r hr => ⟨hsame r hr, hpresent, hI.honest⟩⟩
  -- what arrives was given on a state recorded with it
  | arrive i =>
      have hstill := hI.still (a := .arrive i) rfl
      simp only [FolderServer.step] at hs
      split at hs
      · cases hs
      · next k request s hi =>
          cases hs
          have hmem := List.mem_of_getElem? hi
          refine ⟨hreached, hI.otherJobs rfl, hI.owned, hI.honest, hstill.answered (List.eraseIdx_subset) fun r hr => ?_⟩
          obtain ⟨rfl, hs, hfinished⟩ := (hstill.listed _ _ _ hmem).2 r hr
          exact ⟨hI.answeredNow ⟨⟨request, hr⟩, .inr ⟨i, request, s, rfl, hi, rfl⟩⟩, .inr ⟨s, hs, rfl, hfinished⟩⟩
  -- a lost connection is answered with its error
  | lose k error =>
      cases hs
      have hstill := hI.still (a := .lose k error) rfl
      refine ⟨hreached, hI.otherJobs rfl, hI.owned, hI.honest, hstill.answered (List.Subset.refl _) fun r hr => ?_⟩
      exact ⟨hI.answeredNow ⟨⟨r, hr⟩, .inl ⟨error, rfl, rfl⟩⟩, .inl ⟨error, rfl⟩⟩
  -- the server moves on, and what has finished stays finished
  | server s =>
      simp only [FolderServer.step] at hs
      split at hs
      · next hsubset =>
          cases hs
          exact ⟨hreached, hI.otherJobs rfl, hI.owned, fun key hkey => hsubset (hI.honest key hkey), hI.still rfl⟩
      · cases hs

end

end RCloneCloud
