import RCloneCloud.Ui.JobsEffects

/-!
# `Ui.JobLife` — the life of a submission

Seen from one submission, the effects are a small machine: an upload or another request is sent, a job of the
server is then polled, and each event makes it dispatch at most two actions. `Reacts` is that machine; every
step of the page is one step of it for one submission (`step_reacts`). What a submission has written into the
store so far, and with which results, follows from its task alone.

A `JobWrite` is what one action puts into the store, whichever of the three actions it is, so the store after any list
of actions is the last write for each id (`reduced_result`, `reduced_request`). `Moves` says of a step of the page
that it is one move of the machine for one submission and nothing for the others; each event of the page has its
lemma, and `step_reacts` is their conclusion.
-/

set_option autoImplicit false

namespace RCloneCloud

open Lib

/-! ## What an action writes -/

/-- The entry an action of the jobs writes: under an id, a result and, unless it only sets a result, a
    request. -/
structure JobWrite where
  jobId : JobId
  request : Option JobRequest
  result : Result Unit

/-- What an action writes: under which id, with which request, if any, and with which result. -/
def JobsAction.write : JobsAction → JobWrite
  | .setSubmitJobFailed request result now => ⟨failedJobId now, some request, result.asVoid⟩
  | .assignJobId jobId request result => ⟨jobId, some request, result⟩
  | .setJobResult jobId result => ⟨jobId, none, result⟩

/-- The result that the action stores under the id. -/
def JobsAction.resultUnder (id : JobId) (a : JobsAction) : Option (Result Unit) :=
  if a.write.jobId = id then some a.write.result else none

/-- The request that the action stores under the id. -/
def JobsAction.requestUnder (id : JobId) (a : JobsAction) : Option JobRequest :=
  if a.write.jobId = id then a.write.request else none

/-- The reducer stores the result of an action under its id and leaves the other results alone. -/
theorem jobsReducer_result (s : JobState) (a : JobsAction) (id : JobId) :
    (jobsReducer s a).jobIdToResult[id]? = (a.resultUnder id).or s.jobIdToResult[id]? := by
  have hinsert : ∀ {k : JobId} {v : Result Unit}, (s.jobIdToResult.insert k v)[id]?
      = (if k = id then some v else none).or s.jobIdToResult[id]? := by
    intro k v
    rw [JsMap.getElem?_insert]
    split <;> rfl
  cases a <;> exact hinsert

/-- The reducer stores the request of an action under its id, if it carries one. -/
theorem jobsReducer_request (s : JobState) (a : JobsAction) (id : JobId) :
    (jobsReducer s a).jobIdToRequest[id]? = (a.requestUnder id).or s.jobIdToRequest[id]? := by
  have hinsert : ∀ {k : JobId} {v : JobRequest}, (s.jobIdToRequest.insert k v)[id]?
      = (if k = id then some v else none).or s.jobIdToRequest[id]? := by
    intro k v
    rw [JsMap.getElem?_insert]
    split <;> rfl
  cases a with
  | setSubmitJobFailed request result now => exact hinsert
  | assignJobId jobId request result => exact hinsert
  | setJobResult jobId result =>
      show s.jobIdToRequest[id]? = (if jobId = id then none else none).or s.jobIdToRequest[id]?
      rw [ite_self]
      rfl

/-- A fold that replaces what it has by what it finds ends with the last thing found. -/
theorem foldl_or_getLast? {α β : Type} (f : α → Option β) (l : List α) :
    ∀ b : Option β, l.foldl (fun b a => (f a).or b) b = (l.filterMap f).getLast?.or b := by
  induction l with
  | nil => exact fun b => rfl
  | cons a rest ih =>
      intro b
      rw [List.foldl_cons, ih, List.filterMap_cons]
      cases f a with
      | none => rfl
      | some v =>
          show _ = (v :: rest.filterMap f).getLast?.or b
          rw [List.getLast?_cons]
          cases (rest.filterMap f).getLast? <;> rfl

/-- The result under an id is the last one stored there. -/
theorem reduced_result (actions : List JobsAction) (id : JobId) :
    (actions.foldl jobsReducer .initial).jobIdToResult[id]?
      = (actions.filterMap (JobsAction.resultUnder id)).getLast? := by
  -- the state is general, as the fold carries what was stored before
  have hfold : ∀ s : JobState, (actions.foldl jobsReducer s).jobIdToResult[id]?
      = actions.foldl (fun b a => (a.resultUnder id).or b) s.jobIdToResult[id]? := by
    induction actions with
    | nil => exact fun s => rfl
    | cons a rest ih =>
        intro s
        rw [List.foldl_cons, ih, jobsReducer_result]
        rfl
  rw [hfold, foldl_or_getLast?]
  simp [JobState.initial]

/-- The request under an id is the last one stored there. -/
theorem reduced_request (actions : List JobsAction) (id : JobId) :
    (actions.foldl jobsReducer .initial).jobIdToRequest[id]?
      = (actions.filterMap (JobsAction.requestUnder id)).getLast? := by
  have hfold : ∀ s : JobState, (actions.foldl jobsReducer s).jobIdToRequest[id]?
      = actions.foldl (fun b a => (a.requestUnder id).or b) s.jobIdToRequest[id]? := by
    induction actions with
    | nil => exact fun s => rfl
    | cons a rest ih =>
        intro s
        rw [List.foldl_cons, ih, jobsReducer_request]
        rfl
  rw [hfold, foldl_or_getLast?]
  simp [JobState.initial]

/-! ## One submission -/

/-- The submission that an event is about. -/
def JobsEvent.submission (p : JobsPage) : JobsEvent → Nat
  | .submitJob _ => p.submissions
  | .uploadResponse k _ => k
  | .submitResponse k _ _ => k
  | .pollTick k => k
  | .pollResponse k _ => k

/-- How a submission reacts to an event: its task before, the actions dispatched, its task after. -/
inductive Reacts (counter : Nat) : JobsEvent → Option JobTask → List JobsAction → Option JobTask → Prop
  | upload {request : JobRequest} (h : request.isUpload = true) :
      Reacts counter (.submitJob request) none [.assignJobId (uploadJobId counter) request toPending]
        (some (.uploading (uploadJobId counter) request))
  | submit {request : JobRequest} (h : request.isUpload = false) :
      Reacts counter (.submitJob request) none [] (some (.submitting request))
  | uploadRefused {k : Nat} {id : JobId} {request : JobRequest} :
      Reacts counter (.uploadResponse k .unauthorized) (some (.uploading id request)) [] none
  | uploaded {k : Nat} {id : JobId} {request : JobRequest} {answer : HttpAnswer Unit} {result : Result Unit}
      (h : answer.result = some result) :
      Reacts counter (.uploadResponse k answer) (some (.uploading id request))
        [.assignJobId id request result.asVoid] none
  | refused {k now : Nat} {request : JobRequest} :
      Reacts counter (.submitResponse k .unauthorized now) (some (.submitting request)) [] none
  | failed {k now : Nat} {request : JobRequest} {e : JsError} :
      Reacts counter (.submitResponse k (.failed e) now) (some (.submitting request))
        [.setSubmitJobFailed request (toFailure e) now] none
  | accepted {k now jobid : Nat} {request : JobRequest} :
      Reacts counter (.submitResponse k (.ok jobid) now) (some (.submitting request))
        [.assignJobId (serverJobId jobid) request toPending, .setJobResult (serverJobId jobid) toPending]
        (some (.polling (serverJobId jobid) false))
  | tick {k : Nat} {id : JobId} :
      Reacts counter (.pollTick k) (some (.polling id false)) [.setJobResult id toPending]
        (some (.polling id true))
  | tickIgnored {k : Nat} {id : JobId} :
      Reacts counter (.pollTick k) (some (.polling id true)) [] (some (.polling id true))
  | statusRefused {k : Nat} {id : JobId} :
      Reacts counter (.pollResponse k .unauthorized) (some (.polling id true)) []
        (some (.polling id false))
  | status {k : Nat} {id : JobId} {answer : HttpAnswer JobStatus} {result : Result JobStatus}
      (h : answer.result = some result) (hpending : pollResult result = toPending) :
      Reacts counter (.pollResponse k answer) (some (.polling id true)) [.setJobResult id toPending]
        (some (.polling id false))
  | finished {k : Nat} {id : JobId} {answer : HttpAnswer JobStatus} {result : Result JobStatus}
      (h : answer.result = some result) (hterminal : (pollResult result).terminal = true) :
      Reacts counter (.pollResponse k answer) (some (.polling id true)) [.setJobResult id (pollResult result)]
        none

/-- What a polled status is stored as is pending or final. -/
theorem pollResult_cases (result : Result JobStatus) (h : isPending result = false ∨ hasFailed result = false) :
    pollResult result = toPending ∨ (pollResult result).terminal = true := by
  unfold pollResult
  split
  · rename_i hfailed
    rcases h with hno | hno
    · exact .inr (by simp_all [Result.terminal, Result.asVoid, hasFailed])
    · rw [hno] at hfailed
      cases hfailed
  · split
    · exact .inl rfl
    · cases result.data with
      | none => exact .inl rfl
      | some status =>
          show (if _ then _ else _) = _ ∨ Result.terminal (if _ then _ else _) = _
          split
          · exact .inr rfl
          · split
            · exact .inr rfl
            · exact .inl rfl

/-- An answer other than a redirect to the login gives a final result. -/
theorem HttpAnswer.result_terminal {T : Type} {answer : HttpAnswer T} {result : Result T}
    (h : answer.result = some result) : result.asVoid.terminal = true ∧ isPending result = false := by
  cases answer with
  | ok body => cases h; exact ⟨rfl, rfl⟩
  | failed e => cases h; exact ⟨rfl, rfl⟩
  | unauthorized => cases h

/-- A step of the page, seen from the submission it is about. -/
structure Moves (p : JobsPage) (e : JobsEvent) (p' : JobsPage) (actions : List JobsAction) (task : Option JobTask) :
    Prop where
  reacts : Reacts p.uploadCounter e p.tasks[e.submission p]? actions task
  log : p'.log = p.log ++ actions.map (Prod.mk (e.submission p))
  jobs : p'.jobs = actions.foldl jobsReducer p.jobs
  tasks : ∀ j, p'.tasks[j]? = if e.submission p = j then task else p.tasks[j]?
  submissions : p'.submissions = p.submissions + (match e with | .submitJob _ => 1 | _ => 0)
  uploadCounter : p'.uploadCounter =
    p.uploadCounter + (match e with | .submitJob r => if r.isUpload then 1 else 0 | _ => 0)

section
variable {p p' : JobsPage} {e : JobsEvent}

/-- Starting a subscription of one submission leaves those of the others. -/
theorem tasks_insert (m : Std.ExtTreeMap Nat JobTask compare) (k j : Nat) (t : JobTask) :
    (m.insert k t)[j]? = if k = j then some t else m[j]? := by
  simp [Std.ExtTreeMap.getElem?_insert]

/-- Ending one leaves those of the others. -/
theorem tasks_erase (m : Std.ExtTreeMap Nat JobTask compare) (k j : Nat) :
    (m.erase k)[j]? = if k = j then none else m[j]? := by
  simp [Std.ExtTreeMap.getElem?_erase]

/-- `startPolling$` after an assignment looks up the request just assigned. -/
theorem assignJobId_eq (k : Nat) (id : JobId) (request : JobRequest) (result : Result Unit) (p : JobsPage) :
    assignJobId k id request result p =
      if request.isUpload then p.dispatch k (.assignJobId id request result)
      else pollJobStatus k id (p.dispatch k (.assignJobId id request result)) := by
  have hlookup : selectJobRequest id (p.dispatch k (.assignJobId id request result)).jobs = some request := by
    show (p.jobs.jobIdToRequest.insert id request)[id]? = _
    rw [JsMap.getElem?_insert, if_pos rfl]
  rw [assignJobId, startPolling, hlookup, Option.any_some]

/-- A submission sends its request; an upload has its id at once. -/
theorem moves_submitJob {request : JobRequest} (hnew : p.tasks[p.submissions]? = none) :
    ∃ actions task, Moves p (.submitJob request) (p.submitJob request) actions task := by
  cases hkind : request.isUpload with
  | true =>
      let id := uploadJobId p.uploadCounter
      have hstep : p.submitJob request =
          ({ p with submissions := p.submissions + 1, uploadCounter := p.uploadCounter + 1 }.setTask p.submissions
            (.uploading id request)).dispatch p.submissions (.assignJobId id request toPending) := by
        simp only [JobsPage.submitJob, assignJobId_eq, hkind, if_true]
        rfl
      refine ⟨[.assignJobId id request toPending], some (.uploading id request), ?_⟩
      rw [hstep]
      refine ⟨?_, rfl, rfl, fun j => tasks_insert _ _ _ _, rfl, by simp [hkind]; rfl⟩
      show Reacts _ _ p.tasks[p.submissions]? _ _
      rw [hnew]
      exact .upload hkind
  | false =>
      have hstep : p.submitJob request =
          { p with submissions := p.submissions + 1 }.setTask p.submissions (.submitting request) := by
        simp only [JobsPage.submitJob, hkind, Bool.false_eq_true, if_false]
      refine ⟨[], some (.submitting request), ?_⟩
      rw [hstep]
      refine ⟨?_, (List.append_nil _).symm, rfl, fun j => tasks_insert _ _ _ _, rfl, by simp [hkind]; rfl⟩
      show Reacts _ _ p.tasks[p.submissions]? _ _
      rw [hnew]
      exact .submit hkind

/-- The answer to an upload is its final result, unless it is a redirect to the login. -/
theorem moves_uploadResponse {k : Nat} {id : JobId} {request : JobRequest} {answer : HttpAnswer Unit}
    (htask : p.tasks[k]? = some (.uploading id request)) (hkind : request.isUpload = true) :
    ∃ actions task, Moves p (.uploadResponse k answer) (p.uploadResponse k id request answer) actions task := by
  cases hresult : answer.result with
  | none =>
      obtain rfl : answer = .unauthorized := by cases answer <;> first | rfl | cases hresult
      refine ⟨[], none, ?_, (List.append_nil _).symm, rfl, fun j => tasks_erase _ _ _, rfl, rfl⟩
      show Reacts _ _ p.tasks[k]? _ _
      rw [htask]
      exact .uploadRefused
  | some result =>
      have hstep : p.uploadResponse k id request answer =
          (p.endTask k).dispatch k (.assignJobId id request result.asVoid) := by
        simp only [JobsPage.uploadResponse, hresult, assignJobId_eq, hkind, if_true]
      refine ⟨[.assignJobId id request result.asVoid], none, ?_⟩
      rw [hstep]
      refine ⟨?_, rfl, rfl, fun j => tasks_erase _ _ _, rfl, rfl⟩
      show Reacts _ _ p.tasks[k]? _ _
      rw [htask]
      exact .uploaded hresult

/-- The answer to another request gives the job its number, stores the failure under an id of its own, or redirects. -/
theorem moves_submitResponse {k now : Nat} {request : JobRequest} {answer : HttpAnswer Nat}
    (htask : p.tasks[k]? = some (.submitting request)) (hkind : request.isUpload = false) :
    ∃ actions task, Moves p (.submitResponse k answer now) (p.submitResponse k request answer now)
      actions task := by
  cases answer with
  -- the page goes away to the login, and nothing is written
  | unauthorized =>
      refine ⟨[], none, ?_, (List.append_nil _).symm, rfl, fun j => tasks_erase _ _ _, rfl, rfl⟩
      show Reacts _ _ p.tasks[k]? _ _
      rw [htask]
      exact .refused
  | failed err =>
      refine ⟨[.setSubmitJobFailed request (toFailure err) now], none, ?_, rfl, rfl,
        fun j => tasks_erase _ _ _, rfl, rfl⟩
      show Reacts _ _ p.tasks[k]? _ _
      rw [htask]
      exact .failed
  -- the job gets its number and is polled from now on
  | ok jobid =>
      let id := serverJobId jobid
      have hstep : p.submitResponse k request (.ok jobid) now =
          pollJobStatus k id ((p.endTask k).dispatch k (.assignJobId id request toPending)) := by
        show assignJobId k id request toPending (p.endTask k) = _
        rw [assignJobId_eq, hkind]
        rfl
      refine ⟨[.assignJobId id request toPending, .setJobResult id toPending], some (.polling id false), ?_⟩
      rw [hstep]
      refine ⟨?_, List.append_assoc _ _ _, rfl, fun j => ?_, rfl, rfl⟩
      · show Reacts _ _ p.tasks[k]? _ _
        rw [htask]
        exact .accepted
      · show ((p.tasks.erase k).insert k (.polling id false))[j]? = if k = j then _ else _
        rw [tasks_insert, tasks_erase]
        split <;> rfl

/-- A tick asks for the status, unless a status request is under way. -/
theorem moves_pollTick {k : Nat} {id : JobId} {inFlight : Bool}
    (htask : p.tasks[k]? = some (.polling id inFlight)) :
    ∃ actions task, Moves p (.pollTick k) (p.pollTick k id inFlight) actions task := by
  cases inFlight with
  | true =>
      refine ⟨[], some (.polling id true), ?_, (List.append_nil _).symm, rfl, fun j => ?_, rfl, rfl⟩
      · show Reacts _ _ p.tasks[k]? _ _
        rw [htask]
        exact .tickIgnored
      · show p.tasks[j]? = if k = j then _ else _
        split
        · rename_i hkj
          rw [← hkj, htask]
        · rfl
  | false =>
      refine ⟨[.setJobResult id toPending], some (.polling id true), ?_, rfl, rfl,
        fun j => tasks_insert _ _ _ _, rfl, rfl⟩
      show Reacts _ _ p.tasks[k]? _ _
      rw [htask]
      exact .tick

/-- A status that says nothing final is stored as pending; a final one ends the polling. -/
theorem moves_pollResponse {k : Nat} {id : JobId} {answer : HttpAnswer JobStatus}
    (htask : p.tasks[k]? = some (.polling id true)) :
    ∃ actions task, Moves p (.pollResponse k answer) (p.pollResponse k id answer) actions task := by
  cases hresult : answer.result with
  -- a redirect: the polling waits for its next tick
  | none =>
      obtain rfl : answer = .unauthorized := by cases answer <;> first | rfl | cases hresult
      refine ⟨[], some (.polling id false), ?_, (List.append_nil _).symm, rfl,
        fun j => tasks_insert _ _ _ _, rfl, rfl⟩
      show Reacts _ _ p.tasks[k]? _ _
      rw [htask]
      exact .statusRefused
  | some result =>
      -- the status says nothing final and the polling goes on, or it ends here
      rcases pollResult_cases result (.inl (HttpAnswer.result_terminal hresult).2) with hpending | hterminal
      · have hstep : p.pollResponse k id answer =
            (p.dispatch k (.setJobResult id toPending)).setTask k (.polling id false) := by
          simp only [JobsPage.pollResponse, hresult, hpending, terminal_toPending, Bool.false_eq_true, if_false]
        refine ⟨[.setJobResult id toPending], some (.polling id false), ?_⟩
        rw [hstep]
        refine ⟨?_, rfl, rfl, fun j => tasks_insert _ _ _ _, rfl, rfl⟩
        show Reacts _ _ p.tasks[k]? _ _
        rw [htask]
        exact .status hresult hpending
      · have hstep : p.pollResponse k id answer =
            (p.dispatch k (.setJobResult id (pollResult result))).endTask k := by
          simp only [JobsPage.pollResponse, hresult, hterminal, if_true]
        refine ⟨[.setJobResult id (pollResult result)], none, ?_⟩
        rw [hstep]
        refine ⟨?_, rfl, rfl, fun j => tasks_erase _ _ _, rfl, rfl⟩
        show Reacts _ _ p.tasks[k]? _ _
        rw [htask]
        exact .finished hresult hterminal

/-- **A step of the page is a step of one submission.** A request that is being sent is no upload, and an
    upload's request is one; the next submission has no task yet. -/
theorem step_reacts
    (hsub : ∀ (k : Nat) (r : JobRequest), p.tasks[k]? = some (JobTask.submitting r) → r.isUpload = false)
    (hup : ∀ (k : Nat) (id : JobId) (r : JobRequest), p.tasks[k]? = some (JobTask.uploading id r) →
      r.isUpload = true)
    (hnew : p.tasks[p.submissions]? = none) (h : p.step e = some p') :
    ∃ actions task, Moves p e p' actions task := by
  -- an event that the task does not wait for is not possible
  cases e with
  | submitJob request =>
      cases h
      exact moves_submitJob hnew
  | uploadResponse k answer =>
      simp only [JobsPage.step] at h
      split at h
      · cases h
        exact moves_uploadResponse ‹_› (hup _ _ _ ‹_›)
      · cases h
  | submitResponse k answer now =>
      simp only [JobsPage.step] at h
      split at h
      · cases h
        exact moves_submitResponse ‹_› (hsub _ _ ‹_›)
      · cases h
  | pollTick k =>
      simp only [JobsPage.step] at h
      split at h
      · cases h
        exact moves_pollTick ‹_›
      · cases h
  | pollResponse k answer =>
      simp only [JobsPage.step] at h
      split at h
      · cases h
        exact moves_pollResponse ‹_›
      · cases h

end

end RCloneCloud
