import RCloneCloud.Ui.JobsMonotone

/-!
# `Ui.PollVerdict` — what the polling of a job makes of the server's answers

The polling stores a pending result for every answer that says nothing final. The first answer that does, a
record with an error, a record with success, or a status request that failed, is stored as it is and ends the
polling. The record's `finished` is not read.

`verdict` is what one answer says, in the terms of the source's checks: the error first, the success flag second, and
nothing about `finished`. `Polled` follows one submission through a run, before its polling, during it and after it,
and `polled_verdict` reads the three cases back in terms of what the server has reported. For records that rclone
really gives (`Regular`) a finished job always has a verdict.
-/

set_option autoImplicit false

namespace RCloneCloud

open Lib

/-! ## Answers -/

/-- A `JobStatusResponse`, with the flag that the effect does not read. -/
structure JobStatusResponse extends JobStatus where
  finished : Bool
deriving DecidableEq

/-- What the effect reads of an answer. -/
def HttpAnswer.read : HttpAnswer JobStatusResponse → HttpAnswer JobStatus
  | .ok body => .ok body.toJobStatus
  | .failed error => .failed error
  | .unauthorized => .unauthorized

/-- The answers to the status requests of a submission, in order. -/
def statusAnswers (k : Nat) (events : List JobsEvent) : List (HttpAnswer JobStatus) :=
  events.filterMap fun
    | .pollResponse j answer => if j = k then some answer else none
    | _ => none

/-- The ids under which the server accepted the job of a submission. -/
def acceptedFor (k : Nat) (events : List JobsEvent) : List Nat :=
  events.filterMap fun
    | .submitResponse j (.ok jobid) _ => if j = k then some jobid else none
    | _ => none

/-- **The verdict of an answer**, if it has one: a failed request is one; a 401 is not. -/
def HttpAnswer.verdict : HttpAnswer JobStatus → Option (Result Unit)
  | .ok status =>
      if status.error ≠ [] then some (toFailure ⟨status.error⟩)
      else if status.success then some (toSuccess ())
      else none
  | .failed error => some (toFailure error)
  | .unauthorized => none

section
variable {answer : HttpAnswer JobStatus} {result : Result JobStatus}

/-- What is stored for an answer is its verdict; without one it is pending. -/
theorem pollResult_eq_verdict (h : answer.result = some result) :
    pollResult result = answer.verdict.getD toPending := by
  cases answer with
  | ok status =>
      obtain rfl := Option.some_inj.mp h
      show (if status.error ≠ [] then toFailure ⟨status.error⟩ else if status.success then toSuccess () else toPending)
        = (if status.error ≠ [] then some (toFailure ⟨status.error⟩)
            else if status.success then some (toSuccess ()) else none).getD toPending
      split_ifs <;> rfl
  | failed error =>
      obtain rfl := Option.some_inj.mp h
      rfl
  | unauthorized => cases h

/-- A verdict is a final result. -/
theorem HttpAnswer.verdict_terminal {final : Result Unit} (h : answer.verdict = some final) :
    final.terminal = true ∧ isPending final = false := by
  cases answer with
  | ok status =>
      change (if status.error ≠ [] then some (toFailure ⟨status.error⟩)
        else if status.success then some (toSuccess ()) else none) = some final at h
      split_ifs at h <;> cases h <;> exact ⟨rfl, rfl⟩
  | failed error =>
      cases h
      exact ⟨rfl, rfl⟩
  | unauthorized => cases h

/-- An answer that is stored as pending says nothing final. -/
theorem verdict_of_pending (h : answer.result = some result) (hpending : pollResult result = toPending) :
    answer.verdict = none := by
  cases hverdict : answer.verdict with
  | none => rfl
  | some final =>
      rw [pollResult_eq_verdict h, hverdict, Option.getD_some] at hpending
      have hfinal := (HttpAnswer.verdict_terminal hverdict).2
      rw [hpending] at hfinal
      cases hfinal

/-- An answer that is stored as final is its verdict. -/
theorem verdict_of_terminal (h : answer.result = some result) (hterminal : (pollResult result).terminal = true) :
    answer.verdict = some (pollResult result) := by
  cases hverdict : answer.verdict with
  | none =>
      rw [pollResult_eq_verdict h, hverdict, Option.getD_none] at hterminal
      cases hterminal
  | some final => rw [pollResult_eq_verdict h, hverdict, Option.getD_some]

end

/-! ## The polling along a run -/

/-- How far the job of a submission is: not accepted, polled with no verdict so far, or settled by the last
    answer. -/
inductive Polled (k : Nat) (events : List JobsEvent) (p : JobsPage) : Prop
  | notYet (haccepted : acceptedFor k events = []) (hanswers : statusAnswers k events = [])
      (htask : ∀ id inFlight, p.tasks[k]? ≠ some (.polling id inFlight))
  | polling (jobid : Nat) (inFlight : Bool) (haccepted : acceptedFor k events = [jobid])
      (htask : p.tasks[k]? = some (.polling (serverJobId jobid) inFlight))
      (hanswers : ∀ answer ∈ statusAnswers k events, answer.verdict = none)
  | settled (jobid : Nat) (before : List (HttpAnswer JobStatus)) (last : HttpAnswer JobStatus)
      (final : Result Unit) (haccepted : acceptedFor k events = [jobid]) (htask : p.tasks[k]? = none)
      (hanswers : statusAnswers k events = before ++ [last]) (hbefore : ∀ answer ∈ before, answer.verdict = none)
      (hlast : last.verdict = some final) (hwrite : (p.writes k).getLast? = some ⟨serverJobId jobid, none, final⟩)

/-- The status answers of a run are taken in order. -/
theorem statusAnswers_snoc (k : Nat) (events : List JobsEvent) (e : JobsEvent) :
    statusAnswers k (events ++ [e]) = statusAnswers k events ++ statusAnswers k [e] :=
  List.filterMap_append ..

/-- So are the numbers accepted for a submission. -/
theorem acceptedFor_snoc (k : Nat) (events : List JobsEvent) (e : JobsEvent) :
    acceptedFor k (events ++ [e]) = acceptedFor k events ++ acceptedFor k [e] :=
  List.filterMap_append ..

section
variable {events : List JobsEvent} {p p' : JobsPage} {e : JobsEvent} {k : Nat}

/-- An event about another submission says nothing about this one. -/
theorem other_event (hk : e.submission p ≠ k) : statusAnswers k [e] = [] ∧ acceptedFor k [e] = [] := by
  cases e with
  | submitJob request => exact ⟨rfl, rfl⟩
  | uploadResponse j answer => exact ⟨rfl, rfl⟩
  | submitResponse j answer now =>
      have hj : j ≠ k := hk
      cases answer with
      | ok jobid => exact ⟨rfl, by simp [acceptedFor, hj]⟩
      | failed error => exact ⟨rfl, rfl⟩
      | unauthorized => exact ⟨rfl, rfl⟩
  | pollTick j => exact ⟨rfl, rfl⟩
  | pollResponse j answer =>
      have hj : j ≠ k := hk
      exact ⟨by simp [statusAnswers, hj], rfl⟩

/-- A status response is the submission's own. -/
@[simp] theorem statusAnswers_own (k : Nat) (answer : HttpAnswer JobStatus) :
    statusAnswers k [.pollResponse k answer] = [answer] := by
  simp [statusAnswers]

/-- So is an accepted number. -/
@[simp] theorem acceptedFor_own (k jobid now : Nat) : acceptedFor k [.submitResponse k (.ok jobid) now] = [jobid] := by
  simp [acceptedFor]

/-- What is not polled, nor was, has no answers. -/
theorem Polled.unpolled (hP : Polled k events p) (htask : ∀ id inFlight, p.tasks[k]? ≠ some (.polling id inFlight))
    (hwrites : p.tasks[k]? = none → p.writes k = []) : acceptedFor k events = [] ∧ statusAnswers k events = [] := by
  cases hP with
  | notYet haccepted hanswers _ => exact ⟨haccepted, hanswers⟩
  | polling jobid inFlight _ hpolling _ => exact absurd hpolling (htask _ _)
  | settled jobid before last final _ hended _ _ _ hwrite =>
      rw [hwrites hended] at hwrite
      cases hwrite

/-- What is polled has been accepted once, and has had no verdict. -/
theorem Polled.accepted_of_polling (hP : Polled k events p) {id : JobId} {inFlight : Bool}
    (htask : p.tasks[k]? = some (.polling id inFlight)) :
    ∃ jobid, id = serverJobId jobid ∧ acceptedFor k events = [jobid] ∧
      ∀ answer ∈ statusAnswers k events, answer.verdict = none := by
  cases hP with
  | notYet _ _ hno => exact absurd htask (hno _ _)
  | polling jobid inFlight' haccepted hpolling hanswers =>
      cases hpolling.symm.trans htask
      exact ⟨jobid, rfl, haccepted, hanswers⟩
  | settled jobid before last final _ hended _ _ _ _ => cases hended.symm.trans htask

/-- An event before the polling. -/
theorem Polled.quiet (hP : Polled k events p) (htask : ∀ id inFlight, p.tasks[k]? ≠ some (.polling id inFlight))
    (hwrites : p.tasks[k]? = none → p.writes k = []) (haccepted : acceptedFor k [e] = [])
    (hanswers : statusAnswers k [e] = []) (hnew : ∀ id inFlight, p'.tasks[k]? ≠ some (.polling id inFlight)) :
    Polled k (events ++ [e]) p' := by
  obtain ⟨hnone, hempty⟩ := hP.unpolled htask hwrites
  refine .notYet ?_ ?_ hnew
  · rw [acceptedFor_snoc, hnone, haccepted, List.append_nil]
  · rw [statusAnswers_snoc, hempty, hanswers, List.append_nil]

/-- An event of the polling without a verdict. -/
theorem Polled.goes_on (hP : Polled k events p) {id : JobId} {inFlight inFlight' : Bool}
    (htask : p.tasks[k]? = some (.polling id inFlight)) (haccepted : acceptedFor k [e] = [])
    (hanswers : ∀ answer ∈ statusAnswers k [e], answer.verdict = none)
    (hnew : p'.tasks[k]? = some (.polling id inFlight')) : Polled k (events ++ [e]) p' := by
  obtain ⟨jobid, rfl, hone, hopen⟩ := hP.accepted_of_polling htask
  refine .polling jobid inFlight' ?_ hnew ?_
  · rw [acceptedFor_snoc, hone, haccepted, List.append_nil]
  · intro answer hanswer
    rw [statusAnswers_snoc] at hanswer
    rcases List.mem_append.mp hanswer with hbefore | hlast
    · exact hopen answer hbefore
    · exact hanswers answer hlast

/-- A step of another submission. -/
theorem Polled.other_step (hP : Polled k events p) {actions : List JobsAction} {task : Option JobTask}
    (hM : Moves p e p' actions task) (hk : e.submission p ≠ k) : Polled k (events ++ [e]) p' := by
  obtain ⟨hanswers, haccepted⟩ := other_event hk
  have htask : p'.tasks[k]? = p.tasks[k]? := by rw [hM.tasks, if_neg hk]
  have hwrites : p'.writes k = p.writes k := by rw [hM.writes, if_neg (Ne.symm hk), List.append_nil]
  cases hP with
  | notYet hnone hempty hnot =>
      refine .notYet ?_ ?_ ?_
      · rw [acceptedFor_snoc, hnone, haccepted, List.append_nil]
      · rw [statusAnswers_snoc, hempty, hanswers, List.append_nil]
      · rwa [htask]
  | polling jobid inFlight hone hpolling hopen =>
      refine .polling jobid inFlight ?_ ?_ ?_
      · rw [acceptedFor_snoc, hone, haccepted, List.append_nil]
      · rwa [htask]
      · rwa [statusAnswers_snoc, hanswers, List.append_nil]
  | settled jobid before last final hone hended hsplit hbefore hlast hwrite =>
      refine .settled jobid before last final ?_ ?_ ?_ hbefore hlast ?_
      · rw [acceptedFor_snoc, hone, haccepted, List.append_nil]
      · rwa [htask]
      · rw [statusAnswers_snoc, hsplit, hanswers, List.append_nil]
      · rwa [hwrites]

/-- **One step.** -/
theorem Polled.step (hI : JobsInv events p) (hP : Polled k events p) (h : p.step e = some p') :
    Polled k (events ++ [e]) p' := by
  obtain ⟨actions, task, hM⟩ := hI.moves h
  by_cases hk : e.submission p ≠ k
  · exact hP.other_step hM hk
  · obtain rfl : e.submission p = k := not_not.mp hk
    have htask : p'.tasks[e.submission p]? = task := by rw [hM.tasks, if_pos rfl]
    have hwrites := hM.writes (e.submission p)
    rw [if_pos rfl] at hwrites
    have hR := hM.reacts
    generalize hold : p.tasks[e.submission p]? = old at hR
    cases hR with
    | upload hkind =>
        -- the number is new: nothing was written under it
        have hnothing : p.writes p.submissions = [] := (hI.beyond _ (Nat.le_refl _)).2
        exact hP.quiet (by simp [hold]) (fun _ => hnothing) rfl rfl (by simp [htask])
    | submit hkind =>
        have hnothing : p.writes p.submissions = [] := (hI.beyond _ (Nat.le_refl _)).2
        exact hP.quiet (by simp [hold]) (fun _ => hnothing) rfl rfl (by simp [htask])
    | uploadRefused => exact hP.quiet (by simp [hold]) (by simp [hold]) rfl rfl (by simp [htask])
    | uploaded hresult => exact hP.quiet (by simp [hold]) (by simp [hold]) rfl rfl (by simp [htask])
    | refused => exact hP.quiet (by simp [hold]) (by simp [hold]) rfl rfl (by simp [htask])
    | failed => exact hP.quiet (by simp [hold]) (by simp [hold]) rfl rfl (by simp [htask])
    | @accepted j now jobid request =>
        obtain ⟨hnone, hempty⟩ := hP.unpolled (by simp [hold]) (by simp [hold])
        refine .polling jobid false ?_ htask ?_
        · rw [acceptedFor_snoc, hnone, JobsEvent.submission, acceptedFor_own]
          rfl
        · rw [statusAnswers_snoc, hempty]
          intro answer hanswer
          cases hanswer
    | tick => exact hP.goes_on hold rfl (by simp [statusAnswers]) htask
    | tickIgnored => exact hP.goes_on hold rfl (by simp [statusAnswers]) htask
    | statusRefused =>
        refine hP.goes_on hold rfl (fun answer hanswer => ?_) htask
        rw [JobsEvent.submission, statusAnswers_own, List.mem_singleton] at hanswer
        rw [hanswer]
        rfl
    | status hresult hpending =>
        refine hP.goes_on hold rfl (fun answer hanswer => ?_) htask
        rw [JobsEvent.submission, statusAnswers_own, List.mem_singleton] at hanswer
        rw [hanswer]
        exact verdict_of_pending hresult hpending
    | @finished j id answer result hresult hterminal =>
        obtain ⟨jobid, rfl, hone, hopen⟩ := hP.accepted_of_polling hold
        refine .settled jobid (statusAnswers _ events) answer (pollResult result) ?_ htask ?_ hopen
          (verdict_of_terminal hresult hterminal) ?_
        · rw [acceptedFor_snoc, hone]
          rfl
        · rw [statusAnswers_snoc, JobsEvent.submission, statusAnswers_own]
        · rw [hwrites, List.map_singleton, List.getLast?_concat]
          rfl

/-- The run lemma, for each submission. -/
theorem polled_run (h : run JobsPage.step .initial events = some p) (k : Nat) : Polled k events p := by
  have hinv : JobsInv events p ∧ Polled k events p := by
    refine run_beginnings (C := fun _ => True) (I := fun events p => JobsInv events p ∧ Polled k events p)
      (fun _ _ _ => trivial) ⟨jobsInv_initial, ?_⟩ ?_ trivial h
    · exact .notYet rfl rfl (by simp [JobsPage.initial])
    · rintro events e p p' - ⟨hI, hP⟩ hs
      exact ⟨hI.step hs, hP.step hI hs⟩
  exact hinv.2

/-! ## The verdict -/

/-- A record of a job that went well. -/
def ReportsSuccess (response : HttpAnswer JobStatusResponse) : Prop :=
  ∃ status, response = .ok status ∧ status.error = [] ∧ status.success = true

/-- A record with an error, or no record: the request has failed. -/
def ReportsFailure (response : HttpAnswer JobStatusResponse) : Prop :=
  (∃ error, response = .failed error) ∨ ∃ status, response = .ok status ∧ status.error ≠ []

/-- A record of a job that is still going on, or a 401. -/
def ReportsUnfinished (response : HttpAnswer JobStatusResponse) : Prop :=
  response = .unauthorized ∨
    ∃ status, response = .ok status ∧ status.finished = false ∧ status.error = [] ∧ status.success = false

/-- The records that rclone keeps of a job: while it goes on there is neither success nor an error, and at its end
    there is an error exactly if it was no success. -/
def JobStatusResponse.Regular (status : JobStatusResponse) : Prop :=
  (status.finished = false → status.error = [] ∧ status.success = false) ∧
    (status.finished = true → (status.success = true ↔ status.error = []))

/-- A verdict on a record is a report of success or of failure. -/
theorem verdict_read {response : HttpAnswer JobStatusResponse} {final : Result Unit}
    (h : response.read.verdict = some final) :
    (hasSucceed final = true ∧ ReportsSuccess response) ∨ (hasFailed final = true ∧ ReportsFailure response) := by
  cases response with
  | ok status =>
      change (if status.error ≠ [] then some (toFailure ⟨status.error⟩)
        else if status.success then some (toSuccess ()) else none) = some final at h
      split_ifs at h with herror hsuccess
      · cases h
        exact .inr ⟨rfl, .inr ⟨status, rfl, herror⟩⟩
      · cases h
        exact .inl ⟨rfl, status, rfl, not_not.mp herror, hsuccess⟩
  | failed error =>
      cases h
      exact .inr ⟨rfl, .inl ⟨error, rfl⟩⟩
  | unauthorized => cases h

/-- A record without a verdict reports neither. -/
theorem verdict_read_none {response : HttpAnswer JobStatusResponse} (h : response.read.verdict = none) :
    ¬ (ReportsSuccess response ∨ ReportsFailure response) := by
  rintro (⟨status, rfl, herror, hsuccess⟩ | ⟨error, rfl⟩ | ⟨status, rfl, herror⟩)
  · simp [HttpAnswer.read, HttpAnswer.verdict, herror, hsuccess] at h
  · cases h
  · simp [HttpAnswer.read, HttpAnswer.verdict, herror] at h

/-- A record of a job under way has no verdict. -/
theorem ReportsUnfinished.verdict {response : HttpAnswer JobStatusResponse} (h : ReportsUnfinished response) :
    response.read.verdict = none := by
  rcases h with rfl | ⟨status, rfl, -, herror, hsuccess⟩
  · rfl
  · simp [HttpAnswer.read, HttpAnswer.verdict, herror, hsuccess]

/-- No result is both. -/
theorem not_success_and_failure {result : Result Unit} (h : hasSucceed result = true) : hasFailed result = false := by
  simp only [hasSucceed, Bool.and_eq_true, Option.isNone_iff_eq_none] at h
  rw [hasFailed, h.1]
  rfl

/-- **Where the polling stands** with the last result stored: it is pending and the timer runs, or it is final, an
    answer says so and the timer is stopped. -/
inductive PollStands (k : Nat) (events : List JobsEvent) (p : JobsPage) (id : JobId) : Result Unit → Prop
  | waiting (inFlight : Bool) (htask : p.tasks[k]? = some (.polling id inFlight))
      (hopen : ∀ answer ∈ statusAnswers k events, answer.verdict = none) : PollStands k events p id toPending
  | settled (final : Result Unit) (htask : p.tasks[k]? = none) (answer : HttpAnswer JobStatus)
      (hanswer : answer ∈ statusAnswers k events) (hverdict : answer.verdict = some final) :
      PollStands k events p id final

/-- The last write of a submission that the server has accepted. -/
theorem polled_last_write (h : run JobsPage.step .initial events = some p) {jobid : Nat}
    (haccepted : jobid ∈ acceptedFor k events) :
    ∃ w, (p.writes k).getLast? = some w ∧ w.jobId = serverJobId jobid ∧
      PollStands k events p (serverJobId jobid) w.result := by
  have hI := jobsInv_run h
  cases polled_run h k with
  | notYet hnone _ _ =>
      rw [hnone] at haccepted
      cases haccepted
  | polling jobid' inFlight hone htask hanswers =>
      obtain rfl : jobid = jobid' := by rwa [hone, List.mem_singleton] at haccepted
      obtain ⟨request, -, hne, hof, hpending⟩ := hI.request_of_task htask
      refine ⟨_, List.getLast?_eq_getLast_of_ne_nil hne, hof.same _ (List.getLast_mem hne), ?_⟩
      rw [hpending _ (List.getLast_mem hne)]
      exact .waiting inFlight htask hanswers
  | settled jobid' before last final hone htask hsplit hbefore hlast hwrite =>
      obtain rfl : jobid = jobid' := by rwa [hone, List.mem_singleton] at haccepted
      exact ⟨_, hwrite, rfl, .settled final htask last (by rw [hsplit]; simp) hlast⟩

/-- A tick of the timer, while the job is polled, leaves a status request in flight. -/
theorem pollTick_polling {id : JobId} {inFlight : Bool} (htask : p.tasks[k]? = some (.polling id inFlight)) :
    ∃ p', p.step (.pollTick k) = some p' ∧ p'.tasks[k]? = some (.polling id true) := by
  refine ⟨p.pollTick k id inFlight, by simp only [JobsPage.step, htask], ?_⟩
  cases inFlight with
  | true => exact htask
  | false =>
      show (Std.ExtTreeMap.insert _ k (JobTask.polling id true))[k]? = _
      rw [tasks_insert, if_pos rfl]

/-- Without a task there are neither ticks nor answers. -/
theorem polling_stopped (htask : p.tasks[k]? = none) :
    p.step (.pollTick k) = none ∧ ∀ answer, p.step (.pollResponse k answer) = none := by
  refine ⟨by simp only [JobsPage.step, htask], fun answer => ?_⟩
  simp only [JobsPage.step, htask]

/-- Under distinct ids the store holds the last write. -/
theorem stored_last_write (h : run JobsPage.step .initial events = some p) (hD : DistinctIds events) {w : JobWrite}
    (hw : (p.writes k).getLast? = some w) : p.jobs.jobIdToResult[w.jobId]? = some w.result := by
  have hI := jobsInv_run h
  obtain ⟨a, ha, rfl⟩ := JobsPage.mem_writes.mp (List.mem_of_getLast? hw)
  rw [hI.result_eq, storedResults_eq hI (owned_run hD h) ha, List.getLast?_map, hw]
  rfl

section
variable {id : JobId} {result : Result Unit} {responses : List (HttpAnswer JobStatusResponse)}

/-- A final result has an answer behind it. -/
theorem PollStands.reported (h : PollStands k events p id result)
    (hresponses : statusAnswers k events = responses.map HttpAnswer.read)
    (hterminal : hasSucceed result = true ∨ hasFailed result = true) : ∃ response ∈ responses,
      (hasSucceed result = true ∧ ReportsSuccess response) ∨ (hasFailed result = true ∧ ReportsFailure response) := by
  cases h with
  | waiting inFlight htask hopen => rcases hterminal with hno | hno <;> cases hno
  | settled _ htask answer hanswer hverdict =>
      rw [hresponses] at hanswer
      obtain ⟨response, hresponse, rfl⟩ := List.mem_map.mp hanswer
      exact ⟨response, hresponse, verdict_read hverdict⟩

/-- A success that is stored was reported by one of the responses. -/
theorem PollStands.success (h : PollStands k events p id result)
    (hresponses : statusAnswers k events = responses.map HttpAnswer.read) (hsucceeded : hasSucceed result = true) :
    ∃ response ∈ responses, ReportsSuccess response := by
  obtain ⟨response, hresponse, ⟨-, hreports⟩ | ⟨hfailed, -⟩⟩ := h.reported hresponses (.inl hsucceeded)
  · exact ⟨response, hresponse, hreports⟩
  · rw [not_success_and_failure hsucceeded] at hfailed
    cases hfailed

/-- So was a failure. -/
theorem PollStands.failure (h : PollStands k events p id result)
    (hresponses : statusAnswers k events = responses.map HttpAnswer.read) (hfailed : hasFailed result = true) :
    ∃ response ∈ responses, ReportsFailure response := by
  obtain ⟨response, hresponse, ⟨hsucceeded, -⟩ | ⟨-, hreports⟩⟩ := h.reported hresponses (.inr hfailed)
  · rw [not_success_and_failure hsucceeded] at hfailed
    cases hfailed
  · exact ⟨response, hresponse, hreports⟩

/-- Nothing but unfinished answers: the job is pending and is asked for again. -/
theorem PollStands.asks_again (h : PollStands k events p id result)
    (hresponses : statusAnswers k events = responses.map HttpAnswer.read)
    (hunfinished : ∀ response ∈ responses, ReportsUnfinished response) :
    result = toPending ∧ ∃ p', p.step (.pollTick k) = some p' ∧ p'.tasks[k]? = some (.polling id true) := by
  cases h with
  | waiting inFlight htask hopen => exact ⟨rfl, pollTick_polling htask⟩
  | settled _ htask answer hanswer hverdict =>
      rw [hresponses] at hanswer
      obtain ⟨response, hresponse, rfl⟩ := List.mem_map.mp hanswer
      rw [(hunfinished response hresponse).verdict] at hverdict
      cases hverdict

/-- An answer with a verdict: the job is not pending and is asked for no more. -/
theorem PollStands.stops (h : PollStands k events p id result)
    (hresponses : statusAnswers k events = responses.map HttpAnswer.read)
    (hreported : ∃ response ∈ responses, ReportsSuccess response ∨ ReportsFailure response) :
    isPending result = false ∧ p.step (.pollTick k) = none ∧ ∀ answer, p.step (.pollResponse k answer) = none := by
  cases h with
  | waiting inFlight htask hopen =>
      obtain ⟨response, hresponse, hreports⟩ := hreported
      refine absurd hreports (verdict_read_none (hopen _ ?_))
      rw [hresponses]
      exact List.mem_map_of_mem hresponse
  | settled _ htask answer hanswer hverdict => exact ⟨(HttpAnswer.verdict_terminal hverdict).2, polling_stopped htask⟩

end

section
variable {status : JobStatusResponse}

/-- A record with success, or with an error, is that of a finished job. -/
theorem JobStatusResponse.Regular.finished (h : status.Regular) (hfinal : status.error ≠ [] ∨ status.success = true) :
    status.finished = true := by
  by_contra hunfinished
  obtain ⟨herror, hsuccess⟩ := h.1 (Bool.eq_false_iff.mpr hunfinished)
  rcases hfinal with hthere | hthere
  · exact hthere herror
  · rw [hsuccess] at hthere
    cases hthere

/-- A finished job of rclone's has succeeded or has an error. -/
theorem JobStatusResponse.Regular.reports (h : status.Regular) (hfinished : status.finished = true) :
    ReportsSuccess (.ok status) ∨ ReportsFailure (.ok status) := by
  by_cases herror : status.error = []
  · exact .inl ⟨status, rfl, herror, (h.2 hfinished).mpr herror⟩
  · exact .inr (.inr ⟨status, rfl, herror⟩)

end

/-- **The polled verdict.** Of a job that the server has accepted, after any events and any answers to its status
    requests: the last result stored is a success only if a record reported success, and a failure only if a record
    reported an error or a request failed; while all the answers are unfinished the job is pending and is asked for
    again; once there was success, an error or a failed request, it is not. For the records that rclone keeps, the
    success and the error are those of a finished job. -/
theorem polled_verdict (h : run JobsPage.step .initial events = some p) {jobid : Nat}
    (haccepted : jobid ∈ acceptedFor k events) {responses : List (HttpAnswer JobStatusResponse)}
    (hresponses : statusAnswers k events = responses.map HttpAnswer.read) :
    ∃ w, (p.writes k).getLast? = some w ∧ w.jobId = serverJobId jobid ∧
      (DistinctIds events → p.jobs.jobIdToResult[serverJobId jobid]? = some w.result) ∧
      (hasSucceed w.result = true → ∃ response ∈ responses, ReportsSuccess response) ∧
      (hasFailed w.result = true → ∃ response ∈ responses, ReportsFailure response) ∧
      ((∀ response ∈ responses, ReportsUnfinished response) →
        w.result = toPending ∧
          ∃ p', p.step (.pollTick k) = some p' ∧ p'.tasks[k]? = some (.polling (serverJobId jobid) true)) ∧
      ((∃ response ∈ responses, ReportsSuccess response ∨ ReportsFailure response) →
        isPending w.result = false ∧ p.step (.pollTick k) = none ∧
          ∀ answer, p.step (.pollResponse k answer) = none) ∧
      ((∀ status, .ok status ∈ responses → status.Regular) →
        (hasSucceed w.result = true → ∃ status, .ok status ∈ responses ∧ status.finished = true ∧ status.success = true) ∧
        (hasFailed w.result = true → (∃ error, .failed error ∈ responses) ∨
          ∃ status, .ok status ∈ responses ∧ status.finished = true ∧ status.success = false) ∧
        ((∃ status, .ok status ∈ responses ∧ status.finished = true) →
          isPending w.result = false ∧ p.step (.pollTick k) = none ∧
            ∀ answer, p.step (.pollResponse k answer) = none)) := by
  obtain ⟨w, hw, hid, hstands⟩ := polled_last_write h haccepted
  refine ⟨w, hw, hid, fun hD => hid ▸ stored_last_write h hD hw, hstands.success hresponses, hstands.failure hresponses,
    hstands.asks_again hresponses, hstands.stops hresponses, fun hregular => ⟨?_, ?_, ?_⟩⟩
  · intro hsucceeded
    obtain ⟨response, hresponse, status, rfl, -, hsuccess⟩ := hstands.success hresponses hsucceeded
    exact ⟨status, hresponse, (hregular status hresponse).finished (.inr hsuccess), hsuccess⟩
  · intro hfailed
    obtain ⟨response, hresponse, ⟨error, rfl⟩ | ⟨status, rfl, herror⟩⟩ := hstands.failure hresponses hfailed
    · exact .inl ⟨error, hresponse⟩
    · have hfinished := (hregular status hresponse).finished (.inl herror)
      have hnosuccess : status.success ≠ true := mt ((hregular status hresponse).2 hfinished).mp herror
      exact .inr ⟨status, hresponse, hfinished, Bool.eq_false_iff.mpr hnosuccess⟩
  · rintro ⟨status, hresponse, hfinished⟩
    exact hstands.stops hresponses ⟨.ok status, hresponse, (hregular status hresponse).reports hfinished⟩

/-- A file is moved: the job is polled twice, first unfinished and then done. -/
def movedEvents : List JobsEvent :=
  [.submitJob (.moveFile (js "r") (js "a") (js "r") (js "b")), .submitResponse 0 (.ok 7) 0, .pollTick 0,
    .pollResponse 0 (.ok ⟨[], false⟩), .pollTick 0, .pollResponse 0 (.ok ⟨[], true⟩)]

/-- A move that is reported done: the success is stored, and no tick asks for its status again. -/
theorem polled_verdict_move :
    ∃ p w, run JobsPage.step .initial movedEvents = some p ∧ (p.writes 0).getLast? = some w ∧
      w.result = toSuccess () ∧ isPending w.result = false ∧ p.step (.pollTick 0) = none := by
  obtain ⟨p, hrun⟩ : ∃ p, run JobsPage.step .initial movedEvents = some p := ⟨_, rfl⟩
  have haccepted : 7 ∈ acceptedFor 0 movedEvents := by decide
  have hresponses : statusAnswers 0 movedEvents =
      [HttpAnswer.ok ⟨⟨[], false⟩, false⟩, .ok ⟨⟨[], true⟩, true⟩].map HttpAnswer.read := by decide
  obtain ⟨w, hw, -, -, -, -, -, hstops, -⟩ := polled_verdict hrun haccepted hresponses
  have hlast := hstops ⟨.ok ⟨⟨[], true⟩, true⟩, by decide, .inl ⟨_, rfl, rfl, rfl⟩⟩
  refine ⟨p, w, hrun, hw, ?_, hlast.1, hlast.2.1⟩
  cases hrun
  cases hw
  rfl

/-- The same move, whose first status request fails. -/
def timeoutEvents : List JobsEvent :=
  [.submitJob (.moveFile (js "r") (js "a") (js "r") (js "b")), .submitResponse 0 (.ok 7) 0, .pollTick 0,
    .pollResponse 0 (.failed ⟨js "timeout"⟩)]

/-- **A failed request is stored as a failed job**: the server has reported nothing, and is asked no more. -/
theorem polled_verdict_timeout :
    ∃ p, run JobsPage.step .initial timeoutEvents = some p ∧
      p.jobs.jobIdToResult[serverJobId 7]? = some (toFailure ⟨js "timeout"⟩) ∧
      (∀ status : JobStatusResponse, .ok status.toJobStatus ∉ statusAnswers 0 timeoutEvents) ∧
      p.step (.pollTick 0) = none := by
  obtain ⟨p, hrun⟩ : ∃ p, run JobsPage.step .initial timeoutEvents = some p := ⟨_, rfl⟩
  refine ⟨p, hrun, ?_, by simp [timeoutEvents, statusAnswers], ?_⟩
  · cases hrun
    decide
  · cases hrun
    rfl

end

end RCloneCloud
