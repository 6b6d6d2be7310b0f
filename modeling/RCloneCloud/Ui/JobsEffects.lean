import RCloneCloud.Ui.JobState
import RCloneCloud.Lib.Run

/-!
# `Ui.JobsEffects` — submitting jobs and polling their status

`submitJob$` sends a request for each submission, `startPolling$` and `pollJobStatus$` ask the server for the
status of each job until it has a final one. A step is one event from outside: a submission, a response, a
tick of a timer. The actions it makes the effects dispatch are reduced at once, before the next event.

Each submission has at most one subscription at a time: its request, or the polling of its job. The page also
keeps, for the statements only, the actions reduced so far, each with the submission it belongs to.

The operators are modelled by what their documentation says: under `mergeMap` each submission has an inner stream of
its own, so events of one do not end another's, and under `exhaustMap` a tick is passed over while a status request is
under way. An event that nothing waits for is not possible, which is why `step` is partial.
-/

set_option autoImplicit false

namespace RCloneCloud

/-! ## What the server answers -/

/-- The answer to a request; a 401 is turned into a redirect to the login page, and nothing is emitted. -/
inductive HttpAnswer (T : Type) where
  | ok (body : T)
  | failed (error : JsError)
  | unauthorized
deriving DecidableEq

/-- What `toResult` emits after its first, pending result. -/
def HttpAnswer.result {T : Type} : HttpAnswer T → Option (Result T)
  | .ok body => some (toSuccess body)
  | .failed error => some (toFailure error)
  | .unauthorized => none

/-- What is read of a `JobStatusResponse`. -/
structure JobStatus where
  error : JsString
  success : Bool
deriving DecidableEq

/-! ## The page -/

/-- What is going on for a submission. -/
inductive JobTask where
  /-- the POST of an upload -/
  | uploading (jobId : JobId) (request : JobRequest)
  /-- the POST of another job -/
  | submitting (request : JobRequest)
  /-- the timer of a job, with or without a status request in flight -/
  | polling (jobId : JobId) (inFlight : Bool)
deriving DecidableEq

/-- The store, the subscriptions by submission, and the log. -/
structure JobsPage where
  jobs : JobState
  uploadCounter : Nat
  /-- how many jobs were submitted: the next submission's number -/
  submissions : Nat
  tasks : Std.ExtTreeMap Nat JobTask compare
  log : List (Nat × JobsAction)

namespace JobsPage

/-- No job was submitted. -/
def initial : JobsPage := ⟨.initial, 0, 0, ∅, []⟩

/-- An action is reduced and noted with its submission. -/
def dispatch (p : JobsPage) (k : Nat) (a : JobsAction) : JobsPage :=
  { p with jobs := jobsReducer p.jobs a, log := p.log ++ [(k, a)] }

/-- A submission waits for something else from now on. -/
def setTask (p : JobsPage) (k : Nat) (task : JobTask) : JobsPage := { p with tasks := p.tasks.insert k task }

/-- A submission waits for nothing more. -/
def endTask (p : JobsPage) (k : Nat) : JobsPage := { p with tasks := p.tasks.erase k }

end JobsPage

/-! ## The effects -/

/-- The request of a job, if the store has it. -/
def selectJobRequest (jobId : JobId) (state : JobState) : Option JobRequest := state.jobIdToRequest[jobId]?

/-- `pollJobStatus$` on its action: a pending result, and a timer. -/
def pollJobStatus (k : Nat) (jobId : JobId) (p : JobsPage) : JobsPage :=
  (p.dispatch k (.setJobResult jobId toPending)).setTask k (.polling jobId false)

/-- `startPolling$` on `assignJobId`: the job is polled unless it is an upload. -/
def startPolling (k : Nat) (jobId : JobId) (p : JobsPage) : JobsPage :=
  if (selectJobRequest jobId p.jobs).any JobRequest.isUpload then p
  else pollJobStatus k jobId p

/-- Gives a job its id with its first result, and starts its polling. -/
def assignJobId (k : Nat) (jobId : JobId) (request : JobRequest) (result : Result Unit) (p : JobsPage) :
    JobsPage :=
  startPolling k jobId (p.dispatch k (.assignJobId jobId request result))

/-- The result that a status result of the server is stored as. -/
def pollResult (result : Result JobStatus) : Result Unit :=
  if hasFailed result then result.asVoid
  else if isPending result then toPending
  else
    -- a result that neither failed nor is pending has its data
    result.data.elim toPending fun status =>
      if status.error ≠ [] then toFailure ⟨status.error⟩
      else if status.success then toSuccess ()
      else toPending

/-- What comes from outside: the user's submissions, the answers and the ticks. -/
inductive JobsEvent where
  | submitJob (request : JobRequest)
  | uploadResponse (k : Nat) (answer : HttpAnswer Unit)
  /-- the answer to another job's POST, with the reading of the clock if the reducer asks for it -/
  | submitResponse (k : Nat) (answer : HttpAnswer Nat) (now : Nat)
  | pollTick (k : Nat)
  | pollResponse (k : Nat) (answer : HttpAnswer JobStatus)

namespace JobsPage

/-- `submitJob$` on its action; an upload has its id, and a pending result, at once. -/
def submitJob (p : JobsPage) (request : JobRequest) : JobsPage :=
  let k := p.submissions
  let p := { p with submissions := p.submissions + 1 }
  if request.isUpload then
    let jobId := uploadJobId p.uploadCounter
    let p := { p with uploadCounter := p.uploadCounter + 1 }
    assignJobId k jobId request toPending (p.setTask k (.uploading jobId request))
  else p.setTask k (.submitting request)

/-- The end of an upload. -/
def uploadResponse (p : JobsPage) (k : Nat) (jobId : JobId) (request : JobRequest) (answer : HttpAnswer Unit) :
    JobsPage :=
  match answer.result with
  | none => p.endTask k
  | some result => assignJobId k jobId request result.asVoid (p.endTask k)

/-- The answer to the request of another job. -/
def submitResponse (p : JobsPage) (k : Nat) (request : JobRequest) (answer : HttpAnswer Nat) (now : Nat) :
    JobsPage :=
  match answer.result with
  | none => p.endTask k
  | some result =>
      if hasFailed result then (p.endTask k).dispatch k (.setSubmitJobFailed request result now)
      else
        -- as above, the data is there
        result.data.elim (p.endTask k) fun jobid =>
          assignJobId k (serverJobId jobid) request toPending (p.endTask k)

/-- A tick of the timer: `exhaustMap` ignores it while a request is in flight. -/
def pollTick (p : JobsPage) (k : Nat) (jobId : JobId) (inFlight : Bool) : JobsPage :=
  if inFlight then p
  else (p.dispatch k (.setJobResult jobId (pollResult toPending))).setTask k (.polling jobId true)

/-- The answer to a status request; `takeWhile` lets a final result through and ends the polling. -/
def pollResponse (p : JobsPage) (k : Nat) (jobId : JobId) (answer : HttpAnswer JobStatus) : JobsPage :=
  match answer.result with
  | none => p.setTask k (.polling jobId false)
  | some result =>
      let p := p.dispatch k (.setJobResult jobId (pollResult result))
      if (pollResult result).terminal then p.endTask k
      else p.setTask k (.polling jobId false)

/-- One event; it is possible where the submission waits for it. -/
def step (p : JobsPage) : JobsEvent → Option JobsPage
  | .submitJob request => some (p.submitJob request)
  | .uploadResponse k answer =>
      match p.tasks[k]? with
      | some (.uploading jobId request) => some (p.uploadResponse k jobId request answer)
      | _ => none
  | .submitResponse k answer now =>
      match p.tasks[k]? with
      | some (.submitting request) => some (p.submitResponse k request answer now)
      | _ => none
  | .pollTick k =>
      match p.tasks[k]? with
      | some (.polling jobId inFlight) => some (p.pollTick k jobId inFlight)
      | _ => none
  | .pollResponse k answer =>
      match p.tasks[k]? with
      | some (.polling jobId true) => some (p.pollResponse k jobId answer)
      | _ => none

end JobsPage

end RCloneCloud
