import RCloneCloud.Ui.FolderLink

/-!
# `Ui.JobState` — the jobs of the UI: requests, results, the store

The store keeps two maps keyed by job id, one with the requests and one with the results. A job id is the
server's number, `upload-` and a counter, or `failed-job-` and a clock reading; the three kinds of ids never
meet, and each of them is one to one.

The three kinds of ids are texts, made as the source makes them, so that they never meet is a fact about texts: digits
only, or a word with its own first letter. Results are a value, an error and a flag, as in the source; `terminal` is a
result that is not pending any more.
-/

set_option autoImplicit false

namespace RCloneCloud

/-! ## Results -/

/-- An `Error`: its message. -/
structure JsError where
  message : JsString
deriving DecidableEq, Repr

/-- `Result<T>`. -/
structure Result (T : Type) where
  data : Option T
  isLoading : Bool
  error : Option JsError
deriving DecidableEq, Repr

section
variable {T : Type}

/-- A result that is still awaited. -/
def isPending (result : Result T) : Bool := result.isLoading

/-- A result that has come in without an error. -/
def hasSucceed (result : Result T) : Bool := result.error.isNone && !result.isLoading

/-- A result with an error. -/
def hasFailed (result : Result T) : Bool := result.error.isSome

/-- The result of what is under way. -/
def toPending : Result T := ⟨none, true, none⟩

/-- The result that is the value. -/
def toSuccess (data : T) : Result T := ⟨some data, false, none⟩

/-- The result that is the error. -/
def toFailure (error : JsError) : Result T := ⟨none, false, some error⟩

/-- `result as Result<void>`: the same object, whose data is not read any more. -/
def Result.asVoid (result : Result T) : Result Unit := ⟨result.data.map fun _ => (), result.isLoading, result.error⟩

/-- A result that the UI shows as final. -/
def Result.terminal (result : Result T) : Bool := hasSucceed result || hasFailed result

/-- What is under way has no final result. -/
@[simp] theorem terminal_toPending : (toPending : Result T).terminal = false := rfl

end

/-! ## Requests -/

/-- A `File` of the browser. -/
structure BrowserFile where
  name : JsString
  content : Bytes
deriving DecidableEq, Repr

/-- What the user can ask for. -/
inductive JobRequest where
  | uploadFile (remote : JsString) (dirPath : Option JsString) (file : BrowserFile)
  | deleteFile (remote path : JsString)
  | deleteFolder (remote path : JsString)
  | moveFile (fromRemote fromPath toRemote toPath : JsString)
  | moveFolder (fromRemote fromPath toRemote toPath : JsString)
  | copyFile (fromRemote fromPath toRemote toPath : JsString)
  | copyFolder (fromRemote fromPath toRemote toPath : JsString) (createEmptySrcDirs : Bool)
  | mkdir (remote dirPath : JsString)
deriving DecidableEq, Repr

/-- `request.kind === 'upload-file'`. -/
def JobRequest.isUpload : JobRequest → Bool
  | .uploadFile .. => true
  | _ => false

/-! ## The store -/

/-- Ids are texts. -/
abbrev JobId := JsString

/-- An immutable map with string keys. -/
abbrev JsMap (V : Type) := Std.ExtTreeMap JobId V compare

/-- An entry that is set is found under its key, the others as before. -/
theorem JsMap.getElem?_insert {V : Type} (m : JsMap V) (k a : JobId) (v : V) :
    (m.insert k v)[a]? = if k = a then some v else m[a]? := by
  simp [Std.ExtTreeMap.getElem?_insert]

/-- A key is in a map that has a value for it. -/
theorem JsMap.mem_iff {V : Type} {m : JsMap V} {k : JobId} : k ∈ m ↔ ∃ v, m[k]? = some v := by
  rw [Std.ExtTreeMap.mem_iff_isSome_getElem?, Option.isSome_iff_exists]

/-- Setting adds its key. -/
theorem JsMap.mem_insert {V : Type} {m : JsMap V} {k a : JobId} {v : V} :
    a ∈ m.insert k v ↔ k = a ∨ a ∈ m := by
  simp [Std.ExtTreeMap.mem_insert]

/-- The requests and the results, by job id. -/
structure JobState where
  jobIdToResult : JsMap (Result Unit)
  jobIdToRequest : JsMap JobRequest

/-- No job. -/
def JobState.initial : JobState := ⟨∅, ∅⟩

/-- One job as the list of jobs shows it. -/
structure JobEntry where
  key : JobId
  request : JobRequest
  result : Result Unit
deriving DecidableEq, Repr

/-- `selectAllJobs`: an entry for each request. -/
def selectAllJobs (state : JobState) : List JobEntry :=
  state.jobIdToRequest.toList.map fun (jobId, request) =>
    ⟨jobId, request, state.jobIdToResult[jobId]?.getD toPending⟩

/-! ## Job ids -/

/-- The decimal digits of a number. -/
def decimal (n : Nat) : JsString := Nat.toDigits 10 n

/-- `jobid.toString()` on the id of a job of the server. -/
def serverJobId (jobid : Nat) : JobId := decimal jobid

/-- `upload-${uploadCounter}`. -/
def uploadJobId (uploadCounter : Nat) : JobId := js "upload-" ++ decimal uploadCounter

/-- `failed-job-${Date.now()}`. -/
def failedJobId (now : Nat) : JobId := js "failed-job-" ++ decimal now

/-- A number can be read off its digits. -/
theorem decimal_injective : Function.Injective decimal := by
  intro m n h
  unfold decimal at h
  rw [← Nat.toList_repr, ← Nat.toList_repr, String.toList_inj] at h
  exact Nat.repr_inj.mp h

/-- Numbers are written in digits. -/
theorem isDigit_of_mem_decimal {n : Nat} {c : Char} (h : c ∈ decimal n) : c.isDigit = true :=
  Nat.isDigit_of_mem_toDigits (by omega) (by omega) h

/-- The server's numbers give different ids. -/
theorem serverJobId_inj {m n : Nat} : serverJobId m = serverJobId n ↔ m = n :=
  decimal_injective.eq_iff

/-- The counter gives different ids. -/
theorem uploadJobId_inj {m n : Nat} : uploadJobId m = uploadJobId n ↔ m = n := by
  rw [uploadJobId, uploadJobId, List.append_right_inj, decimal_injective.eq_iff]

/-- Different readings of the clock give different ids. -/
theorem failedJobId_inj {m n : Nat} : failedJobId m = failedJobId n ↔ m = n := by
  rw [failedJobId, failedJobId, List.append_right_inj, decimal_injective.eq_iff]

/-- An upload's id begins otherwise than a failure's. -/
theorem uploadJobId_ne_failedJobId (m n : Nat) : uploadJobId m ≠ failedJobId n := by
  intro h
  exact absurd (congrArg List.head? h) (by simp [uploadJobId, failedJobId, js])

/-- A letter is no digit, so an id with a prefix is no id of the server. -/
theorem serverJobId_ne_uploadJobId (m n : Nat) : serverJobId m ≠ uploadJobId n := by
  intro h
  have hu : 'u' ∈ serverJobId m := h ▸ List.mem_append_left _ (by simp [js])
  exact absurd (isDigit_of_mem_decimal hu) (by decide)

/-- A number of the server begins with a digit. -/
theorem serverJobId_ne_failedJobId (m n : Nat) : serverJobId m ≠ failedJobId n := by
  intro h
  have hf : 'f' ∈ serverJobId m := h ▸ List.mem_append_left _ (by simp [js])
  exact absurd (isDigit_of_mem_decimal hf) (by decide)

/-- The actions the reducer of the jobs handles. The clock is read by the reducer, so its reading comes with
    the action. -/
inductive JobsAction where
  | setSubmitJobFailed (request : JobRequest) (result : Result Nat) (now : Nat)
  | assignJobId (jobId : JobId) (request : JobRequest) (result : Result Unit)
  | setJobResult (jobId : JobId) (result : Result Unit)

/-- The reducer of the jobs' store. -/
def jobsReducer (state : JobState) : JobsAction → JobState
  | .setSubmitJobFailed request result now =>
      let jobId := failedJobId now
      ⟨state.jobIdToResult.insert jobId result.asVoid, state.jobIdToRequest.insert jobId request⟩
  | .assignJobId jobId request result =>
      ⟨state.jobIdToResult.insert jobId result, state.jobIdToRequest.insert jobId request⟩
  | .setJobResult jobId result => { state with jobIdToResult := state.jobIdToResult.insert jobId result }

end RCloneCloud
