import RCloneCloud.Ui.JobsMonotone

/-!
# `Ui.FolderReload` — the folder is loaded again when a job completes

After a navigation the page scans the snapshots of the job list. The scan keeps the keys of the jobs it has seen
pending and not yet successful; where such a job turns up successful, its key is taken out and the folder is
loaded again. A navigation starts the scan anew.

`CompletesAt i key` is the purpose in the user's terms: at the snapshot `i` a job is successful for the first time,
having been pending in an earlier one. `JobSnapshots` is what the job list promises: the keys of a snapshot are
unique, and a job with a final result is not pending later. `mem_scanned` says which keys the scan holds after any
number of snapshots, by induction over them, and `loads_iff_completes` that the flag goes up exactly where a job
completes.
-/

set_option autoImplicit false

namespace RCloneCloud

open Lib

/-! ## The scan -/

/-- The accumulator of the scan. -/
structure ScanState where
  pendingFiles : Finset JobId
  hasNewSuccess : Bool

/-- No job has been seen. -/
def ScanState.initial : ScanState := ⟨∅, false⟩

/-- A pending job is added to those waited for; a successful one that was waited for is taken out and raises the flag. -/
def scanJob (state : ScanState) (job : JobEntry) : ScanState :=
  if isPending job.result then { state with pendingFiles := insert job.key state.pendingFiles }
  else if hasSucceed job.result && decide (job.key ∈ state.pendingFiles) then
    ⟨state.pendingFiles.erase job.key, true⟩
  else state

/-- One round of the scan: the set is copied, the flag starts anew. -/
def scanJobs (state : ScanState) (jobs : List JobEntry) : ScanState :=
  jobs.foldl scanJob ⟨state.pendingFiles, false⟩

/-! ## The page -/

/-- The request for a listing. -/
structure LoadItems where
  remote : JsString
  dirPath : JsString
deriving DecidableEq

/-- `loadItems({ remote, dirPath: path ?? '' })`. -/
def loadItems (remotePath : RemotePath) : LoadItems := ⟨remotePath.remote, remotePath.path.getD []⟩

/-- The folder that the page subscribes for, and the scan of its subscription. -/
abbrev FolderListView := Option (RemotePath × ScanState)

/-- A navigation, or a new list of jobs. -/
inductive FolderListEvent where
  | remotePath (remotePath : RemotePath)
  | jobs (jobs : List JobEntry)

namespace FolderListView

/-- The page after an event, and the calls of `loadItems` it makes. -/
def step (view : FolderListView) : FolderListEvent → FolderListView × List LoadItems
  | .remotePath remotePath => (some (remotePath, .initial), [loadItems remotePath])
  | .jobs jobs =>
    match view with
    | none => (none, [])
    | some (remotePath, state) =>
        let state := scanJobs state jobs
        (some (remotePath, state), if state.hasNewSuccess then [loadItems remotePath] else [])

/-- The calls that each of the events makes. -/
def loads (view : FolderListView) : List FolderListEvent → List (List LoadItems)
  | [] => []
  | event :: rest => (view.step event).2 :: loads (view.step event).1 rest

end FolderListView

/-! ## Snapshots -/

/-- A job of the list is pending under this key. -/
def PendingIn (jobs : List JobEntry) (key : JobId) : Prop := ∃ job ∈ jobs, job.key = key ∧ isPending job.result = true

/-- A job of the list has succeeded under this key. -/
def SucceededIn (jobs : List JobEntry) (key : JobId) : Prop :=
  ∃ job ∈ jobs, job.key = key ∧ hasSucceed job.result = true

/-- A job of the list has failed under this key. -/
def FailedIn (jobs : List JobEntry) (key : JobId) : Prop := ∃ job ∈ jobs, job.key = key ∧ hasFailed job.result = true

/-- A job of the list has a final result under this key. -/
def TerminalIn (jobs : List JobEntry) (key : JobId) : Prop :=
  ∃ job ∈ jobs, job.key = key ∧ job.result.terminal = true

/-- **What the list of jobs promises**: each job stands in it once, and what is terminal stays so. -/
structure JobSnapshots (snapshots : List (List JobEntry)) : Prop where
  unique : ∀ jobs ∈ snapshots, (jobs.map (·.key)).Nodup
  terminal : snapshots.Pairwise fun earlier later => ∀ key, TerminalIn earlier key → ¬ PendingIn later key

/-- **The job completes at snapshot `i`**: it is successful in it, was pending in an earlier one, and was
    successful in none before. -/
def CompletesAt (snapshots : List (List JobEntry)) (i : ℕ) (key : JobId) : Prop :=
  (∃ jobs, snapshots[i]? = some jobs ∧ SucceededIn jobs key) ∧
    (∃ jobs ∈ snapshots.take i, PendingIn jobs key) ∧ ∀ jobs ∈ snapshots.take i, ¬ SucceededIn jobs key

section
variable {jobs rest : List JobEntry} {job : JobEntry} {key : JobId} {state : ScanState}

/-- A result is not both. -/
theorem not_pending_of_succeeded {result : Result Unit} (h : hasSucceed result = true) : isPending result = false := by
  simp only [hasSucceed, Bool.and_eq_true, Bool.not_eq_true'] at h
  exact h.2

theorem not_succeeded_of_pending {result : Result Unit} (h : isPending result = true) : ¬ hasSucceed result = true := by
  intro hsucceeded
  rw [not_pending_of_succeeded hsucceeded] at h
  cases h

/-- A success is final. -/
theorem SucceededIn.terminal (h : SucceededIn jobs key) : TerminalIn jobs key := by
  obtain ⟨job, hjob, hkey, hsucceeded⟩ := h
  exact ⟨job, hjob, hkey, by rw [Result.terminal, hsucceeded, Bool.true_or]⟩

/-- Pending is the first job of the list or one behind it. -/
theorem pendingIn_cons : PendingIn (job :: rest) key ↔ (job.key = key ∧ isPending job.result = true) ∨ PendingIn rest key := by
  simp only [PendingIn, List.mem_cons, exists_eq_or_imp]

/-- Successful is the first job of the list or one behind it. -/
theorem succeededIn_cons :
    SucceededIn (job :: rest) key ↔ (job.key = key ∧ hasSucceed job.result = true) ∨ SucceededIn rest key := by
  simp only [SucceededIn, List.mem_cons, exists_eq_or_imp]

/-- The key of a pending job is in the list. -/
theorem PendingIn.key_mem (h : PendingIn jobs key) : key ∈ jobs.map (·.key) := by
  obtain ⟨job, hjob, rfl, -⟩ := h
  exact List.mem_map_of_mem hjob

/-- The key of a successful job is in the list. -/
theorem SucceededIn.key_mem (h : SucceededIn jobs key) : key ∈ jobs.map (·.key) := by
  obtain ⟨job, hjob, rfl, -⟩ := h
  exact List.mem_map_of_mem hjob

/-- A job that stands in the list once is not both pending and successful. -/
theorem PendingIn.not_succeeded (hunique : (jobs.map (·.key)).Nodup) (h : PendingIn jobs key) : ¬ SucceededIn jobs key := by
  rintro ⟨job', hjob', hkey', hsucceeded⟩
  obtain ⟨job, hjob, hkey, hpending⟩ := h
  have hsame : job = job' := List.inj_on_of_nodup_map hunique hjob hjob' (hkey.trans hkey'.symm)
  rw [hsame, not_pending_of_succeeded hsucceeded] at hpending
  cases hpending

/-! ## One snapshot -/

/-- Which keys are waited for after one job. -/
theorem scanJob_mem :
    key ∈ (scanJob state job).pendingFiles ↔
      (job.key = key ∧ isPending job.result = true) ∨
        (key ∈ state.pendingFiles ∧ ¬ (job.key = key ∧ hasSucceed job.result = true)) := by
  unfold scanJob
  split
  · next hpending =>
      have hno := not_succeeded_of_pending hpending
      simp [hpending, hno, eq_comm]
  · next hpending =>
      split
      · next hnew =>
          rw [Bool.and_eq_true, decide_eq_true_iff] at hnew
          simp [hpending, hnew.1, and_comm, eq_comm]
      · next hnew =>
          rw [Bool.and_eq_true, decide_eq_true_iff, not_and] at hnew
          constructor
          · intro hmem
            refine .inr ⟨hmem, ?_⟩
            rintro ⟨rfl, hsucceeded⟩
            exact hnew hsucceeded hmem
          · rintro (⟨-, hthis⟩ | ⟨hmem, -⟩)
            · exact absurd hthis hpending
            · exact hmem

/-- When the flag is up after one job. -/
theorem scanJob_flag :
    (scanJob state job).hasNewSuccess = true ↔
      state.hasNewSuccess = true ∨ (hasSucceed job.result = true ∧ job.key ∈ state.pendingFiles) := by
  unfold scanJob
  split
  · next hpending =>
      have hno := not_succeeded_of_pending hpending
      simp [hno]
  · split
    · next hnew =>
        rw [Bool.and_eq_true, decide_eq_true_iff] at hnew
        exact ⟨fun _ => .inr hnew, fun _ => rfl⟩
    · next hnew =>
        rw [Bool.and_eq_true, decide_eq_true_iff] at hnew
        exact ⟨.inl, fun h => h.resolve_right hnew⟩

/-- **The set after one snapshot**: what was waited for and is successful is waited for no longer. -/
theorem mem_foldl_scanJob (hunique : (jobs.map (·.key)).Nodup) :
    key ∈ (jobs.foldl scanJob state).pendingFiles ↔
      PendingIn jobs key ∨ (key ∈ state.pendingFiles ∧ ¬ SucceededIn jobs key) := by
  induction jobs generalizing state with
  | nil => simp [PendingIn, SucceededIn]
  | cons job rest ih =>
      rw [List.map_cons, List.nodup_cons] at hunique
      obtain ⟨hfresh, hrest⟩ := hunique
      rw [List.foldl_cons, ih hrest, scanJob_mem, pendingIn_cons, succeededIn_cons]
      constructor
      · rintro (hpending | ⟨hthis | ⟨hold, hnot⟩, hlater⟩)
        · exact .inl (.inr hpending)
        · exact .inl (.inl hthis)
        · exact .inr ⟨hold, fun h => h.elim hnot hlater⟩
      · rintro ((hthis | hpending) | ⟨hold, hnot⟩)
        · -- the rest of the list does not have this job
          refine .inr ⟨.inl hthis, fun hlater => hfresh ?_⟩
          rw [hthis.1]
          exact hlater.key_mem
        · exact .inl hpending
        · exact .inr ⟨.inr ⟨hold, fun h => hnot (.inl h)⟩, fun h => hnot (.inr h)⟩

/-- **The flag after one snapshot**: something that was waited for is successful. -/
theorem flag_foldl_scanJob (hunique : (jobs.map (·.key)).Nodup) :
    (jobs.foldl scanJob state).hasNewSuccess = true ↔
      state.hasNewSuccess = true ∨ ∃ key, SucceededIn jobs key ∧ key ∈ state.pendingFiles := by
  induction jobs generalizing state with
  | nil => simp [SucceededIn]
  | cons job rest ih =>
      rw [List.map_cons, List.nodup_cons] at hunique
      obtain ⟨hfresh, hrest⟩ := hunique
      have hother : ∀ key, SucceededIn rest key → job.key ≠ key := by
        rintro key hsucceeded rfl
        exact hfresh hsucceeded.key_mem
      rw [List.foldl_cons, ih hrest, scanJob_flag]
      constructor
      · rintro ((hset | ⟨hsucceeded, hold⟩) | ⟨key, hsucceeded, hwaiting⟩)
        · exact .inl hset
        · exact .inr ⟨job.key, succeededIn_cons.mpr (.inl ⟨rfl, hsucceeded⟩), hold⟩
        · rcases scanJob_mem.mp hwaiting with hthis | ⟨hold, -⟩
          · exact absurd hthis.1 (hother key hsucceeded)
          · exact .inr ⟨key, succeededIn_cons.mpr (.inr hsucceeded), hold⟩
      · rintro (hset | ⟨key, hsucceeded, hold⟩)
        · exact .inl (.inl hset)
        · rcases succeededIn_cons.mp hsucceeded with ⟨rfl, hthis⟩ | hlater
          · exact .inl (.inr ⟨hthis, hold⟩)
          · exact .inr ⟨key, hlater, scanJob_mem.mpr (.inr ⟨hold, fun h => hother key hlater h.1⟩)⟩

end

/-! ## All snapshots -/

section
variable {snapshots seen : List (List JobEntry)} {jobs : List JobEntry} {key : JobId}

/-- Some of the snapshots promise what all of them do. -/
theorem JobSnapshots.sublist (h : JobSnapshots snapshots) (hseen : seen.Sublist snapshots) : JobSnapshots seen :=
  ⟨fun jobs hjobs => h.unique jobs (hseen.subset hjobs), h.terminal.sublist hseen⟩

/-- What holds of a list of snapshots holds of its beginnings. -/
theorem JobSnapshots.take (h : JobSnapshots snapshots) (i : ℕ) : JobSnapshots (snapshots.take i) :=
  h.sublist (List.take_sublist i snapshots)

/-- What was successful in an earlier snapshot is pending in no later one. -/
theorem JobSnapshots.not_pending (h : JobSnapshots (seen ++ [jobs])) (hpending : PendingIn jobs key) :
    ∀ earlier ∈ seen, ¬ SucceededIn earlier key := by
  intro earlier hearlier hsucceeded
  have hlater := (List.pairwise_append.mp h.terminal).2.2 earlier hearlier jobs (List.mem_singleton_self jobs)
  exact hlater key hsucceeded.terminal hpending

/-- **The invariant of the scan**: it waits for what it has seen pending and never successful. -/
theorem mem_scanned (h : JobSnapshots seen) (key : JobId) :
    key ∈ (seen.foldl scanJobs .initial).pendingFiles ↔
      (∃ jobs ∈ seen, PendingIn jobs key) ∧ ∀ jobs ∈ seen, ¬ SucceededIn jobs key := by
  induction seen using List.reverseRecOn with
  | nil => simp [ScanState.initial]
  | append_singleton seen jobs ih =>
      have hbefore : JobSnapshots seen := by simpa using h.take seen.length
      have hunique := h.unique jobs (by simp)
      rw [List.foldl_concat]
      show key ∈ (jobs.foldl scanJob _).pendingFiles ↔ _
      rw [mem_foldl_scanJob hunique]
      show PendingIn jobs key ∨ (key ∈ (seen.foldl scanJobs .initial).pendingFiles ∧ _) ↔ _
      rw [ih hbefore]
      constructor
      -- pending now, hence without a success before; or pending before and not successful now
      · rintro (hpending | ⟨⟨⟨earlier, hearlier, hwas⟩, hnone⟩, hnot⟩)
        · refine ⟨⟨jobs, by simp, hpending⟩, fun other hother => ?_⟩
          rcases List.mem_append.mp hother with hold | hlast
          · exact h.not_pending hpending other hold
          · rw [List.mem_singleton.mp hlast]
            exact hpending.not_succeeded hunique
        · refine ⟨⟨earlier, List.mem_append_left _ hearlier, hwas⟩, fun other hother => ?_⟩
          rcases List.mem_append.mp hother with hold | hlast
          · exact hnone other hold
          · rwa [List.mem_singleton.mp hlast]
      · rintro ⟨⟨other, hother, hpending⟩, hnone⟩
        rcases List.mem_append.mp hother with hold | hlast
        · have hearlier : ∀ earlier ∈ seen, ¬ SucceededIn earlier key :=
            fun earlier hearlier => hnone earlier (List.mem_append_left _ hearlier)
          exact .inr ⟨⟨⟨other, hold, hpending⟩, hearlier⟩, hnone jobs (by simp)⟩
        · rw [List.mem_singleton.mp hlast] at hpending
          exact .inl hpending

/-- The flag of one round. -/
theorem scanned_flag (h : JobSnapshots seen) (hunique : (jobs.map (·.key)).Nodup) :
    (scanJobs (seen.foldl scanJobs .initial) jobs).hasNewSuccess = true ↔
      ∃ key, SucceededIn jobs key ∧ (∃ jobs ∈ seen, PendingIn jobs key) ∧ ∀ jobs ∈ seen, ¬ SucceededIn jobs key := by
  unfold scanJobs
  rw [flag_foldl_scanJob hunique]
  show false = true ∨ (∃ key, SucceededIn jobs key ∧ key ∈ (seen.foldl scanJobs .initial).pendingFiles) ↔ _
  simp only [Bool.false_eq_true, false_or, mem_scanned h]

/-- The calls at one snapshot. -/
theorem loads_jobs (remotePath : RemotePath) (state : ScanState) (snapshots : List (List JobEntry)) (i : ℕ) :
    (FolderListView.loads (some (remotePath, state)) (snapshots.map .jobs))[i]? =
      snapshots[i]?.map fun jobs =>
        if (scanJobs ((snapshots.take i).foldl scanJobs state) jobs).hasNewSuccess then [loadItems remotePath] else [] := by
  induction snapshots generalizing state i with
  | nil => rfl
  | cons jobs rest ih =>
      cases i with
      | zero => rfl
      | succ i =>
          have hrest := ih (scanJobs state jobs) i
          rw [List.map_cons, List.getElem?_cons_succ, List.take_succ_cons, List.foldl_cons, ← hrest]
          rfl

/-- Where a job completes it is successful, and it was so in no snapshot before. -/
theorem CompletesAt.snapshot {i : ℕ} (h : CompletesAt snapshots i key) :
    ∃ jobs, snapshots[i]? = some jobs ∧ SucceededIn jobs key ∧ ∀ j < i, ∀ earlier, snapshots[j]? = some earlier →
      ¬ SucceededIn earlier key := by
  obtain ⟨⟨jobs, hjobs, hsucceeded⟩, -, hnone⟩ := h
  refine ⟨jobs, hjobs, hsucceeded, fun j hj earlier hearlier => hnone earlier ?_⟩
  refine List.mem_of_getElem? (i := j) ?_
  rwa [List.getElem?_take_of_lt hj]

/-- A job completes once. -/
theorem CompletesAt.unique {i j : ℕ} (hi : CompletesAt snapshots i key) (hj : CompletesAt snapshots j key) : i = j := by
  obtain ⟨jobs, hjobs, hsucceeded, hnone⟩ := hi.snapshot
  obtain ⟨jobs', hjobs', hsucceeded', hnone'⟩ := hj.snapshot
  rcases Nat.lt_trichotomy i j with hlt | heq | hgt
  · exact absurd hsucceeded (hnone' i hlt jobs hjobs)
  · exact heq
  · exact absurd hsucceeded' (hnone j hgt jobs' hjobs')

/-- A job that completes has not failed in the same snapshot. -/
theorem CompletesAt.not_failed {i : ℕ} (h : JobSnapshots snapshots) (hi : CompletesAt snapshots i key)
    (hjobs : snapshots[i]? = some jobs) : ¬ FailedIn jobs key := by
  rintro ⟨failed, hfailed, hkey, herror⟩
  obtain ⟨jobs', hjobs', ⟨job, hjob, hkey', hsucceeded⟩, -⟩ := hi.snapshot
  obtain rfl := Option.some_inj.mp (hjobs.symm.trans hjobs')
  have hsame : failed = job :=
    List.inj_on_of_nodup_map (h.unique jobs (List.mem_of_getElem? hjobs)) hfailed hjob (hkey.trans hkey'.symm)
  rw [hsame] at herror
  simp only [hasFailed, hasSucceed, Bool.and_eq_true] at herror hsucceeded
  rw [Option.isNone_iff_eq_none] at hsucceeded
  rw [hsucceeded.1] at herror
  cases herror

/-- **No success is missed**: between a snapshot with the job pending and one with it successful it completes. -/
theorem JobSnapshots.completes (h : JobSnapshots snapshots) {j i : ℕ} {jobs' : List JobEntry}
    (hj : snapshots[j]? = some jobs) (hpending : PendingIn jobs key) (hi : snapshots[i]? = some jobs')
    (hsucceeded : SucceededIn jobs' key) : ∃ m, j < m ∧ m ≤ i ∧ CompletesAt snapshots m key := by
  classical
  -- the first success
  have hsome : ∃ m, ∃ jobs, snapshots[m]? = some jobs ∧ SucceededIn jobs key := ⟨i, jobs', hi, hsucceeded⟩
  obtain ⟨first, hfirst, hfirstsucceeded⟩ := Nat.find_spec hsome
  have hle : Nat.find hsome ≤ i := Nat.find_min' hsome ⟨jobs', hi, hsucceeded⟩
  have hnone : ∀ earlier ∈ snapshots.take (Nat.find hsome), ¬ SucceededIn earlier key := by
    intro earlier hearlier hwas
    obtain ⟨m, hm, rfl⟩ := List.mem_take_iff_getElem.mp hearlier
    have hmlt : m < Nat.find hsome := lt_of_lt_of_le hm (Nat.min_le_left _ _)
    exact Nat.find_min hsome hmlt ⟨_, List.getElem?_eq_getElem (by omega), hwas⟩
  -- what is successful is not pending then, nor later
  have hafter : j < Nat.find hsome := by
    rcases Nat.lt_trichotomy j (Nat.find hsome) with hbefore | heq | hbehind
    · exact hbefore
    · rw [← heq] at hfirst
      obtain rfl := Option.some_inj.mp (hj.symm.trans hfirst)
      exact absurd hfirstsucceeded (hpending.not_succeeded (h.unique jobs (List.mem_of_getElem? hj)))
    · obtain ⟨hm, rfl⟩ := List.getElem?_eq_some_iff.mp hfirst
      obtain ⟨hn, rfl⟩ := List.getElem?_eq_some_iff.mp hj
      exact absurd hpending (List.pairwise_iff_getElem.mp h.terminal _ _ hm hn hbehind key hfirstsucceeded.terminal)
  refine ⟨Nat.find hsome, hafter, hle, ⟨first, hfirst, hfirstsucceeded⟩, ⟨jobs, ?_, hpending⟩, hnone⟩
  refine List.mem_of_getElem? (i := j) ?_
  rwa [List.getElem?_take_of_lt hafter]

/-- What was successful from the first snapshot on does not complete. -/
theorem CompletesAt.not_from_start {i : ℕ} (hi : CompletesAt snapshots i key) (hfirst : snapshots[0]? = some jobs) :
    ¬ SucceededIn jobs key := by
  obtain ⟨-, ⟨earlier, hearlier, -⟩, -⟩ := id hi
  have hpos : 0 < i := by
    rcases Nat.eq_zero_or_pos i with rfl | hpos
    · cases hearlier
    · exact hpos
  obtain ⟨-, -, -, hnone⟩ := hi.snapshot
  exact hnone 0 hpos jobs hfirst

/-- The flag is set where a job completes. -/
theorem flag_iff_completes (h : JobSnapshots snapshots) {i : ℕ} (hjobs : snapshots[i]? = some jobs) :
    (scanJobs ((snapshots.take i).foldl scanJobs .initial) jobs).hasNewSuccess = true ↔
      ∃ key, CompletesAt snapshots i key := by
  rw [scanned_flag (h.take i) (h.unique jobs (List.mem_of_getElem? hjobs))]
  refine exists_congr fun key => and_congr_left fun _ => ?_
  constructor
  · exact fun hsucceeded => ⟨jobs, hjobs, hsucceeded⟩
  · rintro ⟨jobs', hjobs', hsucceeded⟩
    obtain rfl := Option.some_inj.mp (hjobs.symm.trans hjobs')
    exact hsucceeded

/-- **One call where a job completes.** -/
theorem loads_iff_completes (remotePath : RemotePath) (h : JobSnapshots snapshots) (i : ℕ) :
    (FolderListView.loads (some (remotePath, .initial)) (snapshots.map .jobs))[i]? = some [loadItems remotePath] ↔
      ∃ key, CompletesAt snapshots i key := by
  rw [loads_jobs]
  cases hjobs : snapshots[i]? with
  | none =>
      constructor
      · intro hno
        cases hno
      · rintro ⟨key, ⟨jobs, hsome, -⟩, -⟩
        rw [hjobs] at hsome
        cases hsome
  | some jobs =>
      rw [← flag_iff_completes h hjobs]
      generalize hflag : (scanJobs ((snapshots.take i).foldl scanJobs .initial) jobs).hasNewSuccess = flag
      rw [Option.map_some, hflag]
      cases flag <;> simp

/-- No call elsewhere. -/
theorem loads_of_not_completes (remotePath : RemotePath) (h : JobSnapshots snapshots) {i : ℕ} (hi : i < snapshots.length)
    (hnone : ¬ ∃ key, CompletesAt snapshots i key) :
    (FolderListView.loads (some (remotePath, .initial)) (snapshots.map .jobs))[i]? = some [] := by
  rw [← flag_iff_completes h (List.getElem?_eq_getElem hi)] at hnone
  rw [loads_jobs, List.getElem?_eq_getElem hi, Option.map_some, if_neg hnone]

/-- **The folder is loaded again exactly when a job completes.** After a navigation, at each snapshot, `loadItems`
    is called once for the folder shown if some job completes at it, and not otherwise. A job completes at most
    once; it does not if it was successful from the first snapshot on, nor where it has failed; and it does after it
    was pending and no later than it is successful. -/
theorem reload_iff_completes (view : FolderListView) (remotePath : RemotePath) {snapshots : List (List JobEntry)}
    (h : JobSnapshots snapshots) :
    (∀ i, (FolderListView.loads (view.step (.remotePath remotePath)).1 (snapshots.map .jobs))[i]? =
        some [loadItems remotePath] ↔ ∃ key, CompletesAt snapshots i key) ∧
      (∀ i, i < snapshots.length → (¬ ∃ key, CompletesAt snapshots i key) →
        (FolderListView.loads (view.step (.remotePath remotePath)).1 (snapshots.map .jobs))[i]? = some []) ∧
      (∀ key i j, CompletesAt snapshots i key → CompletesAt snapshots j key → i = j) ∧
      (∀ key i jobs, snapshots[0]? = some jobs → SucceededIn jobs key → ¬ CompletesAt snapshots i key) ∧
      (∀ key i jobs, snapshots[i]? = some jobs → FailedIn jobs key → ¬ CompletesAt snapshots i key) ∧
      ∀ key j i jobs jobs', snapshots[j]? = some jobs → PendingIn jobs key → snapshots[i]? = some jobs' →
        SucceededIn jobs' key → ∃ m, j < m ∧ m ≤ i ∧ CompletesAt snapshots m key := by
  refine ⟨loads_iff_completes remotePath h, fun i => loads_of_not_completes remotePath h, fun key i j => CompletesAt.unique,
    ?_, ?_, ?_⟩
  · intro key i jobs hfirst hsucceeded hi
    exact hi.not_from_start hfirst hsucceeded
  · intro key i jobs hjobs hfailed hi
    exact hi.not_failed h hjobs hfailed
  · intro key j i jobs jobs' hj hpending hi hsucceeded
    exact h.completes hj hpending hi hsucceeded

end

/-- A move is pending and completes while a copy fails; an upload was there, successful, from the start. -/
def sampleSnapshots : List (List JobEntry) :=
  let upload : JobEntry := ⟨js "upload-0", .mkdir (js "r") (js "u"), toSuccess ()⟩
  let move := JobEntry.mk (js "7") (.moveFile (js "r") (js "a") (js "r") (js "b"))
  let copy := JobEntry.mk (js "8") (.copyFile (js "r") (js "a") (js "r") (js "c"))
  [[upload, move toPending, copy toPending], [upload, move (toSuccess ()), copy toPending],
    [upload, move (toSuccess ()), copy (toFailure ⟨js "no space"⟩)]]

/-- The sample's snapshots keep what the job list promises. -/
theorem sampleSnapshots_promise : JobSnapshots sampleSnapshots where
  unique := by decide
  terminal := by
    simp only [sampleSnapshots, TerminalIn, PendingIn]
    simp [js, isPending, toPending, toSuccess, toFailure, Result.terminal, hasSucceed, hasFailed]

/-- A move that is pending and then successful: the folder is loaded again once, at the second snapshot. -/
theorem reload_iff_completes_move :
    FolderListView.loads (FolderListView.step none (.remotePath ⟨js "r", none⟩)).1 (sampleSnapshots.map .jobs) =
        [[], [⟨js "r", []⟩], []] ∧
      ∃ key, CompletesAt sampleSnapshots 1 key := by
  have hloads : FolderListView.loads (FolderListView.step none (.remotePath ⟨js "r", none⟩)).1
      (sampleSnapshots.map .jobs) = [[], [⟨js "r", []⟩], []] := by decide
  refine ⟨hloads, ?_⟩
  rw [← (reload_iff_completes none ⟨js "r", none⟩ sampleSnapshots_promise).1 1, hloads]
  rfl

end RCloneCloud
