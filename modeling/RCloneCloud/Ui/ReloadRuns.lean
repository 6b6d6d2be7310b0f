import RCloneCloud.Ui.FolderReload
import RCloneCloud.Ui.JobsListed
import RCloneCloud.Ui.PollVerdict

/-!
# `Ui.ReloadRuns` — the folder's page along a run of the jobs

The lists that the store gives along a run with distinct ids are snapshots as the scan expects them: a job stands
in each once, and a final result stays. Whatever of these lists the page sees, it loads the folder again exactly
when a job completes, and in all no more often than jobs were submitted.

The two sides are developed apart: `Ui.FolderReload` over any snapshots with their promise, `Ui.JobsMonotone` over the
store. Here `jobLists_promise` shows that the lists of a run keep the promise, so the exactness of the reloads carries
over to runs; `length_loads_le` counts, as each completion is a different job's.
-/

set_option autoImplicit false

namespace RCloneCloud

open Lib

/-- The list of jobs in a state, and after each of the events. -/
def jobLists (p : JobsPage) : List JobsEvent → List (List JobEntry)
  | [] => [selectAllJobs p.jobs]
  | e :: rest =>
    selectAllJobs p.jobs ::
      match p.step e with
      | some p' => jobLists p' rest
      | none => []

/-! ## What is stored -/

/-- A final result is not pending as well. -/
def SettledLog (p : JobsPage) : Prop :=
  ∀ entry ∈ p.log, entry.2.write.result.terminal = true → isPending entry.2.write.result = false

section
variable {events later : List JobsEvent} {p q : JobsPage} {e : JobsEvent} {key : JobId}

/-- A final result is not a pending one. -/
theorem Reacts.settled {counter : Nat} {old new : Option JobTask} {actions : List JobsAction}
    (hR : Reacts counter e old actions new) {a : JobsAction} (ha : a ∈ actions)
    (hterminal : a.write.result.terminal = true) : isPending a.write.result = false := by
  cases hR with
  | upload hkind =>
      rw [List.mem_singleton.mp ha] at hterminal
      cases hterminal
  | uploaded hresult =>
      rw [List.mem_singleton.mp ha]
      exact (HttpAnswer.result_terminal hresult).2
  | failed =>
      rw [List.mem_singleton.mp ha]
      rfl
  | accepted =>
      rcases List.mem_cons.mp ha with rfl | hsecond
      · cases hterminal
      · rw [List.mem_singleton.mp hsecond] at hterminal
        cases hterminal
  | tick =>
      rw [List.mem_singleton.mp ha] at hterminal
      cases hterminal
  | status hresult hpending =>
      rw [List.mem_singleton.mp ha] at hterminal
      cases hterminal
  | finished hresult hfinal =>
      rw [List.mem_singleton.mp ha]
      exact (HttpAnswer.verdict_terminal (verdict_of_terminal hresult hfinal)).2
  | submit | uploadRefused | refused | tickIgnored | statusRefused => cases ha

/-- In a run no action writes a result that is both. -/
theorem settledLog_run (h : run JobsPage.step .initial events = some p) : SettledLog p := by
  have hinv : JobsInv events p ∧ SettledLog p := by
    refine run_beginnings (C := fun _ => True) (I := fun events p => JobsInv events p ∧ SettledLog p)
      (fun _ _ _ => trivial) ⟨jobsInv_initial, fun entry hentry => by cases hentry⟩ ?_ trivial h
    rintro events e p p' - ⟨hI, hS⟩ hs
    obtain ⟨actions, task, hM⟩ := hI.moves hs
    refine ⟨hI.step hs, fun entry hentry => ?_⟩
    rw [hM.log] at hentry
    rcases List.mem_append.mp hentry with hold | hnew
    · exact hS entry hold
    · obtain ⟨a, ha, rfl⟩ := List.mem_map.mp hnew
      exact hM.reacts.settled ha
  exact hinv.2

/-- What the store holds was written. -/
theorem result_settled (h : run JobsPage.step .initial events = some p) {result : Result Unit}
    (hresult : p.jobs.jobIdToResult[key]? = some result) (hterminal : result.terminal = true) :
    isPending result = false := by
  rw [(jobsInv_run h).result_eq] at hresult
  obtain ⟨entry, hentry, hstored⟩ := List.mem_filterMap.mp (List.mem_of_getLast? hresult)
  unfold JobsAction.resultUnder at hstored
  split at hstored
  · obtain rfl := Option.some_inj.mp hstored
    exact settledLog_run h entry hentry hterminal
  · cases hstored

/-! ## What the lists promise -/

/-- The result of a terminal entry is in the store. -/
theorem TerminalIn.stored {state : JobState} (h : TerminalIn (selectAllJobs state) key) :
    ∃ result, state.jobIdToResult[key]? = some result ∧ result.terminal = true := by
  obtain ⟨job, hjob, rfl, hterminal⟩ := h
  rw [(mem_selectAllJobs.mp hjob).2] at hterminal
  cases hstored : state.jobIdToResult[job.key]? with
  | none =>
      rw [hstored] at hterminal
      cases hterminal
  | some result =>
      rw [hstored] at hterminal
      exact ⟨result, rfl, hterminal⟩

/-- **What is terminal is never pending again.** -/
theorem terminal_not_pending (hD : DistinctIds (events ++ later)) (hq : run JobsPage.step .initial events = some q)
    (hp : run JobsPage.step q later = some p) (h : TerminalIn (selectAllJobs q.jobs) key) :
    ¬ PendingIn (selectAllJobs p.jobs) key := by
  have hrun : run JobsPage.step .initial (events ++ later) = some p := run_append.mpr ⟨q, hq, hp⟩
  obtain ⟨result, hstored, hterminal⟩ := h.stored
  -- a final result is never replaced
  have hkept := final_kept (jobsInv_run hq) (jobsInv_run hrun) (owned_run hD hrun) hp hstored hterminal
  rintro ⟨job, hjob, rfl, hpending⟩
  rw [(mem_selectAllJobs.mp hjob).2, hkept, Option.getD_some, result_settled hrun hkept hterminal] at hpending
  cases hpending

/-- Each list is that of a state on the way. -/
theorem mem_jobLists {jobs : List JobEntry} (h : jobs ∈ jobLists p events) :
    ∃ m, Reaches JobsPage.step p events m ∧ jobs = selectAllJobs m.jobs := by
  induction events generalizing p with
  | nil => exact ⟨p, reaches_nil.mpr rfl, List.mem_singleton.mp h⟩
  | cons e rest ih =>
      rcases List.mem_cons.mp h with rfl | hlater
      · exact ⟨p, reaches_cons.mpr (.inl rfl), rfl⟩
      · cases hs : p.step e with
        | none =>
            rw [hs] at hlater
            cases hlater
        | some p' =>
            rw [hs] at hlater
            obtain ⟨m, hm, hjobs⟩ := ih hlater
            exact ⟨m, reaches_cons.mpr (.inr ⟨p', hs, hm⟩), hjobs⟩

/-- **The lists along a run keep the promise** that the scan relies on. -/
theorem jobLists_promise (hD : DistinctIds (events ++ later)) (hq : run JobsPage.step .initial events = some q) :
    JobSnapshots (jobLists q later) := by
  constructor
  · intro jobs hjobs
    obtain ⟨m, -, rfl⟩ := mem_jobLists hjobs
    exact nodup_keys_selectAllJobs m.jobs
  · induction later generalizing events q with
    | nil => exact List.pairwise_singleton _ _
    | cons e rest ih =>
        unfold jobLists
        cases hs : q.step e with
        | none => exact List.pairwise_singleton _ _
        | some q' =>
            have hsplit : events ++ e :: rest = (events ++ [e]) ++ rest := by simp
            have hq' : run JobsPage.step .initial (events ++ [e]) = some q' :=
              run_append.mpr ⟨q, hq, run_cons.mpr ⟨q', hs, rfl⟩⟩
            -- the head list against each later one; the later ones among themselves are the induction hypothesis
            refine List.pairwise_cons.mpr ⟨fun jobs hjobs key hterminal => ?_, ih (hsplit ▸ hD) hq'⟩
            obtain ⟨m, ⟨before, after, rfl, hm⟩, rfl⟩ := mem_jobLists hjobs
            have hD' : DistinctIds (events ++ e :: before) := by
              refine @DistinctIds.of_append (events ++ e :: before) after ?_
              simpa using hD
            exact terminal_not_pending hD' hq (run_cons.mpr ⟨q', hs, hm⟩) hterminal

/-! ## The reloads of a run -/

/-- **Along a run, the folder is loaded again exactly when a job completes**, whatever of the lists the page sees. -/
theorem loads_along_run (hD : DistinctIds (events ++ later)) (hq : run JobsPage.step .initial events = some q)
    {snapshots : List (List JobEntry)} (hseen : snapshots.Sublist (jobLists q later)) (remotePath : RemotePath) (i : ℕ) :
    (FolderListView.loads (some (remotePath, .initial)) (snapshots.map .jobs))[i]? = some [loadItems remotePath] ↔
      ∃ key, CompletesAt snapshots i key :=
  loads_iff_completes remotePath ((jobLists_promise hD hq).sublist hseen) i

/-- A job in a list on the way is that of a submission. -/
theorem key_mem_of_jobLists (hq : run JobsPage.step .initial events = some q) (hp : run JobsPage.step q later = some p)
    {jobs : List JobEntry} (hjobs : jobs ∈ jobLists q later) (hkey : key ∈ jobs.map (·.key)) :
    key ∈ (List.range p.submissions).map p.idOf := by
  obtain ⟨m, ⟨before, after, rfl, hm⟩, rfl⟩ := mem_jobLists hjobs
  obtain ⟨m', hm', hafter⟩ := run_append.mp hp
  obtain rfl := Option.some_inj.mp (hm.symm.trans hm')
  have hIm : JobsInv (events ++ before) m := jobsInv_run (run_append.mpr ⟨q, hq, hm⟩)
  have hI : JobsInv (events ++ (before ++ after)) p := jobsInv_run (run_append.mpr ⟨q, hq, hp⟩)
  obtain ⟨entry, hentry, rfl⟩ := List.mem_map.mp hkey
  obtain ⟨k, a, hka, hid, -⟩ := hIm.request_owner (mem_selectAllJobs.mp hentry).1
  -- the log only grows, so what was written then is still there
  have hgrown := log_prefix hIm hafter
  have hlater : (k, a) ∈ p.log := hgrown.subset hka
  refine List.mem_map.mpr ⟨k, ?_, (hI.idOf_eq hlater).trans hid⟩
  obtain ⟨request, hk, -⟩ := hI.orderly hlater
  rw [List.mem_range, hI.count]
  exact (List.getElem?_eq_some_iff.mp hk).1

/-- The reloads, counted by the snapshots at which they are made. -/
theorem length_loads (remotePath : RemotePath) (state : ScanState) (snapshots : List (List JobEntry)) :
    (FolderListView.loads (some (remotePath, state)) (snapshots.map .jobs)).flatten.length =
      (List.range snapshots.length).countP fun i =>
        (FolderListView.loads (some (remotePath, state)) (snapshots.map .jobs))[i]? = some [loadItems remotePath] := by
  induction snapshots generalizing state with
  | nil => rfl
  | cons jobs rest ih =>
      have hfirst : FolderListView.loads (some (remotePath, state)) ((jobs :: rest).map .jobs) =
          (if (scanJobs state jobs).hasNewSuccess then [loadItems remotePath] else []) ::
            FolderListView.loads (some (remotePath, scanJobs state jobs)) (rest.map .jobs) := rfl
      rw [hfirst, List.flatten_cons, List.length_append, ih, List.length_cons, List.range_succ_eq_map, List.countP_cons,
        List.countP_map, Nat.add_comm]
      congr 1
      -- the scan takes the first snapshot, and the rest is counted from the state it leaves
      cases (scanJobs state jobs).hasNewSuccess <;> simp

/-- **No more reloads than jobs**: along a run, the folder is loaded again at most once for each submission. -/
theorem length_loads_le (hD : DistinctIds (events ++ later)) (hq : run JobsPage.step .initial events = some q)
    (hp : run JobsPage.step q later = some p) {snapshots : List (List JobEntry)}
    (hseen : snapshots.Sublist (jobLists q later)) (remotePath : RemotePath) :
    (FolderListView.loads (some (remotePath, .initial)) (snapshots.map .jobs)).flatten.length ≤ p.submissions := by
  classical
  let reloads := (List.range snapshots.length).filter fun i => decide (∃ key, CompletesAt snapshots i key)
  -- a job that completes at each of them, another one at each
  let job : ℕ → JobId := fun i => if h : ∃ key, CompletesAt snapshots i key then h.choose else []
  have hjob : ∀ i ∈ reloads, CompletesAt snapshots i (job i) := by
    intro i hi
    have hcompletes : ∃ key, CompletesAt snapshots i key := of_decide_eq_true (List.mem_filter.mp hi).2
    show CompletesAt snapshots i (if h : _ then _ else _)
    rw [dif_pos hcompletes]
    exact hcompletes.choose_spec
  have hnodup : (reloads.map job).Nodup := by
    refine List.Nodup.map_on (fun i hi j hj hij => ?_) (List.nodup_range.filter _)
    have hthere := hjob j hj
    rw [← hij] at hthere
    exact (hjob i hi).unique hthere
  have hsubset : reloads.map job ⊆ (List.range p.submissions).map p.idOf := by
    intro key hkey
    obtain ⟨i, hi, rfl⟩ := List.mem_map.mp hkey
    obtain ⟨⟨jobs, hjobs, hsucceeded⟩, -⟩ := hjob i hi
    exact key_mem_of_jobLists hq hp (hseen.subset (List.mem_of_getElem? hjobs)) hsucceeded.key_mem
  -- as many jobs as reloads, all of them submissions of the run
  have hle := (hnodup.subperm hsubset).length_le
  rw [List.length_map, List.length_map, List.length_range] at hle
  rw [length_loads, List.countP_eq_length_filter]
  refine (Nat.le_of_eq ?_).trans hle
  congr 1
  exact List.filter_congr fun i _ => decide_eq_decide.mpr (loads_along_run hD hq hseen remotePath i)

end

/-- One job, one reload. -/
theorem length_loads_le_move : ∃ p, run JobsPage.step .initial movedEvents = some p ∧ p.submissions = 1 ∧
    FolderListView.loads (some (⟨js "r", none⟩, .initial)) ((jobLists .initial movedEvents).map .jobs) =
      [[], [], [], [], [], [], [⟨js "r", []⟩]] ∧
    (FolderListView.loads (some (⟨js "r", none⟩, .initial)) ((jobLists .initial movedEvents).map .jobs)).flatten.length ≤
      p.submissions := by
  have hdistinct : DistinctIds ([] ++ movedEvents) := ⟨by decide, by decide⟩
  obtain ⟨p, hrun, hone⟩ : ∃ p, run JobsPage.step .initial movedEvents = some p ∧ p.submissions = 1 := ⟨_, rfl, rfl⟩
  have hinit : run JobsPage.step .initial [] = some .initial := rfl
  refine ⟨p, hrun, hone, ?_, length_loads_le hdistinct hinit hrun (List.Sublist.refl _) ⟨js "r", none⟩⟩
  decide

end RCloneCloud
