import RCloneCloud.Ui.JobLife

/-!
# `Ui.JobRuns` — what every run of the jobs page keeps

All that one submission writes stands under one id, carries its own request, and stores pending results and
then at most one final one. Ids come from three sources that never meet; when the server's ids and the clock
readings of the failures are distinct, no two submissions share an id.

`JobsInv` is the invariant of every run, without any assumption on ids: the store is the reduction of what was
written, the writes of each submission are as its task says (`TaskInv`), and every id is from one of the three sources
(`KnownId`). The assumption comes in only for `Owned`, that no id is written by two submissions, which `JobsInv.fresh`
derives from the distinctness of the numbers and readings used so far (`DistinctIds`).
-/

set_option autoImplicit false

namespace RCloneCloud

open Lib

/-! ## The events of a run -/

/-- The requests submitted, in order: submission `k` is the one at place `k`. -/
def submittedRequests (events : List JobsEvent) : List JobRequest :=
  events.filterMap fun
    | .submitJob request => some request
    | _ => none

/-- The ids the server gave to jobs. -/
def acceptedIds (events : List JobsEvent) : List Nat :=
  events.filterMap fun
    | .submitResponse _ (.ok jobid) _ => some jobid
    | _ => none

/-- The clock readings with which failed submissions were reduced. -/
def failureReadings (events : List JobsEvent) : List Nat :=
  events.filterMap fun
    | .submitResponse _ (.failed _) now => some now
    | _ => none

/-- The submissions of a run are taken in order. -/
theorem submittedRequests_snoc (events : List JobsEvent) (e : JobsEvent) :
    submittedRequests (events ++ [e]) = submittedRequests events ++ submittedRequests [e] :=
  List.filterMap_append ..

/-- So are the numbers that the server has given. -/
theorem acceptedIds_snoc (events : List JobsEvent) (e : JobsEvent) :
    acceptedIds (events ++ [e]) = acceptedIds events ++ acceptedIds [e] :=
  List.filterMap_append ..

/-- So are the readings of the clock at failures. -/
theorem failureReadings_snoc (events : List JobsEvent) (e : JobsEvent) :
    failureReadings (events ++ [e]) = failureReadings events ++ failureReadings [e] :=
  List.filterMap_append ..

/-! ## The writes of one submission -/

/-- Pending results, and then at most one that is final. -/
def PendingThenOne (results : List (Result Unit)) : Prop :=
  ∃ pendings last, results = pendings ++ last ∧ (∀ r ∈ pendings, r = toPending) ∧ last.length ≤ 1 ∧
    ∀ r ∈ last, r.terminal = true

/-- The writes are those of a submission of `request` under the id. -/
structure WritesOf (request : JobRequest) (id : JobId) (ws : List JobWrite) : Prop where
  same : ∀ w ∈ ws, w.jobId = id
  own : ∀ w ∈ ws, ∀ r, w.request = some r → r = request
  first : ∀ w ∈ ws.head?, w.request = some request

/-- What a submission has written so far, by what is going on for it. -/
def TaskInv (request : JobRequest) (ws : List JobWrite) : Option JobTask → Prop
  | some (.submitting r) => r = request ∧ r.isUpload = false ∧ ws = []
  | some (.uploading id r) =>
      r = request ∧ r.isUpload = true ∧ ws ≠ [] ∧ WritesOf request id ws ∧ ∀ w ∈ ws, w.result = toPending
  | some (.polling id _) => ws ≠ [] ∧ WritesOf request id ws ∧ ∀ w ∈ ws, w.result = toPending
  | none => ∃ id, WritesOf request id ws ∧ PendingThenOne (ws.map JobWrite.result)

section
variable {request : JobRequest} {id : JobId} {ws : List JobWrite} {w : JobWrite}

/-- The first write of a submission carries its request. -/
theorem writesOf_singleton (result : Result Unit) : WritesOf request id [⟨id, some request, result⟩] := by
  refine ⟨?_, ?_, ?_⟩
  · intro w hw
    rw [List.mem_singleton.mp hw]
  · intro w hw r hr
    rw [List.mem_singleton.mp hw] at hr
    exact (Option.some_inj.mp hr).symm
  · intro w hw
    cases hw
    rfl

/-- A further write under the same id that carries the same request, or none. -/
theorem WritesOf.snoc (h : WritesOf request id ws) (hne : ws ≠ []) (hid : w.jobId = id)
    (hown : ∀ r, w.request = some r → r = request) : WritesOf request id (ws ++ [w]) := by
  refine ⟨?_, ?_, ?_⟩
  · intro v hv
    rcases List.mem_append.mp hv with hold | hnew
    · exact h.same v hold
    · rw [List.mem_singleton.mp hnew, hid]
  · intro v hv r hr
    rcases List.mem_append.mp hv with hold | hnew
    · exact h.own v hold r hr
    · rw [List.mem_singleton.mp hnew] at hr
      exact hown r hr
  · cases ws with
    | nil => exact absurd rfl hne
    | cons v rest => exact h.first

/-- One more pending result. -/
theorem pending_snoc (h : ∀ v ∈ ws, v.result = toPending) (hw : w.result = toPending) :
    ∀ v ∈ ws ++ [w], v.result = toPending := by
  intro v hv
  rcases List.mem_append.mp hv with hold | hnew
  · exact h v hold
  · rw [List.mem_singleton.mp hnew, hw]

/-- Pending results alone are in order. -/
theorem pendingThenOne_of_pending (h : ∀ v ∈ ws, v.result = toPending) :
    PendingThenOne (ws.map JobWrite.result) := by
  refine ⟨ws.map JobWrite.result, [], (List.append_nil _).symm, ?_, by simp, by simp⟩
  intro r hr
  obtain ⟨v, hv, rfl⟩ := List.mem_map.mp hr
  exact h v hv

/-- A final result after pending ones is in order. -/
theorem pendingThenOne_snoc (h : ∀ v ∈ ws, v.result = toPending) (hw : w.result.terminal = true) :
    PendingThenOne ((ws ++ [w]).map JobWrite.result) := by
  refine ⟨ws.map JobWrite.result, [w.result], List.map_append, ?_, by simp, ?_⟩
  · intro r hr
    obtain ⟨v, hv, rfl⟩ := List.mem_map.mp hr
    exact h v hv
  · intro r hr
    rw [List.mem_singleton.mp hr]
    exact hw

/-- **A reaction keeps the submission's writes in order.** -/
theorem Reacts.taskInv {counter : Nat} {e : JobsEvent} {old new : Option JobTask} {actions : List JobsAction}
    (hR : Reacts counter e old actions new) (hnew : ∀ r, e = .submitJob r → r = request ∧ ws = [])
    (h : TaskInv request ws old) : TaskInv request (ws ++ actions.map JobsAction.write) new := by
  -- each reaction adds pending results, or a final one as it ends its task
  cases hR with
  | upload hkind =>
      obtain ⟨rfl, rfl⟩ := hnew _ rfl
      refine ⟨rfl, hkind, by simp, writesOf_singleton _, ?_⟩
      intro w hw
      rw [List.mem_singleton.mp hw]
      rfl
  | submit hkind =>
      obtain ⟨rfl, rfl⟩ := hnew _ rfl
      exact ⟨rfl, hkind, rfl⟩
  -- the page goes away to the login: the results stay pending
  | uploadRefused =>
      obtain ⟨-, -, -, hof, hpending⟩ := h
      rw [List.map_nil, List.append_nil]
      exact ⟨_, hof, pendingThenOne_of_pending hpending⟩
  | uploaded hresult =>
      obtain ⟨rfl, -, hne, hof, hpending⟩ := h
      refine ⟨_, hof.snoc hne rfl fun r hr => (Option.some_inj.mp hr).symm, ?_⟩
      exact pendingThenOne_snoc hpending (HttpAnswer.result_terminal hresult).1
  | refused =>
      obtain ⟨-, -, rfl⟩ := h
      exact ⟨[], ⟨by simp, by simp, by simp⟩, pendingThenOne_of_pending (by simp)⟩
  -- a failure is the first and only write of its submission
  | failed =>
      obtain ⟨rfl, -, rfl⟩ := h
      exact ⟨_, writesOf_singleton _, @pendingThenOne_snoc [] _ (by simp) rfl⟩
  | accepted =>
      obtain ⟨rfl, -, rfl⟩ := h
      refine ⟨by simp, (writesOf_singleton toPending).snoc (by simp) rfl (by simp [JobsAction.write]), ?_⟩
      exact @pending_snoc [_] _ (fun v hv => by rw [List.mem_singleton.mp hv]; rfl) rfl
  | tick =>
      obtain ⟨hne, hof, hpending⟩ := h
      exact ⟨by simp, hof.snoc hne rfl (by simp [JobsAction.write]), pending_snoc hpending rfl⟩
  | tickIgnored =>
      rw [List.map_nil, List.append_nil]
      exact h
  | statusRefused =>
      rw [List.map_nil, List.append_nil]
      exact h
  | status =>
      obtain ⟨hne, hof, hpending⟩ := h
      exact ⟨by simp, hof.snoc hne rfl (by simp [JobsAction.write]), pending_snoc hpending rfl⟩
  | finished hresult hterminal =>
      obtain ⟨hne, hof, hpending⟩ := h
      exact ⟨_, hof.snoc hne rfl (by simp [JobsAction.write]), pendingThenOne_snoc hpending hterminal⟩

end

/-! ## The invariant -/

/-- What submission `k` has written. -/
def JobsPage.writes (p : JobsPage) (k : Nat) : List JobWrite :=
  p.log.filterMap fun (j, a) => if j = k then some a.write else none

/-- An id in use: an upload's, one the server gave, or that of a failure. -/
def KnownId (events : List JobsEvent) (counter : Nat) (id : JobId) : Prop :=
  (∃ n < counter, id = uploadJobId n) ∨ (∃ i ∈ acceptedIds events, id = serverJobId i) ∨
    ∃ now ∈ failureReadings events, id = failedJobId now

/-- What holds after the events. -/
structure JobsInv (events : List JobsEvent) (p : JobsPage) : Prop where
  count : p.submissions = (submittedRequests events).length
  reduced : p.jobs = (p.log.map Prod.snd).foldl jobsReducer .initial
  beyond : ∀ k, p.submissions ≤ k → p.tasks[k]? = none ∧ p.writes k = []
  each : ∀ k request, (submittedRequests events)[k]? = some request →
    TaskInv request (p.writes k) p.tasks[k]?
  known : ∀ entry ∈ p.log, KnownId events p.uploadCounter entry.2.write.jobId

/-- Nothing is submitted and nothing is stored. -/
theorem jobsInv_initial : JobsInv [] .initial where
  count := rfl
  reduced := rfl
  beyond k _ := ⟨by simp [JobsPage.initial], rfl⟩
  each k request h := by cases h
  known entry h := by cases h

section
variable {events : List JobsEvent} {p p' : JobsPage} {e : JobsEvent} {actions : List JobsAction}
  {task : Option JobTask}

/-- A step adds the writes of its actions to those of its submission. -/
theorem Moves.writes (hM : Moves p e p' actions task) (k : Nat) :
    p'.writes k = p.writes k ++ if k = e.submission p then actions.map JobsAction.write else [] := by
  have hnew : (actions.map (Prod.mk (e.submission p))).filterMap
      (fun (j, a) => if j = k then some a.write else none)
        = if k = e.submission p then actions.map JobsAction.write else [] := by
    rw [List.filterMap_map]
    split
    · rename_i hk
      subst hk
      simp
    · rename_i hk
      simp [Ne.symm hk]
  rw [JobsPage.writes, hM.log, List.filterMap_append, hnew]
  rfl

/-- The task of a submission is there, and so is its request. -/
theorem JobsInv.request_of_task (hI : JobsInv events p) {k : Nat} {t : JobTask} (h : p.tasks[k]? = some t) :
    ∃ request, (submittedRequests events)[k]? = some request ∧ TaskInv request (p.writes k) (some t) := by
  -- a task is stored under the number of a submission made
  have hlt : k < p.submissions := by
    by_contra hge
    rw [(hI.beyond k (Nat.le_of_not_lt hge)).1] at h
    cases h
  rw [hI.count] at hlt
  refine ⟨(submittedRequests events)[k], List.getElem?_eq_getElem hlt, ?_⟩
  rw [← h]
  exact hI.each k _ (List.getElem?_eq_getElem hlt)

/-- Every step is a move of a submission, and a new submission has no task yet. -/
theorem JobsInv.moves (hI : JobsInv events p) (h : p.step e = some p') :
    ∃ actions task, Moves p e p' actions task := by
  refine step_reacts ?_ ?_ (hI.beyond _ (Nat.le_refl _)).1 h
  · intro k r hk
    obtain ⟨request, -, rfl, hkind, -⟩ := hI.request_of_task hk
    exact hkind
  · intro k id r hk
    obtain ⟨request, -, rfl, hkind, -⟩ := hI.request_of_task hk
    exact hkind

/-- An id that is known stays so. -/
theorem KnownId.mono {counter counter' : Nat} {id : JobId} (h : KnownId events counter id)
    (hle : counter ≤ counter') : KnownId (events ++ [e]) counter' id := by
  rcases h with ⟨n, hn, rfl⟩ | ⟨i, hi, rfl⟩ | ⟨now, hnow, rfl⟩
  · exact .inl ⟨n, by omega, rfl⟩
  · exact .inr (.inl ⟨i, by rw [acceptedIds_snoc]; exact List.mem_append_left _ hi, rfl⟩)
  · exact .inr (.inr ⟨now, by rw [failureReadings_snoc]; exact List.mem_append_left _ hnow, rfl⟩)

/-- The id an action writes under: the one the submission's task is for, or a new one. -/
theorem Reacts.jobId {counter : Nat} {old new : Option JobTask} (hR : Reacts counter e old actions new)
    {a : JobsAction} (ha : a ∈ actions) :
    (∃ r, old = some (.uploading a.write.jobId r)) ∨ (∃ b, old = some (.polling a.write.jobId b)) ∨
      (∃ r, e = .submitJob r ∧ r.isUpload = true ∧ a.write.jobId = uploadJobId counter) ∨
      (∃ i ∈ acceptedIds [e], a.write.jobId = serverJobId i) ∨
      (∃ now ∈ failureReadings [e], a.write.jobId = failedJobId now) := by
  cases hR with
  | upload hkind =>
      rw [List.mem_singleton.mp ha]
      exact .inr (.inr (.inl ⟨_, rfl, hkind, rfl⟩))
  | uploaded =>
      rw [List.mem_singleton.mp ha]
      exact .inl ⟨_, rfl⟩
  | failed =>
      rw [List.mem_singleton.mp ha]
      exact .inr (.inr (.inr (.inr ⟨_, List.mem_singleton_self _, rfl⟩)))
  | accepted =>
      refine .inr (.inr (.inr (.inl ⟨_, List.mem_singleton_self _, ?_⟩)))
      rcases List.mem_cons.mp ha with rfl | hb
      · rfl
      · rw [List.mem_singleton.mp hb]
        rfl
  | tick => rw [List.mem_singleton.mp ha]; exact .inr (.inl ⟨_, rfl⟩)
  | status => rw [List.mem_singleton.mp ha]; exact .inr (.inl ⟨_, rfl⟩)
  | finished => rw [List.mem_singleton.mp ha]; exact .inr (.inl ⟨_, rfl⟩)
  | submit | uploadRefused | refused | tickIgnored | statusRefused => cases ha

/-- A write of a submission is that of an action in the log. -/
theorem JobsPage.mem_writes {k : Nat} {w : JobWrite} :
    w ∈ p.writes k ↔ ∃ a, (k, a) ∈ p.log ∧ a.write = w := by
  constructor
  · intro h
    obtain ⟨⟨j, a⟩, hmem, ha⟩ := List.mem_filterMap.mp h
    dsimp only at ha
    by_cases hj : j = k
    · subst hj
      rw [if_pos rfl] at ha
      exact ⟨a, hmem, Option.some_inj.mp ha⟩
    · rw [if_neg hj] at ha
      cases ha
  · rintro ⟨a, hmem, rfl⟩
    exact List.mem_filterMap.mpr ⟨(k, a), hmem, if_pos rfl⟩

/-- A submission that is sending an upload or polling has written under the id it does so for. -/
theorem JobsInv.wrote (hI : JobsInv events p) {k : Nat} {id : JobId}
    (h : (∃ r, p.tasks[k]? = some (.uploading id r)) ∨ ∃ b, p.tasks[k]? = some (.polling id b)) :
    ∃ a, (k, a) ∈ p.log ∧ a.write.jobId = id := by
  have hfirst : ∀ {request : JobRequest}, p.writes k ≠ [] → WritesOf request id (p.writes k) →
      ∃ a, (k, a) ∈ p.log ∧ a.write.jobId = id := by
    intro request hne hof
    obtain ⟨w, hw⟩ := List.exists_mem_of_ne_nil _ hne
    obtain ⟨a, ha, rfl⟩ := JobsPage.mem_writes.mp hw
    exact ⟨a, ha, hof.same _ hw⟩
  rcases h with ⟨r, hr⟩ | ⟨b, hb⟩
  · obtain ⟨request, -, -, -, hne, hof, -⟩ := hI.request_of_task hr
    exact hfirst hne hof
  · obtain ⟨request, -, hne, hof, -⟩ := hI.request_of_task hb
    exact hfirst hne hof

/-- The submission an event is about is one of those made, the event's own included. -/
theorem JobsInv.submission_lt (hI : JobsInv events p) (hM : Moves p e p' actions task) :
    e.submission p < p'.submissions := by
  have hold : ∀ {k : Nat} {t : JobTask}, p.tasks[k]? = some t → k < p.submissions := by
    intro k t ht
    by_contra hge
    rw [(hI.beyond k (Nat.le_of_not_lt hge)).1] at ht
    cases ht
  rw [hM.submissions]
  cases e with
  | submitJob request => exact Nat.lt_succ_self _
  | _ =>
      refine hold (t := p.tasks[JobsEvent.submission p _]?.get ?_) (Option.some_get _).symm
      have hR := hM.reacts
      revert hR
      generalize p.tasks[JobsEvent.submission p _]? = old
      intro hR
      cases hR <;> rfl

/-- The step's own submission, with its request: it is new, or it was made before. -/
theorem JobsInv.own_step (hI : JobsInv events p) (hM : Moves p e p' actions task) {request : JobRequest}
    (hk : (submittedRequests (events ++ [e]))[e.submission p]? = some request) :
    TaskInv request (p.writes (e.submission p) ++ actions.map JobsAction.write) task := by
  have hR := hM.reacts
  cases e with
  | submitJob r =>
      -- the new submission: nothing was written for it
      have hlast : submittedRequests [.submitJob r] = [r] := rfl
      have hown : (JobsEvent.submitJob r).submission p = (submittedRequests events).length := hI.count
      rw [submittedRequests_snoc, hlast, hown, List.getElem?_concat_length] at hk
      obtain rfl : r = request := Option.some_inj.mp hk
      obtain ⟨hnone, hws⟩ := hI.beyond _ (Nat.le_refl _)
      refine hR.taskInv (fun r' hr' => ?_) ?_
      · cases hr'
        exact ⟨rfl, hws⟩
      · show TaskInv r (p.writes p.submissions) p.tasks[p.submissions]?
        rw [hnone, hws]
        exact ⟨[], ⟨by simp, by simp, by simp⟩, pendingThenOne_of_pending (by simp)⟩
  | _ =>
      refine hR.taskInv (fun _ hno => (by cases hno)) (hI.each _ request ?_)
      rw [submittedRequests_snoc] at hk
      simpa [submittedRequests] using hk

/-- Another submission was made before the step. -/
theorem JobsInv.other_step (hI : JobsInv events p) {k : Nat} {request : JobRequest} (hne : k ≠ e.submission p)
    (hk : (submittedRequests (events ++ [e]))[k]? = some request) :
    (submittedRequests events)[k]? = some request := by
  rw [submittedRequests_snoc] at hk
  cases e with
  | submitJob r =>
      have hlast : submittedRequests [.submitJob r] = [r] := rfl
      have hother : k ≠ p.submissions := hne
      rw [hlast, List.getElem?_append] at hk
      split at hk
      · exact hk
      · obtain ⟨hzero, -⟩ := List.getElem?_eq_some_iff.mp hk
        rw [List.length_singleton] at hzero
        have hcount := hI.count
        omega
  | _ => simpa [submittedRequests] using hk

/-- The id of an action is known, after the step. -/
theorem JobsInv.known_step (hI : JobsInv events p) (hM : Moves p e p' actions task)
    (hcounter : p.uploadCounter ≤ p'.uploadCounter) {a : JobsAction} (ha : a ∈ actions) :
    KnownId (events ++ [e]) p'.uploadCounter a.write.jobId := by
  have htask : ∀ {id : JobId}, ((∃ r, p.tasks[e.submission p]? = some (.uploading id r)) ∨
      ∃ b, p.tasks[e.submission p]? = some (.polling id b)) → KnownId (events ++ [e]) p'.uploadCounter id := by
    intro id hid
    obtain ⟨b, hb, rfl⟩ := hI.wrote hid
    exact (hI.known _ hb).mono hcounter
  rcases hM.reacts.jobId ha with hup | hpoll | ⟨r, rfl, hkind, hid⟩ | ⟨i, hi, hid⟩ | ⟨now, hnow, hid⟩
  · exact htask (.inl hup)
  · exact htask (.inr hpoll)
  · refine .inl ⟨p.uploadCounter, ?_, hid⟩
    rw [hM.uploadCounter]
    simp [hkind]
  · exact .inr (.inl ⟨i, by rw [acceptedIds_snoc]; exact List.mem_append_right _ hi, hid⟩)
  · exact .inr (.inr ⟨now, by rw [failureReadings_snoc]; exact List.mem_append_right _ hnow, hid⟩)

/-- The step lemma of the invariant: the submission that moves, the others, and the ids. -/
theorem JobsInv.step (hI : JobsInv events p) (h : p.step e = some p') : JobsInv (events ++ [e]) p' := by
  obtain ⟨actions, task, hM⟩ := hI.moves h
  have hlt := hI.submission_lt hM
  have hcounter : p.uploadCounter ≤ p'.uploadCounter := by rw [hM.uploadCounter]; omega
  refine ⟨?_, ?_, ?_, ?_, ?_⟩
  · rw [hM.submissions, submittedRequests_snoc, List.length_append, hI.count]
    cases e <;> rfl
  · rw [hM.jobs, hM.log, List.map_append, List.foldl_append, ← hI.reduced]
    simp [Function.comp_def]
  · intro k hk
    have hne : k ≠ e.submission p := by omega
    have hle : p.submissions ≤ k := by rw [hM.submissions] at hk; omega
    rw [hM.tasks, if_neg (Ne.symm hne), hM.writes, if_neg hne, List.append_nil]
    exact hI.beyond k hle
  · intro k request hk
    by_cases hke : k = e.submission p
    · subst hke
      rw [hM.tasks, if_pos rfl, hM.writes, if_pos rfl]
      exact hI.own_step hM hk
    · rw [hM.tasks, if_neg (Ne.symm hke), hM.writes, if_neg hke, List.append_nil]
      exact hI.each k request (hI.other_step hke hk)
  · intro entry hentry
    rw [hM.log] at hentry
    rcases List.mem_append.mp hentry with hold | hnew
    · exact (hI.known entry hold).mono hcounter
    · obtain ⟨a, ha, rfl⟩ := List.mem_map.mp hnew
      exact hI.known_step hM hcounter ha

/-- **Every run keeps the invariant.** -/
theorem jobsInv_run (h : run JobsPage.step .initial events = some p) : JobsInv events p :=
  run_beginnings (C := fun _ => True) (fun _ _ _ => trivial) jobsInv_initial
    (fun _ _ _ _ _ hI hs => hI.step hs) trivial h

/-! ## Distinct ids -/

/-- The server gives no id twice, and no two failures are reduced at one reading of the clock. -/
structure DistinctIds (events : List JobsEvent) : Prop where
  accepted : (acceptedIds events).Nodup
  failures : (failureReadings events).Nodup

/-- Ids that are distinct in a run are so in its beginnings. -/
theorem DistinctIds.of_append {later : List JobsEvent} (h : DistinctIds (events ++ later)) : DistinctIds events := by
  obtain ⟨haccepted, hfailures⟩ := h
  rw [acceptedIds, List.filterMap_append] at haccepted
  rw [failureReadings, List.filterMap_append] at hfailures
  exact ⟨haccepted.of_append_left, hfailures.of_append_left⟩

/-- No two submissions write under one id. -/
def Owned (p : JobsPage) : Prop :=
  ∀ j k a b, (j, a) ∈ p.log → (k, b) ∈ p.log → a.write.jobId = b.write.jobId → j = k

/-- An id that is new to the run is none of those in use. -/
theorem JobsInv.fresh (hI : JobsInv events p) (hD : DistinctIds (events ++ [e])) {entry : Nat × JobsAction}
    (hentry : entry ∈ p.log) {id : JobId}
    (hid : id = uploadJobId p.uploadCounter ∨ (∃ i ∈ acceptedIds [e], id = serverJobId i) ∨
      ∃ now ∈ failureReadings [e], id = failedJobId now) : entry.2.write.jobId ≠ id := by
  intro heq
  obtain ⟨haccepted, hfailures⟩ := hD
  rw [acceptedIds_snoc, List.nodup_append] at haccepted
  rw [failureReadings_snoc, List.nodup_append] at hfailures
  rcases hI.known entry hentry with ⟨n, hn, hknown⟩ | ⟨i, hi, hknown⟩ | ⟨now, hnow, hknown⟩ <;>
    rw [hknown] at heq <;> rcases hid with rfl | ⟨i', hi', rfl⟩ | ⟨now', hnow', rfl⟩
  · exact absurd (uploadJobId_inj.mp heq) (by omega)
  · exact serverJobId_ne_uploadJobId _ _ heq.symm
  · exact uploadJobId_ne_failedJobId _ _ heq
  · exact serverJobId_ne_uploadJobId _ _ heq
  · exact haccepted.2.2 i hi i' hi' (serverJobId_inj.mp heq)
  · exact serverJobId_ne_failedJobId _ _ heq
  · exact uploadJobId_ne_failedJobId _ _ heq.symm
  · exact serverJobId_ne_failedJobId _ _ heq.symm
  · exact hfailures.2.2 now hnow now' hnow' (failedJobId_inj.mp heq)

/-- The step lemma of ownership: an id that is new belongs to the submission that moves. -/
theorem Owned.step (hI : JobsInv events p) (hO : Owned p) (hD : DistinctIds (events ++ [e]))
    (h : p.step e = some p') : Owned p' := by
  obtain ⟨actions, task, hM⟩ := hI.moves h
  -- a new write under an id already there is by the submission that wrote there
  have hnew : ∀ j a b, (j, a) ∈ p.log → b ∈ actions → a.write.jobId = b.write.jobId → j = e.submission p := by
    intro j a b ha hb hab
    have htask : ((∃ r, p.tasks[e.submission p]? = some (.uploading b.write.jobId r)) ∨
        ∃ f, p.tasks[e.submission p]? = some (.polling b.write.jobId f)) → j = e.submission p := by
      intro hid
      obtain ⟨c, hc, hcid⟩ := hI.wrote hid
      exact hO j _ a c ha hc (hab.trans hcid.symm)
    rcases hM.reacts.jobId hb with hup | hpoll | ⟨r, -, -, hid⟩ | hid | hid
    · exact htask (.inl hup)
    · exact htask (.inr hpoll)
    · exact absurd hab (hI.fresh hD ha (.inl hid))
    · exact absurd hab (hI.fresh hD ha (.inr (.inl hid)))
    · exact absurd hab (hI.fresh hD ha (.inr (.inr hid)))
  intro j k a b ha hb hab
  rw [hM.log] at ha hb
  rcases List.mem_append.mp ha with hold | hadd
  · rcases List.mem_append.mp hb with hold' | hadd'
    · exact hO j k a b hold hold' hab
    · obtain ⟨c, hc, heq⟩ := List.mem_map.mp hadd'
      cases heq
      exact hnew j a b hold hc hab
  · obtain ⟨c, hc, heq⟩ := List.mem_map.mp hadd
    cases heq
    rcases List.mem_append.mp hb with hold' | hadd'
    · exact (hnew k b a hold' hc hab.symm).symm
    · obtain ⟨d, -, heq⟩ := List.mem_map.mp hadd'
      cases heq
      rfl

/-- **Under distinct ids no two submissions share one.** -/
theorem owned_run (hD : DistinctIds events) (h : run JobsPage.step .initial events = some p) : Owned p := by
  have hinv : JobsInv events p ∧ Owned p := by
    refine run_beginnings (C := DistinctIds) (I := fun events p => JobsInv events p ∧ Owned p)
      (fun _ _ hD => hD.of_append) ⟨jobsInv_initial, ?_⟩ ?_ hD h
    · intro j k a b ha
      cases ha
    · rintro events e p p' hD ⟨hI, hO⟩ hs
      exact ⟨hI.step hs, hO.step hI hD hs⟩
  exact hinv.2

end

end RCloneCloud
