import RCloneCloud.Ui.JobRuns

/-!
# `Ui.JobsMonotone` — job results only become final, and only once

Under distinct ids, what is stored under one id is all written by one submission: pending results and then at
most one final one. A step of one submission leaves the entries of the others alone, and both maps of the store
always have the same keys.

The order of results is proved of the writes of one submission (`TaskInv.orderly`) and carried over to what is stored
under an id by ownership: under distinct ids both are the same list (`storedResults_eq`). The final statement is about
any two states of a run, the earlier and the later one, so that nothing a user has seen as final changes afterwards.
-/

set_option autoImplicit false

namespace RCloneCloud

open Lib

/-- The results stored under the id so far, in order. -/
def storedResults (id : JobId) (p : JobsPage) : List (Result Unit) :=
  p.log.filterMap fun entry => entry.2.resultUnder id

/-- The requests stored under the id so far. -/
def storedRequests (id : JobId) (p : JobsPage) : List JobRequest :=
  p.log.filterMap fun entry => entry.2.requestUnder id

section
variable {events : List JobsEvent} {p p' : JobsPage} {e : JobsEvent}

/-- A step adds the results that its actions write under the id. -/
theorem Moves.storedResults {actions : List JobsAction} {task : Option JobTask}
    (hM : Moves p e p' actions task) (id : JobId) :
    storedResults id p' = storedResults id p ++ actions.filterMap (JobsAction.resultUnder id) := by
  rw [RCloneCloud.storedResults, hM.log, List.filterMap_append, List.filterMap_map]
  rfl

/-- A step adds the requests that its actions write under the id. -/
theorem Moves.storedRequests {actions : List JobsAction} {task : Option JobTask}
    (hM : Moves p e p' actions task) (id : JobId) :
    storedRequests id p' = storedRequests id p ++ actions.filterMap (JobsAction.requestUnder id) := by
  rw [RCloneCloud.storedRequests, hM.log, List.filterMap_append, List.filterMap_map]
  rfl

/-- Whatever a submission waits for, its writes are under one id and in order. -/
theorem TaskInv.orderly {request : JobRequest} {ws : List JobWrite} {task : Option JobTask}
    (h : TaskInv request ws task) :
    (∃ id, WritesOf request id ws) ∧ PendingThenOne (ws.map JobWrite.result) := by
  match task, h with
  | none, h =>
      obtain ⟨id, hof, hone⟩ := h
      exact ⟨⟨id, hof⟩, hone⟩
  | some (.submitting r), h =>
      obtain ⟨-, -, rfl⟩ := h
      exact ⟨⟨[], by simp, by simp, by simp⟩, pendingThenOne_of_pending (by simp)⟩
  | some (.uploading id r), h =>
      obtain ⟨-, -, -, hof, hpending⟩ := h
      exact ⟨⟨id, hof⟩, pendingThenOne_of_pending hpending⟩
  | some (.polling id b), h =>
      obtain ⟨-, hof, hpending⟩ := h
      exact ⟨⟨id, hof⟩, pendingThenOne_of_pending hpending⟩

/-- What a submission has written is in order. -/
theorem JobsInv.orderly (hI : JobsInv events p) {k : Nat} {a : JobsAction} (h : (k, a) ∈ p.log) :
    ∃ request, (submittedRequests events)[k]? = some request ∧
      WritesOf request a.write.jobId (p.writes k) ∧ PendingThenOne ((p.writes k).map JobWrite.result) := by
  have hmem : a.write ∈ p.writes k := JobsPage.mem_writes.mpr ⟨a, h, rfl⟩
  have hlt : k < p.submissions := by
    by_contra hge
    rw [(hI.beyond k (Nat.le_of_not_lt hge)).2] at hmem
    cases hmem
  rw [hI.count] at hlt
  have hrequest := List.getElem?_eq_getElem hlt
  obtain ⟨⟨id, hof⟩, hone⟩ := (hI.each k _ hrequest).orderly
  exact ⟨_, hrequest, hof.same _ hmem ▸ hof, hone⟩

/-- **Under an id only its submission writes.** -/
theorem storedResults_eq (hI : JobsInv events p) (hO : Owned p) {k : Nat} {a : JobsAction}
    (h : (k, a) ∈ p.log) : storedResults a.write.jobId p = (p.writes k).map JobWrite.result := by
  obtain ⟨request, -, hof, -⟩ := hI.orderly h
  rw [storedResults, JobsPage.writes, List.map_filterMap]
  refine List.filterMap_congr ?_
  rintro ⟨j, b⟩ hb
  show (if b.write.jobId = a.write.jobId then some b.write.result else none)
    = (if j = k then some b.write else none).map JobWrite.result
  by_cases hjk : j = k
  · subst hjk
    have hid : b.write.jobId = a.write.jobId := hof.same _ (JobsPage.mem_writes.mpr ⟨b, hb, rfl⟩)
    rw [if_pos hid, if_pos rfl]
    rfl
  · rw [if_neg fun hid => hjk (hO j k b a hb h hid), if_neg hjk]
    rfl

/-- What is stored under one id is in order, as one submission wrote it. -/
theorem pendingThenOne_storedResults (hI : JobsInv events p) (hO : Owned p) (id : JobId) :
    PendingThenOne (storedResults id p) := by
  by_cases h : ∃ k a, (k, a) ∈ p.log ∧ a.write.jobId = id
  · obtain ⟨k, a, hka, rfl⟩ := h
    rw [storedResults_eq hI hO hka]
    obtain ⟨-, -, -, hone⟩ := hI.orderly hka
    exact hone
  · have hnil : storedResults id p = [] := by
      refine List.filterMap_eq_nil_iff.mpr fun ⟨k, a⟩ hka => ?_
      exact if_neg fun hid => h ⟨k, a, hka, hid⟩
    rw [hnil]
    exact ⟨[], [], rfl, by simp, by simp, by simp⟩

/-- The store holds the last result. -/
theorem JobsInv.result_eq (hI : JobsInv events p) (id : JobId) :
    p.jobs.jobIdToResult[id]? = (storedResults id p).getLast? := by
  rw [hI.reduced, reduced_result, List.filterMap_map]
  rfl

/-- The request of an id is the one last written under it. -/
theorem JobsInv.request_eq (hI : JobsInv events p) (id : JobId) :
    p.jobs.jobIdToRequest[id]? = (storedRequests id p).getLast? := by
  rw [hI.reduced, reduced_request, List.filterMap_map]
  rfl

/-- **Both maps have the same keys**: the first write of a submission carries its request. -/
theorem JobsInv.same_keys (hI : JobsInv events p) (id : JobId) :
    id ∈ p.jobs.jobIdToResult ↔ id ∈ p.jobs.jobIdToRequest := by
  have hlast : ∀ {T : Type} (l : List T), (∃ v, l.getLast? = some v) ↔ ∃ v, v ∈ l := by
    intro T l
    constructor
    · rintro ⟨v, hv⟩
      exact ⟨v, List.mem_of_getLast? hv⟩
    · rintro ⟨v, hv⟩
      exact ⟨_, List.getLast?_eq_getLast_of_ne_nil (List.ne_nil_of_mem hv)⟩
  rw [JsMap.mem_iff, JsMap.mem_iff, hI.result_eq, hI.request_eq, hlast, hlast]
  constructor
  · rintro ⟨r, hr⟩
    -- a result comes from a submission whose first write carried its request
    obtain ⟨⟨k, a⟩, hka, ha⟩ := List.mem_filterMap.mp hr
    have hid : a.write.jobId = id := by
      by_contra hno
      rw [JobsAction.resultUnder, if_neg hno] at ha
      cases ha
    subst hid
    obtain ⟨request, -, hof, -⟩ := hI.orderly hka
    have hne : p.writes k ≠ [] := List.ne_nil_of_mem (JobsPage.mem_writes.mpr ⟨a, hka, rfl⟩)
    obtain ⟨w, rest, hw⟩ := List.exists_cons_of_ne_nil hne
    have hmem : w ∈ p.writes k := by rw [hw]; exact List.mem_cons_self
    obtain ⟨b, hb, hbw⟩ := JobsPage.mem_writes.mp hmem
    have hfirst : b.write.request = some request := by
      rw [hbw]
      exact hof.first w (by rw [hw]; rfl)
    have hsame : b.write.jobId = a.write.jobId := hof.same _ (JobsPage.mem_writes.mpr ⟨b, hb, rfl⟩)
    exact ⟨request, List.mem_filterMap.mpr ⟨(k, b), hb, by rw [JobsAction.requestUnder, if_pos hsame, hfirst]⟩⟩
  · rintro ⟨request, hr⟩
    obtain ⟨⟨k, a⟩, hka, ha⟩ := List.mem_filterMap.mp hr
    refine ⟨a.write.result, List.mem_filterMap.mpr ⟨(k, a), hka, ?_⟩⟩
    unfold JobsAction.requestUnder at ha
    split at ha
    · exact if_pos ‹_›
    · cases ha

/-- **A step of one submission leaves the entries of the others alone.** -/
theorem others_unchanged (hI : JobsInv events p) (hO : Owned p') (h : p.step e = some p') {j : Nat}
    {w : JobWrite} (hj : j ≠ e.submission p) (hw : w ∈ p.writes j) :
    p'.jobs.jobIdToResult[w.jobId]? = p.jobs.jobIdToResult[w.jobId]? ∧
      p'.jobs.jobIdToRequest[w.jobId]? = p.jobs.jobIdToRequest[w.jobId]? := by
  obtain ⟨actions, task, hM⟩ := hI.moves h
  obtain ⟨b, hb, rfl⟩ := JobsPage.mem_writes.mp hw
  have hI' := hI.step h
  have hother : ∀ a ∈ actions, a.write.jobId ≠ b.write.jobId := by
    intro a ha hid
    refine hj (hO _ _ b a ?_ ?_ hid.symm)
    · rw [hM.log]
      exact List.mem_append_left _ hb
    · rw [hM.log]
      exact List.mem_append_right _ (List.mem_map_of_mem ha)
  have hresults : actions.filterMap (JobsAction.resultUnder b.write.jobId) = [] :=
    List.filterMap_eq_nil_iff.mpr fun a ha => if_neg (hother a ha)
  have hrequests : actions.filterMap (JobsAction.requestUnder b.write.jobId) = [] :=
    List.filterMap_eq_nil_iff.mpr fun a ha => if_neg (hother a ha)
  rw [hI'.result_eq, hI.result_eq, hM.storedResults, hresults, List.append_nil, hI'.request_eq, hI.request_eq,
    hM.storedRequests, hrequests, List.append_nil]
  exact ⟨rfl, rfl⟩

/-- Later the log has only grown. -/
theorem log_prefix {later : List JobsEvent} (hI : JobsInv events p)
    (h : run JobsPage.step p later = some p') : p.log <+: p'.log := by
  have hinv : (∃ events, JobsInv events p') ∧ p.log <+: p'.log := by
    refine run_invariant (I := fun q => (∃ events, JobsInv events q) ∧ p.log <+: q.log) (G := fun _ _ => True)
      ?_ ⟨⟨_, hI⟩, List.prefix_refl _⟩ (along_of_forall (fun _ _ => trivial) _ _) h
    rintro q e q' ⟨⟨events, hI⟩, hprefix⟩ - hs
    obtain ⟨actions, task, hM⟩ := hI.moves hs
    refine ⟨⟨_, hI.step hs⟩, hprefix.trans ?_⟩
    rw [hM.log]
    exact List.prefix_append _ _
  exact hinv.2

/-- A final result is the last one of its sequence. -/
theorem PendingThenOne.final_last {before after : List (Result Unit)} {r : Result Unit}
    (h : PendingThenOne (before ++ r :: after)) (hr : r.terminal = true) : after = [] := by
  obtain ⟨pendings, last, hsplit, hpending, hlen, -⟩ := h
  have hnot : ∀ l, pendings ≠ before ++ r :: l := by
    intro l hl
    have hr' : r = toPending := hpending r (by rw [hl]; simp)
    rw [hr'] at hr
    cases hr
  rcases List.append_eq_append_iff.mp hsplit with ⟨mid, rfl, hrest⟩ | ⟨mid, rfl, hrest⟩
  · cases mid with
    | nil =>
        rw [List.nil_append] at hrest
        rw [← hrest] at hlen
        exact List.length_eq_zero_iff.mp (by simpa using hlen)
    | cons c mid =>
        obtain ⟨rfl, -⟩ := List.cons.inj hrest
        exact absurd rfl (hnot mid)
  · have hle := congrArg List.length hrest
    simp only [List.length_append, List.length_cons] at hle
    exact List.length_eq_zero_iff.mp (by omega)

/-- **A final result stays.** -/
theorem final_kept {before later : List JobsEvent} {q : JobsPage} (hIq : JobsInv before q) (hI : JobsInv events p)
    (hO : Owned p) (hrun : run JobsPage.step q later = some p) {id : JobId} {r : Result Unit}
    (hr : q.jobs.jobIdToResult[id]? = some r) (hterminal : r.terminal = true) : p.jobs.jobIdToResult[id]? = some r := by
  obtain ⟨more, hmore⟩ := log_prefix hIq hrun
  rw [hIq.result_eq] at hr
  obtain ⟨init, hinit⟩ := List.getLast?_eq_some_iff.mp hr
  have hgrown : storedResults id p = init ++ r :: more.filterMap fun entry => entry.2.resultUnder id := by
    rw [storedResults, ← hmore, List.filterMap_append]
    show storedResults id q ++ _ = _
    rw [hinit, List.append_assoc, List.singleton_append]
  have hone := pendingThenOne_storedResults hI hO id
  rw [hgrown] at hone
  rw [hI.result_eq, hgrown, hone.final_last hterminal, List.getLast?_concat]

/-- **Job results are monotone.** With distinct ids, after any events: what was stored under an id is pending
    results and at most one final result, and the store holds the last of them; a final result that was stored
    at some time is still there; a step of one submission changed neither the request nor the result of another;
    and the two maps have the same keys. -/
theorem job_results_monotone (hD : DistinctIds events) (h : run JobsPage.step .initial events = some p) :
    (∀ id, PendingThenOne (storedResults id p) ∧
      p.jobs.jobIdToResult[id]? = (storedResults id p).getLast?) ∧
    (∀ before after q (id : JobId) (r : Result Unit), events = before ++ after → run JobsPage.step .initial before = some q →
      q.jobs.jobIdToResult[id]? = some r → r.terminal = true → p.jobs.jobIdToResult[id]? = some r) ∧
    (∀ before e after q q', events = before ++ e :: after → run JobsPage.step .initial before = some q →
      q.step e = some q' → ∀ j w, j ≠ e.submission q → w ∈ q.writes j →
        q'.jobs.jobIdToResult[w.jobId]? = q.jobs.jobIdToResult[w.jobId]? ∧
        q'.jobs.jobIdToRequest[w.jobId]? = q.jobs.jobIdToRequest[w.jobId]?) ∧
    ∀ id, id ∈ p.jobs.jobIdToResult ↔ id ∈ p.jobs.jobIdToRequest := by
  have hI := jobsInv_run h
  have hO := owned_run hD h
  refine ⟨fun id => ⟨pendingThenOne_storedResults hI hO id, hI.result_eq id⟩, ?_, ?_, hI.same_keys⟩
  · intro before after q id r hsplit hq hr hterminal
    subst hsplit
    obtain ⟨q₀, hq₀, hafter⟩ := run_append.mp h
    obtain rfl := Option.some_inj.mp (hq.symm.trans hq₀)
    exact final_kept (jobsInv_run hq) hI hO hafter hr hterminal
  · intro before e after q q' hsplit hq hs j w hj hw
    have hrun : run JobsPage.step .initial (before ++ [e]) = some q' :=
      run_append.mpr ⟨q, hq, run_cons.mpr ⟨q', hs, rfl⟩⟩
    have hD' : DistinctIds (before ++ [e]) := by
      rw [hsplit, List.append_cons] at hD
      exact hD.of_append
    exact others_unchanged (jobsInv_run hq) (owned_run hD' hrun) hs hj hw

end

/-- A file is moved and another one deleted; the server takes the first and is down for the second, and the
    move is polled twice before it fails. -/
def pollingEvents : List JobsEvent :=
  [.submitJob (.moveFile (js "r") (js "a") (js "r") (js "b")), .submitJob (.deleteFile (js "r") (js "c")),
    .submitResponse 0 (.ok 7) 0, .pollTick 0, .submitResponse 1 (.failed ⟨js "down"⟩) 3,
    .pollResponse 0 (.ok ⟨[], false⟩), .pollTick 0, .pollResponse 0 (.ok ⟨js "no such file", false⟩)]

/-- A move that is polled until it fails, and a deletion that fails at once: the move's results are pending ones and
the error. -/
theorem job_results_monotone_move :
    ∃ p, run JobsPage.step .initial pollingEvents = some p ∧
      storedResults (serverJobId 7) p =
        [toPending, toPending, toPending, toPending, toPending, toFailure ⟨js "no such file"⟩] ∧
      PendingThenOne (storedResults (serverJobId 7) p) := by
  have hdistinct : DistinctIds pollingEvents := ⟨by decide, by decide⟩
  obtain ⟨p, hrun⟩ : ∃ p, run JobsPage.step .initial pollingEvents = some p := ⟨_, rfl⟩
  refine ⟨p, hrun, ?_, ((job_results_monotone hdistinct hrun).1 (serverJobId 7)).1⟩
  cases hrun
  decide

end RCloneCloud
