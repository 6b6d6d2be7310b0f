import RCloneCloud.Ui.JobsMonotone

/-!
# `Ui.JobsListed` — every submitted job is in the list of jobs

Once all answers are in, the list has one entry for each submission, with its request and, when it failed, with
its error. That is so exactly when no two failed submissions were reduced at one reading of the clock: their ids
are made of nothing else, and the second of two equal ones replaces the first.

`ListedInv` adds to the invariant of `Ui.JobRuns` what has been written for a submission that waits for nothing more,
and which readings of the clock were used by failures. In one direction, with distinct readings, no entry replaces
another and the list is the submissions (`allListed_of_owned`). In the other, two failures at one reading share an id,
so the list is short by one (`failures_distinct_of_allListed`). A redirect to the login is left out (`NoRedirect`), as
the page goes away with it.
-/

set_option autoImplicit false

namespace RCloneCloud

open Lib

/-! ## What is asked of a run -/

/-- The request of submission `k` failed with the error. -/
def FailedWith (events : List JobsEvent) (k : Nat) (e : JsError) : Prop :=
  .uploadResponse k (.failed e) ∈ events ∨ ∃ now, .submitResponse k (.failed e) now ∈ events

/-- No submission is answered with a 401. -/
def NoRedirect (events : List JobsEvent) : Prop :=
  (∀ k, .uploadResponse k .unauthorized ∉ events) ∧ ∀ k now, .submitResponse k .unauthorized now ∉ events

/-- No submission waits for its answer. -/
def AllAnswered (p : JobsPage) : Prop :=
  ∀ (k : Nat) (t : JobTask), p.tasks[k]? = some t → ∃ id inFlight, t = .polling id inFlight

/-- **No submission is lost**: up to their order, the entries listed are one for each submission, with its
    request, and each failed submission's entry has its error. -/
def AllListed (events : List JobsEvent) (p : JobsPage) : Prop :=
  ∃ entries, (selectAllJobs p.jobs).Perm entries ∧
    entries.map JobEntry.request = submittedRequests events ∧
    ∀ k e, FailedWith events k e → entries[k]?.map JobEntry.result = some (toFailure e)

/-! ## What the submissions leave in the store -/

/-- The failed submissions other than uploads, each with the reading of the clock. -/
def failedSubmissions (p : JobsPage) : List (Nat × Nat) :=
  p.log.filterMap fun
    | (k, .setSubmitJobFailed _ _ now) => some (k, now)
    | _ => none

/-- What holds after the events, when none was a 401. -/
structure ListedInv (events : List JobsEvent) (p : JobsPage) : Prop where
  answered : ∀ k < p.submissions, p.tasks[k]? = none → p.writes k ≠ []
  failed : ∀ k e, FailedWith events k e → toFailure e ∈ (p.writes k).map JobWrite.result
  readings : (failedSubmissions p).map Prod.snd = failureReadings events
  once : ((failedSubmissions p).map Prod.fst).Nodup

/-- Nothing was submitted, so nothing is missing. -/
theorem listedInv_initial : ListedInv [] .initial where
  answered k hk := absurd hk (Nat.not_lt_zero k)
  failed k e h := by rcases h with h | ⟨now, h⟩ <;> cases h
  readings := rfl
  once := List.nodup_nil

section
variable {events : List JobsEvent} {p p' : JobsPage} {e : JobsEvent} {actions : List JobsAction}
  {task : Option JobTask}

/-- A run without a redirect has none in its beginnings. -/
theorem NoRedirect.prefix (h : NoRedirect (events ++ [e])) : NoRedirect events :=
  ⟨fun k hk => h.1 k (List.mem_append_left _ hk), fun k now hk => h.2 k now (List.mem_append_left _ hk)⟩

/-- A submission that has come to its end, not by a 401, has written. -/
theorem Reacts.wrote_of_none {counter : Nat} {old new : Option JobTask} (hR : Reacts counter e old actions new)
    (hno : NoRedirect [e]) (hnone : new = none) : actions ≠ [] := by
  cases hR with
  | uploadRefused => exact absurd (List.mem_singleton_self _) (hno.1 _)
  | refused => exact absurd (List.mem_singleton_self _) (hno.2 _ _)
  | uploaded | failed | finished => exact List.cons_ne_nil _ _
  | upload | submit | accepted | tick | tickIgnored | statusRefused | status => cases hnone

/-- The error of a failure is written. -/
theorem Reacts.wrote_failure {counter k : Nat} {old new : Option JobTask} {err : JsError}
    (hR : Reacts counter e old actions new) (hfailed : FailedWith [e] k err) :
    k = e.submission p ∧ toFailure err ∈ actions.map fun a => a.write.result := by
  rcases hfailed with hmem | ⟨now, hmem⟩
  · obtain rfl := List.mem_singleton.mp hmem
    cases hR with
    | uploaded hresult =>
        cases hresult
        exact ⟨rfl, List.mem_singleton_self _⟩
  · obtain rfl := List.mem_singleton.mp hmem
    cases hR
    exact ⟨rfl, List.mem_singleton_self _⟩

/-- A failure is reduced at the reading of the clock that comes with it. -/
theorem Reacts.readings {counter k : Nat} {old new : Option JobTask} (hR : Reacts counter e old actions new) :
    (actions.map (Prod.mk k)).filterMap (fun
      | (k, .setSubmitJobFailed _ _ now) => some (k, now)
      | _ => none) = (failureReadings [e]).map (Prod.mk k) := by
  cases hR with
  | uploaded hresult => rfl
  | status hresult hpending => rfl
  | finished hresult hterminal => rfl
  | _ => rfl

/-- A step adds a failed submission where its event has a reading of the clock. -/
theorem Moves.failedSubmissions (hM : Moves p e p' actions task) :
    failedSubmissions p' = failedSubmissions p ++ (failureReadings [e]).map (Prod.mk (e.submission p)) := by
  rw [RCloneCloud.failedSubmissions, hM.log, List.filterMap_append, hM.reacts.readings]
  rfl

/-- A failed submission had written nothing before. -/
theorem JobsInv.no_failure_before (hI : JobsInv events p) (hM : Moves p e p' actions task)
    (hfails : failureReadings [e] ≠ []) : e.submission p ∉ (failedSubmissions p).map Prod.fst := by
  intro hmem
  obtain ⟨⟨k, now⟩, hk, hke⟩ := List.mem_map.mp hmem
  obtain ⟨⟨j, a⟩, hja, ha⟩ := List.mem_filterMap.mp hk
  have hjk : j = k := by
    cases a with
    | setSubmitJobFailed r result t => cases ha; rfl
    | assignJobId => cases ha
    | setJobResult => cases ha
  have hw : a.write ∈ p.writes (e.submission p) := by
    rw [← hke]
    exact JobsPage.mem_writes.mpr ⟨a, hjk ▸ hja, rfl⟩
  have hR := hM.reacts
  generalize hold : p.tasks[e.submission p]? = old at hR
  cases hR with
  | failed =>
      obtain ⟨request, -, -, -, hnil⟩ := hI.request_of_task hold
      rw [hnil] at hw
      cases hw
  | _ => exact hfails rfl

/-- The step lemma, for the submission that moves and for the others. -/
theorem ListedInv.step (hI : JobsInv events p) (hL : ListedInv events p) (hno : NoRedirect (events ++ [e]))
    (h : p.step e = some p') : ListedInv (events ++ [e]) p' := by
  obtain ⟨actions, task, hM⟩ := hI.moves h
  have hI' := hI.step h
  have hno' : NoRedirect [e] :=
    ⟨fun k hk => hno.1 k (List.mem_append_right _ hk), fun k now hk => hno.2 k now (List.mem_append_right _ hk)⟩
  refine ⟨?_, ?_, ?_, ?_⟩
  -- a submission that waits for nothing has written: the one that moves just now, the others before
  · intro k hk hnone
    rw [hM.tasks] at hnone
    rw [hM.writes]
    by_cases hke : e.submission p = k
    · rw [if_pos hke] at hnone
      rw [if_pos hke.symm]
      have hwrote := hM.reacts.wrote_of_none hno' hnone
      simp [hwrote]
    · rw [if_neg hke] at hnone
      rw [if_neg (Ne.symm hke), List.append_nil]
      refine hL.answered k ?_ hnone
      rw [hM.submissions] at hk
      cases e with
      | submitJob r =>
          have hne : p.submissions ≠ k := hke
          simp only at hk
          omega
      | _ => exact hk
  -- an error that was answered is written, now or before
  · intro k err hfailed
    rw [hM.writes, List.map_append]
    have hsplit : FailedWith events k err ∨ FailedWith [e] k err := by
      rcases hfailed with hmem | ⟨now, hmem⟩
      · rcases List.mem_append.mp hmem with hold | hnew
        · exact .inl (.inl hold)
        · exact .inr (.inl hnew)
      · rcases List.mem_append.mp hmem with hold | hnew
        · exact .inl (.inr ⟨now, hold⟩)
        · exact .inr (.inr ⟨now, hnew⟩)
    rcases hsplit with hold | hnew
    · exact List.mem_append_left _ (hL.failed k err hold)
    · obtain ⟨hk, hmem⟩ := hM.reacts.wrote_failure (p := p) hnew
      rw [if_pos hk, List.map_map]
      exact List.mem_append_right _ hmem
  -- the readings follow the failures in the log
  · rw [hM.failedSubmissions, List.map_append, hL.readings, failureReadings_snoc, List.map_map]
    simp [Function.comp_def]
  · rw [hM.failedSubmissions, List.map_append, List.map_map, List.nodup_append]
    -- an event has one reading of the clock at most, and its submission had not failed before
    have hone : failureReadings [e] = [] ∨ ∃ now, failureReadings [e] = [now] := by
      cases e with
      | submitResponse k answer now => cases answer <;> first | exact .inl rfl | exact .inr ⟨now, rfl⟩
      | _ => exact .inl rfl
    rcases hone with hnil | ⟨now, hnow⟩
    · rw [hnil]
      exact ⟨hL.once, List.nodup_nil, fun _ _ b hb => by cases hb⟩
    · refine ⟨hL.once, by rw [hnow]; exact List.nodup_singleton _, fun a ha b hb hab => ?_⟩
      rw [hnow] at hb
      rw [hab, List.mem_singleton.mp hb] at ha
      exact hI.no_failure_before hM (by rw [hnow]; exact List.cons_ne_nil _ _) ha

/-- The run lemma. -/
theorem listedInv_run (hno : NoRedirect events) (h : run JobsPage.step .initial events = some p) :
    ListedInv events p := by
  have hinv : JobsInv events p ∧ ListedInv events p := by
    refine run_beginnings (C := NoRedirect) (I := fun events p => JobsInv events p ∧ ListedInv events p)
      (fun _ _ hno => hno.prefix) ⟨jobsInv_initial, listedInv_initial⟩ ?_ hno h
    rintro events e p p' hno ⟨hI, hL⟩ hs
    exact ⟨hI.step hs, hL.step hI hno hs⟩
  exact hinv.2

end

/-! ## The list -/

/-- The id under which submission `k` writes. -/
def JobsPage.idOf (p : JobsPage) (k : Nat) : JobId := ((p.writes k).head?.map JobWrite.jobId).getD []

/-- The entries that the list should have, in the order of the submissions. -/
def listedEntries (events : List JobsEvent) (p : JobsPage) : List JobEntry :=
  (submittedRequests events).zipIdx.map fun (request, k) =>
    ⟨p.idOf k, request, p.jobs.jobIdToResult[p.idOf k]?.getD toPending⟩

section
variable {events : List JobsEvent} {p : JobsPage}

/-- Every write of a submission is under its one id. -/
theorem JobsInv.idOf_eq (hI : JobsInv events p) {k : Nat} {a : JobsAction} (h : (k, a) ∈ p.log) :
    p.idOf k = a.write.jobId := by
  have hmem : a.write ∈ p.writes k := JobsPage.mem_writes.mpr ⟨a, h, rfl⟩
  obtain ⟨request, -, hof, -⟩ := hI.orderly h
  unfold JobsPage.idOf
  cases hws : p.writes k with
  | nil =>
      rw [hws] at hmem
      cases hmem
  | cons w rest =>
      rw [hws] at hof
      exact hof.same w List.mem_cons_self

/-- The list has an entry for each request in the store, pending where there is no result yet. -/
theorem mem_selectAllJobs {state : JobState} {entry : JobEntry} :
    entry ∈ selectAllJobs state ↔
      state.jobIdToRequest[entry.key]? = some entry.request ∧
        entry.result = state.jobIdToResult[entry.key]?.getD toPending := by
  unfold selectAllJobs
  constructor
  · intro h
    obtain ⟨⟨id, request⟩, hmem, rfl⟩ := List.mem_map.mp h
    exact ⟨Std.ExtTreeMap.mem_toList_iff_getElem?_eq_some.mp hmem, rfl⟩
  · rintro ⟨hrequest, hresult⟩
    obtain ⟨key, request, result⟩ := entry
    refine List.mem_map.mpr ⟨(key, request), Std.ExtTreeMap.mem_toList_iff_getElem?_eq_some.mpr hrequest, ?_⟩
    simp only at hresult
    rw [hresult]

/-- No key is listed twice. -/
theorem nodup_keys_selectAllJobs (state : JobState) : ((selectAllJobs state).map JobEntry.key).Nodup := by
  unfold selectAllJobs
  rw [List.map_map]
  refine List.pairwise_map.mpr (Std.ExtTreeMap.distinct_keys_toList.imp ?_)
  intro a b hab heq
  exact hab (Std.compare_eq_iff_eq.mpr heq)

/-- Every request in the store was put there by the submission that it is of. -/
theorem JobsInv.request_owner (hI : JobsInv events p) {id : JobId} {request : JobRequest}
    (h : p.jobs.jobIdToRequest[id]? = some request) :
    ∃ k a, (k, a) ∈ p.log ∧ a.write.jobId = id ∧ (submittedRequests events)[k]? = some request := by
  rw [hI.request_eq] at h
  obtain ⟨⟨k, a⟩, hka, ha⟩ := List.mem_filterMap.mp (List.mem_of_getLast? h)
  unfold JobsAction.requestUnder at ha
  split at ha
  · rename_i hid
    obtain ⟨own, hown, hof, -⟩ := hI.orderly hka
    rw [hof.own _ (JobsPage.mem_writes.mpr ⟨a, hka, rfl⟩) request ha]
    exact ⟨k, a, hka, hid, hown⟩
  · cases ha

/-- When all answers are in, every submission has written. -/
theorem ListedInv.wrote (hI : JobsInv events p) (hL : ListedInv events p) (hdone : AllAnswered p) {k : Nat}
    {request : JobRequest} (hk : (submittedRequests events)[k]? = some request) :
    ∃ a, (k, a) ∈ p.log ∧ a.write.request = some request ∧ a.write.jobId = p.idOf k := by
  have hlt : k < p.submissions := by
    rw [hI.count]
    exact (List.getElem?_eq_some_iff.mp hk).1
  have hne : p.writes k ≠ [] := by
    cases htask : p.tasks[k]? with
    | none => exact hL.answered k hlt htask
    | some t =>
        obtain ⟨id, inFlight, rfl⟩ := hdone k t htask
        obtain ⟨r, -, hne, -⟩ := hI.request_of_task htask
        exact hne
  obtain ⟨w, rest, hw⟩ := List.exists_cons_of_ne_nil hne
  have hmem : w ∈ p.writes k := by rw [hw]; exact List.mem_cons_self
  obtain ⟨a, ha, haw⟩ := JobsPage.mem_writes.mp hmem
  obtain ⟨own, hown, hof, -⟩ := hI.orderly ha
  obtain rfl : own = request := Option.some_inj.mp (hown.symm.trans hk)
  refine ⟨a, ha, ?_, (hI.idOf_eq ha).symm⟩
  rw [haw]
  exact hof.first w (by rw [hw]; rfl)

/-- Under distinct ids, submissions that have written are told apart by their ids. -/
theorem idOf_injective (hI : JobsInv events p) (hL : ListedInv events p) (hO : Owned p) (hdone : AllAnswered p)
    {j k : Nat} {r s : JobRequest} (hj : (submittedRequests events)[j]? = some r)
    (hk : (submittedRequests events)[k]? = some s) (hid : p.idOf j = p.idOf k) : j = k := by
  obtain ⟨a, ha, -, haid⟩ := hL.wrote hI hdone hj
  obtain ⟨b, hb, -, hbid⟩ := hL.wrote hI hdone hk
  exact hO j k a b ha hb (haid.trans (hid.trans hbid.symm))

/-- The entries of different submissions are different. -/
theorem nodup_listedEntries (hI : JobsInv events p) (hL : ListedInv events p) (hO : Owned p)
    (hdone : AllAnswered p) : (listedEntries events p).Nodup := by
  have hzip : (submittedRequests events).zipIdx.Nodup :=
    List.Nodup.of_map Prod.snd (by rw [List.zipIdx_map_snd]; exact List.nodup_range')
  refine List.Nodup.map_on ?_ hzip
  rintro ⟨r, j⟩ hj ⟨s, k⟩ hk heq
  have hj' := List.mem_zipIdx_iff_getElem?.mp hj
  have hk' := List.mem_zipIdx_iff_getElem?.mp hk
  obtain rfl := idOf_injective hI hL hO hdone hj' hk' (congrArg JobEntry.key heq)
  obtain rfl : r = s := congrArg JobEntry.request heq
  rfl

/-- The request under a submission's id is its own. -/
theorem request_idOf (hI : JobsInv events p) (hL : ListedInv events p) (hO : Owned p) (hdone : AllAnswered p)
    {k : Nat} {request : JobRequest} (hk : (submittedRequests events)[k]? = some request) :
    p.jobs.jobIdToRequest[p.idOf k]? = some request := by
  obtain ⟨a, ha, hrequest, hid⟩ := hL.wrote hI hdone hk
  have hin : request ∈ storedRequests (p.idOf k) p :=
    List.mem_filterMap.mpr ⟨(k, a), ha, by rw [JobsAction.requestUnder, if_pos hid, hrequest]⟩
  -- whatever request is there is of a submission with this id, and there is one only
  cases hlast : (storedRequests (p.idOf k) p).getLast? with
  | none =>
      rw [List.getLast?_eq_none_iff.mp hlast] at hin
      cases hin
  | some last =>
      rw [hI.request_eq, hlast]
      obtain ⟨j, b, hjb, hbid, hj⟩ := hI.request_owner ((hI.request_eq _).trans hlast)
      obtain rfl := hO j k b a hjb ha (hbid.trans hid.symm)
      exact hj.symm.trans hk

/-- When all is answered the list holds the entries of the submissions and no others. -/
theorem mem_listedEntries (hI : JobsInv events p) (hL : ListedInv events p) (hO : Owned p)
    (hdone : AllAnswered p) {entry : JobEntry} :
    entry ∈ selectAllJobs p.jobs ↔ entry ∈ listedEntries events p := by
  rw [mem_selectAllJobs, listedEntries, List.mem_map]
  constructor
  · rintro ⟨hrequest, hresult⟩
    obtain ⟨k, a, hka, hid, hk⟩ := hI.request_owner hrequest
    refine ⟨(entry.request, k), List.mem_zipIdx_iff_getElem?.mpr hk, ?_⟩
    show JobEntry.mk (p.idOf k) entry.request _ = entry
    rw [(hI.idOf_eq hka).trans hid, ← hresult]
  · rintro ⟨⟨request, k⟩, hmem, rfl⟩
    exact ⟨request_idOf hI hL hO hdone (List.mem_zipIdx_iff_getElem?.mp hmem), rfl⟩

/-- A failure is final, so it is the last result under the submission's id. -/
theorem result_idOf_failed (hI : JobsInv events p) (hL : ListedInv events p) (hO : Owned p) {k : Nat}
    {err : JsError} (hfailed : FailedWith events k err) :
    p.jobs.jobIdToResult[p.idOf k]? = some (toFailure err) := by
  have hmem := hL.failed k err hfailed
  obtain ⟨w, hw, -⟩ := List.mem_map.mp hmem
  obtain ⟨a, ha, rfl⟩ := JobsPage.mem_writes.mp hw
  have hstored : toFailure err ∈ storedResults a.write.jobId p := by
    rw [storedResults_eq hI hO ha]
    exact hmem
  obtain ⟨before, after, hsplit⟩ := List.append_of_mem hstored
  have hone := pendingThenOne_storedResults hI hO a.write.jobId
  rw [hsplit] at hone
  rw [hI.idOf_eq ha, hI.result_eq, hsplit, hone.final_last rfl, List.getLast?_concat]

/-- **Distinct ids list everything.** -/
theorem allListed_of_owned (hI : JobsInv events p) (hL : ListedInv events p) (hO : Owned p)
    (hdone : AllAnswered p) : AllListed events p := by
  refine ⟨listedEntries events p, ?_, ?_, ?_⟩
  · refine (List.perm_ext_iff_of_nodup (nodup_keys_selectAllJobs _).of_map ?_).mpr fun _ => ?_
    · exact nodup_listedEntries hI hL hO hdone
    · exact mem_listedEntries hI hL hO hdone
  · unfold listedEntries
    rw [List.map_map]
    exact List.zipIdx_map_fst 0 _
  · intro k err hfailed
    obtain ⟨w, hw, -⟩ := List.mem_map.mp (hL.failed k err hfailed)
    obtain ⟨a, ha, -⟩ := JobsPage.mem_writes.mp hw
    obtain ⟨request, hk, -⟩ := hI.orderly ha
    have hresult := result_idOf_failed hI hL hO hfailed
    simp [listedEntries, hk, hresult]

/-- **A complete list needs distinct readings**: the keys of its entries are the ids of the submissions, so
    these are all different. -/
theorem failures_distinct_of_allListed (hI : JobsInv events p) (hL : ListedInv events p)
    (h : AllListed events p) : (failureReadings events).Nodup := by
  obtain ⟨entries, hperm, hrequests, -⟩ := h
  let ids := (List.range (submittedRequests events).length).map p.idOf
  have hids : ids.Nodup := by
    have hsub : (selectAllJobs p.jobs).map JobEntry.key ⊆ ids := by
      intro id hid
      obtain ⟨entry, hentry, rfl⟩ := List.mem_map.mp hid
      obtain ⟨k, a, hka, hkey, hk⟩ := hI.request_owner (mem_selectAllJobs.mp hentry).1
      refine List.mem_map.mpr ⟨k, List.mem_range.mpr (List.getElem?_eq_some_iff.mp hk).1, ?_⟩
      rw [hI.idOf_eq hka, hkey]
    have hlen : ids.length ≤ ((selectAllJobs p.jobs).map JobEntry.key).length := by
      have hentries : entries.length = (submittedRequests events).length := by
        rw [← hrequests, List.length_map]
      rw [List.length_map, List.length_map, List.length_range, hperm.length_eq, hentries]
    have hkeys := nodup_keys_selectAllJobs p.jobs
    exact ((hkeys.subperm hsub).perm_of_length_le hlen).nodup_iff.mp hkeys
  rw [← hL.readings]
  refine List.Nodup.map_on ?_ hL.once.of_map
  rintro ⟨j, t⟩ hj ⟨k, t'⟩ hk rfl
  have hid : ∀ {k : Nat}, (k, t) ∈ failedSubmissions p → k ∈ List.range (submittedRequests events).length ∧
      p.idOf k = failedJobId t := by
    intro k hk
    obtain ⟨⟨l, a⟩, hla, ha⟩ := List.mem_filterMap.mp hk
    cases a with
    | setSubmitJobFailed request result now =>
        cases ha
        obtain ⟨own, hown, -⟩ := hI.orderly hla
        exact ⟨List.mem_range.mpr (List.getElem?_eq_some_iff.mp hown).1, hI.idOf_eq hla⟩
    | assignJobId => cases ha
    | setJobResult => cases ha
  obtain ⟨hjn, hjid⟩ := hid hj
  obtain ⟨hkn, hkid⟩ := hid hk
  rw [List.inj_on_of_nodup_map hids hjn hkn (hjid.trans hkid.symm)]

/-- **No submitted job is lost** exactly when no two failed submissions are reduced at one reading of the
    clock: with all answers in, none of them a 401, and the server's ids distinct. -/
theorem jobs_listed_iff (hno : NoRedirect events) (haccepted : (acceptedIds events).Nodup)
    (hdone : AllAnswered p) (h : run JobsPage.step .initial events = some p) :
    AllListed events p ↔ (failureReadings events).Nodup := by
  have hI := jobsInv_run h
  have hL := listedInv_run hno h
  constructor
  · exact failures_distinct_of_allListed hI hL
  · exact fun hfailures => allListed_of_owned hI hL (owned_run ⟨haccepted, hfailures⟩ h) hdone

end

/-- Two deletions fail, at the readings `now` and `later` of the clock. -/
def failingEvents (now later : Nat) : List JobsEvent :=
  [.submitJob (.deleteFile (js "r") (js "a")), .submitJob (.deleteFile (js "r") (js "b")),
    .submitResponse 1 (.failed ⟨js "first"⟩) now, .submitResponse 0 (.failed ⟨js "second"⟩) later]

/-- The sample's two submissions fail without a redirect. -/
theorem failingEvents_noRedirect (now later : Nat) : NoRedirect (failingEvents now later) := by
  constructor <;> simp [failingEvents]

/-- Where no submission waits for anything all answers are in. -/
theorem allAnswered_of_no_tasks {p : JobsPage} (h : p.tasks.toList = []) : AllAnswered p := by
  intro k t ht
  have hmem : (k, t) ∈ p.tasks.toList := Std.ExtTreeMap.mem_toList_iff_getElem?_eq_some.mpr ht
  rw [h] at hmem
  cases hmem

/-- Two failures at different readings are both listed. -/
theorem jobs_listed_apart :
    ∃ p, run JobsPage.step .initial (failingEvents 5 6) = some p ∧ AllListed (failingEvents 5 6) p :=
  ⟨_, rfl, (jobs_listed_iff (failingEvents_noRedirect 5 6) (by decide)
    (allAnswered_of_no_tasks (by decide)) rfl).mpr (by decide)⟩

/-- **Two failures in one millisecond leave one entry**: the job that failed first is gone from the list, with
    its error. -/
theorem failed_job_lost :
    ∃ p, run JobsPage.step .initial (failingEvents 5 5) = some p ∧ AllAnswered p ∧
      selectAllJobs p.jobs =
        [⟨failedJobId 5, .deleteFile (js "r") (js "a"), toFailure ⟨js "second"⟩⟩] ∧
      ¬ AllListed (failingEvents 5 5) p := by
  refine ⟨_, rfl, allAnswered_of_no_tasks (by decide), by decide, ?_⟩
  rintro ⟨entries, hperm, hrequests, -⟩
  have hlen : entries.length = 2 := by
    rw [← List.length_map JobEntry.request, hrequests]
    rfl
  have hone := hperm.length_eq
  rw [hlen] at hone
  exact absurd hone (by decide)

end RCloneCloud
