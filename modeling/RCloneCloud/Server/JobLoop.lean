import RCloneCloud.Server.ServiceCalls
import RCloneCloud.Ui.JobsListed

/-!
# `Server.JobLoop` — the page, the server and what is between them

The page submits jobs, each by a POST that may arrive late, and the server answers each when it arrives; an answer may
be late too, or be lost. A job that the page lists under a number of rclone's is a job that the server has started
under that number, with the method and the parameters of the very request listed, and no submission starts two jobs
(`listed_jobs_started`).

A submission has a number, and so has its request at the server; the network in between is the list of requests under
way and of answers under way. `LoopInv` says that each answer under way tells of a job that the server started for the
submission with that number (`StartedFor`), and that no submission is on its way twice, or once more after its job was
started. From the page's side the invariant of `Ui.JobRuns` is used as it stands, through the events that the page has
seen.
-/

set_option autoImplicit false

namespace RCloneCloud

open Lib

/-! ## The loop -/

/-- A job that rclone has started for a submission, with what it was started with. -/
structure StartedJob where
  submission : Nat
  jobid : Nat
  path : GoString
  params : Params
  /-- The remotes configured then. -/
  sections : List GoString

/-- What comes with a POST when it arrives: the state of the server's surroundings, what the browser adds, the number
    that rclone gives to a job that it starts, and the error that the browser makes of an answer that is none of
    those the page tells apart. -/
structure Delivery where
  env : RcEnv
  ping : Option GoError
  time : ℚ
  authToken : JsString
  boundary : GoString
  browser : ServerRequest
  jobid : Option Nat
  failure : JsError

/-- The page, the server, the POSTs and the answers on their way, and the jobs started. -/
structure JobLoop where
  page : JobsPage
  server : WebServer
  posts : List (Nat × JobRequest)
  answers : List (Nat × HttpAnswer Nat)
  started : List StartedJob

/-- The page takes an event of its own, a request is delivered, or an answer is. -/
inductive LoopAction where
  /-- An event of the page other than the answer to a POST. -/
  | page (e : JobsEvent)
  | deliver (i : Nat) (d : Delivery)
  | answer (i : Nat) (now : Nat)
  /-- The connection of a submission fails; its POST may arrive all the same. -/
  | lose (k : Nat) (error : JsError) (now : Nat)
  /-- Anything else that happens to the server. -/
  | server (a : ServerAction)

/-- The answer to the POST of a job, as the page gets it. -/
def Delivery.answer (d : Delivery) : ServerReply → HttpAnswer Nat
  | .rclone _ (.newJob _ _) => d.jobid.elim (.failed d.failure) .ok
  | .unauthorized _ => .unauthorized
  | _ => .failed d.failure

/-- The job started, if one is. -/
def Delivery.startedJob (d : Delivery) (k : Nat) : ServerReply → Option StartedJob
  | .rclone _ (.newJob path params) => d.jobid.map fun jobid => ⟨k, jobid, path, params, d.env.sections⟩
  | _ => none

namespace JobLoop

/-- Nothing submitted, nothing under way, nothing started. -/
def init : JobLoop := ⟨.initial, .init, [], [], []⟩

/-- An event reaches the page's effects. -/
def pageEvent (l : JobLoop) (e : JobsEvent) : Option JobLoop := (l.page.step e).map fun page => { l with page := page }

/-- A submission; its POST is on its way, but for an upload, which is no job of rclone's. -/
def submit (l : JobLoop) (request : JobRequest) : JobLoop :=
  { l with
    page := l.page.submitJob request
    posts := if request.isUpload then l.posts else l.posts ++ [(l.page.submissions, request)] }

/-- A request reaches the server, which starts its job or refuses it, and the answer goes on its way. -/
def deliver (l : JobLoop) (W : WebApi) (i k : Nat) (request : JobRequest) (d : Delivery) : JobLoop :=
  let out := W.handle d.env d.ping d.time ((submitJob request).request d.authToken d.boundary d.browser) l.server
  { l with
    server := out.2
    posts := l.posts.eraseIdx i
    answers := l.answers ++ [(k, d.answer out.1.reply)]
    started := l.started ++ (d.startedJob k out.1.reply).toList }

end JobLoop

/-- A step of the page, the network and the server. -/
def WebApi.loopStep (W : WebApi) (l : JobLoop) : LoopAction → Option JobLoop
  | .page (.submitJob request) => some (l.submit request)
  | .page (.submitResponse ..) => none
  | .page e => l.pageEvent e
  | .deliver i d =>
      match l.posts[i]? with
      | none => none
      | some (k, request) => some (l.deliver W i k request d)
  | .answer i now =>
      match l.answers[i]? with
      | none => none
      | some (k, answer) =>
          (l.pageEvent (.submitResponse k answer now)).map fun l => { l with answers := l.answers.eraseIdx i }
  | .lose k error now => l.pageEvent (.submitResponse k (.failed error) now)
  | .server a => (W.step l.server a).map fun server => { l with server := server }

/-! ## What a step of the page puts into its list -/

section
variable {events : List JobsEvent} {p p' : JobsPage} {e : JobsEvent} {id : JobId} {request : JobRequest} {k : Nat}

/-- A request in the job store was there before or one of the actions stored it. -/
theorem foldl_request {actions : List JobsAction} {s : JobState}
    (h : (actions.foldl jobsReducer s).jobIdToRequest[id]? = some request) :
    s.jobIdToRequest[id]? = some request ∨ ∃ a ∈ actions, a.requestUnder id = some request := by
  induction actions generalizing s with
  | nil => exact .inl h
  | cons a rest ih =>
      rcases ih h with hfirst | ⟨b, hb, hunder⟩
      · rw [jobsReducer_request] at hfirst
        rcases Option.or_eq_some_iff.mp hfirst with hunder | ⟨-, hold⟩
        · exact .inr ⟨a, List.mem_cons_self, hunder⟩
        · exact .inl hold
      · exact .inr ⟨b, List.mem_cons_of_mem a hb, hunder⟩

/-- The request that an action stores: an upload's, that of a failure, or that of a job just accepted. -/
theorem Reacts.storedRequest {counter : Nat} {old new : Option JobTask} {actions : List JobsAction} {a : JobsAction}
    (hR : Reacts counter e old actions new) (ha : a ∈ actions) (hrequest : a.write.request = some request) :
    request.isUpload = true ∨ (∃ id, old = some (.uploading id request)) ∨ (∃ now, a.write.jobId = failedJobId now) ∨
      ∃ k jobid now, e = .submitResponse k (.ok jobid) now ∧ a.write.jobId = serverJobId jobid ∧
        old = some (.submitting request) := by
  -- the request of a write comes from the submission's own upload, failure or acceptance
  cases hR with
  | upload hkind =>
      obtain rfl := List.mem_singleton.mp ha
      cases hrequest
      exact .inl hkind
  | uploaded hresult =>
      obtain rfl := List.mem_singleton.mp ha
      cases hrequest
      exact .inr (.inl ⟨_, rfl⟩)
  | failed =>
      obtain rfl := List.mem_singleton.mp ha
      exact .inr (.inr (.inl ⟨_, rfl⟩))
  | accepted =>
      rcases List.mem_pair.mp ha with rfl | rfl
      · cases hrequest
        exact .inr (.inr (.inr ⟨_, _, _, rfl, rfl, rfl⟩))
      · cases hrequest
  | tick =>
      obtain rfl := List.mem_singleton.mp ha
      cases hrequest
  | status =>
      obtain rfl := List.mem_singleton.mp ha
      cases hrequest
  | finished =>
      obtain rfl := List.mem_singleton.mp ha
      cases hrequest
  | _ => cases ha

/-- A request that a step puts into the list is an upload's, or that of a failure, or the one that rclone has just
    accepted. -/
theorem JobsInv.new_request (hI : JobsInv events p) (h : p.step e = some p')
    (hreq : p'.jobs.jobIdToRequest[id]? = some request) :
    p.jobs.jobIdToRequest[id]? = some request ∨ request.isUpload = true ∨ (∃ now, id = failedJobId now) ∨
      ∃ k jobid now, e = .submitResponse k (.ok jobid) now ∧ id = serverJobId jobid ∧
        (submittedRequests events)[k]? = some request := by
  obtain ⟨actions, task, hM⟩ := hI.moves h
  rw [hM.jobs] at hreq
  rcases foldl_request hreq with hold | ⟨a, ha, hunder⟩
  · exact .inl hold
  · refine .inr ?_
    unfold JobsAction.requestUnder at hunder
    split at hunder
    · next hid =>
        subst hid
        rcases hM.reacts.storedRequest ha hunder with hkind | ⟨id, hup⟩ | hfailed | ⟨k, jobid, now, rfl, hid, hsubmitting⟩
        · exact .inl hkind
        · obtain ⟨r, -, rfl, hkind, -⟩ := hI.request_of_task hup
          exact .inl hkind
        · exact .inr (.inl hfailed)
        · obtain ⟨r, hr, rfl, -⟩ := hI.request_of_task hsubmitting
          exact .inr (.inr ⟨k, jobid, now, rfl, hid, hr⟩)
    · cases hunder

/-- A submission keeps its number. -/
theorem submittedRequests_grow (h : (submittedRequests events)[k]? = some request) (e : JobsEvent) :
    (submittedRequests (events ++ [e]))[k]? = some request := by
  rw [submittedRequests_snoc, List.getElem?_append_left (List.getElem?_eq_some_iff.mp h).1]
  exact h

end

/-! ## The invariant of the loop -/

/-- The job is the one the request asks for, and it was allowed. -/
structure StartedFor (request : JobRequest) (job : StartedJob) : Prop where
  path : job.path = str (submitJob request).rcCall.method
  params : ∃ rc, addHandles rc (some (mergeMembers ∅ (submitJob request).rcCall.params)) = some job.params
  allowed : (submitJob request).Allowed job.sections

/-- What holds after the page's events. -/
structure LoopInv (events : List JobsEvent) (l : JobLoop) : Prop where
  page : JobsInv events l.page
  posts : ∀ post ∈ l.posts, (submittedRequests events)[post.1]? = some post.2
  started : ∀ job ∈ l.started, ∃ request, (submittedRequests events)[job.submission]? = some request ∧ StartedFor request job
  answers : ∀ k jobid, (k, HttpAnswer.ok jobid) ∈ l.answers → ∃ job ∈ l.started, job.submission = k ∧ job.jobid = jobid
  /-- no submission is on its way twice, or once more after its job was started -/
  once : (l.posts.map Prod.fst ++ l.started.map StartedJob.submission).Nodup
  listed : ∀ id request, l.page.jobs.jobIdToRequest[id]? = some request → request.isUpload = true ∨
    (∃ now, id = failedJobId now) ∨ ∃ job ∈ l.started, id = serverJobId job.jobid ∧ StartedFor request job

section
variable {W : WebApi} {events : List JobsEvent} {l l' : JobLoop} {e : JobsEvent}

/-- An event of the page, when an answer that it brings is one of a job started. -/
theorem LoopInv.pageEvent (hI : LoopInv events l) (h : l.pageEvent e = some l')
    (hanswer : ∀ k jobid now, e = .submitResponse k (.ok jobid) now → (k, HttpAnswer.ok jobid) ∈ l.answers) :
    LoopInv (events ++ [e]) l' := by
  obtain ⟨page, hstep, rfl⟩ := Option.map_eq_some_iff.mp h
  refine ⟨hI.page.step hstep, fun post hpost => submittedRequests_grow (hI.posts post hpost) e, ?_, hI.answers, hI.once, ?_⟩
  · intro job hjob
    obtain ⟨request, hrequest, hfor⟩ := hI.started job hjob
    exact ⟨request, submittedRequests_grow hrequest e, hfor⟩
  · intro id request hreq
    rcases hI.page.new_request hstep hreq with hold | hkind | hfailed | ⟨k, jobid, now, he, rfl, hk⟩
    · exact hI.listed id request hold
    · exact .inl hkind
    · exact .inr (.inl hfailed)
    · obtain ⟨job, hjob, rfl, rfl⟩ := hI.answers k jobid (hanswer k jobid now he)
      obtain ⟨r, hr, hfor⟩ := hI.started job hjob
      cases hk.symm.trans hr
      exact .inr (.inr ⟨job, hjob, rfl, hfor⟩)

/-- A submission is new to the loop. -/
theorem LoopInv.submit (hI : LoopInv events l) (request : JobRequest) :
    LoopInv (events ++ [.submitJob request]) (l.submit request) := by
  have hevent : LoopInv (events ++ [.submitJob request]) { l with page := l.page.submitJob request } :=
    hI.pageEvent rfl nofun
  -- the number of the new submission has not been given before
  have hfresh : l.page.submissions ∉ l.posts.map Prod.fst ++ l.started.map StartedJob.submission := by
    have hlt : ∀ k r, (submittedRequests events)[k]? = some r → k < l.page.submissions := by
      intro k r hk
      rw [hI.page.count]
      exact (List.getElem?_eq_some_iff.mp hk).1
    intro hin
    rcases List.mem_append.mp hin with hpost | hjob
    · obtain ⟨post, hpost, he⟩ := List.mem_map.mp hpost
      exact absurd (hlt _ _ (hI.posts post hpost)) (by omega)
    · obtain ⟨job, hjob, he⟩ := List.mem_map.mp hjob
      obtain ⟨r, hr, -⟩ := hI.started job hjob
      exact absurd (hlt _ _ hr) (by omega)
  cases hkind : request.isUpload with
  -- an upload goes another way
  | true =>
      have hsame : l.submit request = { l with page := l.page.submitJob request } := by
        rw [JobLoop.submit, hkind, if_pos rfl]
      rw [hsame]
      exact hevent
  | false =>
      have hsame : l.submit request =
          { l with page := l.page.submitJob request, posts := l.posts ++ [(l.page.submissions, request)] } := by
        rw [JobLoop.submit, hkind, if_neg Bool.false_ne_true]
      rw [hsame]
      refine ⟨hevent.page, ?_, hevent.started, hevent.answers, ?_, hevent.listed⟩
      · intro post hpost
        rcases List.mem_append.mp hpost with hold | hnew
        · exact hevent.posts post hold
        · obtain rfl := List.mem_singleton.mp hnew
          show (submittedRequests (events ++ [.submitJob request]))[l.page.submissions]? = some request
          rw [submittedRequests_snoc, hI.page.count, List.getElem?_append_right (Nat.le_refl _), Nat.sub_self]
          rfl
      · have hperm : (((l.posts ++ [(l.page.submissions, request)]).map Prod.fst) ++ l.started.map StartedJob.submission).Perm
            (l.page.submissions :: (l.posts.map Prod.fst ++ l.started.map StartedJob.submission)) := by
          rw [List.map_append, List.append_assoc]
          exact List.perm_middle
        exact hperm.nodup_iff.mpr (List.nodup_cons.mpr ⟨hfresh, hI.once⟩)

/-- A job that a delivery starts is the one that its request asks for. -/
theorem startedJob_spec {d : Delivery} {k : Nat} {request : JobRequest} {s : WebServer} {job : StartedJob}
    (h : d.startedJob k (W.handle d.env d.ping d.time ((submitJob request).request d.authToken d.boundary d.browser) s).1.reply =
      some job) : job.submission = k ∧ StartedFor request job := by
  unfold Delivery.startedJob at h
  split at h
  · next claims path params hreply =>
      obtain ⟨jobid, -, rfl⟩ := Option.map_eq_some_iff.mp h
      obtain ⟨-, -, -, hpath, hallowed, rc, -, hadd⟩ := (serviceCall_newJob (submitJob request)).mp hreply
      exact ⟨rfl, hpath, ⟨rc, hadd⟩, hallowed⟩
  · cases h

/-- An answer with a number is that of a job started. -/
theorem answer_ok {d : Delivery} {reply : ServerReply} {jobid : Nat} (k : Nat) (h : d.answer reply = .ok jobid) :
    ∃ job, d.startedJob k reply = some job ∧ job.jobid = jobid := by
  unfold Delivery.answer at h
  split at h
  · next claims path params =>
      cases hnumber : d.jobid with
      | none =>
          rw [hnumber] at h
          cases h
      | some n =>
          rw [hnumber] at h
          cases h
          exact ⟨⟨k, jobid, path, params, d.env.sections⟩, by rw [Delivery.startedJob, hnumber]; rfl, rfl⟩
  · cases h
  · cases h

/-- A POST arrives and is answered. -/
theorem LoopInv.delivered (hI : LoopInv events l) {i k : Nat} {request : JobRequest} {d : Delivery} {reply : ServerReply}
    (hpost : l.posts[i]? = some (k, request))
    (hspec : ∀ job, d.startedJob k reply = some job → job.submission = k ∧ StartedFor request job) (server : WebServer) :
    LoopInv events
      { l with
        server := server
        posts := l.posts.eraseIdx i
        answers := l.answers ++ [(k, d.answer reply)]
        started := l.started ++ (d.startedJob k reply).toList } := by
  have hrequest : (submittedRequests events)[k]? = some request := hI.posts _ (List.mem_of_getElem? hpost)
  have hkept : ∀ job ∈ l.started, job ∈ l.started ++ (d.startedJob k reply).toList :=
    fun job hjob => List.mem_append_left _ hjob
  have hnew : ∀ job ∈ (d.startedJob k reply).toList, job.submission = k ∧ StartedFor request job := by
    intro job hjob
    exact hspec job (Option.mem_toList.mp hjob)
  refine ⟨hI.page, ?_, ?_, ?_, ?_, ?_⟩
  · intro post hin
    exact hI.posts post ((List.eraseIdx_sublist l.posts i).subset hin)
  · intro job hjob
    rcases List.mem_append.mp hjob with hold | hin
    · exact hI.started job hold
    · obtain ⟨hk, hfor⟩ := hnew job hin
      exact ⟨request, hk ▸ hrequest, hfor⟩
  -- an answer with a number is that of the job just started
  · intro j jobid hin
    rcases List.mem_append.mp hin with hold | hin
    · obtain ⟨job, hjob, hspec⟩ := hI.answers j jobid hold
      exact ⟨job, hkept job hjob, hspec⟩
    · obtain ⟨rfl, hanswer⟩ := Prod.mk.inj (List.mem_singleton.mp hin)
      obtain ⟨job, hstarted, hnumber⟩ := answer_ok j hanswer.symm
      have hmem : job ∈ (d.startedJob j reply).toList := Option.mem_toList.mpr hstarted
      exact ⟨job, List.mem_append_right _ hmem, (hnew job hmem).1, hnumber⟩
  · -- the submission moves from the POSTs to the jobs, or disappears
    obtain ⟨hi, hget⟩ := List.getElem?_eq_some_iff.mp hpost
    have hperm := (List.getElem_cons_eraseIdx_perm hi).map Prod.fst
    rw [hget, List.map_cons] at hperm
    have honce : (k :: ((l.posts.eraseIdx i).map Prod.fst ++ l.started.map StartedJob.submission)).Nodup :=
      (hperm.append_right _).nodup_iff.mpr hI.once
    show ((l.posts.eraseIdx i).map Prod.fst ++ (l.started ++ (d.startedJob k reply).toList).map StartedJob.submission).Nodup
    cases hjob : d.startedJob k reply with
    | none =>
        rw [Option.toList_none, List.append_nil]
        exact (List.nodup_cons.mp honce).2
    | some job =>
        obtain ⟨hk, -⟩ := hspec job hjob
        rw [Option.toList_some, List.map_append, List.map_singleton, hk, ← List.append_assoc]
        exact (List.perm_append_singleton k _).nodup_iff.mpr honce
  · intro id r hreq
    rcases hI.listed id r hreq with hkind | hfailed | ⟨job, hjob, hspec⟩
    · exact .inl hkind
    · exact .inr (.inl hfailed)
    · exact .inr (.inr ⟨job, hkept job hjob, hspec⟩)

/-- The requests submitted in a run of the loop, in order. -/
def loopRequests (as : List LoopAction) : List JobRequest :=
  as.filterMap fun
    | .page (.submitJob request) => some request
    | _ => none

/-- **One step of the loop.** -/
theorem LoopInv.step (hI : LoopInv events l) {a : LoopAction} (h : W.loopStep l a = some l') :
    ∃ later, LoopInv (events ++ later) l' ∧ submittedRequests later = loopRequests [a] := by
  cases a with
  | page e =>
      cases e with
      | submitJob request =>
          cases h
          exact ⟨_, hI.submit request, rfl⟩
      -- answers to a POST come from the network only
      | submitResponse k answer now => cases h
      | _ => exact ⟨_, hI.pageEvent h nofun, rfl⟩
  -- the page sees nothing of a delivery
  | deliver i d =>
      simp only [WebApi.loopStep] at h
      split at h
      · cases h
      · next k request hpost =>
          cases h
          refine ⟨[], ?_, rfl⟩
          rw [List.append_nil]
          exact hI.delivered hpost (fun job hjob => startedJob_spec hjob) _
  | answer i now =>
      simp only [WebApi.loopStep] at h
      split at h
      · cases h
      · next k answer hanswer =>
          obtain ⟨m, hm, rfl⟩ := Option.map_eq_some_iff.mp h
          -- what the page is told is what the server has answered
          have hI' := hI.pageEvent hm (by
            rintro k' jobid now' ⟨⟩
            exact List.mem_of_getElem? hanswer)
          refine ⟨_, ⟨hI'.page, hI'.posts, hI'.started, fun j jobid hin => ?_, hI'.once, hI'.listed⟩, rfl⟩
          exact hI'.answers j jobid ((List.eraseIdx_sublist m.answers i).subset hin)
  | lose k error now => exact ⟨_, hI.pageEvent h nofun, rfl⟩
  | server a =>
      obtain ⟨server, -, rfl⟩ := Option.map_eq_some_iff.mp h
      refine ⟨[], ?_, rfl⟩
      rw [List.append_nil]
      exact ⟨hI.page, hI.posts, hI.started, hI.answers, hI.once, hI.listed⟩

end

end RCloneCloud
