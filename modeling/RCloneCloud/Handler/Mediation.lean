import RCloneCloud.Handler.Serve

/-!
# `Handler.Mediation` — what gets through to `jobs.NewJob`

Only allowed methods get through, and of the six checked keys every string is checked. A value of another
type is passed over, and the JSON body can put one under each of them: rclone builds a remote on the fly
from an `fs` object (`fs_object_reaches_job`). `mediated_iff` says exactly which requests are mediated.

`Mediated` is what the check is for: the method is allowed, every fs value names a configured remote and no remote
value has a component `..`. The handles that are added for some methods stand under keys that are not checked
(`checked_ne_handle`), so the parameters that rclone gets are the validated ones.
-/

set_option autoImplicit false

namespace RCloneCloud

/-- The call is allowed, each fs key present names a configured remote, and each remote key present is a
    path without a `..` component. -/
structure Mediated (env : RcEnv) (path : GoString) (p : Params) : Prop where
  allowed : path ∈ allowedMethods
  fs : ∀ key ∈ fsParamKeys, ∀ v, p.get? key = some v →
    ∃ s, v = .json (.string s) ∧ NamesRemote env.sections s
  remote : ∀ key ∈ remoteParamKeys, ∀ v, p.get? key = some v →
    ∃ s, v = .json (.string s) ∧ str ".." ∉ splitSlash s

section
variable {env : RcEnv} {r : Request} {path path' : GoString} {p q : Params}

/-- What has to hold for a job to be made. -/
theorem dispatch_newJob (h : dispatch env path p = .newJob path' q) :
    path' = path ∧ path ∈ allowedMethods ∧ validateRCParams env.sections p = .ok () ∧
    ∃ call, env.calls path = some call ∧ addHandles call p = some q := by
  unfold dispatch at h
  split at h
  · cases h
  · next hallowed =>
      split at h
      · cases h
      · next call hcall =>
          split at h
          · cases h
          · next hvalid =>
              split at h
              · cases h
              · next q' hadd =>
                  cases h
                  exact ⟨rfl, by simpa using hallowed, hvalid, call, hcall, hadd⟩

/-- Writing one key leaves the others as they were. -/
theorem assign_get? {key k : GoString} {v : Value} (h : p.assign k v = some q) (hne : k ≠ key) :
    q.get? key = p.get? key := by
  cases p with
  | none => cases h
  | some m =>
      cases h
      simp only [Params.get?, Option.bind_some, GoMap.getElem?_insert, if_neg hne]

/-- The handles are put under keys of their own. -/
theorem addHandles_get? {call : Call} {key : GoString} (h : addHandles call p = some q)
    (hrequest : str "_request" ≠ key) (hresponse : str "_response" ≠ key) : q.get? key = p.get? key := by
  unfold addHandles at h
  split at h
  · cases h
  · next p' hp' =>
      have hfirst : p'.get? key = p.get? key := by
        split at hp'
        · exact assign_get? hp' hrequest
        · cases hp'; rfl
      rw [← hfirst]
      split at h
      · exact assign_get? h hresponse
      · cases h; rfl

/-- No checked key is one of the handles'. -/
theorem checked_ne_handle {key : GoString} (h : key ∈ fsParamKeys ++ remoteParamKeys) :
    str "_request" ≠ key ∧ str "_response" ≠ key := by
  have hall : ∀ k ∈ fsParamKeys ++ remoteParamKeys, str "_request" ≠ k ∧ str "_response" ≠ k := by
    decide
  exact hall key h

/-- Of validated parameters, only a value of another type than string is left to be excluded. -/
theorem mediated_of_validated (hallowed : path ∈ allowedMethods)
    (hvalid : validateRCParams env.sections p = .ok ())
    (hsame : ∀ key ∈ fsParamKeys ++ remoteParamKeys, q.get? key = p.get? key) :
    Mediated env path q ↔
      ∀ key ∈ fsParamKeys ++ remoteParamKeys, ∀ v, p.get? key = some v → ∃ s, v = .json (.string s) := by
  obtain ⟨hfs, hremote⟩ := validateRCParams_ok.mp hvalid
  constructor
  · intro hm key hkey v hv
    rw [← hsame key hkey] at hv
    rcases List.mem_append.mp hkey with hk | hk
    · obtain ⟨s, hs, -⟩ := hm.fs key hk v hv
      exact ⟨s, hs⟩
    · obtain ⟨s, hs, -⟩ := hm.remote key hk v hv
      exact ⟨s, hs⟩
  · -- every value under a checked key is a string, so validation has looked at it
    intro hstrings
    refine ⟨hallowed, fun key hk v hv => ?_, fun key hk v hv => ?_⟩
    · have hkey := List.mem_append_left remoteParamKeys hk
      rw [hsame key hkey] at hv
      obtain ⟨s, rfl⟩ := hstrings key hkey v hv
      exact ⟨s, rfl, validateFsParam_ok (hfs key hk s hv)⟩
    · have hkey := List.mem_append_right fsParamKeys hk
      rw [hsame key hkey] at hv
      obtain ⟨s, rfl⟩ := hstrings key hkey v hv
      exact ⟨s, rfl, validateRemoteParam_ok (hremote key hk s hv)⟩

/-- **Which requests are mediated.** A POST that reaches `jobs.NewJob` does so under its own, allowed path,
    and its parameters are as they should be exactly when the JSON body has no value of another type than
    string under one of the six checked keys. -/
theorem mediated_iff (h : handlePost env r path = .newJob path' p) :
    path' = path ∧ (Mediated env path' p ↔
      ∀ key ∈ fsParamKeys ++ remoteParamKeys, ∀ j, jsonMember r key = some j → ∃ s, j = .string s) := by
  unfold handlePost at h
  split at h
  · cases h
  · next built hbuild =>
      obtain ⟨rfl, hallowed, hvalid, call, -, hadd⟩ := dispatch_newJob h
      have hsame : ∀ key ∈ fsParamKeys ++ remoteParamKeys, p.get? key = built.get? key := by
        intro key hkey
        have hne := checked_ne_handle hkey
        exact addHandles_get? hadd hne.1 hne.2
      refine ⟨rfl, (mediated_of_validated hallowed hvalid hsame).trans ?_⟩
      exact forall₂_congr fun key _ => buildParams_strings hbuild key

end

/-! ### An `fs` given as an object -/

/-- One configured remote; every rc call is registered and asks for nothing. -/
def sampleEnv : RcEnv := ⟨[str "r"], fun _ => some ⟨false, false⟩⟩

/-- A POST with a JSON object as its body. -/
def jsonPost (members : List (GoString × Json)) : Request where
  method := str "POST"
  urlPath := str "/operations/list"
  contentType := str "application/json"
  mediaType := .ok (str "application/json", ∅)
  query := ∅
  form := .ok ∅
  body := .value (.object members)

/-- `{"fs": {"type": "local", "_root": "/"}, "remote": ""}` -/
def objectMembers : List (GoString × Json) :=
  [(str "fs", .object [(str "type", .string (str "local")), (str "_root", .string (str "/"))]),
    (str "remote", .string [])]

/-- The remote the object describes is not configured, and the call is made. -/
theorem fs_object_reaches_job :
    ¬ ∀ (env : RcEnv) (r : Request) (path path' : GoString) (p : Params),
      handlePost env r path = .newJob path' p → Mediated env path' p := by
  intro hclaim
  have hm := hclaim sampleEnv (jsonPost objectMembers) (str "operations/list") _ _ rfl
  obtain ⟨s, hs, -⟩ := hm.fs (str "fs") (by decide) _ rfl
  cases hs

/-- `{"fs": "r:"}` -/
def stringPost : Request := jsonPost [(str "fs", .string (str "r:"))]

/-- A request whose checked members are texts: the condition holds and the request is mediated. -/
theorem mediated_iff_string :
    ∃ p, handlePost sampleEnv stringPost (str "operations/list") = .newJob (str "operations/list") p ∧
      (Mediated sampleEnv (str "operations/list") p ↔
        ∀ key ∈ fsParamKeys ++ remoteParamKeys, ∀ j, jsonMember stringPost key = some j →
          ∃ s, j = .string s) := by
  obtain ⟨p, hjob⟩ : ∃ p, handlePost sampleEnv stringPost (str "operations/list")
      = .newJob (str "operations/list") p := ⟨_, rfl⟩
  exact ⟨p, hjob, (mediated_iff hjob).2⟩

end RCloneCloud
