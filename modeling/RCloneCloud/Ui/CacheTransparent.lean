import RCloneCloud.Ui.LastRead

/-!
# `Ui.CacheTransparent` — when the cache does not show

Between the last change of a file and the moment a GET of it is issued, the server would answer that GET in one
way only. So a GET returns what the server could have answered at or after the last completed change when its
answer is that of a state the server was in while the GET was under way (`Explained`). Answers that come over the
network always are. One from the cache is exactly when the file is what it was when the cached response was read:
it is issued and returned in the same state, so only the current state can explain it (`hit_explained_iff`).

The invariant of the client says of which state each answer is, be it cached, on its way or returned (`CacheInv`), and
the exactness rule for runs turns the step into the whole run. Last the condition on the cache's entry is put in terms of
the run (`freshRead_iff`): a GET is right if the file is what the last read of its url has found it to be, where only a
read within the hour counts that has not been dropped since (`cache_transparent_iff`).

Each event of the client has a lemma that says of it both things at once, that the invariant is kept and whether the
answers stay explained (`step_get`, `step_serve`, `step_deliver`, `step_complete`). Only `step_get` has a condition,
which is where the cache is read. The states that the server has been in are kept in order (`states`), and an answer
carries the number of the state in which its GET was issued, so "while it was under way" is a range of these numbers.
-/

set_option autoImplicit false

namespace RCloneCloud

open Lib

section
variable {σ : Type} (S : FileServer σ) (webApiEndpoint : JsString)

/-- The server would have given this answer at some moment while the GET was under way. -/
def Explained (states : List σ) (r : Returned) : Prop :=
  ∃ t s, r.issuedAt ≤ t ∧ t ≤ r.returnedAt ∧ states[t]? = some s ∧ S.get s r.url = r.answer

/-- Every GET so far has returned what it could have returned without the cache. -/
def Transparent (c : HttpClient σ) : Prop := ∀ r ∈ c.returned, Explained S c.states r

/-- A GET that finds a live entry finds the file unchanged since the cached response was read. -/
def FreshRead (c : HttpClient σ) : ClientEvent → Prop
  | .get url =>
      cacheable webApiEndpoint ⟨.GET, url⟩ = true → ∀ entry, c.cache[url]? = some entry →
        entry.live c.clock = true → c.states[entry.readAt]?.map (S.get · url) = some (S.get c.server url)
  | _ => True

/-- What holds in every reachable state: what is cached, on its way or returned was read from some state. -/
structure CacheInv (c : HttpClient σ) : Prop where
  cached : ∀ (url : JsString) (entry : CacheEntry), c.cache[url]? = some entry →
    c.states[entry.readAt]?.map (S.get · url) = some (some entry.response)
  issued : ∀ (n : Nat) (f : Flight), c.flights[n]? = some f → f.issuedAt ≤ c.epoch
  answered : ∀ (n : Nat) (f : Flight) (answer : Option Bytes) (t : Nat), c.flights[n]? = some f →
    f.answer = some (answer, t) → f.issuedAt ≤ t ∧ t ≤ c.epoch ∧
      c.states[t]?.map (S.get · f.request.urlWithParams) = some answer
  returned : ∀ r ∈ c.returned, r.returnedAt ≤ c.epoch

variable {S webApiEndpoint}

/-- The state of the server now is the last one of those it has been in. -/
theorem states_epoch (c : HttpClient σ) : c.states[c.epoch]? = some c.server := by
  rw [HttpClient.states, HttpClient.epoch, List.getElem?_concat_length]

/-- A GET that is issued is under way from now on. -/
theorem flights_insert (m : Std.ExtTreeMap Nat Flight compare) (k j : Nat) (f : Flight) :
    (m.insert k f)[j]? = if k = j then some f else m[j]? := by
  simp [Std.ExtTreeMap.getElem?_insert]

/-- A GET that is answered is under way no longer. -/
theorem flights_erase (m : Std.ExtTreeMap Nat Flight compare) (k j : Nat) :
    (m.erase k)[j]? = if k = j then none else m[j]? := by
  simp [Std.ExtTreeMap.getElem?_erase]

/-- A hit is a live entry of a url the interceptor looks at. -/
theorem interceptRequest_hit {c : HttpClient σ} {req : HttpRequest} {response : Bytes}
    (h : interceptRequest webApiEndpoint c req = some response) :
    cacheable webApiEndpoint req = true ∧ ∃ entry, c.cache[req.urlWithParams]? = some entry ∧
      entry.live c.clock = true ∧ entry.response = response := by
  unfold interceptRequest at h
  split at h
  · rename_i hcacheable
    refine ⟨hcacheable, ?_⟩
    unfold cacheGet at h
    split at h
    · rename_i entry hentry
      split at h
      · exact ⟨entry, hentry, ‹_›, Option.some_inj.mp h⟩
      · cases h
    · cases h
  · cases h

/-- Without a hit, there is no live entry of such a url. -/
theorem interceptRequest_miss {c : HttpClient σ} {req : HttpRequest}
    (h : interceptRequest webApiEndpoint c req = none) (hcacheable : cacheable webApiEndpoint req = true)
    {entry : CacheEntry} (hentry : c.cache[req.urlWithParams]? = some entry) : entry.live c.clock = false := by
  rw [interceptRequest, if_pos hcacheable, cacheGet, hentry] at h
  dsimp only at h
  split at h
  · cases h
  · rename_i hlive
    exact Bool.eq_false_iff.mpr hlive

/-- A state read earlier is read the same way after a change. -/
theorem states_grow {c : HttpClient σ} {next : σ} {t : Nat} (h : t ≤ c.epoch) :
    (c.earlier ++ [c.server] ++ [next])[t]? = c.states[t]? := by
  rw [HttpClient.states, List.getElem?_append_left]
  rw [List.length_append, List.length_singleton]
  exact Nat.lt_succ_of_le h

/-! ## Steps -/

variable {c c' : HttpClient σ}

/-- Returning an answer touches neither the cache nor what is under way. -/
theorem CacheInv.emit (hI : CacheInv S c) (url : JsString) (answer : Option Bytes) (issuedAt : Nat) :
    CacheInv S (c.emit url answer issuedAt) := by
  refine ⟨hI.cached, hI.issued, hI.answered, fun r hr => ?_⟩
  rcases List.mem_append.mp hr with hold | hnew
  · exact hI.returned r hold
  · rw [List.mem_singleton.mp hnew]
    exact Nat.le_refl _

/-- A response that was read in a known state can be put into the cache, whichever entry is evicted for it. -/
theorem CacheInv.cacheSet (hI : CacheInv S c) {url : JsString} {response : Bytes} {ttlMs readAt : Nat}
    (hread : c.states[readAt]?.map (S.get · url) = some (some response)) :
    CacheInv S (cacheSet c url response ttlMs readAt) := by
  refine ⟨fun other entry hentry => ?_, hI.issued, hI.answered, hI.returned⟩
  replace hentry : (c.cache.insert url ⟨response, c.clock, ttlMs, readAt⟩)[other]? = some entry := hentry
  rw [JsMap.getElem?_insert] at hentry
  split at hentry
  · rename_i hurl
    cases hentry
    rw [← hurl]
    exact hread
  · exact hI.cached other entry hentry

/-- One more answer has to be explained. -/
theorem transparent_emit (url : JsString) (answer : Option Bytes) (issuedAt : Nat) :
    Transparent S (c.emit url answer issuedAt) ↔
      Transparent S c ∧ Explained S c.states ⟨url, answer, issuedAt, c.epoch⟩ := by
  constructor
  · intro hT
    exact ⟨fun r hr => hT r (List.mem_append_left _ hr),
      hT _ (List.mem_append_right _ (List.mem_singleton_self _))⟩
  · rintro ⟨hT, hnew⟩ r hr
    rcases List.mem_append.mp hr with hold | hlast
    · exact hT r hold
    · rw [List.mem_singleton.mp hlast]
      exact hnew

/-- **An answer from the cache is explained exactly when it is fresh**: there is only the current state to
    explain it. -/
theorem hit_explained_iff (hI : CacheInv S c) {url : JsString} {response : Bytes}
    (hhit : interceptRequest webApiEndpoint c ⟨.GET, url⟩ = some response) :
    Explained S c.states ⟨url, some response, c.epoch, c.epoch⟩ ↔ FreshRead S webApiEndpoint c (.get url) := by
  obtain ⟨hcacheable, entry, hentry, hlive, rfl⟩ := interceptRequest_hit hhit
  have hread := hI.cached url entry hentry
  constructor
  · rintro ⟨t, s, hge, hle, hs, hget⟩ - other hother -
    obtain rfl : entry = other := Option.some_inj.mp (hentry.symm.trans hother)
    obtain rfl : c.epoch = t := Nat.le_antisymm hge hle
    obtain rfl : c.server = s := Option.some_inj.mp ((states_epoch c).symm.trans hs)
    rw [hread, hget]
  · intro hfresh
    have hsame := hfresh hcacheable entry hentry hlive
    rw [hread] at hsame
    exact ⟨c.epoch, c.server, Nat.le_refl _, Nat.le_refl _, states_epoch c, (Option.some_inj.mp hsame).symm⟩

/-- A miss finds nothing that could be stale. -/
theorem miss_fresh {url : JsString} (hmiss : interceptRequest webApiEndpoint c ⟨.GET, url⟩ = none) :
    FreshRead S webApiEndpoint c (.get url) := by
  intro hcacheable entry hentry hlive
  rw [interceptRequest_miss hmiss hcacheable hentry] at hlive
  cases hlive

/-- A GET is answered from the cache, which asks for the condition, or goes out to the server. -/
theorem step_get (hI : CacheInv S c) {url : JsString} (h : c.step S webApiEndpoint (.get url) = some c') :
    CacheInv S c' ∧ (Transparent S c' ↔ Transparent S c ∧ FreshRead S webApiEndpoint c (.get url)) := by
  simp only [HttpClient.step] at h
  split at h
  · rename_i response hhit
    cases h
    refine ⟨hI.emit _ _ _, ?_⟩
    rw [transparent_emit, hit_explained_iff hI hhit]
  · rename_i hmiss
    cases h
    refine ⟨⟨hI.cached, ?_, ?_, hI.returned⟩, fun hT => ⟨hT, miss_fresh hmiss⟩, fun hT => hT.1⟩
    · intro n f hf
      rw [flights_insert] at hf
      split at hf
      · cases hf
        exact Nat.le_refl _
      · exact hI.issued n f hf
    · intro n f answer t hf hanswer
      rw [flights_insert] at hf
      split at hf
      · cases hf
        cases hanswer
      · exact hI.answered n f answer t hf hanswer

/-- The server answers a GET by the state it is in, which lies between the issue and the return. -/
theorem step_serve (hI : CacheInv S c) {n : Nat} (h : c.step S webApiEndpoint (.serve n) = some c') :
    CacheInv S c' ∧ (Transparent S c' ↔ Transparent S c) := by
  simp only [HttpClient.step] at h
  split at h
  · rename_i req issuedAt hflight
    cases h
    have hissued := hI.issued n _ hflight
    refine ⟨⟨hI.cached, ?_, ?_, hI.returned⟩, Iff.rfl⟩
    · intro m f hf
      rw [flights_insert] at hf
      split at hf
      · cases hf
        exact hissued
      · exact hI.issued m f hf
    · intro m f answer t hf hanswer
      rw [flights_insert] at hf
      split at hf
      · cases hf
        cases hanswer
        refine ⟨hissued, Nat.le_refl _, ?_⟩
        show Option.map _ c.states[c.epoch]? = _
        rw [states_epoch]
        rfl
      · exact hI.answered m f answer t hf hanswer
  · cases h

/-- An answer that came over the network is explained by the state it was served in. -/
theorem step_deliver (hI : CacheInv S c) {n : Nat} (h : c.step S webApiEndpoint (.deliver n) = some c') :
    CacheInv S c' ∧ (Transparent S c' ↔ Transparent S c) := by
  simp only [HttpClient.step] at h
  split at h
  · rename_i req issuedAt answer readAt hflight
    cases h
    obtain ⟨hge, hle, hread⟩ := hI.answered n _ answer readAt hflight rfl
    -- the flight is over
    have hlanded : CacheInv S { c with flights := c.flights.erase n } := by
      refine ⟨hI.cached, fun m f hf => ?_, fun m f a t hf ha => ?_, hI.returned⟩
      · replace hf : (c.flights.erase n)[m]? = some f := hf
        rw [flights_erase] at hf
        split at hf
        · cases hf
        · exact hI.issued m f hf
      · replace hf : (c.flights.erase n)[m]? = some f := hf
        rw [flights_erase] at hf
        split at hf
        · cases hf
        · exact hI.answered m f a t hf ha
    -- the server answered between the issue and now
    have hexplained : Explained S c.states ⟨req.urlWithParams, answer, issuedAt, c.epoch⟩ := by
      obtain ⟨s, hs, hget⟩ := Option.map_eq_some_iff.mp hread
      exact ⟨readAt, s, hge, hle, hs, hget⟩
    rcases interceptResponse_cases webApiEndpoint { c with flights := c.flights.erase n } req answer readAt with
      hsame | ⟨response, rfl, hset⟩
    · rw [hsame]
      refine ⟨hlanded.emit _ _ _, ?_⟩
      rw [transparent_emit]
      exact ⟨fun hT => hT.1, fun hT => ⟨hT, hexplained⟩⟩
    · rw [hset]
      refine ⟨(hlanded.cacheSet hread).emit _ _ _, ?_⟩
      rw [transparent_emit]
      exact ⟨fun hT => hT.1, fun hT => ⟨hT, hexplained⟩⟩
  · cases h

/-- A job that completes changes the state of the server; answers returned before are not affected. -/
theorem step_complete (hI : CacheInv S c) {call : JobRequest}
    (h : c.step S webApiEndpoint (.complete call) = some c') :
    CacheInv S c' ∧ (Transparent S c' ↔ Transparent S c) := by
  cases h
  -- everything read so far was read from an earlier state
  have hgrow : ∀ {t : Nat}, t ≤ c.epoch →
      (c.earlier ++ [c.server] ++ [S.post c.server call])[t]? = c.states[t]? := fun h => states_grow h
  have hepoch : c.epoch ≤ (c.earlier ++ [c.server]).length := by
    rw [List.length_append]
    exact Nat.le_add_right _ _
  have hplace : ∀ {t : Nat} {x : σ}, c.states[t]? = some x → t ≤ c.epoch := by
    intro t x ht
    have hlt := (List.getElem?_eq_some_iff.mp ht).1
    rw [HttpClient.states, List.length_append, List.length_singleton] at hlt
    exact Nat.lt_succ_iff.mp hlt
  refine ⟨⟨?_, ?_, ?_, ?_⟩, ?_⟩
  · intro url entry hentry
    have hread := hI.cached url entry hentry
    obtain ⟨x, hx, -⟩ := Option.map_eq_some_iff.mp hread
    show Option.map _ (c.earlier ++ [c.server] ++ [S.post c.server call])[entry.readAt]? = _
    rw [hgrow (hplace hx)]
    exact hread
  · exact fun n f hf => (hI.issued n f hf).trans hepoch
  · intro n f answer t hf hanswer
    obtain ⟨hge, hle, hread⟩ := hI.answered n f answer t hf hanswer
    refine ⟨hge, hle.trans hepoch, ?_⟩
    show Option.map _ (c.earlier ++ [c.server] ++ [S.post c.server call])[t]? = _
    rw [hgrow hle]
    exact hread
  · exact fun r hr => (hI.returned r hr).trans hepoch
  · have hexplained : ∀ r ∈ c.returned,
        (Explained S (c.earlier ++ [c.server] ++ [S.post c.server call]) r ↔ Explained S c.states r) := by
      intro r hr
      have hbound := hI.returned r hr
      constructor
      · rintro ⟨t, x, hge, hle, hx, hget⟩
        exact ⟨t, x, hge, hle, (hgrow (hle.trans hbound)).symm.trans hx, hget⟩
      · rintro ⟨t, x, hge, hle, hx, hget⟩
        exact ⟨t, x, hge, hle, (hgrow (hle.trans hbound)).trans hx, hget⟩
    constructor
    · exact fun hT r hr => (hexplained r hr).mp (hT r hr)
    · exact fun hT r hr => (hexplained r hr).mpr (hT r hr)

/-- **What one step does**: it keeps the invariant, and it keeps the cache out of sight exactly when it is
    fresh. -/
theorem step_transparent {e : ClientEvent} (hI : CacheInv S c) (h : c.step S webApiEndpoint e = some c') :
    CacheInv S c' ∧ (Transparent S c' ↔ Transparent S c ∧ FreshRead S webApiEndpoint c e) := by
  have hand : ∀ {P : Prop}, (P ↔ Transparent S c) → (P ↔ Transparent S c ∧ True) := by
    intro P hP
    rw [hP, and_true]
  cases e with
  | get url => exact step_get hI h
  | serve n => exact (step_serve hI h).imp_right hand
  | deliver n => exact (step_deliver hI h).imp_right hand
  | complete call => exact (step_complete hI h).imp_right hand
  | tick ms =>
      cases h
      exact ⟨⟨hI.cached, hI.issued, hI.answered, hI.returned⟩, hand Iff.rfl⟩
  | evict url =>
      cases h
      refine ⟨⟨fun other entry hentry => ?_, hI.issued, hI.answered, hI.returned⟩, hand Iff.rfl⟩
      replace hentry : (c.cache.erase url)[other]? = some entry := hentry
      rw [JsMap.getElem?_erase] at hentry
      split at hentry
      · cases hentry
      · exact hI.cached other entry hentry

/-- The cache is empty and nothing is under way. -/
theorem cacheInv_initial (s : σ) : CacheInv S (.initial s) where
  cached url entry h := by simp [HttpClient.initial] at h
  issued n f h := by simp [HttpClient.initial] at h
  answered n f answer t h := by simp [HttpClient.initial] at h
  returned r hr := by cases hr

/-- The run lemma for the invariant. -/
theorem cacheInv_run {s : σ} {events : List ClientEvent}
    (h : run (HttpClient.step S webApiEndpoint) (.initial s) events = some c) : CacheInv S c :=
  run_invariant (G := fun _ _ => True) (fun _ _ _ hI _ hs => (step_transparent hI hs).1) (cacheInv_initial s)
    (along_of_forall (fun _ _ => trivial) _ _) h

/-- **A read is fresh** when the file is what the last read of its url that counts has found it to be. -/
theorem freshRead_iff {s : σ} {events : List ClientEvent} {url : JsString}
    (h : run (HttpClient.step S webApiEndpoint) (.initial s) events = some c) :
    FreshRead S webApiEndpoint c (.get url) ↔
      (cacheable webApiEndpoint ⟨.GET, url⟩ = true → ∀ response, LastRead S webApiEndpoint s events url response →
        S.get c.server url = some response) := by
  have hI : CacheInv S c := cacheInv_run h
  constructor
  · intro hfresh hcacheable response hlast
    obtain ⟨entry, hentry, hlive, rfl⟩ := (lastRead_iff_cached hcacheable h).mp hlast
    have hsame := hfresh hcacheable entry hentry hlive
    rw [hI.cached url entry hentry] at hsame
    exact (Option.some_inj.mp hsame).symm
  · intro hsame hcacheable entry hentry hlive
    rw [hI.cached url entry hentry,
      hsame hcacheable entry.response ((lastRead_iff_cached hcacheable h).mpr ⟨entry, hentry, hlive, rfl⟩)]

variable (S webApiEndpoint)

/-- **The cache is transparent** in exactly the runs in which every GET of a url that was read within the hour, by a read
    that has not been dropped since, finds the file as that read has found it. -/
theorem cache_transparent_iff {s : σ} {events : List ClientEvent}
    (h : run (HttpClient.step S webApiEndpoint) (.initial s) events = some c) :
    Transparent S c ↔
      ∀ before url after m, events = before ++ .get url :: after →
        run (HttpClient.step S webApiEndpoint) (.initial s) before = some m → cacheable webApiEndpoint ⟨.GET, url⟩ = true →
          ∀ response, LastRead S webApiEndpoint s before url response → S.get m.server url = some response := by
  have hstart : Transparent S (.initial s) := by
    intro r hr
    cases hr
  rw [run_iff_along (I := CacheInv S) (fun _ _ _ hI hs => step_transparent hI hs) (cacheInv_initial s) h,
    and_iff_right hstart, along_iff_split]
  constructor
  · intro hfresh before url after m hsplit hrun
    exact (freshRead_iff hrun).mp (hfresh before (.get url) after m hsplit hrun)
  · intro hsame before e after m hsplit hrun
    cases e with
    | get url => exact (freshRead_iff hrun).mpr (hsame before url after m hsplit hrun)
    | serve n => trivial
    | deliver n => trivial
    | complete call => trivial
    | tick ms => trivial
    | evict url => trivial

end

/-! ## A file that is overwritten -/

/-- The endpoint of the sample. -/
def sampleEndpoint : JsString := js "http://api"

/-- Files by their urls; the two calls that are made on them here. -/
def sampleFiles : FileServer (JsMap Bytes) where
  get files url := files[url]?
  post files
    | .uploadFile remote dirPath file =>
        files.insert (fetchFileContentUrl sampleEndpoint remote dirPath file.name) file.content
    | .deleteFile remote path => files.erase (fetchFileContentUrl sampleEndpoint remote none path)
    | _ => files

/-- The url of the sample's file. -/
def sampleUrl : JsString := fetchFileContentUrl sampleEndpoint (js "r") none (js "a")

/-- The file is uploaded with this content. -/
def uploadsSample (content : Bytes) : ClientEvent := .complete (.uploadFile (js "r") none ⟨js "a", content⟩)

/-- It is uploaded, read over the network, and read again from the cache. -/
def rereadEvents : List ClientEvent := [uploadsSample [1], .get sampleUrl, .serve 0, .deliver 0, .get sampleUrl]

/-- A file that is uploaded and read twice, the second time from the cache: both answers are explained. -/
theorem cache_transparent_reread :
    ∃ c, run (HttpClient.step sampleFiles sampleEndpoint) (.initial ∅) rereadEvents = some c ∧
      Transparent sampleFiles c := by
  obtain ⟨c, hrun⟩ : ∃ c, run (HttpClient.step sampleFiles sampleEndpoint) (.initial ∅) rereadEvents = some c :=
    ⟨_, rfl⟩
  refine ⟨c, hrun, (cache_transparent_iff sampleFiles sampleEndpoint hrun).mpr ?_⟩
  intro before url after m hsplit hbefore hcacheable response hlast
  obtain ⟨entry, hentry, -, rfl⟩ := (lastRead_iff_cached hcacheable hbefore).mp hlast
  rcases before with _ | ⟨e₁, _ | ⟨e₂, _ | ⟨e₃, _ | ⟨e₄, _ | ⟨e₅, rest⟩⟩⟩⟩⟩
  · cases hsplit
  · -- nothing has been read before the first GET
    cases hsplit
    cases hbefore
    cases hentry
  · cases hsplit
  · cases hsplit
  · -- the second one finds what the first one has read
    cases hsplit
    cases hbefore
    obtain rfl := Option.some_inj.mp hentry
    rfl
  · simp [rereadEvents] at hsplit

/-- **A file that was overwritten is still read as it was**: the upload leaves the cached response alone, and
    the next read within the hour returns the old content. -/
theorem overwritten_file_stale :
    ∃ c, run (HttpClient.step sampleFiles sampleEndpoint) (.initial ∅)
        [uploadsSample [1], .get sampleUrl, .serve 0, .deliver 0, uploadsSample [2], .get sampleUrl] = some c ∧
      sampleFiles.get c.server sampleUrl = some [2] ∧
      c.returned = [⟨sampleUrl, some [1], 1, 1⟩, ⟨sampleUrl, some [1], 2, 2⟩] ∧ ¬ Transparent sampleFiles c := by
  refine ⟨_, rfl, by decide, rfl, fun hT => ?_⟩
  obtain ⟨t, s, hge, hle, hs, hget⟩ := hT ⟨sampleUrl, some [1], 2, 2⟩ (by exact List.mem_cons_of_mem _ List.mem_cons_self)
  obtain rfl : 2 = t := Nat.le_antisymm hge hle
  obtain rfl := Option.some_inj.mp hs
  exact absurd hget (by decide)

end RCloneCloud
