import RCloneCloud.Ui.HttpCache

/-!
# `Ui.LastRead` — what the network last answered to a url

The last answer that a run has delivered to a GET of a url counts for an hour, unless it is dropped before. Which answer that
is, if any, can be read off the run alone: from its deliveries, its evictions and the time that has passed (`LastRead`). The
cache holds just that (`lastRead_iff_cached`), so what is said of the entries of a cache can be said of the reads of a run.

Both sides are followed event by event: a run that is longer by one event has last delivered what the event delivers, or
else what it had delivered before (`lastDelivered_snoc`), and a step of the client changes its entries in the same way
(`cached_step`).
-/

set_option autoImplicit false

namespace RCloneCloud

open Lib

section
variable {σ : Type}

/-- The event brings this answer to a GET of the url. -/
def HttpClient.Delivers (c : HttpClient σ) (url : JsString) (response : Bytes) : ClientEvent → Prop
  | .deliver n => ∃ issuedAt readAt, c.flights[n]? = some ⟨⟨.GET, url⟩, issuedAt, some (some response, readAt)⟩
  | _ => False

/-- The time that an event takes. -/
def ClientEvent.ms : ClientEvent → Nat
  | .tick ms => ms
  | _ => 0

/-- The time that the events take. -/
def elapsed (events : List ClientEvent) : Nat := (events.map ClientEvent.ms).sum

variable (S : FileServer σ) (webApiEndpoint : JsString) (s : σ)

/-- This is the answer that a GET of the url was last delivered, which was so long ago, and it has not been dropped since. -/
def LastDelivered (events : List ClientEvent) (url : JsString) (response : Bytes) (age : Nat) : Prop :=
  ∃ before e after c, events = before ++ e :: after ∧ run (HttpClient.step S webApiEndpoint) (.initial s) before = some c ∧
    c.Delivers url response e ∧ elapsed after = age ∧ .evict url ∉ after ∧
    ∀ mid e' rest c' response', after = mid ++ e' :: rest →
      run (HttpClient.step S webApiEndpoint) (.initial s) (before ++ e :: mid) = some c' → ¬ c'.Delivers url response' e'

/-- **The last read of a url that counts**: its answer was delivered within the hour. -/
def LastRead (events : List ClientEvent) (url : JsString) (response : Bytes) : Prop :=
  ∃ age ≤ getTTLForUrl, LastDelivered S webApiEndpoint s events url response age

/-- The cache holds this answer to the url, and has held it for so long. -/
def HttpClient.Cached (c : HttpClient σ) (url : JsString) (response : Bytes) (age : Nat) : Prop :=
  ∃ entry, c.cache[url]? = some entry ∧ entry.response = response ∧ c.clock = entry.start + age

/-- Every entry is to live for an hour, and none is from the future. -/
def HttpClient.Timed (c : HttpClient σ) : Prop :=
  ∀ (url : JsString) (entry : CacheEntry), c.cache[url]? = some entry → entry.ttl = getTTLForUrl ∧ entry.start ≤ c.clock

variable {S webApiEndpoint s} {c c' : HttpClient σ} {events : List ClientEvent} {e : ClientEvent} {url : JsString}
  {response : Bytes} {age : Nat}

/-- A key that is dropped is gone, the others are as before. -/
theorem JsMap.getElem?_erase {V : Type} (m : JsMap V) (k a : JsString) : (m.erase k)[a]? = if k = a then none else m[a]? := by
  simp [Std.ExtTreeMap.getElem?_erase]

/-! ## One event more -/

/-- Time passes event by event. -/
theorem elapsed_snoc (events : List ClientEvent) (e : ClientEvent) : elapsed (events ++ [e]) = elapsed events + e.ms := by
  simp [elapsed]

/-- **What a longer run has last delivered**: what its last event delivers, or what was there before, if that event neither
    delivers anything to the url nor drops its entry. -/
theorem lastDelivered_snoc (hrun : run (HttpClient.step S webApiEndpoint) (.initial s) events = some c) :
    LastDelivered S webApiEndpoint s (events ++ [e]) url response age ↔
      (c.Delivers url response e ∧ age = 0) ∨
      ∃ old, LastDelivered S webApiEndpoint s events url response old ∧ age = old + e.ms ∧ e ≠ .evict url ∧
        ∀ response', ¬ c.Delivers url response' e := by
  constructor
  · rintro ⟨before, first, after, m, hsplit, hbefore, hdelivers, rfl, hkept, hlast⟩
    -- the delivery is the new event, or one before it with the new event behind
    rcases append_cons_eq_snoc.mp hsplit with ⟨rfl, rfl, rfl⟩ | ⟨rest, rfl, rfl⟩
    · cases hrun.symm.trans hbefore
      exact .inl ⟨hdelivers, rfl⟩
    · have hother : e ≠ .evict url := by
        rintro rfl
        exact hkept (List.mem_append_right _ (List.mem_singleton_self _))
      have hearlier : LastDelivered S webApiEndpoint s (before ++ first :: rest) url response (elapsed rest) := by
        refine ⟨before, first, rest, m, rfl, hbefore, hdelivers, rfl, fun hin => hkept (List.mem_append_left _ hin), ?_⟩
        rintro mid e' rest' c' response' rfl hmid
        exact hlast mid e' (rest' ++ [e]) c' response' (by rw [List.append_assoc, List.cons_append]) hmid
      exact .inr ⟨_, hearlier, elapsed_snoc rest e, hother, fun response' => hlast rest e [] c response' rfl hrun⟩
  · rintro (⟨hdelivers, rfl⟩ | ⟨old, ⟨before, first, after, m, rfl, hbefore, hdelivers, rfl, hkept, hlast⟩, rfl, hother, hnone⟩)
    · refine ⟨events, e, [], c, rfl, hrun, hdelivers, rfl, List.not_mem_nil, ?_⟩
      intro mid e' rest c' response' hsplit
      exact absurd hsplit (by simp)
    · refine ⟨before, first, after ++ [e], m, by simp, hbefore, hdelivers, elapsed_snoc after e, ?_, ?_⟩
      · intro hin
        rcases List.mem_append.mp hin with hold | hnew
        · exact hkept hold
        · exact hother (List.mem_singleton.mp hnew).symm
      · intro mid e' rest c' response' hsplit hmid
        rcases append_cons_eq_snoc.mp hsplit with ⟨rfl, rfl, rfl⟩ | ⟨rest', rfl, rfl⟩
        · cases hrun.symm.trans hmid
          exact hnone response'
        · exact hlast mid e' rest' c' response' rfl hmid

/-! ## One step of the client -/

/-- An event that leaves the entry of the url alone. -/
theorem cached_same (hcache : c'.cache[url]? = c.cache[url]?) (hclock : c'.clock = c.clock + e.ms) (htimed : c.Timed)
    (hother : e ≠ .evict url) (hnone : ∀ response', ¬ c.Delivers url response' e) :
    c'.Cached url response age ↔
      (c.Delivers url response e ∧ age = 0) ∨
      ∃ old, c.Cached url response old ∧ age = old + e.ms ∧ e ≠ .evict url ∧ ∀ response', ¬ c.Delivers url response' e := by
  constructor
  · rintro ⟨entry, hentry, rfl, hage⟩
    rw [hcache] at hentry
    have hstart := (htimed url entry hentry).2
    refine .inr ⟨c.clock - entry.start, ⟨entry, hentry, rfl, by omega⟩, by omega, hother, hnone⟩
  · rintro (⟨hdelivers, -⟩ | ⟨old, ⟨entry, hentry, rfl, hold⟩, rfl, -, -⟩)
    · exact absurd hdelivers (hnone response)
    · exact ⟨entry, hcache.trans hentry, rfl, by omega⟩

/-- **The cache is updated with what was read**, or not at all. -/
theorem interceptResponse_cases (webApiEndpoint : JsString) (c : HttpClient σ) (req : HttpRequest) (answer : Option Bytes)
    (readAt : Nat) : interceptResponse webApiEndpoint c req answer readAt = c ∨
      ∃ response, answer = some response ∧ interceptResponse webApiEndpoint c req answer readAt =
        cacheSet c req.urlWithParams response getTTLForUrl readAt := by
  cases answer with
  | none => exact .inl rfl
  | some response =>
      unfold interceptResponse
      dsimp only
      split
      · exact .inr ⟨response, rfl, rfl⟩
      · exact .inl rfl

/-- Storing a response does not move the clock. -/
theorem interceptResponse_clock (webApiEndpoint : JsString) (c : HttpClient σ) (req : HttpRequest) (answer : Option Bytes)
    (readAt : Nat) : (interceptResponse webApiEndpoint c req answer readAt).clock = c.clock := by
  unfold interceptResponse
  split
  · split <;> rfl
  · rfl

/-- A response to a file's url that can be cached is stored with the time and the state it was read in. -/
theorem interceptResponse_own (c : HttpClient σ) (body : Bytes) (readAt : Nat) (hcacheable : cacheable webApiEndpoint ⟨.GET, url⟩ = true) :
    (interceptResponse webApiEndpoint c ⟨.GET, url⟩ (some body) readAt).cache[url]? =
      some ⟨body, c.clock, getTTLForUrl, readAt⟩ := by
  rw [interceptResponse]
  dsimp only
  rw [if_pos hcacheable]
  exact (JsMap.getElem?_insert ..).trans (if_pos rfl)

/-- The answer to another request, and an error, leave the entry of a url alone. -/
theorem interceptResponse_other (webApiEndpoint : JsString) (c : HttpClient σ) {req : HttpRequest} {answer : Option Bytes}
    (readAt : Nat) (hother : ¬ (req = ⟨.GET, url⟩ ∧ answer.isSome = true)) :
    (interceptResponse webApiEndpoint c req answer readAt).cache[url]? = c.cache[url]? := by
  unfold interceptResponse
  split
  · next body =>
      split
      · next hcacheable =>
          have hurl : req.urlWithParams ≠ url := by
            rintro rfl
            have hget : req.method = .GET := of_decide_eq_true (Bool.and_eq_true _ _ ▸ hcacheable).1
            refine hother ⟨?_, rfl⟩
            rw [← hget]
          exact (JsMap.getElem?_insert ..).trans (if_neg hurl)
      · rfl
  · rfl

/-- **What a step does to the entry of a url**: the entry is what the event delivers, or what was there before, if the event
    neither delivers anything to the url nor drops its entry. -/
theorem cached_step (htimed : c.Timed) (hcacheable : cacheable webApiEndpoint ⟨.GET, url⟩ = true)
    (h : c.step S webApiEndpoint e = some c') :
    c'.Cached url response age ↔
      (c.Delivers url response e ∧ age = 0) ∨
      ∃ old, c.Cached url response old ∧ age = old + e.ms ∧ e ≠ .evict url ∧ ∀ response', ¬ c.Delivers url response' e := by
  cases e with
  -- of all events only an eviction and a delivery touch the entries
  | get other =>
      simp only [HttpClient.step] at h
      split at h <;> cases h <;> exact cached_same rfl rfl htimed (by simp) fun _ => id
  | serve n =>
      simp only [HttpClient.step] at h
      split at h
      · cases h
        exact cached_same rfl rfl htimed (by simp) fun _ => id
      · cases h
  | complete call =>
      cases h
      exact cached_same rfl rfl htimed (by simp) fun _ => id
  -- the entries grow older with the run
  | tick ms =>
      cases h
      exact cached_same rfl rfl htimed (by simp) fun _ => id
  | evict other =>
      cases h
      have hcache : (c.cache.erase other)[url]? = if other = url then none else c.cache[url]? := JsMap.getElem?_erase ..
      by_cases hurl : other = url
      -- the entry of the url itself is dropped
      · subst hurl
        rw [if_pos rfl] at hcache
        constructor
        · rintro ⟨entry, hentry, -⟩
          cases hcache.symm.trans hentry
        · rintro (⟨hdelivers, -⟩ | ⟨old, -, -, hother, -⟩)
          · exact hdelivers.elim
          · exact absurd rfl hother
      · rw [if_neg hurl] at hcache
        exact cached_same hcache rfl htimed (fun heq => hurl (ClientEvent.evict.inj heq)) fun _ => id
  | deliver n =>
      simp only [HttpClient.step] at h
      split at h
      · next req issuedAt answer readAt hflight =>
          cases h
          by_cases hown : req = ⟨.GET, url⟩ ∧ answer.isSome = true
          · -- the answer takes the place of what was there
            obtain ⟨rfl, hsome⟩ := hown
            obtain ⟨body, rfl⟩ := Option.isSome_iff_exists.mp hsome
            have hset := interceptResponse_own { c with flights := c.flights.erase n } body readAt hcacheable
            have hclock := interceptResponse_clock webApiEndpoint { c with flights := c.flights.erase n } ⟨.GET, url⟩ (some body) readAt
            constructor
            · rintro ⟨entry, hentry, rfl, hage⟩
              cases hset.symm.trans hentry
              replace hage : c.clock = c.clock + age := hclock.symm.trans hage
              exact .inl ⟨⟨issuedAt, readAt, hflight⟩, by omega⟩
            · rintro (⟨⟨issuedAt', readAt', hflight'⟩, rfl⟩ | ⟨old, -, -, -, hnone⟩)
              · cases hflight.symm.trans hflight'
                exact ⟨_, hset, rfl, hclock⟩
              · exact absurd ⟨issuedAt, readAt, hflight⟩ (hnone body)
          · -- the entry of the url stays
            have hnone : ∀ response', ¬ c.Delivers url response' (.deliver n) := by
              rintro response' ⟨issuedAt', readAt', hflight'⟩
              cases hflight.symm.trans hflight'
              exact hown ⟨rfl, rfl⟩
            have hsame := interceptResponse_other webApiEndpoint { c with flights := c.flights.erase n } readAt hown
            have hclock := interceptResponse_clock webApiEndpoint { c with flights := c.flights.erase n } req answer readAt
            exact cached_same hsame hclock htimed (by simp) hnone
      · cases h

/-- Entries live for an hour from a time that is not in the future. -/
theorem timed_step (htimed : c.Timed) (h : c.step S webApiEndpoint e = some c') : c'.Timed := by
  cases e with
  | get other =>
      simp only [HttpClient.step] at h
      split at h <;> cases h <;> exact htimed
  | serve n =>
      simp only [HttpClient.step] at h
      split at h
      · cases h
        exact htimed
      · cases h
  | complete call =>
      cases h
      exact htimed
  -- the clock only moves forward
  | tick ms =>
      cases h
      intro url entry hentry
      obtain ⟨httl, hstart⟩ := htimed url entry hentry
      exact ⟨httl, hstart.trans (Nat.le_add_right _ _)⟩
  | evict other =>
      cases h
      intro url entry hentry
      replace hentry : (c.cache.erase other)[url]? = some entry := hentry
      rw [JsMap.getElem?_erase] at hentry
      split at hentry
      -- a new entry starts now and lives for an hour
      · cases hentry
      · exact htimed url entry hentry
  | deliver n =>
      simp only [HttpClient.step] at h
      split at h
      · next req issuedAt answer readAt hflight =>
          cases h
          intro url entry hentry
          replace hentry : (interceptResponse webApiEndpoint { c with flights := c.flights.erase n } req answer readAt).cache[url]? =
            some entry := hentry
          show entry.ttl = getTTLForUrl ∧ entry.start ≤
            (interceptResponse webApiEndpoint { c with flights := c.flights.erase n } req answer readAt).clock
          rw [interceptResponse_clock]
          rcases interceptResponse_cases webApiEndpoint { c with flights := c.flights.erase n } req answer readAt with
            hsame | ⟨response, -, hset⟩
          · rw [hsame] at hentry
            exact htimed url entry hentry
          · rw [hset] at hentry
            replace hentry : (c.cache.insert req.urlWithParams ⟨response, c.clock, getTTLForUrl, readAt⟩)[url]? = some entry := hentry
            rw [JsMap.getElem?_insert] at hentry
            split at hentry
            · cases hentry
              exact ⟨rfl, Nat.le_refl _⟩
            · exact htimed url entry hentry
      · cases h

/-! ## A whole run -/

/-- **A run and its cache agree** on what was last delivered to a url that the interceptor looks at. -/
theorem lastDelivered_iff_cached (hcacheable : cacheable webApiEndpoint ⟨.GET, url⟩ = true)
    (hrun : run (HttpClient.step S webApiEndpoint) (.initial s) events = some c) :
    c.Timed ∧ ∀ response age, LastDelivered S webApiEndpoint s events url response age ↔ c.Cached url response age := by
  refine (run_beginnings (C := fun _ => True) (I := fun events c =>
    run (HttpClient.step S webApiEndpoint) (.initial s) events = some c ∧ c.Timed ∧
      ∀ response age, LastDelivered S webApiEndpoint s events url response age ↔ c.Cached url response age)
    (fun _ _ _ => trivial) ⟨rfl, ?_, ?_⟩ ?_ trivial hrun).2
  · intro url entry hentry
    simp [HttpClient.initial] at hentry
  · intro response age
    constructor
    · rintro ⟨before, e, after, m, hsplit, -⟩
      exact absurd hsplit (by simp)
    · rintro ⟨entry, hentry, -⟩
      simp [HttpClient.initial] at hentry
  · rintro events e c c' - ⟨hrun, htimed, hagree⟩ hstep
    refine ⟨run_append.mpr ⟨c, hrun, run_cons.mpr ⟨c', hstep, rfl⟩⟩, timed_step htimed hstep, fun response age => ?_⟩
    rw [lastDelivered_snoc hrun, cached_step htimed hcacheable hstep]
    simp only [hagree]

/-- **What a read finds in the cache** is the last read of the url that counts. -/
theorem lastRead_iff_cached (hcacheable : cacheable webApiEndpoint ⟨.GET, url⟩ = true)
    (hrun : run (HttpClient.step S webApiEndpoint) (.initial s) events = some c) :
    LastRead S webApiEndpoint s events url response ↔
      ∃ entry, c.cache[url]? = some entry ∧ entry.live c.clock = true ∧ entry.response = response := by
  obtain ⟨htimed, hagree⟩ := lastDelivered_iff_cached hcacheable hrun
  constructor
  · rintro ⟨age, hage, hlast⟩
    obtain ⟨entry, hentry, hresponse, hclock⟩ := (hagree response age).mp hlast
    refine ⟨entry, hentry, decide_eq_true ?_, hresponse⟩
    rw [(htimed url entry hentry).1]
    omega
  · rintro ⟨entry, hentry, hlive, rfl⟩
    obtain ⟨httl, hstart⟩ := htimed url entry hentry
    replace hlive : c.clock - entry.start ≤ entry.ttl := of_decide_eq_true hlive
    rw [httl] at hlive
    exact ⟨c.clock - entry.start, hlive, (hagree _ _).mpr ⟨entry, hentry, rfl, by omega⟩⟩

end

end RCloneCloud
