import RCloneCloud.Auth.Promises

/-!
# `Auth.Tokens` — the token store against the log of calls

`storings` and `redemptions` read the log of a pool of requests: which tokens have been stored, for whom and
by whom, and which have been redeemed. `log_step` says what one call adds to them and what it does to the
store; `tokenInv_preserved` derives from it, part by part, how the store stands to the log at any time.

`TokenInv` says that the store holds exactly the tokens that were stored and not redeemed since, and that no token was
stored twice; `StorerInv` which requests can have stored. Both are invariants of the pool in the sense of `Lib.Pool`:
the proofs look at one permitted call, and which calls are permitted comes from `Auth.Promises`.
-/

set_option autoImplicit false

namespace RCloneCloud

open Lib

/-- A call of a request, with its answer. -/
abbrev AuthEntry := Entry AuthRequest AuthCall AuthCall.Answer

/-- The calls of all requests, in the order they were answered. -/
abbrev AuthLog := List AuthEntry

/-- A pool of requests to the handler over one token store. -/
abbrev AuthPool := Pool TokenStore AuthRequest AuthCall AuthCall.Answer AuthReply

/-- One step of the requests: a request arrives, or one of them makes its next call. -/
def AuthHandler.step (D : AuthDeps) (h : AuthHandler) :
    AuthPool → PoolAction AuthRequest AuthWorld → Option AuthPool :=
  Pool.step (h.body D) AuthWorld.serve

/-- Before the first request: the store is `NewInMemoryTokenStore()`. -/
def AuthPool.init : AuthPool := Pool.init ∅

/-! ## Reading the log -/

/-- A token that a call has stored, with its user data. -/
def storedAs : Answered AuthCall AuthCall.Answer → Option (GoString × UserData)
  | ⟨.store userID email t, .ok ()⟩ => some (t, ⟨userID, email⟩)
  | _ => none

/-- A token that `ValidateAndRevoke` has accepted, with the user data it returned. -/
def redeemedAs : Answered AuthCall AuthCall.Answer → Option (GoString × UserData)
  | ⟨.validateAndRevoke t, .ok data⟩ => some (t, data)
  | _ => none

/-- The token that a call generated. -/
def generatedAs : Answered AuthCall AuthCall.Answer → Option GoString
  | ⟨.generateRefreshToken, .ok t⟩ => some t
  | _ => none

/-- The stores of a log: who stored which token for whom. -/
def storings (log : AuthLog) : List (AuthEntry × GoString × UserData) :=
  log.filterMap fun e => (storedAs e.call).map fun x => (e, x)

/-- The redemptions of a log: who redeemed which token, and for whom it had been stored. -/
def redemptions (log : AuthLog) : List (AuthEntry × GoString × UserData) :=
  log.filterMap fun e => (redeemedAs e.call).map fun x => (e, x)

/-- The tokens that were generated, in order. -/
def generatedTokens (log : AuthLog) : List GoString := log.filterMap fun e => generatedAs e.call

/-- The entries for the token `t`. -/
def ofToken (t : GoString) (l : List (AuthEntry × GoString × UserData)) : Nat :=
  l.countP fun x => x.2.1 = t

/-- The entries for the user `u`. -/
def ofUser (u : GoString) (l : List (AuthEntry × GoString × UserData)) : Nat :=
  l.countP fun x => x.2.2.userID = u

/-- The valid tokens of a user. -/
def TokenStore.live (s : TokenStore) (u : GoString) : Nat := (s.filter fun _ d => d.userID = u).size

/-- What a reading of the calls finds in the log: `storings` and `redemptions` are two of them. -/
theorem mem_reading {read : Answered AuthCall AuthCall.Answer → Option (GoString × UserData)} {log : AuthLog}
    {e : AuthEntry} {t : GoString} {d : UserData} :
    (e, t, d) ∈ log.filterMap (fun e => (read e.call).map fun x => (e, x)) ↔
      e ∈ log ∧ read e.call = some (t, d) := by
  simp only [List.mem_filterMap, Option.map_eq_some_iff, Prod.mk.injEq]
  constructor
  · rintro ⟨e', he, x, hx, rfl, rfl⟩
    exact ⟨he, hx⟩
  · rintro ⟨he, hx⟩
    exact ⟨e, he, (t, d), hx, rfl, rfl⟩

/-- A store is an answered call that stored. -/
theorem mem_storings {log : AuthLog} {e : AuthEntry} {t : GoString} {d : UserData} :
    (e, t, d) ∈ storings log ↔ e ∈ log ∧ storedAs e.call = some (t, d) :=
  mem_reading

/-- A redemption is an answered call that redeemed. -/
theorem mem_redemptions {log : AuthLog} {e : AuthEntry} {t : GoString} {d : UserData} :
    (e, t, d) ∈ redemptions log ↔ e ∈ log ∧ redeemedAs e.call = some (t, d) :=
  mem_reading

section
variable {log : AuthLog} {e : AuthEntry} {x : GoString × UserData}

theorem storings_none (h : storedAs e.call = none) : storings (log ++ [e]) = storings log := by
  simp [storings, h]

theorem storings_some (h : storedAs e.call = some x) : storings (log ++ [e]) = storings log ++ [(e, x)] := by
  simp [storings, h]

theorem redemptions_none (h : redeemedAs e.call = none) : redemptions (log ++ [e]) = redemptions log := by
  simp [redemptions, h]

theorem redemptions_some (h : redeemedAs e.call = some x) :
    redemptions (log ++ [e]) = redemptions log ++ [(e, x)] := by
  simp [redemptions, h]

/-- One more entry counts for its own token. -/
theorem ofToken_snoc (t : GoString) (l : List (AuthEntry × GoString × UserData)) :
    ofToken t (l ++ [(e, x)]) = ofToken t l + if x.1 = t then 1 else 0 := by
  simp [ofToken, List.countP_singleton]

/-- One more entry counts for its own user. -/
theorem ofUser_snoc (u : GoString) (l : List (AuthEntry × GoString × UserData)) :
    ofUser u (l ++ [(e, x)]) = ofUser u l + if x.2.userID = u then 1 else 0 := by
  simp [ofUser, List.countP_singleton]

end

/-! ## One call -/

/-- Nobody has a token in an empty store. -/
theorem TokenStore.live_empty (u : GoString) : TokenStore.live ∅ u = 0 :=
  Nat.le_zero.mp (Std.ExtTreeMap.size_filter_le_size.trans (Nat.le_of_eq Std.ExtTreeMap.size_empty))

/-- A store adds one live token at most, and that to its user; one that replaces another's may add none. -/
theorem TokenStore.live_store_le (s : TokenStore) (userID email t u : GoString) :
    (s.store userID email t).live u ≤ s.live u + if userID = u then 1 else 0 := by
  have hext : ((s.store userID email t).filter fun _ d => d.userID = u)
      = if userID = u then (s.filter fun _ d => d.userID = u).insert t ⟨userID, email⟩
        else (s.filter fun _ d => d.userID = u).erase t := by
    refine Std.ExtTreeMap.ext_getElem? fun a => ?_
    rw [Std.ExtTreeMap.getElem?_filter', TokenStore.store, GoMap.getElem?_insert]
    by_cases ht : t = a
    · by_cases hu : userID = u <;> simp [ht, hu, Option.filter]
    · by_cases hu : userID = u <;>
        simp [ht, hu, GoMap.getElem?_insert, GoMap.getElem?_erase]
  unfold TokenStore.live
  rw [hext]
  by_cases hu : userID = u
  · rw [if_pos hu, if_pos hu]
    exact Std.ExtTreeMap.size_insert_le
  · rw [if_neg hu, if_neg hu]
    exact Std.ExtTreeMap.size_erase_le

/-- Removing a token that is there takes one from its user. -/
theorem TokenStore.live_erase {s : TokenStore} {t : GoString} {d : UserData} (h : s[t]? = some d)
    (u : GoString) : TokenStore.live (s.erase t) u + (if d.userID = u then 1 else 0) = s.live u := by
  have hext : ((s.erase t).filter fun _ d => d.userID = u) = (s.filter fun _ d => d.userID = u).erase t := by
    refine Std.ExtTreeMap.ext_getElem? fun a => ?_
    rw [Std.ExtTreeMap.getElem?_filter', GoMap.getElem?_erase, GoMap.getElem?_erase,
      Std.ExtTreeMap.getElem?_filter']
    by_cases ht : t = a <;> simp [ht]
  have hmem : (s.filter fun _ d => d.userID = u).contains t = true ↔ d.userID = u := by
    rw [← Std.ExtTreeMap.mem_iff_contains, GoMap.mem_iff, Std.ExtTreeMap.getElem?_filter', h]
    by_cases hu : d.userID = u <;> simp [hu, Option.filter]
  unfold TokenStore.live
  rw [hext, Std.ExtTreeMap.size_erase]
  by_cases hu : d.userID = u
  · have hm := hmem.mpr hu
    have hpos : (s.filter fun _ d => d.userID = u).size ≠ 0 := by
      intro h0
      rw [← Std.ExtTreeMap.eq_empty_iff_size_eq_zero] at h0
      rw [h0] at hm
      exact absurd (Std.ExtTreeMap.mem_iff_contains.mpr hm) Std.ExtTreeMap.not_mem_empty
    rw [if_pos hm, if_pos hu]
    omega
  · rw [if_neg (fun hm => hu (hmem.mp hm)), if_neg hu, Nat.add_zero]

/-- **One call and the store.** A call leaves the store alone, or stores a token, or redeems one that is in
    it. -/
theorem serve_cases (w : AuthWorld) (s : TokenStore) (op : AuthCall) :
    ((w.serve op s).2 = s ∧ storedAs ⟨op, (w.serve op s).1⟩ = none ∧
      redeemedAs ⟨op, (w.serve op s).1⟩ = none) ∨
    (∃ userID email t, op = .store userID email t ∧ (w.serve op s).2 = s.store userID email t ∧
      storedAs ⟨op, (w.serve op s).1⟩ = some (t, ⟨userID, email⟩) ∧
      redeemedAs ⟨op, (w.serve op s).1⟩ = none) ∨
    (∃ t d, op = .validateAndRevoke t ∧ s[t]? = some d ∧ (w.serve op s).2 = s.erase t ∧
      storedAs ⟨op, (w.serve op s).1⟩ = none ∧
      redeemedAs ⟨op, (w.serve op s).1⟩ = some (t, d)) := by
  cases op with
  | store userID email t =>
      cases hw : w.storeErr with
      | none =>
          refine .inr (.inl ⟨userID, email, t, rfl, ?_, ?_, rfl⟩)
          · simp only [AuthWorld.serve, hw]
          · simp [AuthWorld.serve, hw, storedAs]
      -- a store that fails stores nothing
      | some err =>
          refine .inl ⟨?_, ?_, rfl⟩
          · simp only [AuthWorld.serve, hw]
          · simp [AuthWorld.serve, hw, storedAs]
  | validateAndRevoke t =>
      -- a token that is not there is not redeemed
      cases ht : s[t]? with
      | none =>
          refine .inl ⟨?_, rfl, ?_⟩
          · simp only [AuthWorld.serve, TokenStore.validateAndRevoke, ht]
          · simp [AuthWorld.serve, TokenStore.validateAndRevoke, ht, redeemedAs]
      | some d =>
          refine .inr (.inr ⟨t, d, rfl, ht, ?_, rfl, ?_⟩)
          · simp only [AuthWorld.serve, TokenStore.validateAndRevoke, ht]
          · simp [AuthWorld.serve, TokenStore.validateAndRevoke, ht, redeemedAs]
  | _ => exact .inl ⟨rfl, rfl, rfl⟩

/-! ## The invariant -/

/-- How the token store stands to the log. -/
structure TokenInv (s : TokenStore) (log : AuthLog) : Prop where
  /-- A valid token was stored with the data it is valid for. -/
  backed : ∀ (t : GoString) (d : UserData), s[t]? = some d → ∃ e, (e, t, d) ∈ storings log
  /-- A redeemed token was stored before, with the data that was returned. -/
  after : EachAfter (fun pre e => ∀ t d, redeemedAs e.call = some (t, d) →
    ∃ e', (e', t, d) ∈ storings pre) log
  /-- A token is redeemed once at most for each time it was stored, and is spent then. -/
  spent : ∀ t, ofToken t (redemptions log) + (if t ∈ s then 1 else 0) ≤ ofToken t (storings log)
  /-- The valid tokens of a user and the redeemed ones are no more than the stored ones. -/
  counted : ∀ u, s.live u + ofUser u (redemptions log) ≤ ofUser u (storings log)

/-- Who has stored a token: a request that has generated it, once, and that has checked a login of that user
    or redeemed a token of theirs. -/
structure StorerInv (D : AuthDeps) (h : AuthHandler) (log : AuthLog) : Prop where
  once : ((storings log).map fun x => x.1.thread).Nodup
  generated : ∀ e t d, (e, t, d) ∈ storings log → ⟨.generateRefreshToken, .ok t⟩ ∈ done log e.thread
  entitled : ∀ e t d, (e, t, d) ∈ storings log →
    (∃ r, e.req = .callback r ∧ Passed D h r (done log e.thread) d.userID d.email) ∨
    (∃ r, e.req = .refresh r ∧ Redeemed (done log e.thread) d.userID d.email)

section
variable {s : TokenStore} {log : AuthLog} {e : AuthEntry}

/-- A call that does nothing to the store. -/
theorem TokenInv.untouched (hI : TokenInv s log) (hst : storedAs e.call = none) (hre : redeemedAs e.call = none) :
    TokenInv s (log ++ [e]) := by
  refine ⟨?_, hI.after.append ?_, ?_, ?_⟩
  · rw [storings_none hst]
    exact hI.backed
  · intro t d h
    rw [hre] at h
    cases h
  · rw [storings_none hst, redemptions_none hre]
    exact hI.spent
  · rw [storings_none hst, redemptions_none hre]
    exact hI.counted

/-- A token is stored. -/
theorem TokenInv.stored (hI : TokenInv s log) {userID email t : GoString}
    (hst : storedAs e.call = some (t, ⟨userID, email⟩)) (hre : redeemedAs e.call = none) :
    TokenInv (s.store userID email t) (log ++ [e]) := by
  refine ⟨fun t' d' ht' => ?_, hI.after.append ?_, fun t' => ?_, fun u => ?_⟩
  · rw [storings_some hst]
    rw [TokenStore.store, GoMap.getElem?_insert] at ht'
    split at ht'
    · next he =>
        cases ht'
        exact ⟨e, List.mem_append_right _ (by simp [he])⟩
    · obtain ⟨e', he'⟩ := hI.backed t' d' ht'
      exact ⟨e', List.mem_append_left _ he'⟩
  · intro t d h
    rw [hre] at h
    cases h
  · have hspent := hI.spent t'
    rw [storings_some hst, redemptions_none hre, ofToken_snoc]
    simp only [TokenStore.store, GoMap.mem_insert]
    by_cases he : t = t'
    · simp only [he, true_or, if_true] at hspent ⊢
      omega
    · simp only [he, false_or, if_false] at hspent ⊢
      omega
  · have hlive := s.live_store_le userID email t u
    have hcounted := hI.counted u
    rw [storings_some hst, redemptions_none hre, ofUser_snoc]
    dsimp only
    omega

/-- A valid token is redeemed. -/
theorem TokenInv.redeemed (hI : TokenInv s log) {t : GoString} {d : UserData} (ht : s[t]? = some d)
    (hst : storedAs e.call = none) (hre : redeemedAs e.call = some (t, d)) :
    TokenInv (s.erase t) (log ++ [e]) := by
  refine ⟨fun t' d' ht' => ?_, hI.after.append ?_, fun t' => ?_, fun u => ?_⟩
  · rw [storings_none hst]
    rw [GoMap.getElem?_erase] at ht'
    split at ht'
    · cases ht'
    · exact hI.backed t' d' ht'
  · intro t' d' h
    rw [hre] at h
    cases h
    exact hI.backed t d ht
  · have hspent := hI.spent t'
    have hin : t ∈ s := GoMap.mem_iff.mpr ⟨d, ht⟩
    rw [storings_none hst, redemptions_some hre, ofToken_snoc]
    simp only [GoMap.mem_erase]
    -- the token that is redeemed has gone from the store into the redemptions
    by_cases he : t = t'
    · subst he
      simp only [hin, ne_eq, not_true_eq_false, false_and, if_true, if_false] at hspent ⊢
      omega
    · simp only [he, ne_eq, not_false_eq_true, true_and, if_false] at hspent ⊢
      omega
  · have hlive := TokenStore.live_erase ht u
    have hcounted := hI.counted u
    rw [storings_none hst, redemptions_some hre, ofUser_snoc]
    dsimp only
    omega

end

section
variable {D : AuthDeps} {h : AuthHandler}

/-- One permitted call keeps the store in step with the log. -/
theorem tokenInv_preserved :
    Pool.Preserved AuthWorld.serve (Permits D h) (fun s log => TokenInv s log) := by
  intro s log i req op w hI _ _
  generalize hentry : (⟨i, req, op, (w.serve op s).1⟩ : AuthEntry) = e
  have hcall : e.call = ⟨op, (w.serve op s).1⟩ := by rw [← hentry]; rfl
  rcases serve_cases w s op with ⟨hs, hst, hre⟩ | ⟨userID, email, t, -, hs, hst, hre⟩ |
    ⟨t, d, -, ht, hs, hst, hre⟩
  · rw [← hcall] at hst hre
    rw [hs]
    exact hI.untouched hst hre
  · rw [← hcall] at hst hre
    rw [hs]
    exact hI.stored hst hre
  · rw [← hcall] at hst hre
    rw [hs]
    exact hI.redeemed ht hst hre

/-- A thread that has not called `Store` is no storer. -/
theorem not_storer {log : AuthLog} {i : Nat} (hn : NotStored (done log i)) :
    i ∉ (storings log).map fun x => x.1.thread := by
  intro hm
  obtain ⟨⟨e, t, d⟩, he, rfl⟩ := List.mem_map.mp hm
  obtain ⟨hlog, hst⟩ := mem_storings.mp he
  have hcall : e.call ∈ done log e.thread := mem_done.mpr ⟨e, hlog, rfl, rfl⟩
  unfold storedAs at hst
  split at hst
  · next userID email t' hc => exact hn _ hcall userID email t' (by rw [hc])
  · cases hst

/-- A storing call is made by a request that is entitled to it. -/
theorem permits_store {req : AuthRequest} {calls : AuthCalls} {userID email t : GoString}
    (hp : Permits D h req calls (.store userID email t)) :
    Fresh calls t ∧ ((∃ r, req = .callback r ∧ Passed D h r calls userID email) ∨
      (∃ r, req = .refresh r ∧ Redeemed calls userID email)) := by
  cases req with
  | login r => exact hp.elim
  | callback r => exact ⟨hp.2, .inl ⟨r, rfl, hp.1⟩⟩
  | refresh r => exact ⟨hp.2, .inr ⟨r, rfl, hp.1⟩⟩

/-- One permitted call keeps every store in the hands of a request that may make it. -/
theorem storerInv_preserved :
    Pool.Preserved AuthWorld.serve (Permits D h) (fun _ log => StorerInv D h log) := by
  intro s log i req op w hI hpermits _
  generalize he : (⟨i, req, op, (w.serve op s).1⟩ : AuthEntry) = e
  have hcall : e.call = ⟨op, (w.serve op s).1⟩ := by rw [← he]; rfl
  -- what was known of the earlier storers still is
  have hgenerated : ∀ e' t d, (e', t, d) ∈ storings log →
      ⟨.generateRefreshToken, .ok t⟩ ∈ done (log ++ [e]) e'.thread := by
    intro e' t d hm
    rw [done_append]
    exact List.mem_append_left _ (hI.generated e' t d hm)
  have hentitled : ∀ e' t d, (e', t, d) ∈ storings log →
      (∃ r, e'.req = .callback r ∧ Passed D h r (done (log ++ [e]) e'.thread) d.userID d.email) ∨
      (∃ r, e'.req = .refresh r ∧ Redeemed (done (log ++ [e]) e'.thread) d.userID d.email) := by
    intro e' t d hm
    rw [done_append]
    rcases hI.entitled e' t d hm with ⟨r, hr, hp⟩ | ⟨r, hr, hp⟩
    · exact .inl ⟨r, hr, hp.append _⟩
    · exact .inr ⟨r, hr, hp.append _⟩
  cases hst : storedAs e.call with
  | none =>
      have hsame : storings (log ++ [e]) = storings log := storings_none hst
      exact ⟨hsame ▸ hI.once, fun e' t d hm => hgenerated e' t d (hsame ▸ hm),
        fun e' t d hm => hentitled e' t d (hsame ▸ hm)⟩
  | some x =>
      obtain ⟨userID, email, t, rfl, rfl⟩ : ∃ userID email t, op = .store userID email t ∧
          x = (t, ⟨userID, email⟩) := by
        rw [hcall] at hst
        rcases serve_cases w s op with ⟨_, hst', _⟩ | ⟨userID, email, t, hop, _, hst', _⟩ |
          ⟨t, d, _, _, _, hst', _⟩
        · rw [hst'] at hst; cases hst
        · rw [hst'] at hst; cases hst; exact ⟨userID, email, t, hop, rfl⟩
        · rw [hst'] at hst; cases hst
      obtain ⟨⟨hgen, hnot⟩, hby⟩ := permits_store hpermits
      have hthread : e.thread = i := by rw [← he]
      have hreq : e.req = req := by rw [← he]
      have hsnoc : storings (log ++ [e]) = storings log ++ [(e, t, ⟨userID, email⟩)] := storings_some hst
      have hnew : done (log ++ [e]) e.thread = done log i ++ [e.call] := by
        rw [done_append_self, hthread]
      refine ⟨?_, fun e' t' d' hm => ?_, fun e' t' d' hm => ?_⟩
      · rw [hsnoc, List.map_append, List.map_singleton, hthread]
        rw [← List.concat_eq_append, List.nodup_concat]
        exact ⟨not_storer hnot, hI.once⟩
      · rw [hsnoc] at hm
        rcases List.mem_append.mp hm with hm | hm
        · exact hgenerated e' t' d' hm
        · cases List.mem_singleton.mp hm
          rw [hnew]
          exact List.mem_append_left _ hgen
      · rw [hsnoc] at hm
        rcases List.mem_append.mp hm with hm | hm
        · exact hentitled e' t' d' hm
        · cases List.mem_singleton.mp hm
          rw [hnew, hreq]
          rcases hby with ⟨r, hr, hp⟩ | ⟨r, hr, hp⟩
          · exact .inl ⟨r, hr, hp.append _⟩
          · exact .inr ⟨r, hr, hp.append _⟩

end

end RCloneCloud
