import RCloneCloud.Auth.Tokens

/-!
# `Auth.SingleUse` — refresh tokens are single use, however requests interleave

A token is stored by the one request that generated it, so it is redeemed once at most; and every token a
refresh stores for a user has been paid for by one it has redeemed, so the valid tokens of a user are no
more than the logins that stored one.

Both halves are read off the invariants of `Auth.Tokens` for the log of a whole run; no step is looked at again here.
The first is injectivity: two stores of a token would be two generations of it, and generated tokens are distinct. The
second counts: a user's live tokens are stores not yet redeemed, and each store of a refresh has a redemption of its
own.
-/

set_option autoImplicit false

namespace RCloneCloud

open Lib

/-- Whether a request is a login's callback. -/
def AuthRequest.isCallback : AuthRequest → Bool
  | .callback _ => true
  | _ => false

/-- The callbacks that have stored a token for a user. -/
def callbackStorers (log : AuthLog) (u : GoString) : Finset Nat :=
  (((storings log).filter fun x => x.1.req.isCallback && x.2.2.userID = u).map fun x => x.1.thread).toFinset

section
variable {D : AuthDeps} {h : AuthHandler}

/-- The store stands to the log as it should in every state of a run. -/
theorem tokenInv_run {as : List (PoolAction AuthRequest AuthWorld)} {p : AuthPool}
    (hrun : run (h.step D) AuthPool.init as = some p) : TokenInv p.shared p.log :=
  (pool_invariant (body_keeps D h) tokenInv_preserved
    ⟨by simp, EachAfter.nil, by simp [ofToken, redemptions], by simp [ofUser, redemptions, TokenStore.live_empty]⟩
    hrun).related

/-- In every run each store is of a request that had the right to make it. -/
theorem storerInv_run {as : List (PoolAction AuthRequest AuthWorld)} {p : AuthPool}
    (hrun : run (h.step D) AuthPool.init as = some p) : StorerInv D h p.log :=
  (pool_invariant (body_keeps D h) storerInv_preserved
    ⟨by simp [storings], by simp [storings], by simp [storings]⟩ hrun).related

variable {log : AuthLog}

/-- A token that a thread has been given is an entry of the log under that thread. -/
theorem generated_entry {i : Nat} {t : GoString}
    (hm : ⟨.generateRefreshToken, .ok t⟩ ∈ done log i) :
    ∃ e ∈ log, e.thread = i ∧ generatedAs e.call = some t := by
  obtain ⟨e, he, hi, hcall⟩ := mem_done.mp hm
  exact ⟨e, he, hi, by rw [← hcall]; rfl⟩

/-- Where no token is generated twice, none is stored twice: the storer has generated it. -/
theorem storings_unique (hI : StorerInv D h log) (hgen : (generatedTokens log).Nodup)
    {x y : AuthEntry × GoString × UserData} (hx : x ∈ storings log) (hy : y ∈ storings log)
    (ht : x.2.1 = y.2.1) : x = y := by
  obtain ⟨e, t, d⟩ := x
  obtain ⟨e', t', d'⟩ := y
  obtain rfl : t = t' := ht
  obtain ⟨g, hg, hgi, hgt⟩ := generated_entry (hI.generated e t d hx)
  obtain ⟨g', hg', hgi', hgt'⟩ := generated_entry (hI.generated e' t d' hy)
  have hsame : g = g' := eq_of_nodup_filterMap hgen hg hg' hgt hgt'
  have hthread : e.thread = e'.thread := by rw [← hgi, ← hgi', hsame]
  exact List.inj_on_of_nodup_map hI.once hx hy hthread

/-- What refreshes have stored for a user is no more than what has been redeemed of that user's tokens. -/
theorem refreshed_le_redeemed (hI : StorerInv D h log) (u : GoString) :
    ((storings log).filter fun x => !x.1.req.isCallback && x.2.2.userID = u).length
      ≤ ofUser u (redemptions log) := by
  have hthreads : (((storings log).filter fun x => !x.1.req.isCallback && x.2.2.userID = u).map
      fun x => x.1.thread).Nodup :=
    hI.once.sublist (List.filter_sublist.map _)
  have hsub : (((storings log).filter fun x => !x.1.req.isCallback && x.2.2.userID = u).map
      fun x => x.1.thread) ⊆ ((redemptions log).filter fun x => x.2.2.userID = u).map fun x => x.1.thread := by
    intro i hi
    obtain ⟨⟨e, t, d⟩, he, rfl⟩ := List.mem_map.mp hi
    obtain ⟨hst, hcond⟩ := List.mem_filter.mp he
    rw [Bool.and_eq_true, decide_eq_true_eq] at hcond
    rcases hI.entitled e t d hst with ⟨r, hr, -⟩ | ⟨r, -, t', hred⟩
    · rw [hr] at hcond
      exact absurd hcond.1 (by simp [AuthRequest.isCallback])
    · -- the refresh has redeemed a token of the same user
      obtain ⟨e', he', hi', hcall⟩ := mem_done.mp hred
      have hm : (e', t', d) ∈ redemptions log := mem_redemptions.mpr ⟨he', by rw [← hcall]; rfl⟩
      refine List.mem_map.mpr ⟨(e', t', d), List.mem_filter.mpr ⟨hm, ?_⟩, hi'⟩
      exact decide_eq_true hcond.2
  calc ((storings log).filter fun x => !x.1.req.isCallback && x.2.2.userID = u).length
      = (((storings log).filter fun x => !x.1.req.isCallback && x.2.2.userID = u).map
          fun x => x.1.thread).length := (List.length_map _).symm
    _ ≤ (((redemptions log).filter fun x => x.2.2.userID = u).map fun x => x.1.thread).length :=
        (hthreads.subperm hsub).length_le
    _ = ofUser u (redemptions log) := by rw [List.length_map, ofUser, List.countP_eq_length_filter]

/-- The logins that stored for a user are as many as their stores, since a request stores once. -/
theorem card_callbackStorers (hI : StorerInv D h log) (u : GoString) :
    (callbackStorers log u).card
      = ((storings log).filter fun x => x.1.req.isCallback && x.2.2.userID = u).length := by
  have hthreads : (((storings log).filter fun x => x.1.req.isCallback && x.2.2.userID = u).map
      fun x => x.1.thread).Nodup :=
    hI.once.sublist (List.filter_sublist.map _)
  rw [callbackStorers, List.toFinset_card_of_nodup hthreads, List.length_map]

/-- What is stored for a user is stored by a callback or by a refresh. -/
theorem ofUser_storings (log : AuthLog) (u : GoString) :
    ofUser u (storings log)
      = ((storings log).filter fun x => x.1.req.isCallback && x.2.2.userID = u).length
        + ((storings log).filter fun x => !x.1.req.isCallback && x.2.2.userID = u).length := by
  rw [ofUser]
  induction storings log with
  | nil => rfl
  | cons x rest ih =>
      rw [List.countP_cons, ih]
      cases hc : x.1.req.isCallback <;> by_cases hu : x.2.2.userID = u <;> simp [hc, hu] <;> omega

/-- **Refresh tokens are single use.** In every run of logins, callbacks and refreshes over one store, their
    calls interleaved in any order: if no token is generated twice, each token is redeemed once at most, it
    was stored before, and what is returned is what it was stored with, by whoever stored it; and the valid
    tokens of a user are no more than the callbacks that have stored one for that user. -/
theorem refresh_single_use {as : List (PoolAction AuthRequest AuthWorld)} {p : AuthPool}
    (hrun : run (h.step D) AuthPool.init as = some p) (hgen : (generatedTokens p.log).Nodup) :
    (∀ t, ofToken t (redemptions p.log) ≤ 1) ∧
    (∀ pre e post t d, p.log = pre ++ e :: post → redeemedAs e.call = some (t, d) →
      (∃ e', (e', t, d) ∈ storings pre) ∧ ∀ e' d', (e', t, d') ∈ storings p.log → d' = d) ∧
    ∀ u, p.shared.live u ≤ (callbackStorers p.log u).card := by
  have hT := tokenInv_run hrun
  have hS := storerInv_run hrun
  refine ⟨fun t => ?_, fun pre e post t d hlog hred => ?_, fun u => ?_⟩
  -- a token is stored once, and redeemed no more often than stored
  · have hstored : ofToken t (storings p.log) ≤ 1 := by
      refine countP_le_one (List.Nodup.of_map _ hS.once) fun x hx y hy hxt hyt => ?_
      rw [decide_eq_true_eq] at hxt hyt
      exact storings_unique hS hgen hx hy (hxt.trans hyt.symm)
    have hspent := hT.spent t
    omega
  · obtain ⟨e', he'⟩ := hT.after pre e post hlog t d hred
    refine ⟨⟨e', he'⟩, fun e'' d' he'' => ?_⟩
    have hin : (e', t, d) ∈ storings p.log := by
      obtain ⟨hm, hst⟩ := mem_storings.mp he'
      exact mem_storings.mpr ⟨by rw [hlog]; exact List.mem_append_left _ hm, hst⟩
    have hsame := storings_unique hS hgen he'' hin rfl
    simp only [Prod.mk.injEq] at hsame
    exact hsame.2.2
  -- live tokens and redemptions add up to the stores, and refreshes have paid for theirs
  · have hcounted := hT.counted u
    have hsplit := ofUser_storings p.log u
    have hpaid := refreshed_le_redeemed hS u
    rw [card_callbackStorers hS u]
    omega

end

/-- A callback stores the token `a`; two refreshes present it, the first one to be served rotates it to
    `b`. -/
def doubleRefresh : List (PoolAction AuthRequest AuthWorld) :=
  let w := sampleWorld (str "a")
  let w' := sampleWorld (str "b")
  [.start (.callback sampleCallback), .call 0 w, .call 0 w, .call 0 w, .call 0 w, .call 0 w, .call 0 w,
    .start (.refresh ⟨.ok ⟨str "a"⟩⟩), .start (.refresh ⟨.ok ⟨str "a"⟩⟩), .call 2 w', .call 1 w', .call 2 w',
    .call 2 w']

/-- Two refreshes with one token, their calls interleaved: only one of them redeems it. -/
theorem refresh_single_use_twice :
    ∃ p, run (sampleHandler.step sampleDeps) AuthPool.init doubleRefresh = some p ∧
      (redemptions p.log).length = 1 ∧ (∀ t, ofToken t (redemptions p.log) ≤ 1) ∧
      p.shared.live (str "u") ≤ (callbackStorers p.log (str "u")).card := by
  have hrun : run (sampleHandler.step sampleDeps) AuthPool.init doubleRefresh
      = some ((run (sampleHandler.step sampleDeps) AuthPool.init doubleRefresh).get rfl) :=
    (Option.some_get _).symm
  obtain ⟨honce, _, hlive⟩ := refresh_single_use hrun (by decide)
  exact ⟨_, hrun, rfl, honce, hlive _⟩

end RCloneCloud
