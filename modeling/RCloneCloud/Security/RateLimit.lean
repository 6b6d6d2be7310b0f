import RCloneCloud.Handler.Params
import RCloneCloud.Lib.TokenBucket

/-!
# `Security.RateLimit` — one token bucket for each client address, idle ones forgotten

`getVisitor` makes a full bucket for an address it does not know; the cleanup loop drops the addresses that
have been idle for more than three minutes. A dropped bucket had filled up again long before, so the address
gets back what it lost (`decisions_of`), and no decision shows the difference (`rate_limited`). Times are in
seconds.

`Tracks` ties an entry of the map, or its absence, to the bucket that was never dropped: the two have the same level
from the last request on. Requests, other addresses and the cleanup each keep it (`Tracks.request`, `Tracks.other`,
`Tracks.cleanup`); the cleanup does so because three idle minutes fill the bucket at this rate and burst. The bound on
a window is then that of `Lib.TokenBucket`. Tokens are rational numbers here, where the limiter has floating point.
-/

set_option autoImplicit false

namespace RCloneCloud

open Lib

/-! ## The client address -/

/-- `strings.LastIndexByte`. -/
def lastIndex (s : GoString) (c : UInt8) : Option Nat :=
  (index s.reverse c).map fun i => s.length - 1 - i

/-- The host between brackets, where the last colon is at `i`, and from where on no bracket may follow. -/
def bracketHost (hostport : GoString) (i : Nat) : Option (GoString × Nat × Nat) :=
  match index hostport (ascii ']') with
  | none => none
  | some e => if e + 1 = i then some ((hostport.take e).drop 1, 1, e + 1) else none

/-- The host before the last colon, the only one. -/
def plainHost (hostport : GoString) (i : Nat) : Option (GoString × Nat × Nat) :=
  if (hostport.take i).contains (ascii ':') then none else some (hostport.take i, 0, 0)

/-- `net.SplitHostPort`; of an error only its presence counts. -/
def splitHostPort (hostport : GoString) : Option (GoString × GoString) :=
  match lastIndex hostport (ascii ':') with
  | none => none
  | some i =>
    match if hostport.head? = some (ascii '[') then bracketHost hostport i else plainHost hostport i with
    | none => none
    | some (host, j, k) =>
      if (hostport.drop j).contains (ascii '[') then none
      else if (hostport.drop k).contains (ascii ']') then none
      else some (host, hostport.drop (i + 1))

/-- The address a request is counted under. -/
def clientIP (remoteAddr : GoString) : GoString :=
  match splitHostPort remoteAddr with
  | none => remoteAddr
  | some (ip, _) => ip

example : clientIP (str "[::1]:8080") = str "::1" ∧ clientIP (str "10.0.0.7:443") = str "10.0.0.7" ∧
    clientIP (str "unix") = str "unix" := by decide

/-! ## Visitors -/

/-- `rate.Limit(5)`: tokens a second. -/
def limit : ℚ := 5

/-- The burst of `rate.NewLimiter`. -/
def burst : ℚ := 20

/-- The rate is not negative. -/
theorem limit_nonneg : 0 ≤ limit := by
  unfold limit
  norm_num

/-- The burst is not negative. -/
theorem burst_nonneg : 0 ≤ burst := by
  unfold burst
  norm_num

/-- `3*time.Minute`. -/
def idleLimit : ℚ := 180

/-- The bucket of an address and when it was last used. -/
structure Visitor where
  limiter : Bucket ℚ
  lastSeen : ℚ
deriving DecidableEq

/-- The map `visitors`. -/
abbrev Visitors := GoMap Visitor

/-- `getVisitor`: the limiter of the address, and the visitors afterwards. -/
def getVisitor (visitors : Visitors) (ip : GoString) (now : ℚ) : Bucket ℚ × Visitors :=
  match visitors[ip]? with
  | none =>
    let limiter := Bucket.full burst now
    (limiter, visitors.insert ip ⟨limiter, now⟩)
  | some v => (v.limiter, visitors.insert ip { v with lastSeen := now })

/-- A request: whether it is forwarded, or answered with 429. The limiter is held by pointer, so what
    `Allow` leaves of it is the visitor's. -/
def handleRequest (visitors : Visitors) (remoteAddr : GoString) (now : ℚ) : Bool × Visitors :=
  let ip := clientIP remoteAddr
  match getVisitor visitors ip now with
  | (limiter, visitors) =>
    match limiter.allow limit burst now with
    | (ok, limiter) => (ok, visitors.modify ip fun v => { v with limiter := limiter })

/-- One pass of the cleanup loop. -/
def cleanup (visitors : Visitors) (now : ℚ) : Visitors :=
  visitors.filter fun _ v => !decide (now - v.lastSeen > idleLimit)

/-- What happens at one instant. -/
inductive Tick where
  | request (time : ℚ) (remoteAddr : GoString)
  | cleanup (time : ℚ)
deriving DecidableEq

namespace Tick

/-- When a request arrives or the cleanup runs. -/
def time : Tick → ℚ
  | .request time _ => time
  | .cleanup time => time

/-- The tick is a request that counts under `ip`. -/
def isRequestOf (ip : GoString) : Tick → Bool
  | .request _ remoteAddr => clientIP remoteAddr = ip
  | .cleanup _ => false

end Tick

/-- What the middleware does with a request. -/
structure Decision where
  ip : GoString
  time : ℚ
  forwarded : Bool
deriving DecidableEq

/-- The decisions on a timeline. -/
def decisions : Visitors → List Tick → List Decision
  | _, [] => []
  | visitors, .request time remoteAddr :: rest =>
    ⟨clientIP remoteAddr, time, (handleRequest visitors remoteAddr time).1⟩ ::
      decisions (handleRequest visitors remoteAddr time).2 rest
  | visitors, .cleanup time :: rest => decisions (cleanup visitors time) rest

/-- The ticks are in the order of their times. -/
def Timeline (ticks : List Tick) : Prop := (ticks.map Tick.time).Pairwise (· ≤ ·)

/-! ## One address -/

/-- The times of the requests that count under `ip`. -/
def requestTimes (ip : GoString) (ticks : List Tick) : List ℚ :=
  (ticks.filter (Tick.isRequestOf ip)).map Tick.time

/-- The answers of one bucket, as decisions for `ip`. -/
def bucketDecisions (ip : GoString) (b : Bucket ℚ) (times : List ℚ) : List Decision :=
  (b.decisions limit burst times).map fun d => ⟨ip, d.1, d.2⟩

/-- The bucket that stands for the address, at the latest from the time `t` on. -/
def bucketAt (ref : Option (Bucket ℚ)) (t : ℚ) : Bucket ℚ := ref.getD (Bucket.full burst t)

/-- What the map holds of an address, at time `now`, against the bucket that is never forgotten: the same,
    or nothing where that bucket is full again. -/
def Tracks (v : Option Visitor) (ref : Option (Bucket ℚ)) (now : ℚ) : Prop :=
  match v, ref with
  | none, none => True
  | none, some b => 0 ≤ b.tokens ∧ idleLimit ≤ now - b.last
  | some v, some b => v.limiter = b ∧ v.lastSeen = b.last ∧ 0 ≤ b.tokens ∧ b.last ≤ now
  | some _, none => False

section
variable {visitors : Visitors} {ref : Option (Bucket ℚ)} {ip : GoString} {now t : ℚ}

/-- What is tracked stays so as time passes. -/
theorem Tracks.mono {v : Option Visitor} (h : Tracks v ref now) (ht : now ≤ t) : Tracks v ref t := by
  cases v with
  | none =>
      cases ref with
      | none => trivial
      | some b =>
          obtain ⟨htokens, hidle⟩ := h
          exact ⟨htokens, by linarith only [hidle, ht]⟩
  | some v =>
      cases ref with
      | none => exact h
      | some b =>
          obtain ⟨hlimiter, hseen, htokens, hlast⟩ := h
          exact ⟨hlimiter, hseen, htokens, hlast.trans ht⟩

/-- The limiter is the visitor's, or the full one that a new visitor gets. -/
theorem getVisitor_eq (ip : GoString) :
    getVisitor visitors ip t = (bucketAt (visitors[ip]?.map Visitor.limiter) t,
      visitors.insert ip ⟨bucketAt (visitors[ip]?.map Visitor.limiter) t, t⟩) := by
  unfold getVisitor
  split
  · next hv => rw [hv]; rfl
  · next v hv => rw [hv]; rfl

/-- A request is let through as the bucket of its address decides. -/
theorem handleRequest_forwarded (remoteAddr : GoString) :
    (handleRequest visitors remoteAddr t).1
      = ((bucketAt (visitors[clientIP remoteAddr]?.map Visitor.limiter) t).allow limit burst t).1 := by
  simp only [handleRequest, getVisitor_eq]

/-- What a request leaves in the map: the bucket after `Allow` under its own address, and every other
    address as it was. -/
theorem handleRequest_getElem? (remoteAddr ip : GoString) :
    (handleRequest visitors remoteAddr t).2[ip]? =
      if clientIP remoteAddr = ip then
        some ⟨((bucketAt (visitors[ip]?.map Visitor.limiter) t).allow limit burst t).2, t⟩
      else visitors[ip]? := by
  simp only [handleRequest, getVisitor_eq]
  by_cases hip : clientIP remoteAddr = ip
  · subst hip
    rw [if_pos rfl, Std.ExtTreeMap.getElem?_modify_self, Std.ExtTreeMap.getElem?_insert_self]
    rfl
  · have hne : ¬ compare (clientIP remoteAddr) ip = .eq := fun he =>
      hip (Std.LawfulEqCmp.eq_of_compare he)
    rw [if_neg hip, Std.ExtTreeMap.getElem?_modify, if_neg hne, GoMap.getElem?_insert, if_neg hip]

/-- A bucket that is tracked has a level from then on. -/
theorem Tracks.level_nonneg {v : Option Visitor} (h : Tracks v ref now) (ht : now ≤ t) :
    0 ≤ (bucketAt ref t).level limit burst t := by
  cases ref with
  | none => exact Bucket.level_nonneg limit_nonneg burst_nonneg burst_nonneg le_rfl
  | some b =>
      cases v with
      | none =>
          obtain ⟨htokens, hidle⟩ := h
          refine Bucket.level_nonneg limit_nonneg burst_nonneg htokens ?_
          have hpos : 0 ≤ idleLimit := by
            unfold idleLimit
            norm_num
          show b.last ≤ t
          linarith only [hpos, hidle, ht]
      | some v =>
          obtain ⟨-, -, htokens, hlast⟩ := h
          exact Bucket.level_nonneg limit_nonneg burst_nonneg htokens (hlast.trans ht)

/-- **What is forgotten is not missed**: the limiter answers as the bucket that is never forgotten. -/
theorem Tracks.allow_eq {v : Option Visitor} (h : Tracks v ref now) (ht : now ≤ t) :
    (bucketAt (v.map Visitor.limiter) t).allow limit burst t = (bucketAt ref t).allow limit burst t := by
  cases v with
  | none =>
      cases ref with
      | none => rfl
      | some b =>
          obtain ⟨htokens, hidle⟩ := h
          refine Bucket.allow_congr ((Bucket.level_full t).trans (Bucket.level_eq_burst ?_).symm)
          -- three minutes are far more than a bucket needs to fill
          have hlong : idleLimit * limit ≤ (t - b.last) * limit :=
            mul_le_mul_of_nonneg_right (by linarith only [hidle, ht]) limit_nonneg
          have hfill : burst ≤ idleLimit * limit := by
            unfold burst idleLimit limit
            norm_num
          show burst ≤ b.tokens + (t - b.last) * limit
          linarith only [hlong, hfill, htokens]
  | some v =>
      cases ref with
      | none => exact h.elim
      | some b =>
          obtain ⟨rfl, -⟩ := h
          rfl

/-- **A request of the address** meets the same answer as with the bucket that is never forgotten, and
    leaves the same bucket. -/
theorem Tracks.request (h : Tracks (visitors[ip]?) ref now) (ht : now ≤ t) {remoteAddr : GoString}
    (hip : clientIP remoteAddr = ip) :
    (handleRequest visitors remoteAddr t).1 = ((bucketAt ref t).allow limit burst t).1 ∧
      Tracks ((handleRequest visitors remoteAddr t).2[ip]?)
        (some ((bucketAt ref t).allow limit burst t).2) t := by
  subst hip
  have hsame := h.allow_eq ht
  refine ⟨by rw [handleRequest_forwarded, hsame], ?_⟩
  rw [handleRequest_getElem?, if_pos rfl, hsame]
  exact ⟨rfl, (Bucket.allow_last _ _).symm, Bucket.allow_tokens_nonneg (h.level_nonneg ht),
    (Bucket.allow_last _ _).le⟩

/-- A request of another address changes nothing for this one. -/
theorem Tracks.other (h : Tracks (visitors[ip]?) ref now) (ht : now ≤ t) {remoteAddr : GoString}
    (hip : clientIP remoteAddr ≠ ip) :
    Tracks ((handleRequest visitors remoteAddr t).2[ip]?) ref t := by
  rw [handleRequest_getElem?, if_neg hip]
  exact h.mono ht

/-- **A pass of the cleanup loop** forgets the address only when its bucket has long been full. -/
theorem Tracks.cleanup (h : Tracks (visitors[ip]?) ref now) (ht : now ≤ t) :
    Tracks ((cleanup visitors t)[ip]?) ref t := by
  have h' := h.mono ht
  unfold RCloneCloud.cleanup
  rw [Std.ExtTreeMap.getElem?_filter']
  cases hv : visitors[ip]? with
  | none =>
      rw [hv] at h'
      exact h'
  | some v =>
      rw [hv] at h'
      by_cases hidle : t - v.lastSeen > idleLimit
      · have hdropped : ¬ (!decide (t - v.lastSeen > idleLimit)) = true := by
          rw [decide_eq_true hidle]
          exact Bool.false_ne_true
        rw [Option.filter_some, if_neg hdropped]
        cases ref with
        | none => exact h'.elim
        | some b =>
            obtain ⟨-, hseen, htokens, -⟩ := h'
            exact ⟨htokens, by rw [← hseen]; exact hidle.le⟩
      · have hkept : (!decide (t - v.lastSeen > idleLimit)) = true := by
          rw [decide_eq_false hidle]
          rfl
        rw [Option.filter_some, if_pos hkept]
        exact h'

end

/-- The decisions for an address, from what is known of its bucket. -/
def refDecisions (ip : GoString) (ref : Option (Bucket ℚ)) : List ℚ → List Decision
  | [] => []
  | t :: rest => bucketDecisions ip (bucketAt ref t) (t :: rest)

/-- **The decisions for an address** are those of one bucket that is never forgotten, on the times of its own
    requests. -/
theorem decisions_of {ip : GoString} {ticks : List Tick} {visitors : Visitors} {ref : Option (Bucket ℚ)}
    {now : ℚ} (h : Tracks (visitors[ip]?) ref now) (hticks : (now :: ticks.map Tick.time).Pairwise (· ≤ ·)) :
    (decisions visitors ticks).filter (fun d => d.ip = ip)
      = refDecisions ip ref (requestTimes ip ticks) := by
  induction ticks generalizing visitors ref now with
  | nil => rfl
  | cons tick rest ih =>
      obtain ⟨hnow, hrest⟩ := List.pairwise_cons.mp hticks
      have htick : now ≤ tick.time := hnow _ List.mem_cons_self
      -- the induction is on the timeline, and `Tracks` goes along with it
      cases tick with
      | cleanup t =>
          have ht : now ≤ t := htick
          rw [decisions, ih (h.cleanup ht) hrest]
          rfl
      | request t remoteAddr =>
          have ht : now ≤ t := htick
          by_cases hip : clientIP remoteAddr = ip
          · obtain ⟨hok, htracks⟩ := h.request ht hip
            have htimes : requestTimes ip (.request t remoteAddr :: rest) = t :: requestTimes ip rest := by
              simp [requestTimes, Tick.isRequestOf, hip, Tick.time]
            rw [decisions, List.filter_cons_of_pos (by simpa using hip), ih htracks hrest, htimes, hok, hip]
            rw [refDecisions, bucketDecisions, Bucket.decisions, List.map_cons]
            cases hcase : requestTimes ip rest with
            | nil => rfl
            | cons t' rest' => rfl
          · have htimes : requestTimes ip (.request t remoteAddr :: rest) = requestTimes ip rest := by
              simp [requestTimes, Tick.isRequestOf, hip]
            rw [decisions, List.filter_cons_of_neg (by simpa using hip), ih (h.other ht hip) hrest, htimes]

/-- The same from the start of the process, when no visitor is known. -/
theorem decisions_start {ticks : List Tick} (h : Timeline ticks) (ip : GoString) :
    (decisions ∅ ticks).filter (fun d => d.ip = ip) = refDecisions ip none (requestTimes ip ticks) := by
  cases ticks with
  | nil => rfl
  | cons tick rest =>
      have hnow : (tick.time :: (tick :: rest).map Tick.time).Pairwise (· ≤ ·) := by
        refine List.pairwise_cons.mpr ⟨fun t ht => ?_, h⟩
        rcases List.mem_cons.mp ht with rfl | ht
        · exact le_rfl
        · exact (List.pairwise_cons.mp h).1 t ht
      have hunknown : Tracks ((∅ : Visitors)[ip]?) none tick.time := by
        rw [Std.ExtTreeMap.getElem?_empty]
        trivial
      exact decisions_of hunknown hnow

/-- Requests that one bucket lets through in a window. -/
theorem refDecisions_window {ip : GoString} {times : List ℚ} (h : times.Pairwise (· ≤ ·)) {u w : ℚ}
    (huw : u ≤ w) :
    ((refDecisions ip none times).countP (fun d => d.forwarded && decide (u ≤ d.time ∧ d.time ≤ w)) : ℚ)
      ≤ burst + (w - u) * limit := by
  have hrate := limit_nonneg
  have hburst := burst_nonneg
  cases times with
  | nil =>
      rw [refDecisions, List.countP_nil, Nat.cast_zero]
      exact add_nonneg hburst (mul_nonneg (sub_nonneg.mpr huw) hrate)
  | cons t rest =>
      rw [refDecisions, bucketDecisions, List.countP_map]
      refine Bucket.decisions_window_le hrate hburst (b := bucketAt none t) hburst huw ?_
      refine List.pairwise_cons.mpr ⟨fun t' ht' => ?_, h⟩
      rcases List.mem_cons.mp ht' with rfl | ht'
      · exact le_rfl
      · exact (List.pairwise_cons.mp h).1 t' ht'

/-- The requests of an address that the limit lets through in a window. -/
theorem decisions_window {ticks : List Tick} (h : Timeline ticks) (ip : GoString) {u T : ℚ} (hT : 0 ≤ T) :
    (((decisions ∅ ticks).countP fun d =>
      decide (d.ip = ip) && (d.forwarded && decide (u ≤ d.time ∧ d.time ≤ u + T)) : ℕ) : ℚ) ≤ 20 + 5 * T := by
  have htimes : (requestTimes ip ticks).Pairwise (· ≤ ·) := h.sublist ((List.filter_sublist (l := ticks)).map Tick.time)
  have hwindow := @refDecisions_window ip _ htimes u (u + T) (by linarith only [hT])
  rw [← decisions_start h ip, List.countP_filter] at hwindow
  have hcount : ((decisions ∅ ticks).countP fun d =>
      decide (d.ip = ip) && (d.forwarded && decide (u ≤ d.time ∧ d.time ≤ u + T)))
      = (decisions ∅ ticks).countP fun d =>
        (d.forwarded && decide (u ≤ d.time ∧ d.time ≤ u + T)) && decide (d.ip = ip) :=
    List.countP_congr fun d _ => by rw [Bool.and_comm]
  have hsize : burst + (u + T - u) * limit = 20 + 5 * T := by
    unfold burst limit
    ring
  rw [hcount, ← hsize]
  exact hwindow

/-- Every decision is on a request. -/
theorem mem_decisions {ticks : List Tick} {visitors : Visitors} {d : Decision}
    (h : d ∈ decisions visitors ticks) :
    ∃ remoteAddr, .request d.time remoteAddr ∈ ticks ∧ clientIP remoteAddr = d.ip := by
  induction ticks generalizing visitors with
  | nil => cases h
  | cons tick rest ih =>
      cases tick with
      | cleanup t =>
          obtain ⟨remoteAddr, hm, hd⟩ := ih h
          exact ⟨remoteAddr, List.mem_cons_of_mem _ hm, hd⟩
      | request t remoteAddr =>
          rcases List.mem_cons.mp h with rfl | hrest
          · exact ⟨remoteAddr, List.mem_cons_self, rfl⟩
          · obtain ⟨remoteAddr', hm, hd⟩ := ih hrest
            exact ⟨remoteAddr', List.mem_cons_of_mem _ hm, hd⟩

/-- **The rate limit.** On every timeline, whenever the cleanup loop passes, the requests of an address that are
    forwarded in a window of `T` seconds number at most `20 + 5 * T`; the decisions on its requests are those on a
    timeline with its requests alone, where nothing is cleaned up; and they are those of one bucket, full at its first
    request and never forgotten. -/
theorem rate_limited {ticks : List Tick} (h : Timeline ticks) (ip : GoString) :
    (∀ u T : ℚ, 0 ≤ T →
      (((decisions ∅ ticks).countP fun d =>
        decide (d.ip = ip) && (d.forwarded && decide (u ≤ d.time ∧ d.time ≤ u + T)) : ℕ) : ℚ)
        ≤ 20 + 5 * T) ∧
    (decisions ∅ ticks).filter (fun d => d.ip = ip)
      = decisions ∅ (ticks.filter (Tick.isRequestOf ip)) ∧
    (∀ t rest, requestTimes ip ticks = t :: rest →
      (decisions ∅ ticks).filter (fun d => d.ip = ip) = bucketDecisions ip (Bucket.full burst t) (t :: rest)) := by
  have hof := decisions_start h ip
  refine ⟨fun u T hT => decisions_window h ip hT, ?_, fun t rest htimes => ?_⟩
  · -- alone, every decision is on a request of the address
    have halone : Timeline (ticks.filter (Tick.isRequestOf ip)) := h.sublist ((List.filter_sublist (l := ticks)).map Tick.time)
    have hall : (decisions ∅ (ticks.filter (Tick.isRequestOf ip))).filter (fun d => d.ip = ip)
        = decisions ∅ (ticks.filter (Tick.isRequestOf ip)) := by
      refine List.filter_eq_self.mpr fun d hd => ?_
      obtain ⟨remoteAddr, hm, hd⟩ := mem_decisions hd
      have hip := (List.mem_filter.mp hm).2
      rw [← hd]
      exact hip
    -- the requests of the address are the same ones
    have hsame : requestTimes ip (ticks.filter (Tick.isRequestOf ip)) = requestTimes ip ticks := by
      rw [requestTimes, List.filter_filter, requestTimes]
      simp
    rw [hof, ← hall, decisions_start halone, hsame]
  · rw [hof, htimes]
    rfl

/-- Two addresses, both forgotten by a pass of the cleanup loop, and a request after it. -/
def forgottenTicks : List Tick :=
  [.request 0 (str "10.0.0.7:443"), .request (1 / 2) (str "[::1]:80"), .cleanup 181,
    .request 182 (str "10.0.0.7:444")]

/-- An address is dropped between two of its requests, and they are decided as they would be without the cleanup and
the other address. -/
theorem rate_limited_forgottenTicks :
    (decisions ∅ forgottenTicks).filter (fun d => d.ip = str "10.0.0.7")
      = decisions ∅ [.request 0 (str "10.0.0.7:443"), .request 182 (str "10.0.0.7:444")] := by
  have h : Timeline forgottenTicks := by
    simp only [Timeline, forgottenTicks, Tick.time, List.map_cons, List.map_nil]
    norm_num
  have halone : forgottenTicks.filter (Tick.isRequestOf (str "10.0.0.7"))
      = [.request 0 (str "10.0.0.7:443"), .request 182 (str "10.0.0.7:444")] := by decide
  rw [(rate_limited h (str "10.0.0.7")).2.1, halone]

end RCloneCloud
