import RCloneCloud.Server.Access

/-!
# `Server.Throttle` — the rate limit as rclone sees it

What reaches the RC handler in a run of the server is, in order, part of what the rate limit has let through on the
timeline of the run (`served_sublist`); so the limit that holds for requests holds for the work they can cause.

The timeline of the server's run is the list of its ticks, a request or a cleanup each; `served` is what got as far as
rclone. Since a refused request never gets there, the order of the two lists is one, and the counting bound of
`Security.RateLimit` carries over. The limiter is taken as an exact token bucket with the clock of the requests.
-/

set_option autoImplicit false

namespace RCloneCloud

open Lib

/-- What the rate limit sees of an action. -/
def ServerAction.tick : ServerAction → Option Tick
  | .request _ _ time r => if r.isForHandlers then some (.request time r.remoteAddr) else none
  | .cleanup time => some (.cleanup time)
  | .call _ _ => none

/-- The decision that let a served request through. -/
def Served.decision (x : Served) : Decision := ⟨x.ip, x.time, true⟩

/-- The decision about the first request of a timeline, and those about the rest. -/
theorem decisions_request (visitors : Visitors) (time : ℚ) (remoteAddr : GoString) (rest : List Tick) :
    decisions visitors (.request time remoteAddr :: rest) =
      ⟨clientIP remoteAddr, time, (handleRequest visitors remoteAddr time).1⟩ ::
        decisions (handleRequest visitors remoteAddr time).2 rest := rfl

/-- **What is served has been let through**, in the order of the run. -/
theorem served_sublist {W : WebApi} {as : List ServerAction} {s s' : WebServer} (hrun : run W.step s as = some s') :
    ∃ more, s'.served = s.served ++ more ∧
      (more.map Served.decision).Sublist (decisions s.visitors (as.filterMap ServerAction.tick)) := by
  induction as generalizing s with
  | nil =>
      cases hrun
      exact ⟨[], (List.append_nil _).symm, List.nil_sublist _⟩
  | cons a rest ih =>
      obtain ⟨m, hm, hrest⟩ := run_cons.mp hrun
      obtain ⟨more, hmore, hsub⟩ := ih hrest
      -- the induction is on the actions; only a request for the handlers has a tick and may be served
      cases a with
      | request env ping time r =>
          cases hm
          have hone := handled W env ping time r s
          have hvisitors := hone.visitors
          by_cases hin : r.isForHandlers = true
          · have htick : (ServerAction.request env ping time r).tick = some (.request time r.remoteAddr) := if_pos hin
            rw [if_pos hin] at hvisitors
            rw [hvisitors] at hsub
            rw [List.filterMap_cons_some htick, decisions_request]
            rcases hone.served with hsame | ⟨hforwarded, -, claims, reply, -, hnew⟩
            · refine ⟨more, by rw [hmore, hsame], hsub.cons _⟩
            · refine ⟨⟨time, clientIP r.remoteAddr, claims, reply⟩ :: more, ?_, ?_⟩
              · rw [hmore, hnew, List.append_assoc, List.singleton_append]
              · -- the request that was served is the one that was just let through
                have hok : (handleRequest s.visitors r.remoteAddr time).1 = true := hforwarded
                rw [List.map_cons, hok]
                exact hsub.cons_cons _
          · have htick : (ServerAction.request env ping time r).tick = none := if_neg hin
            rw [if_neg hin] at hvisitors
            rw [hvisitors] at hsub
            rw [List.filterMap_cons_none htick]
            rcases hone.served with hsame | ⟨-, hin', -⟩
            · exact ⟨more, by rw [hmore, hsame], hsub⟩
            · exact absurd hin' hin
      | cleanup time =>
          cases hm
          exact ⟨more, hmore, hsub⟩
      -- a call of the auth handler has no part in either list
      | call i w =>
          obtain ⟨auth, -, rfl⟩ := Option.map_eq_some_iff.mp hm
          exact ⟨more, hmore, hsub⟩

/-- **The work one client can cause.** In every run of the server whose clock does not go back, whatever the other
    clients do and whenever the cleanup loop passes: of the requests from one address, with whatever tokens, at most
    `20 + 5 * T` reach the RC handler in a window of `T` seconds. -/
theorem served_rate_limited {W : WebApi} {as : List ServerAction} {s : WebServer} (hrun : run W.step WebServer.init as = some s)
    (htimes : Timeline (as.filterMap ServerAction.tick)) (ip : GoString) {u T : ℚ} (hT : 0 ≤ T) :
    ((s.served.countP fun x => decide (x.ip = ip) && decide (u ≤ x.time ∧ x.time ≤ u + T) : ℕ) : ℚ) ≤ 20 + 5 * T := by
  obtain ⟨more, hmore, hsub⟩ := served_sublist hrun
  obtain rfl : more = s.served := hmore.symm
  have hwindow := decisions_window htimes ip (u := u) hT
  refine le_trans ?_ hwindow
  have hle := hsub.countP_le (p := fun d =>
    decide (d.ip = ip) && (d.forwarded && decide (u ≤ d.time ∧ d.time ≤ u + T)))
  rw [List.countP_map] at hle
  exact Nat.cast_le.mpr hle

/-- The login and the call after it. -/
def noopActions : List ServerAction := loginActions ++ [.request sampleRc none 899 noopPost]

/-- Two calls that reach rclone within a second: the bound for one second holds of them. -/
theorem served_rate_limited_noop : ∃ s, run sampleApi.step WebServer.init noopActions = some s ∧
    ((s.served.countP fun x => decide (x.ip = str "10.0.0.7") && decide (898 ≤ x.time ∧ x.time ≤ 898 + 1) : ℕ) : ℚ)
      ≤ 20 + 5 * 1 := by
  obtain ⟨s, hlogin, -, -⟩ := loginActions_run
  have hrun : run sampleApi.step WebServer.init noopActions = some (sampleApi.handle sampleRc none 899 noopPost s).2 :=
    run_append.mpr ⟨s, hlogin, rfl⟩
  have hticks : noopActions.filterMap ServerAction.tick
      = [.request 0 (str "10.0.0.7:443"), .request 899 (str "10.0.0.7:443")] := by decide
  have htimes : Timeline (noopActions.filterMap ServerAction.tick) := by
    rw [hticks]
    simp only [Timeline, List.map_cons, List.map_nil, Tick.time]
    norm_num
  exact ⟨_, hrun, @served_rate_limited _ _ _ hrun htimes (str "10.0.0.7") 898 1 zero_le_one⟩

end RCloneCloud
