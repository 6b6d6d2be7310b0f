import RCloneCloud.Lib.Run
import RCloneCloud.Storage.SaveCalls

/-!
# `Storage.Echo` — a process next to the echo of its own saves

One process, the only writer of the collection it watches. `Save` runs under the read lock, so no local
call and no event falls inside it; the events its writes emit come back at any later time, in order, and
carry the sections as they were saved. An echo that arrives after a later call on its section undoes it
(`echo_undoes_edit`); where no call changes a section whose echo is still on its way, the cache is at every
moment what the local calls alone make of it (`echo_harmless`).
-/

set_option autoImplicit false

namespace RCloneCloud

open Lib

/-- A local call, a `Save` with everything that may go wrong in it, or the delivery of the next event. -/
inductive EchoAct where
  | call (e : LocalCall)
  | save (ch : SaveChoice) (f : SaveFaults)
  | deliver (sh : Shuffle (GoString × Bson))

/-- The events of the server are those the process has not received yet. -/
def echoStep (G : Gcm) (p : Process) : EchoAct → Option Process
  | .call e => some { p with store := e.apply p.store }
  | .save ch f => some (p.save G ch f).2
  | .deliver sh =>
    match p.srv.events with
    | [] => none
    | ev :: rest => some ⟨processEvent G sh (.ok ev) p.store, { p.srv with events := rest }⟩

/-- What the local calls among the actions, in order, make of a storage. -/
def localOnly (s : MongoStorage) (as : List EchoAct) : MongoStorage :=
  as.foldl (fun s a =>
    match a with
    | .call e => e.apply s
    | _ => s) s

/-- A local call is made on a section only when none of its events is on its way, unless the call changes
    nothing. -/
def EchoQuiet (p : Process) : EchoAct → Prop
  | .call e => e.apply p.store = p.store ∨ ∀ ev ∈ p.srv.events, ev.documentKeyID ≠ e.sec
  | _ => True

section
variable {G : Gcm} {p p' : Process}

/-- Every event on its way tells the cache what it already holds. -/
def EchoInv (G : Gcm) (p : Process) : Prop := ∀ ev ∈ p.srv.events, Agrees G p.store ev

/-- **One step**: the invariant is kept, and only a local call changes the cache. -/
theorem echo_step {a : EchoAct} (h : EchoInv G p) (ha : EchoQuiet p a) (hs : echoStep G p a = some p') :
    EchoInv G p' ∧ p'.store = localOnly p.store [a] := by
  cases a with
  | call e =>
      cases hs
      refine ⟨fun ev hev => ?_, rfl⟩
      rcases ha with hsame | hquiet
      · dsimp only
        rw [hsame]
        exact h ev hev
      · exact (h ev hev).congr (e.apply_key _) (e.apply_other _ (Ne.symm (hquiet ev hev)))
  | save ch f =>
      cases hs
      have hsaved : ∀ ev ∈ (runSave G p.store ch f p.srv).2.events, Agrees G p.store ev :=
        Prog.exec_invariant (serve f) (I := fun srv => ∀ ev ∈ srv.events, Agrees G p.store ev)
          (fun _ _ hop hI => serve_agrees hop hI) (save_makes G p.store ch) h
      exact ⟨hsaved, rfl⟩
  | deliver sh =>
      simp only [echoStep] at hs
      split at hs
      · cases hs
      · next ev rest hq =>
          cases hs
          have hagree : processEvent G sh (.ok ev) p.store = p.store :=
            processEvent_agrees sh (h ev (hq ▸ List.mem_cons_self))
          rw [hagree]
          exact ⟨fun ev' hev' => h ev' (hq ▸ List.mem_cons_of_mem _ hev'), rfl⟩

/-- **The echo is harmless** along every run in which no call changes a section whose event is still on
    its way: the accessors answer as if the local calls alone had been made. -/
theorem echo_harmless {as : List EchoAct} (hstart : p.srv.events = [])
    (hquiet : Along (echoStep G) EchoQuiet p as) (hrun : run (echoStep G) p as = some p') :
    (∀ sec key, p'.store.getValue sec key = (localOnly p.store as).getValue sec key) ∧
    (∀ sec, p'.store.hasSection sec = (localOnly p.store as).hasSection sec) ∧
    (∀ sh sec, p'.store.getKeyList sh sec = (localOnly p.store as).getKeyList sh sec) := by
  have hinit : EchoInv G p ∧ p.store = p.store := by
    refine ⟨fun ev hev => ?_, rfl⟩
    rw [hstart] at hev
    cases hev
  -- along the run the cache is what the local calls so far have made of the first one
  have hend : EchoInv G p' ∧ p'.store = localOnly p.store as := by
    refine run_history (I := fun q s => EchoInv G q ∧ q.store = s) _ ?_ hinit hquiet hrun
    rintro q a q' s ⟨hinv, rfl⟩ ha hs
    exact echo_step hinv ha hs
  simp only [hend.2, implies_true, and_self]

end

/-! ### A call made before the echo of an earlier one has come back -/

/-- A process with an empty cache on an empty collection. -/
def echoProcess : Process := ⟨⟨sampleKey, ∅⟩, ⟨Collection.empty, []⟩⟩

/-- Setting the region of the sample's one section. -/
def setRegion (v : String) : EchoAct := .call (.setValue (str "s3") (str "region") (str v))

/-- A `Save` in which nothing fails. -/
def plainSave : EchoAct := .save (.inOrder sampleNonce) (.none (Shuffle.id _))

/-- The delivered event puts the value back that the second call has replaced. -/
theorem echo_undoes_edit :
    ¬ ∀ (G : Gcm) (p p' : Process) (as : List EchoAct), p.srv.events = [] →
      run (echoStep G) p as = some p' →
      (∀ sec key, p'.store.getValue sec key = (localOnly p.store as).getValue sec key) ∧
      (∀ sec, p'.store.hasSection sec = (localOnly p.store as).hasSection sec) ∧
      (∀ sh sec, p'.store.getKeyList sh sec = (localOnly p.store as).getKeyList sh sec) := by
  intro hclaim
  have hget := (hclaim tagGcm echoProcess _
    [setRegion "us", plainSave, setRegion "eu", .deliver (Shuffle.id _)] rfl rfl).1 (str "s3") (str "region")
  revert hget
  decide

/-- The same calls, the second one made after the echo of the first has come back. -/
def quietRun : List EchoAct := [setRegion "us", plainSave, .deliver (Shuffle.id _), setRegion "eu"]

/-- A save whose echo comes back before the next call on its section: the cache is what the calls alone make it. -/
theorem echo_harmless_delivered :
    ∃ p', run (echoStep tagGcm) echoProcess quietRun = some p' ∧
      p'.store.getValue (str "s3") (str "region")
        = (localOnly echoProcess.store quietRun).getValue (str "s3") (str "region") := by
  have hquiet : Along (echoStep tagGcm) EchoQuiet echoProcess quietRun := by
    refine along_cons (.inr ?_) rfl (along_cons trivial rfl (along_cons trivial rfl
      (along_cons (.inr ?_) rfl trivial)))
    · exact fun ev hev => absurd hev List.not_mem_nil
    · exact fun ev hev => absurd hev List.not_mem_nil
  exact ⟨_, rfl, (echo_harmless rfl hquiet rfl).1 _ _⟩

end RCloneCloud
