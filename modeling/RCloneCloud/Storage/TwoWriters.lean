import RCloneCloud.Lib.Run
import RCloneCloud.Mongo.Scan
import RCloneCloud.Storage.SaveCalls

/-!
# `Storage.TwoWriters` — two processes on one collection

Each process has its cache, its place in the change stream and its running `Save`s. A `Save` holds the read
lock from its start to its return: several may run at once, but no local call and no event of the same
process falls inside one. Its driver calls are taken one at a time, between those of the other process, and
its listing is a cursor that passes the documents one at a time too. No driver call fails.

This module is the step relation and what one driver call of a `Save` can do (`write_cases`); what holds of
whole runs is in `Storage.LostUpdate`.
-/

set_option autoImplicit false

namespace RCloneCloud

open Lib

/-! ## A running `Save` -/

/-- What a running `Save` still does, and the cursor of its listing while it is open. -/
structure SaveRun where
  prog : SaveProg
  scan : Option Scan

/-- The next thing that happens to a running `Save`. -/
inductive SaveStep where
  | openCursor
  | pass (id : GoString)
  | endCursor (order : Shuffle Doc)
  | write

namespace SaveRun

/-- One step of a running `Save` on a server where every driver call is answered without failure. -/
def step (srv : Server) (r : SaveRun) (st : SaveStep) : Option (SaveRun × Server) :=
  match st, r.prog, r.scan with
  | .openCursor, .call .find _, none => some ({ r with scan := some .opened }, srv)
  | .pass id, .call .find _, some sc => (sc.pass srv.coll id).map fun sc => ({ r with scan := some sc }, srv)
  | .endCursor order, .call .find k, some sc =>
    (sc.finish srv.coll order).map fun cursor => (⟨k (.ok cursor : Except GoError (Cursor Doc)), none⟩, srv)
  | .write, .call (.replaceOne id doc) k, _ =>
    some (⟨k (srv.replaceOne .ok id doc).1, none⟩, (srv.replaceOne .ok id doc).2)
  | .write, .call (.deleteOne id) k, _ =>
    some (⟨k (srv.deleteOne .ok id).1, none⟩, (srv.deleteOne .ok id).2)
  | _, _, _ => none

/-- The document the next driver call writes. -/
def target (r : SaveRun) : Option GoString :=
  match r.prog with
  | .call (.replaceOne id _) _ => some id
  | .call (.deleteOne id) _ => some id
  | _ => none

end SaveRun

/-! ## The two processes -/

/-- The two processes, called `a` and `b`. -/
inductive Who where
  | a | b
deriving DecidableEq, Repr

/-- The other process. -/
def Who.other : Who → Who
  | .a => .b
  | .b => .a

@[simp] theorem Who.other_other (w : Who) : w.other.other = w := by
  cases w <;> rfl

/-- A process is this one or the other one. -/
theorem Who.eq_or_other (v w : Who) : v = w ∨ v = w.other := by
  cases v <;> cases w <;> decide

/-- One process: its cache, how many of the committed events it has received, its running `Save`s, and
    whether one has returned nil since its last local call. -/
structure Party where
  store : MongoStorage
  seen : Nat
  saves : List SaveRun
  saved : Bool

/-- The server, whose events are all those committed so far, and the two processes. -/
structure Pair where
  srv : Server
  party : Who → Party

namespace Pair

/-- The pair with one process replaced. -/
def setParty (p : Pair) (w : Who) (q : Party) : Pair := { p with party := Function.update p.party w q }

/-- The committed events a process has not received yet. -/
def pending (p : Pair) (w : Who) : List Event := p.srv.events.drop (p.party w).seen

end Pair

/-- A local call, the start, one step or the return of a `Save`, or the delivery of the next event. -/
inductive PairAct where
  | call (w : Who) (e : LocalCall)
  | startSave (w : Who) (ch : SaveChoice)
  | drive (w : Who) (i : Nat) (st : SaveStep)
  | returnSave (w : Who) (i : Nat)
  | deliver (w : Who) (sh : Shuffle (GoString × Bson))

/-- One action. The write lock of a local call or a delivery waits for the running `Save`s. -/
def pairStep (G : Gcm) (p : Pair) : PairAct → Option Pair
  | .call w e =>
    let q := p.party w
    -- the write lock is free only while no `Save` runs
    if q.saves.isEmpty then some (p.setParty w { q with store := e.apply q.store, saved := false })
    else none
  | .startSave w ch =>
    let q := p.party w
    -- read locks are shared: another `Save` may be running
    some (p.setParty w { q with saves := q.saves ++ [⟨save G q.store ch, none⟩] })
  | .drive w i st =>
    let q := p.party w
    match q.saves[i]? with
    | none => none
    | some r =>
      (r.step p.srv st).map fun (r', srv) =>
        { p.setParty w { q with saves := q.saves.set i r' } with srv := srv }
  | .returnSave w i =>
    let q := p.party w
    match q.saves[i]? with
    | some ⟨.pure r, _⟩ =>
      -- an error of the Save itself leaves `saved` as it was
      some (p.setParty w { q with saves := q.saves.eraseIdx i, saved := q.saved || r.isOk })
    | _ => none
  | .deliver w sh =>
    let q := p.party w
    if q.saves.isEmpty then
      match p.srv.events[q.seen]? with
      | none => none
      | some ev =>
        some (p.setParty w { q with store := processEvent G sh (.ok ev) q.store, seen := q.seen + 1 })
    else none

/-- What an action makes of the two caches if only the local calls count. -/
def localStep (s : Who → MongoStorage) : PairAct → Who → MongoStorage
  | .call w e => Function.update s w (e.apply (s w))
  | _ => s

/-- What the local calls among the actions, in order, make of the two caches. -/
def localStates (s : Who → MongoStorage) (as : List PairAct) : Who → MongoStorage := as.foldl localStep s

/-! ## What one driver call can do -/

section
variable {G : Gcm} {s : MongoStorage}

/-- The effect on the server of writing the document `id` as the cache `s` has it. -/
structure WroteAs (G : Gcm) (s : MongoStorage) (id : GoString) (srv srv' : Server) : Prop where
  here : (decrypted G s.key srv'.coll)[id]? = s.data[id]?
  other : ∀ sec, id ≠ sec → (decrypted G s.key srv'.coll)[sec]? = (decrypted G s.key srv.coll)[sec]?
  events : ∃ evs, srv'.events = srv.events ++ evs ∧ ∀ ev ∈ evs, ev.documentKeyID = id ∧ Agrees G s ev

/-- Replacing a document writes its section as this process has it. -/
theorem commitPut_wroteAs {srv : Server} {id : GoString} {doc : Doc}
    (h : s.data[id]? = some (readable G s.key (stored id doc))) :
    WroteAs G s id srv (srv.commitPut id doc) where
  here := by
    rw [decrypted_getElem?, Server.commitPut_get?, if_pos rfl, h]
    rfl
  other := by
    intro sec hne
    rw [decrypted_getElem?, decrypted_getElem?, Server.commitPut_get?, if_neg hne]
  events := by
    refine ⟨[srv.coll.putEvent id doc], rfl, fun ev hev => ?_⟩
    rw [List.mem_singleton.mp hev]
    exact ⟨rfl, agrees_putEvent h⟩

/-- Deleting a document writes that this process has no such section. -/
theorem commitRemove_wroteAs {srv : Server} {id : GoString} (h : s.data[id]? = none) :
    WroteAs G s id srv (srv.commitRemove id) where
  here := by
    rw [decrypted_getElem?, Server.commitRemove_get?, if_pos rfl, h]
    rfl
  other := by
    intro sec hne
    rw [decrypted_getElem?, decrypted_getElem?, Server.commitRemove_get?, if_neg hne]
  events := by
    unfold Server.commitRemove
    split
    · exact ⟨[], (List.append_nil _).symm, fun ev hev => absurd hev List.not_mem_nil⟩
    · refine ⟨[⟨.delete, id, none⟩], rfl, fun ev hev => ?_⟩
      rw [List.mem_singleton.mp hev]
      exact ⟨rfl, h⟩

/-- **One driver call of a `Save`** is refused and leaves everything as it was, or writes its document as
    the cache has it, which is then no longer owed. -/
theorem write_cases {srv srv' : Server} {r r' : SaveRun} (hmakes : r.prog.Makes (SaveCall G s))
    (h : r.step srv .write = some (r', srv')) :
    r'.prog.Makes (SaveCall G s) ∧
    ((srv' = srv ∧ ∀ W, Writes r.prog W → Writes r'.prog W) ∨
      ∃ id, r.target = some id ∧ WroteAs G s id srv srv' ∧
        ∀ W, Writes r.prog W → Writes r'.prog (W \ {id})) := by
  obtain ⟨prog, scan⟩ := r
  cases prog with
  | pure a => cases h
  | call op k =>
      cases op with
      | find => cases h
      | replaceOne id doc =>
          cases h
          refine ⟨hmakes.2 _, ?_⟩
          obtain ⟨⟨kv, hid, hread⟩, -⟩ := hmakes
          cases hans : (srv.replaceOne .ok id doc).1 with
          | ok u =>
              -- accepted: the stored document decrypts to the section
              obtain ⟨hkeep, hsrv⟩ := Server.replaceOne_ok hans
              have hdata : s.data[id]? = some (readable G s.key (stored id doc)) := by
                rw [hread hkeep, hid]
              refine .inr ⟨id, rfl, ?_, fun W hW => hW (.ok u : Except GoError Unit)⟩
              rw [hsrv]
              exact commitPut_wroteAs hdata
          | error err =>
              -- refused for its `_id`: nothing is written, and nothing is paid
              have hsrv : (srv.replaceOne .ok id doc).2 = srv := by
                unfold Server.replaceOne at hans ⊢
                split at hans
                · cases hans
                · next hk => rw [if_neg hk]
              refine .inl ⟨hsrv, fun W hW => ?_⟩
              have hrest := hW (.error err : Except GoError Unit)
              exact hrest.mono fun x hx => ⟨hx, Set.notMem_empty x⟩
      | deleteOne id =>
          cases h
          refine ⟨hmakes.2 _, .inr ⟨id, rfl, commitRemove_wroteAs hmakes.1, fun W hW => hW _⟩⟩

/-- The other steps of a `Save` leave the server alone. -/
theorem step_server {srv srv' : Server} {r r' : SaveRun} {st : SaveStep} (hst : st ≠ .write)
    (h : r.step srv st = some (r', srv')) : srv' = srv := by
  unfold SaveRun.step at h
  split at h
  · cases h; rfl
  · obtain ⟨sc, -, he⟩ := Option.map_eq_some_iff.mp h
    cases he; rfl
  · obtain ⟨cursor, -, he⟩ := Option.map_eq_some_iff.mp h
    cases he; rfl
  -- the two writes are excluded
  · exact absurd rfl hst
  · exact absurd rfl hst
  · cases h

end

end RCloneCloud
