import RCloneCloud.Lib.Feed
import RCloneCloud.Storage.SaveSpec

/-!
# `Storage.Watch` — a watched cache next to other writers

The system: a storage with its change stream open, and other processes writing single documents. A write
queues its event; an `update` event carries no document, the server looks one up at some later moment;
`processChangeStream` applies the events in order. On the sections with a non-empty name this is a
`Lib.Feed` whose source is the readable part of the collection (`watch_step_refines`), so the cache converges.

Sections with an empty name stand outside: the watcher ignores an event without a key. `named` cuts both maps down to
the others. The refinement goes step by step: an upsert and a removal are writes of the feed, a lookup is its
resolving, and a delivery is its delivery (`feed_put`, `noteOf_lookup`, `feed_deliver`).
-/

set_option autoImplicit false

namespace RCloneCloud

open Lib

/-- An event on its way: complete, or an `update` whose document is still to be looked up. -/
inductive Pending where
  | ready (e : Event)
  | update (id : GoString)

/-- A storage that is watching a collection. -/
structure Watched where
  coll : Collection
  store : MongoStorage
  pending : List Pending

/-- A write by another process, the lookup for the `n`-th pending event, or the delivery of the first one,
    the fields of its document being visited in the order `sh`. -/
inductive WatchAct where
  | insert (id : GoString) (doc : Doc)
  | replace (id : GoString) (doc : Doc)
  | update (id : GoString) (doc : Doc)
  | delete (id : GoString)
  | lookup (n : Nat)
  | deliver (sh : Shuffle (GoString × Bson))

/-- The server's lookup of the current document. -/
def Pending.lookup (c : Collection) : Pending → Pending
  | .update id => .ready ⟨.update, id, c.get? id⟩
  | p => p

namespace Watched

/-- A step of the system; the stream delivers in the order of the writes, and a lookup reads the collection as it is
at that moment. -/
def step (G : Gcm) (w : Watched) : WatchAct → Option Watched
  | .insert id doc =>
    if (w.coll.get? id).isNone then
      some { w with
        coll := w.coll.put id doc
        pending := w.pending ++ [.ready (w.coll.putEvent id doc)] }
    else none
  | .replace id doc =>
    if (w.coll.get? id).isSome then
      some { w with
        coll := w.coll.put id doc
        pending := w.pending ++ [.ready (w.coll.putEvent id doc)] }
    else none
  | .update id doc =>
    if (w.coll.get? id).isSome then
      some { w with coll := w.coll.put id doc, pending := w.pending ++ [.update id] }
    else none
  | .delete id =>
    if (w.coll.get? id).isSome then
      some { w with
        coll := w.coll.remove id
        pending := w.pending ++ [.ready ⟨.delete, id, none⟩] }
    else none
  | .lookup n => some { w with pending := w.pending.modify n (Pending.lookup w.coll) }
  | .deliver sh =>
    match w.pending with
    | .ready e :: rest => some { w with store := processEvent G sh (.ok e) w.store, pending := rest }
    | _ => none

end Watched

/-! ## The abstract feed -/

section
variable (G : Gcm) (key : Key)

/-- A configuration on the sections with a non-empty name: events on an empty id are dropped. -/
def named (m : GoString → Option Section) (id : GoString) : Option Section :=
  if id = [] then none else m id

/-- The note an event amounts to. -/
def noteOf : Pending → Note GoString Section
  | .ready e =>
    if e.documentKeyID = [] then .skip
    else
      match e.operationType with
      | .insert | .update | .replace =>
        match e.fullDocument with
        | some d => .put e.documentKeyID (readable G key d)
        | none => .skip
      | .delete => .del e.documentKeyID
      | .other => .skip
  | .update id => if id = [] then .skip else .look id

/-- The feed a watched storage amounts to. -/
def feedOf (w : Watched) : Feed GoString Section where
  source := named fun id => (w.coll.get? id).map (readable G key)
  replica := named fun id => w.store.data[id]?
  queue := w.pending.map (noteOf G key)

/-- The abstract action an action amounts to. -/
def feedAct : WatchAct → FeedAct GoString Section
  | .insert id doc | .replace id doc =>
    if id = [] then .silent else .put id (readable G key (stored id doc))
  | .update id doc => if id = [] then .silent else .update id (readable G key (stored id doc))
  | .delete id => if id = [] then .silent else .del id
  | .lookup n => .lookup n
  | .deliver _ => .deliver

end

section
variable {G : Gcm} {key : Key}

/-- A change under one id, which is not empty unless the change is a removal. -/
theorem named_update {m m' : GoString → Option Section} {id : GoString} {v : Option Section}
    (h : ∀ id', m' id' = if id = id' then v else m id') (hid : id = [] → v = none) :
    named m' = Function.update (named m) id v := by
  funext id'
  by_cases he : id = id'
  · subst he
    rw [Function.update_self, named, h, if_pos rfl]
    split
    · next hnil => exact (hid hnil).symm
    · rfl
  · rw [Function.update_of_ne (Ne.symm he), named, named, h, if_neg he]

/-- An upsert writes one entry of the source. -/
theorem named_put {c : Collection} {id : GoString} {doc : Doc} (h : id ≠ []) :
    named (fun id' => ((c.put id doc).get? id').map (readable G key))
      = Function.update (named fun id' => (c.get? id').map (readable G key)) id
          (some (readable G key (stored id doc))) := by
  refine named_update (fun id' => ?_) fun he => absurd he h
  rw [Collection.get?_put]
  split <;> rfl

/-- A removal empties one entry of the source. -/
theorem named_remove {c : Collection} {id : GoString} :
    named (fun id' => ((c.remove id).get? id').map (readable G key))
      = Function.update (named fun id' => (c.get? id').map (readable G key)) id none := by
  refine named_update (fun id' => ?_) fun _ => rfl
  rw [Collection.get?_remove]
  split <;> rfl

/-- What happens to the document with the empty id is not seen. -/
theorem named_congr {m m' : GoString → Option Section} (h : ∀ id, id ≠ [] → m id = m' id) :
    named m = named m' := by
  funext id
  by_cases he : id = []
  · simp [named, he]
  · simp [named, he, h id he]

/-- The event of an upsert carries what a reader would make of the document. -/
theorem noteOf_putEvent {c : Collection} {id : GoString} {doc : Doc} (h : id ≠ []) :
    noteOf G key (.ready (c.putEvent id doc)) = .put id (readable G key (stored id doc)) := by
  refine (if_neg (show ¬ (c.putEvent id doc).documentKeyID = [] from h)).trans ?_
  simp only [Collection.putEvent]
  cases (c.get? id).isSome <;> rfl

/-- Looking a document up is looking its readable part up. -/
theorem noteOf_lookup (c : Collection) (p : Pending) :
    noteOf G key (p.lookup c)
      = (noteOf G key p).resolve (named fun id => (c.get? id).map (readable G key)) := by
  cases p with
  | ready e =>
      simp only [Pending.lookup, noteOf]
      split
      · rfl
      · split
        · split <;> rfl
        · split <;> rfl
        · split <;> rfl
        · rfl
        · rfl
  | update id =>
      by_cases h : id = []
      · simp [Pending.lookup, noteOf, h, Note.resolve]
      · cases hget : c.get? id <;> simp [Pending.lookup, noteOf, h, Note.resolve, named, hget]

/-- Looking an event up in the collection is resolving its note against the source. -/
theorem map_lookup (c : Collection) (pending : List Pending) (n : Nat) :
    (pending.modify n (Pending.lookup c)).map (noteOf G key)
      = (pending.map (noteOf G key)).modify n
          (Note.resolve (named fun id => (c.get? id).map (readable G key))) := by
  induction pending generalizing n with
  | nil => simp
  | cons p rest ih =>
      cases n with
      | zero => simp [noteOf_lookup]
      | succ n => simp [ih]

/-- A committed write of `doc` under `id`, its event being `p`, as a step of the feed. -/
theorem feed_put {w : Watched} {id : GoString} {doc : Doc} {p : Pending} {a : FeedAct GoString Section}
    {note : Note GoString Section}
    (ha : ∀ s : Feed GoString Section, s.step a = some { s with
      source := Function.update s.source id (some (readable G key (stored id doc)))
      queue := s.queue ++ [note] })
    (hp : id ≠ [] → noteOf G key p = note) (hp' : id = [] → noteOf G key p = .skip) :
    (feedOf G key w).step (if id = [] then .silent else a)
      = some (feedOf G key { w with coll := w.coll.put id doc, pending := w.pending ++ [p] }) := by
  by_cases h : id = []
  · rw [if_pos h]
    simp only [Feed.step, feedOf, List.map_append, List.map_cons, List.map_nil, hp' h]
    congr 2
    refine named_congr fun id' he => ?_
    simp [h, Ne.symm he]
  · rw [if_neg h, ha]
    simp only [feedOf, List.map_append, List.map_cons, List.map_nil, hp h, named_put h]

/-- Applying a full document writes one entry of the replica. -/
theorem named_insert (data : Config) {id : GoString} (h : id ≠ []) (sec : Section) :
    named (fun id' => (data.insert id sec)[id']?)
      = Function.update (named fun id' => data[id']?) id (some sec) :=
  named_update (fun _ => GoMap.getElem?_insert ..) fun he => absurd he h

/-- Applying a deletion empties one entry of the replica. -/
theorem named_erase (data : Config) (id : GoString) :
    named (fun id' => (data.erase id)[id']?)
      = Function.update (named fun id' => data[id']?) id none :=
  named_update (fun _ => GoMap.getElem?_erase ..) fun _ => rfl

/-- The delivery of an event, as a step of the feed. -/
theorem feed_deliver {w : Watched} {e : Event} {rest : List Pending} (sh : Shuffle (GoString × Bson))
    (hkey : w.store.key = key) (hq : w.pending = .ready e :: rest) :
    (feedOf G key w).step .deliver
      = some (feedOf G key { w with store := processEvent G sh (.ok e) w.store, pending := rest }) := by
  obtain ⟨op, id, doc⟩ := e
  subst hkey
  simp only [feedOf, hq, List.map_cons]
  by_cases hid : id = []
  · -- nothing but a `delete` touches the cache, and that only under the empty name
    have hsame : named (fun id' => (processEvent G sh (.ok ⟨op, id, doc⟩) w.store).data[id']?)
        = named fun id' => w.store.data[id']? := by
      subst hid
      cases op with
      | delete => refine named_congr fun id' he => by simp [processEvent, GoMap.getElem?_erase, Ne.symm he]
      | other => rfl
      | _ => cases doc <;> rfl
    simp only [noteOf, hid, if_true, Feed.step]
    rw [← hid, hsame]
  · have hput : ∀ d, applyFullDocument G sh id (some d) w.store
        = { w.store with data := w.store.data.insert id (readable G w.store.key d) } :=
      fun d => applyFullDocument_some hid
    cases op with
    | delete => simp only [noteOf, if_neg hid, Feed.step, processEvent, named_erase]
    | other => simp only [noteOf, if_neg hid, Feed.step, processEvent]
    | _ =>
        cases doc with
        | none => simp only [noteOf, if_neg hid, Feed.step, processEvent, applyFullDocument]
        | some d => simp only [noteOf, if_neg hid, Feed.step, processEvent, hput, named_insert _ hid]

/-- **Every step of the watched storage is a step of the feed.** -/
theorem watch_step_refines {w w' : Watched} {a : WatchAct} (hkey : w.store.key = key)
    (h : w.step G a = some w') :
    w'.store.key = key ∧ (feedOf G key w).step (feedAct G key a) = some (feedOf G key w') := by
  cases a with
  | insert id doc =>
      simp only [Watched.step] at h
      split at h <;> cases h
      refine ⟨hkey, feed_put (fun _ => rfl) noteOf_putEvent fun he => ?_⟩
      simp [noteOf, Collection.putEvent, he]
  | replace id doc =>
      simp only [Watched.step] at h
      split at h <;> cases h
      refine ⟨hkey, feed_put (fun _ => rfl) noteOf_putEvent fun he => ?_⟩
      simp [noteOf, Collection.putEvent, he]
  -- an update event carries no document, so its note has yet to be looked up
  | update id doc =>
      simp only [Watched.step] at h
      split at h <;> cases h
      exact ⟨hkey, feed_put (fun _ => rfl) (fun he => if_neg he) fun he => if_pos he⟩
  | delete id =>
      simp only [Watched.step] at h
      split at h <;> cases h
      refine ⟨hkey, ?_⟩
      by_cases he : id = []
      -- the unnamed section is outside the feed
      · simp only [feedAct, if_pos he, Feed.step, feedOf, List.map_append, List.map_cons, List.map_nil,
          noteOf]
        congr 2
        refine named_congr fun id' he' => ?_
        simp [he, Ne.symm he']
      · simp only [feedAct, if_neg he, Feed.step, feedOf, List.map_append, List.map_cons, List.map_nil,
          noteOf, named_remove]
  | lookup n =>
      simp only [Watched.step] at h
      cases h
      refine ⟨hkey, ?_⟩
      simp only [feedAct, Feed.step, feedOf, map_lookup]
  | deliver sh =>
      simp only [Watched.step] at h
      split at h
      · next e rest hq =>
          cases h
          exact ⟨(processEvent_key sh _ _).trans hkey, feed_deliver sh hkey hq⟩
      · cases h

end

end RCloneCloud
