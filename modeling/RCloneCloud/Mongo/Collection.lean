import RCloneCloud.Go.Basic

/-!
# `Mongo.Collection` — the collection and the driver calls made on it

A document is a `bson.M`, its `_id` included. A collection keeps the documents whose `_id` is a string
under that string, and the others apart: no call of the program can address those, but a listing
returns them. Every driver call takes an argument that says how it ends (`Outcome`, `FindOutcome`), so
that a failure pattern is an input like any other.

The server has the collection and the list of its change events, which only grows: every write that is applied adds
the event it causes, with the whole document where the stream is asked for it. A call that fails may have been applied
all the same, as one that times out, so `Outcome.fail` says whether it was.
-/

set_option autoImplicit false

namespace RCloneCloud

/-- A BSON value. Only strings and binary data are told apart by the program; a value of any other type
    is kept as its type tag and its raw bytes. -/
inductive Bson where
  | str (s : GoString)
  | binary (subtype : UInt8) (data : Bytes)
  | other (type : UInt8) (raw : Bytes)
deriving DecidableEq, Repr

/-- The bytes of a binary value: a `[]byte`, or the `Data` of a `bson.Binary`. -/
def Bson.bytes? : Bson → Option Bytes
  | .binary _ data => some data
  | _ => none

/-- A decoded document (`bson.M`). -/
abbrev Doc := GoMap Bson

/-- The field name `_id`. -/
def idKey : GoString := str "_id"

/-- The string `_id` of a document, if it has one. -/
def Doc.id? (d : Doc) : Option GoString :=
  match d[idKey]? with
  | some (.str id) => some id
  | _ => none

/-- The document that a write of the fields `doc` under `id` stores. -/
def stored (id : GoString) (doc : Doc) : Doc := doc.insert idKey (.str id)

/-- The documents of a collection: those with a string `_id` under it, the others in a list. -/
structure Collection where
  docs : GoMap Doc
  foreign : List Doc
  docs_id : ∀ (id : GoString) (d : Doc), docs[id]? = some d → d[idKey]? = some (Bson.str id)
  foreign_id : ∀ d ∈ foreign, d.id? = none

namespace Collection

/-- No document. -/
def empty : Collection := ⟨∅, [], by simp, by simp⟩

/-- The document stored under a string id. -/
def get? (c : Collection) (id : GoString) : Option Doc := c.docs[id]?

/-- Every document of the collection. -/
def all (c : Collection) : List Doc := c.docs.toList.map Prod.snd ++ c.foreign

/-- Stores the fields of `doc` under `id`, whatever was there. -/
def put (c : Collection) (id : GoString) (doc : Doc) : Collection where
  docs := c.docs.insert id (stored id doc)
  foreign := c.foreign
  docs_id := by
    intro id' d h
    rw [GoMap.getElem?_insert] at h
    split at h
    · next he => cases h; rw [stored, GoMap.getElem?_insert, if_pos rfl, he]
    · exact c.docs_id id' d h
  foreign_id := c.foreign_id

/-- Removes the document stored under `id`, if there is one. -/
def remove (c : Collection) (id : GoString) : Collection where
  docs := c.docs.erase id
  foreign := c.foreign
  docs_id := by
    intro id' d h
    rw [GoMap.getElem?_erase] at h
    split at h
    · cases h
    · exact c.docs_id id' d h
  foreign_id := c.foreign_id

/-- Putting concerns one id, and what is stored carries it. -/
@[simp] theorem get?_put (c : Collection) (id id' : GoString) (doc : Doc) :
    (c.put id doc).get? id' = if id = id' then some (stored id doc) else c.get? id' :=
  GoMap.getElem?_insert _ _ _ _

/-- Removing concerns one id. -/
@[simp] theorem get?_remove (c : Collection) (id id' : GoString) :
    (c.remove id).get? id' = if id = id' then none else c.get? id' := GoMap.getElem?_erase _ _ _

/-- A stored document carries its id. -/
theorem get?_id {c : Collection} {id : GoString} {d : Doc} (h : c.get? id = some d) :
    d[idKey]? = some (.str id) := c.docs_id id d h

/-- A document that is found by an id has this id. -/
theorem id?_of_get? {c : Collection} {id : GoString} {d : Doc} (h : c.get? id = some d) :
    d.id? = some id := by
  simp [Doc.id?, get?_id h]

/-- The documents with a string id are exactly the stored ones. -/
theorem mem_all_id {c : Collection} {id : GoString} {d : Doc} :
    d ∈ c.all ∧ d.id? = some id ↔ c.get? id = some d := by
  constructor
  · rintro ⟨hm, hid⟩
    rcases List.mem_append.mp hm with hm | hm
    · obtain ⟨⟨id', d'⟩, he, rfl⟩ := List.mem_map.mp hm
      have hget : c.get? id' = some d' := Std.ExtTreeMap.mem_toList_iff_getElem?_eq_some.mp he
      rw [show d'.id? = some id' from id?_of_get? hget] at hid
      cases hid
      exact hget
    · rw [c.foreign_id d hm] at hid
      cases hid
  · intro h
    have he : (id, d) ∈ c.docs.toList := Std.ExtTreeMap.mem_toList_iff_getElem?_eq_some.mpr h
    exact ⟨List.mem_append_left _ (List.mem_map.mpr ⟨(id, d), he, rfl⟩), id?_of_get? h⟩

end Collection

/-! ## Driver calls -/

/-- How a call that writes ends: it succeeds, or it reports an error, the write having been carried out
    or not. -/
inductive Outcome where
  | ok
  | fail (applied : Bool) (err : GoError)
deriving DecidableEq, Repr

/-- Whether the write was carried out. -/
def Outcome.applied : Outcome → Bool
  | .ok => true
  | .fail applied _ => applied

/-- How a `Find` ends: it fails at once, or it opens a cursor that yields the documents in some order,
    all of them or only the first ones before it stops with an error. -/
inductive FindOutcome where
  | fail (err : GoError)
  | cursor (order : Lib.Shuffle Doc) (stop : Option (Nat × GoError))

/-- What a cursor yields: the results of successive `Next`, then the result of `Err`. -/
structure Cursor (α : Type) where
  items : List α
  err : Option GoError

/-- `collection.Find(ctx, bson.D{})`. -/
def Collection.find (c : Collection) : FindOutcome → Except GoError (Cursor Doc)
  | .fail err => .error err
  | .cursor order none => .ok ⟨order.apply c.all, none⟩
  | .cursor order (some (n, err)) => .ok ⟨(order.apply c.all).take n, some err⟩

/-- The operation of a change event. -/
inductive OperationType where
  | insert | update | replace | delete | other
deriving DecidableEq, Repr

/-- A change event, as `processChangeStream` decodes it. -/
structure Event where
  operationType : OperationType
  documentKeyID : GoString
  fullDocument : Option Doc
deriving DecidableEq

/-- The server's refusal of a replacement whose `_id` is not the one the filter asks for. -/
def immutableIdErr : GoError := .external (str "the (immutable) field '_id' was found to have been altered")

/-- Whether a replacement for the document `id` leaves its `_id` alone. -/
def keepsId (id : GoString) (doc : Doc) : Bool :=
  match doc[idKey]? with
  | none => true
  | some v => v = .str id

/-- The event a committed replacement emits. -/
def Collection.putEvent (c : Collection) (id : GoString) (doc : Doc) : Event :=
  ⟨if (c.get? id).isSome then .replace else .insert, id, some (stored id doc)⟩

/-- The server's side of the calls: the documents, and the change events committed so far. -/
structure Server where
  coll : Collection
  events : List Event

namespace Server

/-- Commits a replacement. -/
def commitPut (s : Server) (id : GoString) (doc : Doc) : Server :=
  ⟨s.coll.put id doc, s.events ++ [s.coll.putEvent id doc]⟩

/-- Commits a deletion; deleting an absent document changes nothing and emits nothing. -/
def commitRemove (s : Server) (id : GoString) : Server :=
  match s.coll.get? id with
  | none => s
  | some _ => ⟨s.coll.remove id, s.events ++ [⟨.delete, id, none⟩]⟩

/-- `collection.ReplaceOne(ctx, {_id: id}, doc, SetUpsert(true))`. -/
def replaceOne (s : Server) (o : Outcome) (id : GoString) (doc : Doc) : Except GoError Unit × Server :=
  if keepsId id doc then
    match o with
    | .ok => (.ok (), s.commitPut id doc)
    | .fail applied err => (.error err, if applied then s.commitPut id doc else s)
  else
    match o with
    | .ok => (.error immutableIdErr, s)
    | .fail _ err => (.error err, s)

/-- `collection.DeleteOne(ctx, {_id: id})`. -/
def deleteOne (s : Server) (o : Outcome) (id : GoString) : Except GoError Unit × Server :=
  match o with
  | .ok => (.ok (), s.commitRemove id)
  | .fail applied err => (.error err, if applied then s.commitRemove id else s)

end Server

end RCloneCloud
