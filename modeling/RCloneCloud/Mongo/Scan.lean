import RCloneCloud.Mongo.Collection

/-!
# `Mongo.Scan` — reading a cursor while others write

A cursor is not a snapshot: it passes every id once, at a moment of its own, and yields the document that
is stored there at that moment, if there is one. It ends when it has passed every stored document.

`Current` is the invariant that matters to a reader: what the scan has yielded is what the collection holds now, for
all the ids it has passed. A write of an id that has not been passed keeps it (`Current.write`); a write behind the
cursor is what breaks it.
-/

set_option autoImplicit false

namespace RCloneCloud

/-- A cursor being read: the documents it has yielded, and the ids it has passed. -/
structure Scan where
  got : List Doc
  passed : List GoString

namespace Scan

/-- The cursor as `Find` opens it. -/
def opened : Scan := ⟨[], []⟩

/-- Whether the cursor is behind an id. -/
def hasPassed (sc : Scan) (id : GoString) : Bool := sc.passed.contains id

/-- The cursor passes `id`: it yields the document stored there now. -/
def pass (coll : Collection) (id : GoString) (sc : Scan) : Option Scan :=
  if sc.hasPassed id then none
  else some ⟨sc.got ++ (coll.get? id).toList, sc.passed ++ [id]⟩

/-- The cursor ends, if it has passed every stored document; those without a string id come somewhere
    among the others. -/
def finish (coll : Collection) (order : Lib.Shuffle Doc) (sc : Scan) : Option (Cursor Doc) :=
  if coll.docs.keys.all sc.hasPassed then some ⟨order.apply (sc.got ++ coll.foreign), none⟩
  else none

/-- A document with the id `id` has been yielded. -/
def Yielded (sc : Scan) (id : GoString) : Prop := ∃ d ∈ sc.got, d.id? = some id

section
variable {coll : Collection} {id : GoString} {sc sc' : Scan}

/-- What passing an id does. -/
theorem pass_some (h : sc.pass coll id = some sc') :
    sc.hasPassed id = false ∧ sc'.got = sc.got ++ (coll.get? id).toList ∧
    sc'.passed = sc.passed ++ [id] := by
  unfold pass at h
  split at h
  · cases h
  · next hp =>
      cases h
      exact ⟨Bool.eq_false_iff.mpr hp, rfl, rfl⟩

/-- Passing an id leaves the cursor behind it. -/
theorem hasPassed_pass (h : sc.pass coll id = some sc') (id' : GoString) :
    sc'.hasPassed id' = true ↔ sc.hasPassed id' = true ∨ id = id' := by
  rw [hasPassed, (pass_some h).2.2]
  simp [hasPassed, eq_comm (a := id)]

/-- A stored document that is passed is yielded, and what was yielded stays. -/
theorem yielded_pass (h : sc.pass coll id = some sc') (id' : GoString) :
    (sc.Yielded id' → sc'.Yielded id') ∧ (id = id' → coll.get? id ≠ none → sc'.Yielded id') := by
  rw [Yielded, Yielded, (pass_some h).2.1]
  constructor
  · rintro ⟨d, hd, hid⟩
    exact ⟨d, List.mem_append_left _ hd, hid⟩
  · rintro rfl hget
    obtain ⟨d, hd⟩ := Option.ne_none_iff_exists'.mp hget
    exact ⟨d, by simp [hd], Collection.id?_of_get? hd⟩

/-- What a cursor that has ended yielded. -/
theorem finish_some {order : Lib.Shuffle Doc} {cursor : Cursor Doc}
    (h : sc.finish coll order = some cursor) :
    (∀ id, coll.get? id ≠ none → sc.hasPassed id = true) ∧ cursor.err = none ∧
    ∀ d, d ∈ cursor.items ↔ d ∈ sc.got ∨ d ∈ coll.foreign := by
  unfold finish at h
  split at h
  · next hall =>
      cases h
      refine ⟨fun id hid => ?_, rfl, fun d => by simp [order.mem_apply]⟩
      refine List.all_eq_true.mp hall id ?_
      rw [Std.ExtTreeMap.mem_keys, Std.ExtTreeMap.mem_iff_isSome_getElem?]
      exact Option.isSome_iff_ne_none.mpr hid
  · cases h

/-! ## A cursor that is up to date -/

/-- What the cursor has yielded is what is stored now under the ids it has passed. -/
def Current (coll : Collection) (sc : Scan) : Prop :=
  ∀ id d, d ∈ sc.got ∧ d.id? = some id ↔ sc.hasPassed id = true ∧ coll.get? id = some d

/-- A cursor that has passed nothing has nothing to be wrong about. -/
theorem current_opened : Current coll .opened := by
  intro id d
  constructor
  · rintro ⟨hd, -⟩
    cases hd
  · rintro ⟨hp, -⟩
    cases hp

/-- The document is yielded as it is at this moment. -/
theorem Current.pass (h : Current coll sc) (hp : sc.pass coll id = some sc') : Current coll sc' := by
  intro id' d
  rw [(pass_some hp).2.1, hasPassed_pass hp, List.mem_append, Option.mem_toList]
  constructor
  · rintro ⟨hd | hd, hid⟩
    · have hold := (h id' d).mp ⟨hd, hid⟩
      exact ⟨.inl hold.1, hold.2⟩
    · have hsame : some id = some id' := (Collection.id?_of_get? hd).symm.trans hid
      cases hsame
      exact ⟨.inr rfl, hd⟩
  · rintro ⟨hold | rfl, hget⟩
    · have hgot := (h id' d).mpr ⟨hold, hget⟩
      exact ⟨.inl hgot.1, hgot.2⟩
    · exact ⟨.inr hget, Collection.id?_of_get? hget⟩

/-- A write under an id that has not been passed. -/
theorem Current.write {coll' : Collection} (h : Current coll sc) (hid : sc.hasPassed id = false)
    (hother : ∀ id', id ≠ id' → coll'.get? id' = coll.get? id') : Current coll' sc := by
  intro id' d
  rw [h id' d]
  refine and_congr_right fun hp => ?_
  have hne : id ≠ id' := by
    rintro rfl
    rw [hid] at hp
    cases hp
  rw [hother id' hne]

/-- A cursor that is up to date when it ends has yielded the documents of the collection. -/
theorem Current.finish {order : Lib.Shuffle Doc} {cursor : Cursor Doc} (h : Current coll sc)
    (hf : sc.finish coll order = some cursor) (id : GoString) (d : Doc) :
    d ∈ cursor.items ∧ d.id? = some id ↔ coll.get? id = some d := by
  obtain ⟨hall, -, hitems⟩ := finish_some hf
  rw [hitems]
  constructor
  · rintro ⟨hd | hd, hid⟩
    · exact ((h id d).mp ⟨hd, hid⟩).2
    · rw [coll.foreign_id d hd] at hid
      cases hid
  · intro hget
    have hpassed : sc.hasPassed id = true := hall id (by rw [hget]; exact Option.some_ne_none d)
    have hgot := (h id d).mpr ⟨hpassed, hget⟩
    exact ⟨.inl hgot.1, hgot.2⟩

end

end Scan

end RCloneCloud
