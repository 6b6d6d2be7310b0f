import RCloneCloud.Lib.Run
import RCloneCloud.Storage.FlatMap
import RCloneCloud.Storage.SaveSpec

/-!
# `Storage.Storable` — which configurations `Save` can store

`Load` passes over a document whose `_id` is not a string and `SetValue` takes any key, so the cache may
come to stand for a collection that `Save` cannot write back: its listing stops at the first such document,
and the server refuses a replacement that carries an `_id`. `runSave_nil_iff` says when a `Save` that meets
no failing call returns nil; `present_applyAll` follows one key through a sequence of local calls, so that
`stored_after_load_iff` needs the collection and the calls only.

A `Save` none of whose calls fails returns nil when the ids of the collection are strings, no section has a key `_id`
and a nonce can be drawn for every field. `runSave_nil_only` and `runSave_nil_iff` are the two directions for any
cache and collection; `stored_after_load_iff` is about a cache that came from a `Load` and a list of local calls.
-/

set_option autoImplicit false

namespace RCloneCloud

open Lib

/-! ## When a `Save` that meets no failing call returns nil -/

section
variable {G : Gcm} {key : Key} {ch : SaveChoice} {f : SaveFaults}

/-- An upsert loop that ends normally has encrypted every field of every section. -/
theorem upsertAll_total {todo : List (GoString × Section)} {ex : GoMap Bool} {srv : Server}
    (h : ((upsertAll G key ch todo ex).exec (serve f) srv).1 = .ok ()) :
    ∀ sec kv, (sec, kv) ∈ todo → Total (saveField G key ch sec) kv := by
  induction todo generalizing ex srv with
  | nil => intro sec kv hm; cases hm
  | cons e rest ih =>
      obtain ⟨sec, kv⟩ := e
      simp only [upsertAll] at h
      cases hdoc : collect (saveField G key ch sec) ((ch.keys sec).apply kv.toList) (∅ : Doc) with
      | error err => rw [hdoc] at h; cases h
      | ok doc =>
          rw [hdoc] at h
          simp only [Prog.exec, serve] at h
          cases hr : (srv.replaceOne (f.replace sec) sec doc).1 with
          | error err => rw [hr] at h; cases h
          | ok u =>
              rw [hr] at h
              intro sec' kv' hm
              rcases List.mem_cons.mp hm with he | hm
              · obtain ⟨rfl, rfl⟩ := Prod.mk.inj he
                exact (collect_eq_ok ((ch.keys sec').perm kv'.toList) hdoc).1
              · exact ih h sec' kv' hm

/-- The listing loop ends normally only if every listed `_id` is a string. -/
theorem listExisting_strings {l : List Doc} {acc ex : GoMap Bool} (h : listExisting l acc = .ok ex) :
    ∀ d ∈ l, ∃ id, d.id? = some id := by
  induction l generalizing acc with
  | nil => intro d hd; cases hd
  | cons doc rest ih =>
      simp only [listExisting, decodeID] at h
      cases hid : doc.id? with
      | none => rw [hid] at h; cases h
      | some id =>
          rw [hid] at h
          intro d hd
          rcases List.mem_cons.mp hd with rfl | hd
          · exact ⟨id, hid⟩
          · exact ih h d hd

end

section
variable {G : Gcm} {s : MongoStorage} {ch : SaveChoice} {order : Shuffle Doc} {srv : Server}

/-- A `Save` that returns nil has listed string ids only, and has drawn every nonce. -/
theorem runSave_nil_only (h : (runSave G s ch (.none order) srv).1 = .ok ()) :
    srv.coll.foreign = [] ∧ Drawn ch s.data := by
  simp only [runSave, save, Prog.exec, serve, SaveFaults.none, Collection.find] at h
  cases hex : listExisting (order.apply srv.coll.all) ∅ with
  | error err => rw [hex] at h; cases h
  | ok ex =>
      rw [hex] at h
      refine ⟨List.eq_nil_iff_forall_not_mem.mpr fun d hd => ?_, fun sec kv k v hsec hkv => ?_⟩
      · have hall : d ∈ srv.coll.all := List.mem_append_right _ hd
        obtain ⟨id, hid⟩ := listExisting_strings hex d (order.mem_apply.mpr hall)
        rw [srv.coll.foreign_id d hd] at hid
        cases hid
      · have ht := upsertAll_total h sec kv (sections_visited.mpr hsec)
        exact saveField_total.mp ht k v hkv

/-- **When a `Save` that meets no failing call returns nil**: every `_id` of the collection is a string, no
    section has a key that the server takes for the `_id`, and every nonce is drawn. -/
theorem runSave_nil_iff :
    (runSave G s ch (.none order) srv).1 = .ok () ↔
      srv.coll.foreign = [] ∧
      (∀ (sec : GoString) (kv : Section), s.data[sec]? = some kv → idKey ∉ kv) ∧ Drawn ch s.data := by
  constructor
  · intro h
    obtain ⟨hforeign, hdrawn⟩ := runSave_nil_only h
    have hwritten := (runSave_ok (Prod.ext h rfl)).1
    exact ⟨hforeign, fun sec kv hsec => (hwritten sec kv hsec).1, hdrawn⟩
  · rintro ⟨hforeign, hkeys, hdrawn⟩
    exact runSave_returns_nil order hdrawn hforeign hkeys

end

/-! ## One key through a sequence of local calls -/

/-- The section `sec` has the key `k`. -/
def MongoStorage.Present (s : MongoStorage) (sec k : GoString) : Prop :=
  ∃ kv, s.data[sec]? = some kv ∧ k ∈ kv

namespace LocalCall

/-- The calls, one after the other. -/
def applyAll (calls : List LocalCall) (s : MongoStorage) : MongoStorage :=
  calls.foldl (fun s e => e.apply s) s

/-- One more call, at the end. -/
theorem applyAll_append (calls : List LocalCall) (e : LocalCall) (s : MongoStorage) :
    applyAll (calls ++ [e]) s = e.apply (applyAll calls s) := by
  simp [applyAll]

/-- The call takes the key `k` of the section `sec` away. -/
def Drops (sec k : GoString) (e : LocalCall) : Prop :=
  e = .deleteKey sec k ∨ e = .deleteSection sec

/-- Some call sets the key `k` of the section `sec`, and no later one takes it away. -/
def Leaves (calls : List LocalCall) (sec k : GoString) : Prop :=
  ∃ before value after, calls = before ++ .setValue sec k value :: after ∧ ∀ e ∈ after, ¬ Drops sec k e

variable {sec k : GoString}

/-- A key is there exactly if the flat map has it. -/
theorem present_iff {s : MongoStorage} : s.Present sec k ↔ (flatten s.data).get sec k ≠ none := by
  rw [flatten_get]
  constructor
  · rintro ⟨kv, hkv, hk⟩
    obtain ⟨v, hv⟩ := GoMap.mem_iff.mp hk
    rw [hkv, Option.bind_some, hv]
    exact Option.some_ne_none v
  · intro hget
    obtain ⟨v, hv⟩ := Option.ne_none_iff_exists'.mp hget
    obtain ⟨kv, hkv, hk⟩ := Option.bind_eq_some_iff.mp hv
    exact ⟨kv, hkv, GoMap.mem_iff.mpr ⟨v, hk⟩⟩

/-- **One call and one key.** After the call the key is there if the call set it, or if it was there and
    the call does not take it away. -/
theorem present_apply (e : LocalCall) (s : MongoStorage) :
    (e.apply s).Present sec k ↔ (∃ value, e = .setValue sec k value) ∨ s.Present sec k ∧ ¬ Drops sec k e := by
  rw [present_iff, present_iff]
  cases e with
  -- each call is seen through the flat map, where it writes one entry or the entries of one section
  | setValue sec' key value =>
      have hdata : flatten (LocalCall.setValue sec' key value |>.apply s).data = (flatten s.data).set sec' key value :=
        flatten_set s.data sec' key value
      have hno : ¬ Drops sec k (.setValue sec' key value) := by
        rintro (h | h) <;> cases h
      rw [hdata]
      show (if sec' = sec ∧ key = k then some value else (flatten s.data).get sec k) ≠ none ↔ _
      by_cases hhere : sec' = sec ∧ key = k
      · obtain ⟨rfl, rfl⟩ := hhere
        exact iff_of_true (by simp) (.inl ⟨value, rfl⟩)
      · have hother : ¬ ∃ value', LocalCall.setValue sec' key value = .setValue sec k value' := by
          rintro ⟨value', h⟩
          cases h
          exact hhere ⟨rfl, rfl⟩
        rw [if_neg hhere, or_iff_right hother, and_iff_left hno]
  | deleteKey sec' key =>
      have hdata : flatten (LocalCall.deleteKey sec' key |>.apply s).data = (flatten s.data).remove sec' key :=
        flatten_deleteKey sec' key |>.2
      have hdrops : Drops sec k (.deleteKey sec' key) ↔ sec' = sec ∧ key = k := by
        simp [Drops]
      rw [hdata, hdrops]
      show (if sec' = sec ∧ key = k then none else (flatten s.data).get sec k) ≠ none ↔ _
      by_cases hhere : sec' = sec ∧ key = k
      · simp [hhere]
      · simp [hhere]
  | deleteSection sec' =>
      have hdata : flatten (LocalCall.deleteSection sec' |>.apply s).data = (flatten s.data).removeSection sec' :=
        flatten_removeSection s.data sec'
      have hdrops : Drops sec k (.deleteSection sec') ↔ sec' = sec := by
        simp [Drops]
      rw [hdata, hdrops]
      show (if sec' = sec then none else (flatten s.data).get sec k) ≠ none ↔ _
      by_cases hhere : sec' = sec
      · simp [hhere]
      · simp [hhere]

/-- A key is left by the last call that concerns it. -/
theorem leaves_append (calls : List LocalCall) (e : LocalCall) :
    Leaves (calls ++ [e]) sec k ↔
      (∃ value, e = .setValue sec k value) ∨ Leaves calls sec k ∧ ¬ Drops sec k e := by
  constructor
  · rintro ⟨before, value, after, hcalls, hkept⟩
    rcases append_cons_eq_snoc.mp hcalls with ⟨-, he, -⟩ | ⟨rest, rfl, hinit⟩
    · exact .inl ⟨value, he.symm⟩
    · refine .inr ⟨⟨before, value, rest, hinit, fun c hc => ?_⟩, ?_⟩
      · exact hkept c (List.mem_append_left _ hc)
      · exact hkept e (List.mem_append_right _ List.mem_cons_self)
  · rintro (⟨value, rfl⟩ | ⟨⟨before, value, after, rfl, hkept⟩, hno⟩)
    · exact ⟨calls, value, [], rfl, by simp⟩
    · refine ⟨before, value, after ++ [e], by simp, fun c hc => ?_⟩
      rcases List.mem_append.mp hc with hc | hc
      · exact hkept c hc
      · rw [List.mem_singleton.mp hc]; exact hno

/-- **Any number of calls and one key.** -/
theorem present_applyAll {s : MongoStorage} (hs : ¬ s.Present sec k) (calls : List LocalCall) :
    (applyAll calls s).Present sec k ↔ Leaves calls sec k := by
  induction calls using List.reverseRecOn with
  | nil => exact ⟨fun h => absurd h hs, fun ⟨before, _, _, h, _⟩ => by simp at h⟩
  | append_singleton calls e ih => rw [applyAll_append, present_apply, leaves_append, ih]

end LocalCall

/-! ## `Save` after `Load` and local calls -/

section
variable {G : Gcm} {sh : Shuffle (GoString × Bson)} {f : LoadFaults} {coll : Collection}
  {s s' : MongoStorage}

/-- `Load` takes no field for a key `_id`. -/
theorem load_not_present (h : load G sh f coll s = (.ok (), s')) (sec : GoString) :
    ¬ s'.Present sec idKey := by
  rintro ⟨kv, hkv, hk⟩
  rw [(load_ok h).2, decrypted_getElem?] at hkv
  obtain ⟨d, -, rfl⟩ := Option.map_eq_some_iff.mp hkv
  obtain ⟨v, hv⟩ := GoMap.mem_iff.mp hk
  rw [readable_getElem?] at hv
  cases hd : d[idKey]? with
  | none => rw [hd] at hv; cases hv
  | some b => simp [hd, pick, watchField] at hv

/-- **What `Load` and the local calls accept, `Save` can store** exactly when the collection holds no
    document whose `_id` is not a string, no `SetValue` under the key `_id` is left in force by the calls
    after it, and the random source does not fail. -/
theorem stored_after_load_iff (h : load G sh f coll s = (.ok (), s')) (calls : List LocalCall)
    (ch : SaveChoice) (order : Shuffle Doc) (events : List Event) :
    (runSave G (LocalCall.applyAll calls s') ch (.none order) ⟨coll, events⟩).1 = .ok () ↔
      coll.foreign = [] ∧ (∀ sec, ¬ LocalCall.Leaves calls sec idKey) ∧
      Drawn ch (LocalCall.applyAll calls s').data := by
  rw [runSave_nil_iff]
  have hkeys : (∀ (sec : GoString) (kv : Section),
      (LocalCall.applyAll calls s').data[sec]? = some kv → idKey ∉ kv) ↔
      ∀ sec, ¬ LocalCall.Leaves calls sec idKey := by
    refine forall_congr' fun sec => ?_
    rw [← LocalCall.present_applyAll (load_not_present h sec) calls]
    simp [MongoStorage.Present]
  rw [hkeys]

end

/-- A document whose `_id` is a number. -/
def numberedDoc : Doc := (∅ : Doc).insert idKey (.other 16 [5, 0, 0, 0])

/-- A document whose `_id` is a number has no string id. -/
theorem numberedDoc_foreign : ∀ d ∈ [numberedDoc], d.id? = none := by
  intro d hd
  rw [List.mem_singleton.mp hd]
  rfl

/-- A collection that holds it. -/
def numberedCollection : Collection := ⟨∅, [numberedDoc], Collection.empty.docs_id, numberedDoc_foreign⟩

/-- What `Save` returns on it. -/
def decodeErr : GoError := .wrapf "save: decode existing: %w" [] (.external (str "error decoding key _id"))

/-- Setting a key `_id`. -/
def setsIdKey : List LocalCall := [.setValue (str "s3") (str "type") (str "s3"), .setValue (str "s3") idKey (str "x")]

/-- **`Load` and `SetValue` accept what `Save` cannot store**: a document whose `_id` is a number is passed
    over by `Load` and stops every `Save`, with no local call at all; and on an empty collection a key `_id`
    is taken by `SetValue` and refused by the server. -/
theorem load_accepts_unstorable :
    load tagGcm (Shuffle.id _) (.none (Shuffle.id _)) numberedCollection ⟨sampleKey, ∅⟩
        = (.ok (), ⟨sampleKey, ∅⟩) ∧
    (runSave tagGcm ⟨sampleKey, ∅⟩ (.inOrder sampleNonce) (.none (Shuffle.id _)) ⟨numberedCollection, []⟩).1
        = .error decodeErr ∧
    load tagGcm (Shuffle.id _) (.none (Shuffle.id _)) .empty ⟨sampleKey, ∅⟩ = (.ok (), ⟨sampleKey, ∅⟩) ∧
    (runSave tagGcm (LocalCall.applyAll setsIdKey ⟨sampleKey, ∅⟩) (.inOrder sampleNonce)
        (.none (Shuffle.id _)) ⟨.empty, []⟩).1
        = .error (.wrapf "save: upsert %q: %w" [str "s3"] immutableIdErr) :=
  ⟨rfl, by decide, rfl, by decide⟩

/-- A key `_id` that was set and deleted again does not stand in the way. -/
theorem stored_after_load_deleted :
    (runSave tagGcm (LocalCall.applyAll (setsIdKey ++ [.deleteKey (str "s3") idKey]) ⟨sampleKey, ∅⟩)
      (.inOrder sampleNonce) (.none (Shuffle.id _)) ⟨.empty, []⟩).1 = .ok () := by
  have hload : load tagGcm (Shuffle.id _) (.none (Shuffle.id _)) .empty ⟨sampleKey, ∅⟩
      = (.ok (), ⟨sampleKey, ∅⟩) := rfl
  refine (stored_after_load_iff hload _ _ _ _).mpr ⟨rfl, fun sec => ?_, fun _ _ _ _ _ _ => ⟨_, rfl⟩⟩
  rw [LocalCall.leaves_append]
  rintro (⟨_, h⟩ | ⟨⟨before, value, after, hcalls, -⟩, hno⟩)
  · cases h
  · have hm : LocalCall.setValue sec idKey value ∈ setsIdKey := by rw [hcalls]; simp
    refine hno (.inl ?_)
    rcases List.mem_cons.mp hm with hm | hm
    · injection hm with _ hk _
      exact absurd hk (by decide)
    · injection List.mem_singleton.mp hm with hsec _ _
      rw [hsec]

end RCloneCloud
