import RCloneCloud.Storage.Save

/-!
# `Storage.SaveSpec` — what a `Save` with no other writer does to the collection

The loops are followed once: `deleteAll_exec` and `upsertAll_ok` / `upsertAll_error` by induction on the
list still to process. `runSave_ok` and `runSave_error` assemble them, for every order, every nonce and
every pattern of failing calls; the properties of `Save` below are read off these two.

The server's part comes first: what `commitPut` and `commitRemove` do to a document, and what a call does when it
fails or when it fails and was applied all the same (`replaceOne_cases`, `deleteOne_cases`). The loops come next, each
with one induction. `UpsertedFrom` says what the upserts may have done to a document by any point, which is all that
is known when one of them fails. `Mirrors` is the successful case in one word: the documents are those of the
sections, each encrypting its own.
-/

set_option autoImplicit false

namespace RCloneCloud

open Lib

/-! ## The two writing calls -/

namespace Server

/-- Removing a document concerns this id only. -/
theorem commitRemove_get? (srv : Server) (id id' : GoString) :
    (srv.commitRemove id).coll.get? id' = if id = id' then none else srv.coll.get? id' := by
  unfold commitRemove
  split
  · next h =>
      split
      · next he => rw [← he, h]
      · rfl
  · simp

@[simp] theorem commitRemove_foreign (srv : Server) (id : GoString) :
    (srv.commitRemove id).coll.foreign = srv.coll.foreign := by
  unfold commitRemove
  split <;> rfl

/-- Putting a document concerns this id only, and what is stored carries it as `_id`. -/
theorem commitPut_get? (srv : Server) (id id' : GoString) (doc : Doc) :
    (srv.commitPut id doc).coll.get? id'
      = if id = id' then some (stored id doc) else srv.coll.get? id' := by
  simp [commitPut]

@[simp] theorem commitPut_foreign (srv : Server) (id : GoString) (doc : Doc) :
    (srv.commitPut id doc).coll.foreign = srv.coll.foreign := rfl

/-- A `DeleteOne` removes the document if it was applied, whether or not it reports an error. -/
theorem deleteOne_get? (srv : Server) (o : Outcome) (id id' : GoString) :
    (srv.deleteOne o id).2.coll.get? id'
      = if id = id' ∧ o.applied then none else srv.coll.get? id' := by
  cases o with
  | ok => simp [deleteOne, Outcome.applied, commitRemove_get?]
  | fail applied err => cases applied <;> simp [deleteOne, Outcome.applied, commitRemove_get?]

/-- Documents without a string id are not touched. -/
theorem deleteOne_foreign (srv : Server) (o : Outcome) (id : GoString) :
    (srv.deleteOne o id).2.coll.foreign = srv.coll.foreign := by
  cases o with
  | ok => simp [deleteOne]
  | fail applied err => cases applied <;> simp [deleteOne]

/-- A replacement that is reported successful was accepted and committed. -/
theorem replaceOne_ok {srv : Server} {o : Outcome} {id : GoString} {doc : Doc}
    (h : (srv.replaceOne o id doc).1 = .ok ()) :
    keepsId id doc = true ∧ (srv.replaceOne o id doc).2 = srv.commitPut id doc := by
  unfold replaceOne at h ⊢
  split at h
  · next hk =>
      rw [if_pos hk]
      cases o with
      | ok => exact ⟨hk, rfl⟩
      | fail applied err => cases h
  · cases o <;> cases h

/-- A replacement, however it is reported, leaves the server alone, or was accepted and committed. -/
theorem replaceOne_cases (srv : Server) (o : Outcome) (id : GoString) (doc : Doc) :
    (srv.replaceOne o id doc).2 = srv ∨
      keepsId id doc = true ∧ (srv.replaceOne o id doc).2 = srv.commitPut id doc := by
  unfold replaceOne
  split
  · next hk =>
      cases o with
      | ok => exact .inr ⟨hk, rfl⟩
      | fail applied err =>
          cases applied with
          | true => exact .inr ⟨hk, rfl⟩
          | false => exact .inl rfl
  · cases o <;> exact .inl rfl

/-- A `DeleteOne` is one removal or nothing. -/
theorem deleteOne_cases (srv : Server) (o : Outcome) (id : GoString) :
    (srv.deleteOne o id).2 = srv ∨ (srv.deleteOne o id).2 = srv.commitRemove id := by
  cases o with
  | ok => exact .inr rfl
  | fail applied err =>
      cases applied with
      | true => exact .inr rfl
      | false => exact .inl rfl

/-- Removing emits one delete event, and that only where there was a document. -/
theorem commitRemove_events (srv : Server) (id : GoString) :
    ∀ ev ∈ (srv.commitRemove id).events, ev ∈ srv.events ∨ ev = ⟨.delete, id, none⟩ := by
  intro ev hev
  unfold commitRemove at hev
  split at hev
  · exact .inl hev
  · rcases List.mem_append.mp hev with hev | hev
    · exact .inl hev
    · exact .inr (List.mem_singleton.mp hev)

end Server

/-! ## The loops -/

section
variable {G : Gcm} {key : Key} {ch : SaveChoice} {f : SaveFaults}

/-- The listing loop fails on a document whose `_id` is not a string, and else collects the ids. -/
theorem listExisting_ok {l : List Doc} {acc ex : GoMap Bool} (h : listExisting l acc = .ok ex)
    (id : GoString) : id ∈ ex ↔ id ∈ acc ∨ ∃ d ∈ l, d.id? = some id := by
  induction l generalizing acc with
  | nil => cases h; simp
  | cons doc rest ih =>
      simp only [listExisting, decodeID] at h
      cases hid : doc.id? with
      | none => rw [hid] at h; cases h
      | some id' =>
          rw [hid] at h
          rw [ih h]
          simp only [GoMap.mem_iff, GoMap.getElem?_insert, List.exists_mem_cons_iff, hid, Option.some.injEq]
          constructor
          · rintro (⟨v, hv⟩ | hd)
            · split at hv
              · next he => exact .inr (.inl he)
              · exact .inl ⟨v, hv⟩
            · exact .inr (.inr hd)
          · rintro (⟨v, hv⟩ | rfl | hd)
            · by_cases he : id' = id
              · exact .inl ⟨true, if_pos he⟩
              · exact .inl ⟨v, by rw [if_neg he]; exact hv⟩
            · exact .inl ⟨true, if_pos rfl⟩
            · exact .inr hd

/-- The listing succeeds where every document has a string id. -/
theorem listExisting_total {l : List Doc} (acc : GoMap Bool) (h : ∀ d ∈ l, ∃ id, d.id? = some id) :
    ∃ ex, listExisting l acc = .ok ex := by
  induction l generalizing acc with
  | nil => exact ⟨acc, rfl⟩
  | cons doc rest ih =>
      obtain ⟨id, hid⟩ := h doc List.mem_cons_self
      simp only [listExisting, decodeID, hid]
      exact ih _ fun d hd => h d (List.mem_cons_of_mem _ hd)

/-- **The deletion loop** never fails, and removes the ids whose deletion is carried out. -/
theorem deleteAll_exec (ids : List GoString) (srv : Server) :
    ((deleteAll ids).exec (serve f) srv).1 = .ok () ∧
    (∀ id, ((deleteAll ids).exec (serve f) srv).2.coll.get? id
      = if id ∈ ids ∧ (f.delete id).applied then none else srv.coll.get? id) ∧
    ((deleteAll ids).exec (serve f) srv).2.coll.foreign = srv.coll.foreign := by
  induction ids generalizing srv with
  | nil => exact ⟨rfl, fun id => by simp [deleteAll, Prog.exec], rfl⟩
  | cons id' rest ih =>
      obtain ⟨hok, hget, hforeign⟩ := ih (srv.deleteOne (f.delete id') id').2
      refine ⟨hok, fun id => ?_, hforeign.trans (Server.deleteOne_foreign ..)⟩
      refine (hget id).trans ?_
      rw [Server.deleteOne_get?]
      by_cases he : id' = id
      · subst he
        by_cases ha : (f.delete id').applied <;> simp [ha]
      · simp [he, Ne.symm he]

/-- What the upsert loop has done to one document: nothing, or it holds the encryption of its section. -/
def UpsertedFrom (G : Gcm) (key : Key) (todo : List (GoString × Section)) (old new : Collection)
    (id : GoString) : Prop :=
  new.get? id = old.get? id ∨
    ∃ kv d, (id, kv) ∈ todo ∧ idKey ∉ kv ∧ new.get? id = some d ∧ Encrypts G key kv d

/-- One committed upsert. -/
theorem commitPut_upserted {sec : GoString} {kv : Section} {doc : Doc} (srv : Server)
    (hdoc : collect (saveField G key ch sec) ((ch.keys sec).apply kv.toList) ∅ = .ok doc)
    (hk : keepsId sec doc = true) :
    idKey ∉ kv ∧ ∃ d, (srv.commitPut sec doc).coll.get? sec = some d ∧ Encrypts G key kv d := by
  refine ⟨(keepsId_replacement hdoc sec).mp hk, stored sec doc, ?_, encrypts_of_replacement hdoc⟩
  rw [Server.commitPut_get?, if_pos rfl]

/-- The ids the deletion loop visits, in its order. -/
theorem ids_visited {ex : GoMap Bool} {id : GoString} :
    id ∈ (ch.ids.apply ex.toList).map Prod.fst ↔ id ∈ ex := by
  rw [((ch.ids.perm ex.toList).map Prod.fst).mem_iff, Std.ExtTreeMap.map_fst_toList_eq_keys,
    Std.ExtTreeMap.mem_keys]

/-- **The upsert loop, when `Save` goes on to return nil**: every section has been written, no other
    document touched, and the deletion loop follows on the listed ids that are no section. -/
theorem upsertAll_ok {todo : List (GoString × Section)} {ex : GoMap Bool} {srv : Server}
    (hd : DistinctKeys todo) (h : ((upsertAll G key ch todo ex).exec (serve f) srv).1 = .ok ()) :
    ∃ (mid : Server) (ids : List GoString),
      (upsertAll G key ch todo ex).exec (serve f) srv = (deleteAll ids).exec (serve f) mid ∧
      (∀ id, id ∈ ids ↔ id ∈ ex ∧ ∀ kv, (id, kv) ∉ todo) ∧
      (∀ sec kv, (sec, kv) ∈ todo →
        idKey ∉ kv ∧ ∃ d, mid.coll.get? sec = some d ∧ Encrypts G key kv d) ∧
      (∀ id, (∀ kv, (id, kv) ∉ todo) → mid.coll.get? id = srv.coll.get? id) ∧
      mid.coll.foreign = srv.coll.foreign := by
  induction todo generalizing ex srv with
  | nil =>
      refine ⟨srv, (ch.ids.apply ex.toList).map Prod.fst, rfl, fun id => ?_, by simp, fun _ _ => rfl, rfl⟩
      rw [ids_visited]
      simp
  | cons e rest ih =>
      obtain ⟨sec, kv⟩ := e
      simp only [upsertAll] at h ⊢
      cases hdoc : collect (saveField G key ch sec) ((ch.keys sec).apply kv.toList) (∅ : Doc) with
      | error err => rw [hdoc] at h; cases h
      | ok doc =>
          rw [hdoc] at h
          simp only [Prog.exec, serve] at h ⊢
          cases hr : (srv.replaceOne (f.replace sec) sec doc).1 with
          | error err => rw [hr] at h; cases h
          | ok u =>
              rw [hr] at h
              dsimp only
              -- the upsert was accepted: the rest of the loop runs on the server with the document
              obtain ⟨hk, hsrv⟩ := Server.replaceOne_ok hr
              rw [hsrv] at h ⊢
              obtain ⟨mid, ids, hexec, hids, hwritten, hother, hforeign⟩ := ih hd.tail h
              have hrest : ∀ kv', (sec, kv') ∉ rest := fun kv' => hd.head_not_mem
              refine ⟨mid, ids, hexec, fun id => ?_, ?_, ?_, hforeign.trans (by simp)⟩
              · -- the section has been crossed out of the listed ids, and it is no other section's name
                rw [hids]
                simp only [GoMap.mem_iff, GoMap.getElem?_erase, List.mem_cons, Prod.mk.injEq, not_or]
                constructor
                · rintro ⟨⟨v, hv⟩, hno⟩
                  split at hv
                  · cases hv
                  · next hne => exact ⟨⟨v, hv⟩, fun kv' => ⟨fun he => hne he.1.symm, hno kv'⟩⟩
                · rintro ⟨⟨v, hv⟩, hno⟩
                  have hne : sec ≠ id := fun he => (hno kv).1 ⟨he.symm, rfl⟩
                  exact ⟨⟨v, by rw [if_neg hne]; exact hv⟩, fun kv' => (hno kv').2⟩
              · intro sec' kv' hm
                rcases List.mem_cons.mp hm with he | hm
                · -- written now, and not touched again: the names are distinct
                  obtain ⟨rfl, rfl⟩ := Prod.mk.inj he
                  rw [hother sec' hrest]
                  exact commitPut_upserted srv hdoc hk
                · exact hwritten sec' kv' hm
              · intro id hno
                have hne : sec ≠ id := fun he => hno kv (he ▸ List.mem_cons_self)
                rw [hother id fun kv' hm => hno kv' (List.mem_cons_of_mem _ hm), Server.commitPut_get?,
                  if_neg hne]

/-- **The upsert loop, when `Save` fails in it**: every document is what it was, or the complete
    encryption of its section. -/
theorem upsertAll_error {todo : List (GoString × Section)} {ex : GoMap Bool} {srv : Server}
    {err : GoError} (hd : DistinctKeys todo)
    (h : ((upsertAll G key ch todo ex).exec (serve f) srv).1 = .error err) :
    (∀ id, UpsertedFrom G key todo srv.coll ((upsertAll G key ch todo ex).exec (serve f) srv).2.coll id) ∧
    ((upsertAll G key ch todo ex).exec (serve f) srv).2.coll.foreign = srv.coll.foreign := by
  induction todo generalizing ex srv with
  | nil =>
      rw [show ((upsertAll G key ch [] ex).exec (serve f) srv).1 = .ok () from (deleteAll_exec _ _).1] at h
      cases h
  | cons e rest ih =>
      obtain ⟨sec, kv⟩ := e
      simp only [upsertAll] at h ⊢
      cases hdoc : collect (saveField G key ch sec) ((ch.keys sec).apply kv.toList) (∅ : Doc) with
      | error err => exact ⟨fun id => .inl rfl, rfl⟩
      | ok doc =>
          rw [hdoc] at h
          simp only [Prog.exec, serve] at h ⊢
          have hput : ∀ id, keepsId sec doc = true →
              UpsertedFrom G key ((sec, kv) :: rest) srv.coll (srv.commitPut sec doc).coll id := by
            intro id hk
            by_cases he : sec = id
            · subst he
              obtain ⟨hkv, d, hget, henc⟩ := commitPut_upserted srv hdoc hk
              exact .inr ⟨kv, d, List.mem_cons_self, hkv, hget, henc⟩
            · exact .inl (by rw [Server.commitPut_get?, if_neg he])
          cases hr : (srv.replaceOne (f.replace sec) sec doc).1 with
          | error err =>
              simp only [Prog.exec]
              -- an error may be reported for a write that was carried out
              rcases srv.replaceOne_cases (f.replace sec) sec doc with hsrv | ⟨hk, hsrv⟩
              · rw [hsrv]
                exact ⟨fun id => .inl rfl, rfl⟩
              · rw [hsrv]
                exact ⟨fun id => hput id hk, rfl⟩
          | ok u =>
              rw [hr] at h
              dsimp only
              obtain ⟨hk, hsrv⟩ := Server.replaceOne_ok hr
              rw [hsrv] at h ⊢
              obtain ⟨hdocs, hforeign⟩ := ih hd.tail h
              refine ⟨fun id => ?_, hforeign⟩
              rcases hdocs id with hsame | ⟨kv', d, hm, hrest⟩
              · rcases hput id hk with hsame' | ⟨kv', d, hm, hid, hget, henc⟩
                · exact .inl (hsame.trans hsame')
                · exact .inr ⟨kv', d, hm, hid, hsame.trans hget, henc⟩
              · exact .inr ⟨kv', d, List.mem_cons_of_mem _ hm, hrest⟩

end

/-! ## The whole `Save` -/

section
variable {G : Gcm} {s : MongoStorage} {ch : SaveChoice} {f : SaveFaults} {srv srv' : Server}

/-- The listing of this run yielded the document `id`. -/
def Listed (f : SaveFaults) (c : Collection) (id : GoString) : Prop :=
  ∃ cursor, c.find f.find = .ok cursor ∧ ∃ d ∈ cursor.items, d.id? = some id

/-- The sections, in the order they are visited. -/
theorem sections_visited {sec : GoString} {kv : Section} :
    (sec, kv) ∈ ch.sections.apply s.data.toList ↔ s.data[sec]? = some kv :=
  mem_perm_toList (ch.sections.perm s.data.toList)

/-- The deletion of this run's `DeleteOne` on `id` reaches the document: the listing yielded the id, and
    the call was carried out. -/
def Purges (f : SaveFaults) (c : Collection) (id : GoString) : Prop :=
  Listed f c id ∧ (f.delete id).applied = true

/-- **A `Save` that returns nil** has written every section, and has removed the listed ids that are no
    section and whose deletion was carried out. -/
theorem runSave_ok (h : runSave G s ch f srv = (.ok (), srv')) :
    (∀ sec kv, s.data[sec]? = some kv →
      idKey ∉ kv ∧ ∃ d, srv'.coll.get? sec = some d ∧ Encrypts G s.key kv d) ∧
    (∀ id, s.data[id]? = none → Purges f srv.coll id → srv'.coll.get? id = none) ∧
    (∀ id, s.data[id]? = none → ¬ Purges f srv.coll id → srv'.coll.get? id = srv.coll.get? id) ∧
    srv'.coll.foreign = srv.coll.foreign := by
  simp only [runSave, save, Prog.exec, serve] at h
  cases hfind : srv.coll.find f.find with
  | error err => rw [hfind] at h; cases h
  | ok cursor =>
      rw [hfind] at h
      dsimp only at h
      cases hex : listExisting cursor.items ∅ with
      | error err => rw [hex] at h; cases h
      | ok ex =>
          rw [hex] at h
          dsimp only at h
          have hd : DistinctKeys (ch.sections.apply s.data.toList) :=
            distinctKeys_of_perm (ch.sections.perm s.data.toList)
          obtain ⟨mid, ids, hexec, hids, hwritten, hother, hforeign⟩ := upsertAll_ok hd (congrArg Prod.fst h)
          obtain ⟨_, hget, hforeign'⟩ := deleteAll_exec (f := f) ids mid
          rw [← hexec, h] at hget hforeign'
          -- an id without a section is not visited by the upsert loop
          have hno : ∀ {id}, s.data[id]? = none → ∀ kv, (id, kv) ∉ ch.sections.apply s.data.toList := by
            intro id hnone kv hm
            rw [sections_visited, hnone] at hm
            cases hm
          -- it is deleted exactly when the cursor has yielded it
          have hlisted : ∀ {id}, s.data[id]? = none → (id ∈ ids ↔ Listed f srv.coll id) := by
            intro id hnone
            rw [hids, listExisting_ok hex]
            constructor
            · rintro ⟨hm | hm, -⟩
              · exact absurd hm Std.ExtTreeMap.not_mem_empty
              · exact ⟨cursor, hfind, hm⟩
            · rintro ⟨cursor', hfind', hm⟩
              cases hfind.symm.trans hfind'
              exact ⟨.inr hm, hno hnone⟩
          refine ⟨fun sec kv hsec => ?_, fun id hnone hp => ?_, fun id hnone hp => ?_, ?_⟩
          · obtain ⟨hkv, d, hmid, henc⟩ := hwritten sec kv (sections_visited.mpr hsec)
            refine ⟨hkv, d, ?_, henc⟩
            rw [hget, if_neg fun hm => (hids sec |>.mp hm.1).2 kv (sections_visited.mpr hsec), hmid]
          · rw [hget, if_pos ⟨(hlisted hnone).mpr hp.1, hp.2⟩]
          · rw [hget, if_neg fun hm => hp ⟨(hlisted hnone).mp hm.1, hm.2⟩, hother id (hno hnone)]
          · exact hforeign'.trans hforeign

/-- **A `Save` that returns an error** has left every document as it was, or as the complete encryption of
    the section of that name. -/
theorem runSave_error {err : GoError} (h : runSave G s ch f srv = (.error err, srv')) :
    (∀ id, srv'.coll.get? id = srv.coll.get? id ∨
      ∃ kv d, s.data[id]? = some kv ∧ idKey ∉ kv ∧ srv'.coll.get? id = some d ∧ Encrypts G s.key kv d) ∧
    srv'.coll.foreign = srv.coll.foreign := by
  simp only [runSave, save, Prog.exec, serve] at h
  cases hfind : srv.coll.find f.find with
  | error err => rw [hfind] at h; cases h; exact ⟨fun _ => .inl rfl, rfl⟩
  | ok cursor =>
      rw [hfind] at h
      dsimp only at h
      cases hex : listExisting cursor.items ∅ with
      | error err => rw [hex] at h; cases h; exact ⟨fun _ => .inl rfl, rfl⟩
      | ok ex =>
          rw [hex] at h
          dsimp only at h
          have hd : DistinctKeys (ch.sections.apply s.data.toList) :=
            distinctKeys_of_perm (ch.sections.perm s.data.toList)
          have hspec := upsertAll_error hd (congrArg Prod.fst h)
          rw [h] at hspec
          refine ⟨fun id => ?_, hspec.2⟩
          rcases hspec.1 id with hsame | ⟨kv, d, hm, hrest⟩
          · exact .inl hsame
          · exact .inr ⟨kv, d, sections_visited.mp hm, hrest⟩

/-! ## `Save` meeting no failure -/

/-- A full listing yields every document with a string id. -/
theorem listed_none {order : Shuffle Doc} {c : Collection} {id : GoString} {d : Doc}
    (h : c.get? id = some d) : Listed (.none order) c id :=
  ⟨⟨order.apply c.all, none⟩, rfl, d, order.mem_apply.mpr (Collection.mem_all_id.mpr h).1,
    Collection.id?_of_get? h⟩

/-- The collection is the encryption of the configuration: the ids are the section names, and each
    document is the complete encryption of its section. -/
structure Mirrors (G : Gcm) (key : Key) (data : Config) (c : Collection) : Prop where
  sections : ∀ sec kv, data[sec]? = some kv →
    idKey ∉ kv ∧ ∃ d, c.get? sec = some d ∧ Encrypts G key kv d
  others : ∀ id, data[id]? = none → c.get? id = none

/-- **A `Save` that meets no failure and returns nil** leaves the encryption of the configuration. -/
theorem runSave_mirrors {order : Shuffle Doc} (h : runSave G s ch (.none order) srv = (.ok (), srv')) :
    Mirrors G s.key s.data srv'.coll := by
  obtain ⟨hwritten, hpurged, hkept, _⟩ := runSave_ok h
  refine ⟨hwritten, fun id hnone => ?_⟩
  -- an id that is no section is either deleted, or was not in the collection to begin with
  by_cases hp : Purges (.none order) srv.coll id
  · exact hpurged id hnone hp
  · rw [hkept id hnone hp]
    cases hget : srv.coll.get? id with
    | none => rfl
    | some d => exact absurd ⟨listed_none hget, rfl⟩ hp

namespace Mirrors

variable {key : Key} {data : Config} {c : Collection}

/-- A mirrored collection has a document for each section and for nothing else. -/
theorem stored_iff (h : Mirrors G key data c) (id : GoString) : (∃ d, c.get? id = some d) ↔ id ∈ data := by
  rw [GoMap.mem_iff]
  constructor
  · rintro ⟨d, hget⟩
    cases hid : data[id]? with
    | none => rw [h.others id hid] at hget; cases hget
    | some kv => exact ⟨kv, rfl⟩
  · rintro ⟨kv, hid⟩
    obtain ⟨_, d, hget, _⟩ := h.sections id kv hid
    exact ⟨d, hget⟩

/-- Every document of a mirrored collection can be read under the key. -/
theorem allDecryptable (h : Mirrors G key data c) : AllDecryptable G key c := by
  intro id d hget
  cases hid : data[id]? with
  | none => rw [h.others id hid] at hget; cases hget
  | some kv =>
      obtain ⟨_, d', hget', henc⟩ := h.sections id kv hid
      cases hget.symm.trans hget'
      exact henc.decryptable

/-- Reading a mirrored collection gives back the configuration. -/
theorem decrypted_eq (h : Mirrors G key data c) : decrypted G key c = data := by
  refine Std.ExtTreeMap.ext_getElem? fun id => ?_
  rw [decrypted_getElem?]
  cases hid : data[id]? with
  | none => rw [h.others id hid]; rfl
  | some kv =>
      obtain ⟨hkv, d, hget, henc⟩ := h.sections id kv hid
      rw [hget, Option.map_some, henc.readable_eq hkv]

end Mirrors

/-- The random source yields a nonce for every field to encrypt. -/
def Drawn (ch : SaveChoice) (data : Config) : Prop :=
  ∀ (sec : GoString) (kv : Section) (k v : GoString), data[sec]? = some kv → kv[k]? = some v →
    ∃ n, ch.nonce sec k = .ok n

/-- The inner loop ends normally exactly when every field gets its nonce. -/
theorem saveField_total {sec : GoString} {kv : Section} :
    Total (saveField G s.key ch sec) kv ↔ ∀ k v : GoString, kv[k]? = some v → ∃ n, ch.nonce sec k = .ok n := by
  constructor
  · intro ht k v hkv
    obtain ⟨w, hw⟩ := ht k v hkv
    unfold saveField at hw
    -- drawing the nonce is the only step of `encrypt` that can fail
    cases hn : ch.nonce sec k with
    | ok n => exact ⟨n, rfl⟩
    | error err => simp [hn, encrypt] at hw
  · intro hn k v hkv
    obtain ⟨n, hn⟩ := hn k v hkv
    exact ⟨_, by simp only [saveField, hn, encrypt]; rfl⟩

/-- The loops end normally if every field can be encrypted and no section has a key that the server takes
    for the `_id`. -/
theorem upsertAll_returns_nil {order : Shuffle Doc} {todo : List (GoString × Section)}
    (htotal : ∀ sec kv, (sec, kv) ∈ todo → Total (saveField G s.key ch sec) kv)
    (hkeys : ∀ sec kv, (sec, kv) ∈ todo → idKey ∉ kv) (ex : GoMap Bool) (srv : Server) :
    ((upsertAll G s.key ch todo ex).exec (serve (.none order)) srv).1 = .ok () := by
  induction todo generalizing ex srv with
  | nil => exact (deleteAll_exec _ srv).1
  | cons e rest ih =>
      obtain ⟨sec, kv⟩ := e
      have ht := htotal sec kv List.mem_cons_self
      have hdoc := collect_of_total ((ch.keys sec).perm kv.toList) ht
      have hk := (keepsId_replacement hdoc sec).mpr (hkeys sec kv List.mem_cons_self)
      simp only [upsertAll, hdoc, Prog.exec, serve, SaveFaults.none, Server.replaceOne, hk, if_true]
      exact ih (fun sec' kv' hm => htotal sec' kv' (List.mem_cons_of_mem _ hm))
        (fun sec' kv' hm => hkeys sec' kv' (List.mem_cons_of_mem _ hm)) _ _

/-- `Save` cannot fail but for one of four reasons: a driver call, the random source, a document whose
    `_id` is not a string, a key that the server takes for the `_id`. -/
theorem runSave_returns_nil (order : Shuffle Doc) (hdrawn : Drawn ch s.data)
    (hforeign : srv.coll.foreign = [])
    (hkeys : ∀ (sec : GoString) (kv : Section), s.data[sec]? = some kv → idKey ∉ kv) :
    (runSave G s ch (.none order) srv).1 = .ok () := by
  have hall : ∀ d ∈ order.apply srv.coll.all, ∃ id, d.id? = some id := by
    intro d hd
    rcases List.mem_append.mp (order.mem_apply.mp hd) with hd | hd
    · obtain ⟨⟨id, d'⟩, he, rfl⟩ := List.mem_map.mp hd
      exact ⟨id, Collection.id?_of_get? (Std.ExtTreeMap.mem_toList_iff_getElem?_eq_some.mp he)⟩
    · rw [hforeign] at hd
      cases hd
  obtain ⟨ex, hex⟩ := listExisting_total ∅ hall
  simp only [runSave, save, Prog.exec, serve, SaveFaults.none, Collection.find, hex]
  refine upsertAll_returns_nil (fun sec kv hm => saveField_total.mpr fun k v hkv => ?_)
    (fun sec kv hm => hkeys sec kv (sections_visited.mp hm)) _ _
  exact hdrawn sec kv k v (sections_visited.mp hm) hkv

end

end RCloneCloud
