import RCloneCloud.Storage.SaveSpec

/-!
# `Storage.SaveCalls` — the driver calls of a `Save`, whatever is answered

`save_makes` says it once: a `Save` replaces documents of sections by their encryption, and deletes
documents of names that are no section. It holds for every answer of the server, so also when other
processes write between two calls. `Agrees` is the matching fact about events: delivering an event that
agrees with the cache changes nothing (`processEvent_agrees`). `save_owes` is the other half: past its
listing, a `Save` returns nil only after it has written every section and deleted every listed id that is
no section.
-/

set_option autoImplicit false

namespace RCloneCloud

open Lib

/-- A driver call that a `Save` of this cache may make. -/
def SaveCall (G : Gcm) (s : MongoStorage) : DriverCall → Prop
  | .find => True
  -- the document is that of a section, and reads back as it
  | .replaceOne id doc => ∃ kv, s.data[id]? = some kv ∧
      (keepsId id doc = true → readable G s.key (stored id doc) = kv)
  | .deleteOne id => s.data[id]? = none

section
variable {G : Gcm} {s : MongoStorage} {ch : SaveChoice}

/-- The deletions are of ids that are no section, as the list of ids left over says. -/
theorem deleteAll_makes {ids : List GoString} (h : ∀ id ∈ ids, s.data[id]? = none) :
    (deleteAll ids).Makes (SaveCall G s) := by
  induction ids with
  | nil => trivial
  | cons id rest ih =>
      exact ⟨h id List.mem_cons_self, fun _ => ih fun id' hm => h id' (List.mem_cons_of_mem _ hm)⟩

/-- The ids still to delete are the listed ones that no section left to visit bears. -/
theorem upsertAll_makes {todo : List (GoString × Section)} {ex : GoMap Bool}
    (htodo : ∀ sec kv, (sec, kv) ∈ todo → s.data[sec]? = some kv)
    (hex : ∀ id, id ∈ ex → s.data[id]? = none ∨ ∃ kv, (id, kv) ∈ todo) :
    (upsertAll G s.key ch todo ex).Makes (SaveCall G s) := by
  induction todo generalizing ex with
  -- what is left of the listing is deleted
  | nil =>
      refine deleteAll_makes fun id hm => ?_
      rw [ids_visited] at hm
      rcases hex id hm with hnone | ⟨kv, hkv⟩
      · exact hnone
      · cases hkv
  | cons e rest ih =>
      obtain ⟨sec, kv⟩ := e
      simp only [upsertAll]
      split
      · trivial
      · next doc hdoc =>
          refine ⟨⟨kv, htodo sec kv List.mem_cons_self, fun hk => ?_⟩, fun a => ?_⟩
          · exact (encrypts_of_replacement hdoc).readable_eq ((keepsId_replacement hdoc sec).mp hk)
          · change Except GoError Unit at a
            cases a with
            | error err => trivial
            | ok u =>
              -- a section that was written is struck off the listing
              refine ih (fun sec' kv' hm => htodo sec' kv' (List.mem_cons_of_mem _ hm)) fun id hm => ?_
              obtain ⟨v, hv⟩ := GoMap.mem_iff.mp hm
              rw [GoMap.getElem?_erase] at hv
              split at hv
              · cases hv
              · next hne =>
                  rcases hex id (GoMap.mem_iff.mpr ⟨v, hv⟩) with hnone | ⟨kv', hkv'⟩
                  · exact .inl hnone
                  · rcases List.mem_cons.mp hkv' with he | hm'
                    · exact absurd (Prod.mk.inj he).1.symm hne
                    · exact .inr ⟨kv', hm'⟩

/-- **The driver calls of a `Save`**, for every answer the server may give. -/
theorem save_makes (G : Gcm) (s : MongoStorage) (ch : SaveChoice) :
    (save G s ch).Makes (SaveCall G s) := by
  refine ⟨trivial, fun a => ?_⟩
  change Except GoError (Cursor Doc) at a
  cases a with
  | error err => trivial
  | ok cursor =>
      dsimp only
      split
      · trivial
      · refine upsertAll_makes (fun sec kv => sections_visited.mp) fun id _ => ?_
        cases hid : s.data[id]? with
        | none => exact .inl rfl
        | some kv => exact .inr ⟨kv, sections_visited.mpr hid⟩

end

/-! ## What a `Save` that returns nil has written -/

/-- The document an answered call has written. -/
def written : (op : DriverCall) → op.Answer → Set GoString
  | .find, _ => ∅
  | .replaceOne id _, .ok () => {id}
  | .replaceOne _ _, .error _ => ∅
  -- a failed deletion is not reported, so it counts like one that was carried out
  | .deleteOne id, _ => {id}

/-- What is left of a `Save` returns nil only after it has written every document of `W`. -/
abbrev Writes (p : SaveProg) (W : Set GoString) : Prop := p.Owes written (· = .ok ()) W

section
variable {G : Gcm} {s : MongoStorage} {ch : SaveChoice}

/-- Deleting goes through the whole list, as a failing `DeleteOne` does not stop it. -/
theorem deleteAll_owes {ids : List GoString} {W : Set GoString} (h : ∀ id ∈ W, id ∈ ids) :
    Writes (deleteAll ids) W := by
  induction ids generalizing W with
  | nil => exact fun _ => Set.eq_empty_of_forall_notMem fun id hid => List.not_mem_nil (h id hid)
  | cons id rest ih =>
      refine fun _ => ih fun id' hm => ?_
      rcases List.mem_cons.mp (h id' hm.1) with he | hm'
      · exact absurd he hm.2
      · exact hm'

/-- With the sections still to write and the ids still to delete, everything is done or an error is returned. -/
theorem upsertAll_owes {key : Key} {todo : List (GoString × Section)} {ex : GoMap Bool}
    {W : Set GoString} (h : ∀ id ∈ W, (∃ kv, (id, kv) ∈ todo) ∨ id ∈ ex) :
    Writes (upsertAll G key ch todo ex) W := by
  induction todo generalizing ex W with
  | nil =>
      refine deleteAll_owes fun id hm => ?_
      rw [ids_visited]
      rcases h id hm with ⟨kv, hkv⟩ | hid
      · cases hkv
      · exact hid
  | cons e rest ih =>
      obtain ⟨sec, kv⟩ := e
      simp only [upsertAll]
      split
      · exact fun hok => by cases hok
      · intro a
        change Except GoError Unit at a
        cases a with
        | error err => exact fun hok => by cases hok
        -- a section that is written is paid for; the others are owed by the rest
        | ok u =>
          refine ih fun id hm => ?_
          have hne : sec ≠ id := fun he => hm.2 he.symm
          rcases h id hm.1 with ⟨kv', hkv'⟩ | hid
          · rcases List.mem_cons.mp hkv' with he | hm'
            · exact absurd (Prod.mk.inj he).1.symm hne
            · exact .inl ⟨kv', hm'⟩
          · obtain ⟨v, hv⟩ := GoMap.mem_iff.mp hid
            exact .inr (GoMap.mem_iff.mpr ⟨v, by rw [GoMap.getElem?_erase, if_neg hne, hv]⟩)

/-- **Past its listing**, a `Save` returns nil only after it has written the documents of `W`, if each of
    these is a section or has been listed. -/
theorem save_owes {k : DriverCall.find.Answer → SaveProg} (hk : save G s ch = .call .find k)
    {cursor : Cursor Doc} {W : Set GoString}
    (h : ∀ id ∈ W, s.data[id]? ≠ none ∨ ∃ d ∈ cursor.items, d.id? = some id) :
    Writes (k (.ok cursor : Except GoError (Cursor Doc))) W := by
  cases hk
  dsimp only
  cases hex : listExisting cursor.items ∅ with
  | error err => exact fun hok => by cases hok
  | ok ex =>
      refine upsertAll_owes fun id hid => ?_
      rcases h id hid with hsome | hlisted
      · obtain ⟨kv, hkv⟩ := Option.ne_none_iff_exists'.mp hsome
        exact .inl ⟨kv, sections_visited.mpr hkv⟩
      · exact .inr ((listExisting_ok hex id).mpr (.inr hlisted))

end

/-! ## Events that change nothing -/

/-- The event tells the cache what it already holds. -/
def Agrees (G : Gcm) (s : MongoStorage) (ev : Event) : Prop :=
  match ev.operationType with
  | .delete => s.data[ev.documentKeyID]? = none
  | .other => True
  | _ => ∀ d, ev.fullDocument = some d → ev.documentKeyID ≠ [] →
      s.data[ev.documentKeyID]? = some (readable G s.key d)

section
variable {G : Gcm} {s t : MongoStorage}

/-- Agreement looks at the event's own section only. -/
theorem Agrees.congr {ev : Event} (h : Agrees G s ev) (hkey : t.key = s.key)
    (hdata : t.data[ev.documentKeyID]? = s.data[ev.documentKeyID]?) : Agrees G t ev := by
  unfold Agrees at h ⊢
  rw [hdata, hkey]
  exact h

/-- Putting back what is there changes nothing. -/
theorem insert_same {data : Config} {id : GoString} {sec : Section} (h : data[id]? = some sec) :
    data.insert id sec = data := by
  refine Std.ExtTreeMap.ext_getElem? fun id' => ?_
  rw [GoMap.getElem?_insert]
  split
  · next he => rw [← he, h]
  · rfl

/-- Removing what is not there changes nothing. -/
theorem erase_absent {data : Config} {id : GoString} (h : data[id]? = none) : data.erase id = data := by
  refine Std.ExtTreeMap.ext_getElem? fun id' => ?_
  rw [GoMap.getElem?_erase]
  split
  · next he => rw [← he, h]
  · rfl

/-- **Delivering an event that agrees with the cache changes nothing.** -/
theorem processEvent_agrees {ev : Event} (sh : Shuffle (GoString × Bson)) (h : Agrees G s ev) :
    processEvent G sh (.ok ev) s = s := by
  obtain ⟨op, id, doc⟩ := ev
  have happly : (∀ d, doc = some d → id ≠ [] → s.data[id]? = some (readable G s.key d)) →
      applyFullDocument G sh id doc s = s := by
    intro hd
    cases doc with
    | none => rfl
    | some d =>
        by_cases hid : id = []
        · simp [applyFullDocument, hid]
        · rw [applyFullDocument_some hid, insert_same (hd d rfl hid)]
  cases op with
  | delete => simp only [processEvent, erase_absent (show s.data[id]? = none from h)]
  | other => rfl
  | _ => exact happly h

/-- The event of a replacement agrees with every cache holding the replaced section as it is now. -/
theorem agrees_putEvent {c : Collection} {id : GoString} {doc : Doc}
    (h : s.data[id]? = some (readable G s.key (stored id doc))) : Agrees G s (c.putEvent id doc) := by
  unfold Agrees Collection.putEvent
  dsimp only
  split
  · next he => split at he <;> cases he
  · trivial
  · intro d hd _
    cases hd
    exact h

/-- What a committed call of a `Save` emits agrees with the cache that is saved. -/
theorem serve_agrees {f : SaveFaults} {op : DriverCall} {srv : Server} (hop : SaveCall G s op)
    (h : ∀ ev ∈ srv.events, Agrees G s ev) : ∀ ev ∈ (serve f op srv).2.events, Agrees G s ev := by
  cases op with
  | find => exact h
  | replaceOne id doc =>
      obtain ⟨kv, hid, hread⟩ := hop
      rcases srv.replaceOne_cases (f.replace id) id doc with hsrv | ⟨hk, hsrv⟩
      · rwa [serve, hsrv]
      · rw [serve, hsrv]
        intro ev hev
        rcases List.mem_append.mp hev with hev | hev
        · exact h ev hev
        · rw [List.mem_singleton.mp hev]
          exact agrees_putEvent (by rw [hid, hread hk])
  | deleteOne id =>
      rcases srv.deleteOne_cases (f.delete id) id with hsrv | hsrv
      · rwa [serve, hsrv]
      · rw [serve, hsrv]
        intro ev hev
        rcases srv.commitRemove_events id ev hev with hev | rfl
        · exact h ev hev
        · exact hop

end

end RCloneCloud
