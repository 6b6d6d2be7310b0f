import RCloneCloud.Storage.SaveSpec

/-!
# `Storage.SaveFailures` — `Save` when driver calls fail

`Save` returns the errors of its `Find` and of its `ReplaceOne` calls; it drops those of `DeleteOne`, and
it does not look at the cursor's `Err`, as `Load` does. So a nil does not mean that the removed sections
are gone (`save_nil_persisted_iff` says when they are), while an error means that nothing was destroyed
(`failed_save_harmless`).

`SaveFaults` decides for every call whether it fails and whether it was applied all the same, as a call that times out
may have been. Both theorems are over all such patterns. `Purges` is what the `DeleteOne` calls owe: for each id that
is left over, a call that was applied.
-/

set_option autoImplicit false

namespace RCloneCloud

open Lib

section
variable {G : Gcm} {s : MongoStorage} {ch : SaveChoice} {f : SaveFaults} {srv srv' : Server}

/-- The configuration is what the collection holds: the ids are the section names, each document
    decrypts to its section, and no section missing from memory comes back with a `Load`. -/
structure Persisted (G : Gcm) (s : MongoStorage) (c : Collection) : Prop where
  ids : (∀ d ∈ c.all, ∃ id, d.id? = some id) ∧ ∀ id, (∃ d, c.get? id = some d) ↔ id ∈ s.data
  decrypts : ∀ id d kv, c.get? id = some d → s.data[id]? = some kv →
    Decryptable G s.key d ∧ readable G s.key d = kv
  no_return : ∀ sh lf t t', t.key = s.key → load G sh lf c t = (.ok (), t') →
    ∀ sec, sec ∉ s.data → sec ∉ t'.data

theorem Mirrors.persisted {c : Collection} (h : Mirrors G s.key s.data c) (hf : c.foreign = []) :
    Persisted G s c where
  ids := by
    constructor
    · intro d hd
      rcases List.mem_append.mp hd with hd | hd
      · obtain ⟨⟨id, d'⟩, he, rfl⟩ := List.mem_map.mp hd
        exact ⟨id, Collection.id?_of_get? (Std.ExtTreeMap.mem_toList_iff_getElem?_eq_some.mp he)⟩
      · rw [hf] at hd
        cases hd
    · exact h.stored_iff
  decrypts := by
    intro id d kv hget hid
    obtain ⟨hkv, d', hget', henc⟩ := h.sections id kv hid
    cases hget.symm.trans hget'
    exact ⟨henc.decryptable, henc.readable_eq hkv⟩
  no_return := by
    intro sh lf t t' ht hload sec hsec
    obtain ⟨_, rfl⟩ := load_ok hload
    rwa [ht, h.decrypted_eq]

/-- **When a nil from `Save` means that everything is persisted**: exactly when every stored id that is no
    section was yielded by the listing and its deletion was carried out. -/
theorem save_nil_persisted_iff (hids : srv.coll.foreign = [])
    (h : runSave G s ch f srv = (.ok (), srv')) :
    Persisted G s srv'.coll ↔
      ∀ id, (∃ d, srv.coll.get? id = some d) → id ∉ s.data → Purges f srv.coll id := by
  obtain ⟨hwritten, hpurged, hkept, hforeign⟩ := runSave_ok h
  constructor
  · intro hp id hstored hid
    by_contra hno
    have hsame := hkept id (GoMap.not_mem_iff.mp hid) hno
    rw [← hsame] at hstored
    exact hid ((hp.ids.2 id).mp hstored)
  · intro hall
    refine Mirrors.persisted ⟨hwritten, fun id hnone => ?_⟩ (hforeign.trans hids)
    by_cases hp : Purges f srv.coll id
    · exact hpurged id hnone hp
    · rw [hkept id hnone hp]
      cases hget : srv.coll.get? id with
      | none => rfl
      | some d => exact absurd (hall id ⟨d, hget⟩ (GoMap.not_mem_iff.mpr hnone)) hp

end

/-- A collection with one document, for a process that holds no section. -/
def leftoverServer : Server := ⟨Collection.empty.put (str "gone") ∅, []⟩

/-- The `DeleteOne` of the leftover document fails. -/
def deleteFails : SaveFaults :=
  { SaveFaults.none (Shuffle.id _) with delete := fun _ => .fail false (.external (str "timeout")) }

/-- `Save` returns nil there, and the next `Load` brings the section back. -/
theorem save_nil_not_persisted :
    ¬ ∀ (G : Gcm) (s : MongoStorage) (ch : SaveChoice) (f : SaveFaults) (srv srv' : Server),
      srv.coll.foreign = [] → runSave G s ch f srv = (.ok (), srv') → Persisted G s srv'.coll := by
  intro hclaim
  have hp := hclaim tagGcm ⟨sampleKey, ∅⟩ (.inOrder sampleNonce) deleteFails leftoverServer _ rfl
    (Prod.ext (by decide) rfl)
  have hback : str "gone" ∈ (load tagGcm (Shuffle.id _) (.none (Shuffle.id _))
      (runSave tagGcm ⟨sampleKey, ∅⟩ (.inOrder sampleNonce) deleteFails leftoverServer).2.coll
      ⟨sampleKey, ∅⟩).2.data := by decide
  exact hp.no_return (Shuffle.id _) (.none (Shuffle.id _)) ⟨sampleKey, ∅⟩ _ rfl (Prod.ext (by decide) rfl)
    (str "gone") (by decide) hback

/-- With nothing to save and one document left over, everything depends on its `DeleteOne`. -/
theorem save_nil_persisted_iff_leftover :
    Persisted tagGcm ⟨sampleKey, ∅⟩
        (runSave tagGcm ⟨sampleKey, ∅⟩ (.inOrder sampleNonce) deleteFails leftoverServer).2.coll ↔
      ∀ id, (∃ d, leftoverServer.coll.get? id = some d) → id ∉ (∅ : Config) →
        Purges deleteFails leftoverServer.coll id :=
  save_nil_persisted_iff rfl (Prod.ext (by decide) rfl)

/-! ## A failed `Save` -/

/-- **A failed `Save` destroys nothing and can be repeated.** After an error the cache is unchanged, every
    id stored before is still stored, and every document is what it was or the complete encryption of the
    section of that name, which then has no key `_id`. A further `Save` during which nothing fails returns nil, and whenever one does
    the collection decrypts to exactly the configuration in memory. -/
theorem failed_save_harmless {G : Gcm} {p p' : Process} {ch : SaveChoice} {f : SaveFaults} {err : GoError}
    (h : p.save G ch f = (.error err, p')) :
    p'.store = p.store ∧
    p'.srv.coll.foreign = p.srv.coll.foreign ∧
    (∀ id d, p.srv.coll.get? id = some d → ∃ d', p'.srv.coll.get? id = some d') ∧
    (∀ id d', p'.srv.coll.get? id = some d' → p.srv.coll.get? id = some d' ∨
      ∃ kv, p.store.data[id]? = some kv ∧ idKey ∉ kv ∧ Encrypts G p.store.key kv d') ∧
    (∀ ch' order srv, (∀ sec k, ∃ n, ch'.nonce sec k = .ok n) → srv.coll.foreign = [] →
      (∀ (sec : GoString) (kv : Section), p.store.data[sec]? = some kv → idKey ∉ kv) →
      (runSave G p'.store ch' (.none order) srv).1 = .ok ()) ∧
    (∀ ch' order srv srv', runSave G p'.store ch' (.none order) srv = (.ok (), srv') →
      AllDecryptable G p.store.key srv'.coll ∧
      decrypted G p.store.key srv'.coll = p.store.data ∧
      ∀ id, (∃ d, srv'.coll.get? id = some d) ↔ id ∈ p.store.data) := by
  obtain ⟨hrun, hstore⟩ := Process.save_eq h
  obtain ⟨hdocs, hforeign⟩ := runSave_error hrun
  rw [hstore]
  refine ⟨rfl, hforeign, fun id d hget => ?_, fun id d' hget' => ?_, ?_, ?_⟩
  -- a document is as it was or the encryption of its section
  · rcases hdocs id with hsame | ⟨kv, d', _, _, hget', _⟩
    · exact ⟨d, hsame.trans hget⟩
    · exact ⟨d', hget'⟩
  · rcases hdocs id with hsame | ⟨kv, d, hid, hkeys, hget, henc⟩
    · exact .inl (hsame.symm.trans hget')
    · cases hget.symm.trans hget'
      exact .inr ⟨kv, hid, hkeys, henc⟩
  · exact fun ch' order srv hnonce hids hkeys => runSave_returns_nil order (fun _ _ _ _ _ _ => hnonce _ _) hids hkeys
  · intro ch' order srv srv' hagain
    have hm : Mirrors G p.store.key p.store.data srv'.coll := runSave_mirrors hagain
    exact ⟨hm.allDecryptable, hm.decrypted_eq, hm.stored_iff⟩

/-- Two sections of which the upsert of the second fails. -/
def failingProcess : Process :=
  ⟨(MongoStorage.mk sampleKey ∅).setValue (str "a") (str "k") (str "v") |>.setValue (str "b") (str "k") (str "w"),
    leftoverServer⟩

/-- The `ReplaceOne` of `b` fails. -/
def upsertFails : SaveFaults :=
  { SaveFaults.none (Shuffle.id _) with
    replace := fun id => if id = str "b" then .fail false (.external (str "timeout")) else .ok }

/-- What that `Save` returns. -/
def upsertErr : GoError := .wrapf "save: upsert %q: %w" [str "b"] (.external (str "timeout"))

/-- The `ReplaceOne` of one section fails: the document that was left over is still there, and the cache is as it was. -/
theorem failed_save_harmless_upsert :
    ∃ p', failingProcess.save tagGcm (.inOrder sampleNonce) upsertFails = (.error upsertErr, p') ∧
      p'.store = failingProcess.store ∧
      ∃ d', p'.srv.coll.get? (str "gone") = some d' := by
  have h : failingProcess.save tagGcm (.inOrder sampleNonce) upsertFails
      = (.error upsertErr, (failingProcess.save tagGcm (.inOrder sampleNonce) upsertFails).2) :=
    Prod.ext (by decide) rfl
  obtain ⟨hstore, _, hkept, _⟩ := failed_save_harmless h
  exact ⟨_, h, hstore, hkept (str "gone") _ rfl⟩

end RCloneCloud
