import RCloneCloud.Lib.Run
import RCloneCloud.Storage.Load

/-!
# `Storage.Ghost` — sections without keys

`SetValue` makes a section with its first key and `DeleteKey` removes it with its last, so the local calls
never leave a section without keys (`noGhosts_apply`). `Load` and `applyFullDocument` put a section in place
for every document, also for one of which they keep no field. `noGhosts_iff_furnished` says that this is the
only way such a section comes about.

The step relation has the local calls, a `Load` and the arrival of an event, in any order and with any documents;
`Furnished` is the condition on a step, that the documents it brings have at least one readable field. A run all of
whose steps are furnished never has a section without keys, and a run that has none was furnished.
-/

set_option autoImplicit false

namespace RCloneCloud

open Lib

/-- The storage `New` returns, for the key it has derived. -/
def MongoStorage.new (key : Key) : MongoStorage := ⟨key, ∅⟩

/-- Every section has a key, so that a section is there exactly when a value of it is found. -/
structure NoGhosts (s : MongoStorage) : Prop where
  keys : ∀ (sec : GoString) (kv : Section), s.data[sec]? = some kv → ∃ k, k ∈ kv
  found : ∀ sec, s.hasSection sec = true ↔ ∃ k, (s.getValue sec k).2 = true

/-- A field of the document is kept by `Load` and by the watcher: it is binary and it decrypts. -/
def HasReadableField (G : Gcm) (key : Key) (d : Doc) : Prop :=
  ∃ k v b p, k ≠ idKey ∧ d[k]? = some v ∧ v.bytes? = some b ∧ decrypt G key b = .ok p

/-- What changes the cache: a local call, a `Load`, a change event. -/
inductive StoreStep where
  | call (e : LocalCall)
  | load (sh : Shuffle (GoString × Bson)) (f : LoadFaults) (coll : Collection)
  | event (sh : Shuffle (GoString × Bson)) (event : Except GoError Event)

/-- One of them; a `Load` counts when it is successful. -/
def storeStep (G : Gcm) (s : MongoStorage) : StoreStep → Option MongoStorage
  | .call e => some (e.apply s)
  | .load sh f coll =>
    match load G sh f coll s with
    | (.ok (), s') => some s'
    | (.error _, _) => none
  | .event sh event => some (processEvent G sh event s)

/-- Every document from which a section is built has a readable field. -/
def Furnished (G : Gcm) (s : MongoStorage) : StoreStep → Prop
  | .call _ => True
  | .load _ _ coll => ∀ id d, coll.get? id = some d → HasReadableField G s.key d
  | .event _ (.error _) => True
  | .event _ (.ok event) =>
    match event.operationType with
    | .insert | .update | .replace =>
      ∀ d, event.fullDocument = some d → event.documentKeyID ≠ [] → HasReadableField G s.key d
    | .delete | .other => True

section
variable {G : Gcm} {key : Key}

/-- A readable field is one that the watcher keeps. -/
theorem mem_readable {d : Doc} : (∃ k, k ∈ readable G key d) ↔ HasReadableField G key d := by
  simp only [GoMap.mem_iff, readable_eq_some, HasReadableField]
  constructor
  · rintro ⟨k, p, hk, v, b, hv, hb, hp⟩
    exact ⟨k, v, b, p, hk, hv, hb, hp⟩
  · rintro ⟨k, v, b, p, hk, hv, hb, hp⟩
    exact ⟨k, p, hk, v, b, hv, hb, hp⟩

/-- `GetValue` says that a key is there exactly when its section has it. -/
theorem getValue_found {s : MongoStorage} {sec k : GoString} :
    (s.getValue sec k).2 = true ↔ ∃ kv, s.data[sec]? = some kv ∧ k ∈ kv := by
  unfold MongoStorage.getValue
  cases hsec : s.data[sec]? with
  | none => simp
  | some kv =>
      dsimp only
      cases hk : kv[k]? with
      | none => simpa using GoMap.not_mem_iff.mpr hk
      | some v => simpa using GoMap.mem_iff.mpr ⟨v, hk⟩

/-- `HasSection` agrees with `GetValue` exactly when every section has a key. -/
theorem noGhosts_iff {s : MongoStorage} :
    NoGhosts s ↔ ∀ (sec : GoString) (kv : Section), s.data[sec]? = some kv → ∃ k, k ∈ kv := by
  refine ⟨fun h => h.keys, fun h => ⟨h, fun sec => ?_⟩⟩
  simp only [getValue_found, MongoStorage.hasSection, Std.ExtTreeMap.contains_iff_mem]
  rw [GoMap.mem_iff]
  constructor
  · rintro ⟨kv, hkv⟩
    obtain ⟨k, hk⟩ := h sec kv hkv
    exact ⟨k, kv, hkv, hk⟩
  · rintro ⟨k, kv, hkv, -⟩
    exact ⟨kv, hkv⟩

/-- An empty cache has no section to be empty. -/
theorem noGhosts_new : NoGhosts (MongoStorage.new key) := by
  rw [noGhosts_iff]
  intro sec kv hkv
  simp [MongoStorage.new] at hkv

/-- Putting one section in place, of which nothing is required if it has a key. -/
theorem noGhosts_insert {s : MongoStorage} (h : NoGhosts s) (sec : GoString) (kv : Section) :
    NoGhosts { s with data := s.data.insert sec kv } ↔ ∃ k, k ∈ kv := by
  rw [noGhosts_iff]
  constructor
  · intro hall
    exact hall sec kv (by rw [GoMap.getElem?_insert, if_pos rfl])
  · intro hkv sec' kv' hget
    rw [GoMap.getElem?_insert] at hget
    split at hget
    · cases hget
      exact hkv
    · exact h.keys sec' kv' hget

/-- Removing a section leaves the others as they were. -/
theorem noGhosts_erase {s : MongoStorage} (h : NoGhosts s) (sec : GoString) :
    NoGhosts { s with data := s.data.erase sec } := by
  rw [noGhosts_iff]
  intro sec' kv' hget
  rw [GoMap.getElem?_erase] at hget
  split at hget
  · cases hget
  · exact h.keys sec' kv' hget

/-- **The local calls** leave no section without keys. -/
theorem noGhosts_apply {s : MongoStorage} (h : NoGhosts s) (e : LocalCall) : NoGhosts (e.apply s) := by
  cases e with
  | setValue sec k value =>
      exact (noGhosts_insert h sec _).mpr ⟨k, GoMap.mem_insert.mpr (.inl rfl)⟩
  | deleteKey sec k =>
      simp only [LocalCall.apply, MongoStorage.deleteKey]
      split
      · exact h
      · next kv hkv =>
          split
          · dsimp only
            by_cases hempty : (kv.erase k).isEmpty = true
            · rw [if_pos hempty]
              exact noGhosts_erase h sec
            · rw [if_neg hempty]
              refine (noGhosts_insert h sec _).mpr ?_
              by_contra hno
              refine hempty (Std.ExtTreeMap.isEmpty_iff.mpr ?_)
              exact Std.ExtTreeMap.ext_getElem? fun k' => by
                rw [GoMap.not_mem_iff.mp fun hk' => hno ⟨k', hk'⟩]
                simp
          · exact h
  | deleteSection sec => exact noGhosts_erase h sec

/-- A document leaves no section without keys exactly when it has a readable field. -/
theorem noGhosts_applyFullDocument {s : MongoStorage} (h : NoGhosts s) (sh : Shuffle (GoString × Bson))
    (id : GoString) (doc : Option Doc) :
    NoGhosts (applyFullDocument G sh id doc s) ↔
      ∀ d, doc = some d → id ≠ [] → HasReadableField G s.key d := by
  cases doc with
  | none =>
      constructor
      · intro _ d hd
        cases hd
      · exact fun _ => h
  | some d =>
      by_cases hid : id = []
      · simp [applyFullDocument, hid, h]
      · rw [applyFullDocument_some hid, noGhosts_insert h, mem_readable]
        simp [hid]

/-- **One step** out of a state without such sections leads to another exactly when every document it builds
    a section from has a readable field. -/
theorem noGhosts_storeStep {s s' : MongoStorage} {a : StoreStep} (h : NoGhosts s)
    (hs : storeStep G s a = some s') : NoGhosts s' ↔ Furnished G s a := by
  cases a with
  | call e =>
      cases hs
      exact ⟨fun _ => trivial, fun _ => noGhosts_apply h e⟩
  -- after a load the sections are the documents, so a ghost is a document without a readable field
  | load sh f coll =>
      simp only [storeStep] at hs
      split at hs
      · next s'' hload =>
          cases hs
          obtain ⟨-, rfl⟩ := load_ok hload
          rw [noGhosts_iff]
          simp only [decrypted_getElem?, Furnished]
          constructor
          · intro hall id d hget
            exact mem_readable.mp (hall id _ (by rw [hget, Option.map_some]))
          · intro hdocs id kv hkv
            obtain ⟨d, hget, rfl⟩ := Option.map_eq_some_iff.mp hkv
            exact mem_readable.mpr (hdocs id d hget)
      · cases hs
  | event sh event =>
      cases hs
      cases event with
      | error err => exact ⟨fun _ => trivial, fun _ => h⟩
      | ok ev =>
          obtain ⟨op, id, doc⟩ := ev
          have happly := noGhosts_applyFullDocument (G := G) h sh id doc
          -- a document that arrives takes the place of its section
          cases op with
          | delete => exact ⟨fun _ => trivial, fun _ => noGhosts_erase h id⟩
          | other => exact ⟨fun _ => trivial, fun _ => h⟩
          | insert => exact happly
          | update => exact happly
          | replace => exact happly

/-- **No ghost sections, exactly when every document is furnished.** In every state of a run from `New` each
    section has a key, if and only if every document that the run loads or receives for a section has a
    readable field. -/
theorem noGhosts_iff_furnished {steps : List StoreStep} {s' : MongoStorage}
    (hrun : run (storeStep G) (MongoStorage.new key) steps = some s') :
    (∀ s, Reaches (storeStep G) (MongoStorage.new key) steps s → NoGhosts s) ↔
      Along (storeStep G) (Furnished G) (MongoStorage.new key) steps := by
  refine always_iff_along (I := fun _ => True) (fun s a s' _ hs hstep => ?_) trivial noGhosts_new hrun
  exact ⟨trivial, noGhosts_storeStep hs hstep⟩

end

/-- A document with no field beside its `_id`. -/
def bareCollection : Collection := Collection.empty.put (str "s3") ∅

/-- A document whose one field does not decrypt: it is shorter than a nonce. -/
def shortDoc : Doc := (∅ : Doc).insert (str "type") (.binary 0 [1, 2, 3])

/-- **Two ghost sections**: a `Load` of a document without fields, and an insert event whose one field does
    not decrypt, each leave a section without keys. -/
theorem ghost_reached :
    (∃ s, run (storeStep tagGcm) (MongoStorage.new sampleKey)
        [.load (Shuffle.id _) (.none (Shuffle.id _)) bareCollection] = some s ∧
      s.hasSection (str "s3") = true ∧ (∀ k, (s.getValue (str "s3") k).2 = false) ∧ ¬ NoGhosts s) ∧
    ∃ s, run (storeStep tagGcm) (MongoStorage.new sampleKey)
        [.event (Shuffle.id _) (.ok ⟨.insert, str "s3", some shortDoc⟩)] = some s ∧
      s.hasSection (str "s3") = true ∧ (∀ k, (s.getValue (str "s3") k).2 = false) ∧ ¬ NoGhosts s := by
  have hghost : ∀ s : MongoStorage, s.data[str "s3"]? = some ∅ →
      s.hasSection (str "s3") = true ∧ (∀ k, (s.getValue (str "s3") k).2 = false) ∧ ¬ NoGhosts s := by
    intro s hs
    have hnone : ∀ k, (s.getValue (str "s3") k).2 = false := by
      intro k
      simp [MongoStorage.getValue, hs]
    refine ⟨?_, hnone, fun h => ?_⟩
    · rw [MongoStorage.hasSection, Std.ExtTreeMap.contains_iff_mem]
      exact GoMap.mem_iff.mpr ⟨∅, hs⟩
    · obtain ⟨k, hk⟩ := h.keys (str "s3") ∅ hs
      exact absurd hk Std.ExtTreeMap.not_mem_empty
  exact ⟨⟨_, rfl, hghost _ (by decide)⟩, ⟨_, rfl, hghost _ (by decide)⟩⟩

/-- A field of the concrete inputs below: a nonce, the tag and the plaintext. -/
def sealedField : Bson := .binary 0 (sampleNonce.val ++ sampleKey.val ++ str "s3")

/-- A document with one encrypted field. -/
def sealedDoc : Doc := (∅ : Doc).insert (str "type") sealedField

/-- The sample's field decrypts under the sample's key. -/
theorem sealedField_readable {d : Doc} (h : d[str "type"]? = some sealedField) :
    HasReadableField tagGcm sampleKey d :=
  ⟨str "type", sealedField, _, str "s3", by decide, h, rfl, by decide⟩

/-- Steps of every kind, their documents furnished. -/
def furnishedSteps : List StoreStep :=
  [.load (Shuffle.id _) (.none (Shuffle.id _)) (Collection.empty.put (str "s3") sealedDoc),
    .event (Shuffle.id _) (.ok ⟨.update, str "b2", some sealedDoc⟩), .call (.deleteKey (str "s3") (str "type"))]

/-- A run of a load, an event and local calls, each bringing readable fields: no state on the way has a ghost. -/
theorem noGhosts_furnishedSteps :
    (∃ s', run (storeStep tagGcm) (MongoStorage.new sampleKey) furnishedSteps = some s') ∧
      ∀ s, Reaches (storeStep tagGcm) (MongoStorage.new sampleKey) furnishedSteps s → NoGhosts s := by
  obtain ⟨s', hrun⟩ : ∃ s', run (storeStep tagGcm) (MongoStorage.new sampleKey) furnishedSteps = some s' :=
    ⟨_, rfl⟩
  refine ⟨⟨s', hrun⟩, (noGhosts_iff_furnished hrun).mpr
    ⟨fun id d hget => ?_, fun s₁ h₁ => ⟨?_, fun s₂ _ => ⟨trivial, ?_⟩⟩⟩⟩
  · rw [Collection.get?_put] at hget
    split at hget
    · cases hget
      refine sealedField_readable ?_
      rw [stored, GoMap.getElem?_insert, if_neg (by decide)]
      decide
    · simp [Collection.get?, Collection.empty] at hget
  · intro d hd _
    have hkey : s₁.key = sampleKey := by
      cases h₁
      rfl
    cases hd
    rw [hkey]
    exact sealedField_readable (by decide)
  · exact fun _ _ => trivial

end RCloneCloud
