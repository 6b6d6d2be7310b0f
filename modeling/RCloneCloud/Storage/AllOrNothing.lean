import RCloneCloud.Storage.Load

/-!
# `Storage.AllOrNothing` — what a `Load` leaves behind

`Load` builds the new configuration beside the cache and puts it in place as its last act. Every way out
with an error comes before that (`loadFrom_error`); the way out with nil is taken only when the whole
collection has been read (`load_nil_iff`).

Both facts are read off the two ways that `loadFrom` can end. What a reader may rely on after an error is that the
cache is the one there was; after nil, that it is the readable part of the collection the cursor saw (`LoadedFrom`).
-/

set_option autoImplicit false

namespace RCloneCloud

open Lib

/-- The section holds exactly the binary fields of the document, each decrypted. -/
structure HoldsFields (G : Gcm) (key : Key) (d : Doc) (kv : Section) : Prop where
  decryptable : Decryptable G key d
  fields : ∀ k p, kv[k]? = some p ↔
    k ≠ idKey ∧ ∃ v b, d[k]? = some v ∧ v.bytes? = some b ∧ decrypt G key b = .ok p

/-- The storage after a `Load` of the whole collection: its sections are the documents with string ids. -/
structure LoadedFrom (G : Gcm) (coll : Collection) (s s' : MongoStorage) : Prop where
  key : s'.key = s.key
  ids : ∀ id, s'.hasSection id = true ↔ ∃ d ∈ coll.all, d.id? = some id
  sections : ∀ d ∈ coll.all, ∀ id, d.id? = some id →
    ∃ kv, s'.data[id]? = some kv ∧ HoldsFields G s.key d kv

section
variable {G : Gcm} {sh : Shuffle (GoString × Bson)} {f : LoadFaults} {coll : Collection}
  {s : MongoStorage}

/-- A `Load` that succeeds has put the decrypted collection in place and has kept the key. -/
theorem loadedFrom_of_ok {s' : MongoStorage} (h : load G sh f coll s = (.ok (), s')) :
    LoadedFrom G coll s s' := by
  obtain ⟨hall, rfl⟩ := load_ok h
  constructor
  · rfl
  · intro id
    rw [MongoStorage.hasSection, Std.ExtTreeMap.contains_iff_mem, GoMap.mem_iff]
    constructor
    · rintro ⟨kv, hkv⟩
      rw [decrypted_getElem?] at hkv
      obtain ⟨d, hget, -⟩ := Option.map_eq_some_iff.mp hkv
      exact ⟨d, Collection.mem_all_id.mpr hget⟩
    · rintro ⟨d, hd, hid⟩
      have hget : coll.get? id = some d := Collection.mem_all_id.mp ⟨hd, hid⟩
      exact ⟨readable G s.key d, by rw [decrypted_getElem?, hget, Option.map_some]⟩
  · intro d hd id hid
    have hget : coll.get? id = some d := Collection.mem_all_id.mp ⟨hd, hid⟩
    refine ⟨readable G s.key d, by rw [decrypted_getElem?, hget, Option.map_some], hall id d hget, ?_⟩
    intro k p
    exact readable_eq_some

/-- **`Load` is all or nothing.** With an error, wherever it came from, the storage is what it was; with
    nil, it is the collection. -/
theorem load_all_or_nothing (G : Gcm) (sh : Shuffle (GoString × Bson)) (f : LoadFaults)
    (coll : Collection) (s : MongoStorage) :
    (∀ err, (load G sh f coll s).1 = .error err → (load G sh f coll s).2 = s) ∧
    ((load G sh f coll s).1 = .ok () → LoadedFrom G coll s (load G sh f coll s).2) := by
  constructor
  · intro err herr
    exact loadFrom_error (Prod.ext herr rfl)
  · intro hok
    exact loadedFrom_of_ok (Prod.ext hok rfl)

/-! ## When `Load` returns nil -/

/-- A loop that ends normally has decoded every document. -/
theorem loadDocs_decoded {key : Key} {decode : Doc → Option GoError} {l : List Doc} {acc data : Config}
    (h : loadDocs G key sh decode l acc = .ok data) : ∀ d ∈ l, decode d = none := by
  induction l generalizing acc with
  | nil => intro d hd; cases hd
  | cons doc rest ih =>
      simp only [loadDocs] at h
      cases hdec : decode doc with
      | some err => rw [hdec] at h; cases h
      | none =>
          rw [hdec] at h
          have hrest : ∀ d ∈ rest, decode d = none := by
            cases hid : doc.id? with
            | none =>
                rw [hid] at h
                exact ih h
            | some id =>
                rw [hid] at h
                dsimp only at h
                split at h
                · cases h
                · exact ih h
          intro d hd
          rcases List.mem_cons.mp hd with rfl | hd
          · exact hdec
          · exact hrest d hd

/-- **When `Load` returns nil**: the `Find` opens a cursor that does not stop early, every document decodes,
    and every binary field of those with a string id decrypts. -/
theorem load_nil_iff :
    (load G sh f coll s).1 = .ok () ↔
      (∃ order, f.find = .cursor order none) ∧ (∀ d ∈ coll.all, f.decode d = none) ∧
      AllDecryptable G s.key coll := by
  constructor
  · intro h
    have hall : AllDecryptable G s.key coll := (load_ok (Prod.ext h rfl)).1
    unfold load loadFrom at h
    -- each way out with an error is one of the conditions that fails
    cases hf : f.find with
    | fail err => simp [hf, Collection.find] at h
    | cursor order stop =>
        rw [hf] at h
        cases stop with
        | some stop =>
            simp only [Collection.find] at h
            split at h <;> cases h
        | none =>
            simp only [Collection.find] at h
            split at h
            · cases h
            · next data hdata =>
                refine ⟨⟨order, rfl⟩, fun d hd => ?_, hall⟩
                exact loadDocs_decoded hdata d (order.mem_apply.mpr hd)
  -- conversely no step of the loop has an error to stop at
  · rintro ⟨⟨order, hf⟩, hdec, hall⟩
    obtain ⟨data, hdata⟩ : ∃ data, loadDocs G s.key sh f.decode (order.apply coll.all) ∅ = .ok data :=
      loadDocs_total ∅ (fun d hd => hdec d (order.mem_apply.mp hd)) fun d hd id hid =>
        hall id d (Collection.mem_all_id.mp ⟨order.mem_apply.mp hd, hid⟩)
    simp only [load, loadFrom, hf, Collection.find, hdata]

end

end RCloneCloud
