import RCloneCloud.Storage.SaveSpec

/-!
# `Storage.RoundTrip` — `Load` after `Save`

What a successful `Save` stores, a `Load` under the same key reads back exactly, whatever the collection
held before, whatever orders the maps were visited in and whatever nonces were drawn.

The proof joins two sides that know nothing of each other: `runSave_mirrors` says that the collection after the `Save`
mirrors the cache, and `load_ok` what a `Load` reads from any collection. The nonces are whatever was drawn, since
`Gcm` inverts its own sealing under each of them.
-/

set_option autoImplicit false

namespace RCloneCloud

open Lib

/-- **Save/Load round trip.** After a `Save` during which no driver call fails and which returns nil, a
    `Load` on any storage with the same key returns nil and its cache is the saved configuration. -/
theorem load_after_save {G : Gcm} {s : MongoStorage} {ch : SaveChoice} {order : Shuffle Doc}
    {srv srv' : Server} (h : runSave G s ch (.none order) srv = (.ok (), srv')) (t : MongoStorage)
    (ht : t.key = s.key) (sh : Shuffle (GoString × Bson)) (order' : Shuffle Doc) :
    load G sh (.none order') srv'.coll t = (.ok (), { t with data := s.data }) := by
  have hm : Mirrors G s.key s.data srv'.coll := runSave_mirrors h
  rw [← ht] at hm
  rw [load_of_decryptable order' hm.allDecryptable, hm.decrypted_eq]

/-- Two sections, one without keys, saved over a document that is no section any more. -/
def roundTripStore : MongoStorage :=
  ⟨sampleKey, ((∅ : Config).insert (str "s3") ((∅ : Section).insert (str "type") (str "s3"))).insert
    (str "bare") ∅⟩

/-- A collection holding a document that is no section. -/
def roundTripServer : Server := ⟨Collection.empty.put (str "old") ∅, []⟩

/-- The server held a document of a section that is gone, and one section has no keys: the load reads back the store. -/
theorem load_after_save_sample :
    ∃ srv', runSave tagGcm roundTripStore (.inOrder sampleNonce) (.none (Shuffle.id _)) roundTripServer
        = (.ok (), srv') ∧
      load tagGcm (Shuffle.id _) (.none (Shuffle.id _)) srv'.coll ⟨sampleKey, ∅⟩
        = (.ok (), ⟨sampleKey, roundTripStore.data⟩) := by
  have h : runSave tagGcm roundTripStore (.inOrder sampleNonce) (.none (Shuffle.id _)) roundTripServer
      = (.ok (), (runSave tagGcm roundTripStore (.inOrder sampleNonce) (.none (Shuffle.id _))
          roundTripServer).2) := Prod.ext (by decide) rfl
  exact ⟨_, h, load_after_save h ⟨sampleKey, ∅⟩ rfl _ _⟩

end RCloneCloud
