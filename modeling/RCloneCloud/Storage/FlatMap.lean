import RCloneCloud.Lib.FlatMap
import RCloneCloud.Storage.Ghost

/-!
# `Storage.FlatMap` — the storage API as a map from (section, key) to value

The cache is a map of maps, made and unmade section by section. Seen through the accessors it is one finite
map from pairs (`api_refines_flatMap`): what the local calls write is one entry or the entries of one
section, and what the accessors answer is read off that map.

Both levels are defined on their own: the faithful operations in `Storage.Basic`, the flat map in `Lib.FlatMap`. The
refinement is a run theorem: after any sequence of calls the cache flattens to what the flat operations made, and
every answer on the way is one that the flat map allows. A section without keys is the only difference between the
two, which `HasSection` and `GetSectionList` would show; the calls start from an empty cache and never make one.
-/

set_option autoImplicit false

namespace RCloneCloud

open Lib

/-- A call of the API; one that lists carries the order in which it ranges over the map. -/
inductive ApiCall where
  | setValue (sec key value : GoString)
  | deleteKey (sec key : GoString)
  | deleteSection (sec : GoString)
  | getValue (sec key : GoString)
  | hasSection (sec : GoString)
  | getSectionList (sh : Shuffle GoString)
  | getKeyList (sh : Shuffle GoString) (sec : GoString)

/-- What a call returns. -/
inductive ApiAnswer where
  | done
  | deleted (ok : Bool)
  | value (v : GoString) (ok : Bool)
  | has (ok : Bool)
  | sections (l : List GoString)
  | keys (l : Option (List GoString))

/-- A call on the storage. -/
def apiNext (s : MongoStorage) : ApiCall → ApiAnswer × MongoStorage
  | .setValue sec key value => (.done, s.setValue sec key value)
  | .deleteKey sec key => (.deleted (s.deleteKey sec key).1, (s.deleteKey sec key).2)
  | .deleteSection sec => (.done, s.deleteSection sec)
  | .getValue sec key => (.value (s.getValue sec key).1 (s.getValue sec key).2, s)
  | .hasSection sec => (.has (s.hasSection sec), s)
  | .getSectionList sh => (.sections (s.getSectionList sh), s)
  | .getKeyList sh sec => (.keys (s.getKeyList sh sec), s)

/-! ## The flat map -/

/-- A finite map from section and key to value. -/
abbrev FlatConfig := FlatMap GoString GoString GoString

/-- The map after a call. -/
def flatAfter (m : FlatConfig) : ApiCall → FlatConfig
  | .setValue sec key value => m.set sec key value
  | .deleteKey sec key => m.remove sec key
  | .deleteSection sec => m.removeSection sec
  | .getValue _ _ | .hasSection _ | .getSectionList _ | .getKeyList _ _ => m

/-- The answers the map gives. -/
def FlatAnswer (m : FlatConfig) : ApiCall → ApiAnswer → Prop
  | .setValue _ _ _, .done => True
  | .deleteKey sec key, .deleted ok => ok = true ↔ m.get sec key ≠ none
  | .deleteSection _, .done => True
  | .getValue sec key, .value v ok =>
    match m.get sec key with
    | some w => v = w ∧ ok = true
    | none => v = [] ∧ ok = false
  | .hasSection sec, .has ok => ok = true ↔ m.HasSection sec
  | .getSectionList _, .sections l => Lists l m.HasSection
  | .getKeyList _ sec, .keys none => ¬ m.HasSection sec
  | .getKeyList _ sec, .keys (some l) => m.HasSection sec ∧ Lists l fun key => m.get sec key ≠ none
  | _, _ => False

section
variable {s : MongoStorage}

/-- What `GetValue` answers is the entry of the flat map. -/
theorem flatten_getValue (sec key : GoString) :
    FlatAnswer (flatten s.data) (.getValue sec key)
      (.value (s.getValue sec key).1 (s.getValue sec key).2) := by
  simp only [FlatAnswer, flatten_get]
  unfold MongoStorage.getValue
  cases hsec : s.data[sec]? with
  | none => exact ⟨rfl, rfl⟩
  | some kv =>
      rw [Option.bind_some]
      dsimp only
      cases hv : kv[key]? with
      | none => exact ⟨rfl, rfl⟩
      | some v => exact ⟨rfl, rfl⟩

/-- `DeleteKey` removes one entry, if it is there. -/
theorem flatten_deleteKey (sec key : GoString) :
    ((s.deleteKey sec key).1 = true ↔ (flatten s.data).get sec key ≠ none) ∧
      flatten (s.deleteKey sec key).2.data = (flatten s.data).remove sec key := by
  unfold MongoStorage.deleteKey
  rw [flatten_get]
  -- removing an entry that is not there changes nothing
  have hsame : (flatten s.data).get sec key = none →
      flatten s.data = (flatten s.data).remove sec key := by
    intro hnone
    ext sec' key' : 3
    simp only [FlatMap.remove]
    split
    · next he => rw [← he.1, ← he.2, hnone]
    · rfl
  rw [flatten_get] at hsame
  cases hsec : s.data[sec]? with
  | none =>
      rw [hsec] at hsame
      exact ⟨by simp, hsame rfl⟩
  | some kv =>
      rw [hsec, Option.bind_some] at hsame
      rw [Option.bind_some]
      dsimp only
      by_cases hk : key ∈ kv
      · rw [if_pos hk]
        obtain ⟨v, hv⟩ := GoMap.mem_iff.mp hk
        refine ⟨by simp [hv], ?_⟩
        dsimp only
        rw [← flatten_remove hsec]
        by_cases hempty : (kv.erase key).isEmpty = true
        · rw [if_pos hempty, Std.ExtTreeMap.isEmpty_iff.mp hempty, flatten_erase_empty]
        · rw [if_neg hempty]
      · rw [if_neg hk]
        have hnone := GoMap.not_mem_iff.mp hk
        exact ⟨by simp [hnone], hsame hnone⟩

/-- The keys of a map are listed in whatever order the map is visited. -/
theorem lists_keys {V : Type} (sh : Shuffle GoString) (m : GoMap V) :
    Lists (sh.apply m.keys) fun k => k ∈ m := by
  refine ⟨(sh.perm m.keys).nodup_iff.mpr Std.ExtTreeMap.nodup_keys, fun k => ?_⟩
  rw [sh.mem_apply, Std.ExtTreeMap.mem_keys]

/-- **One call.** On a storage without empty sections the answer is that of the flat map, and the storage
    afterwards stands for the map afterwards. -/
theorem apiNext_flat (h : NoGhosts s) (a : ApiCall) :
    FlatAnswer (flatten s.data) a (apiNext s a).1 ∧ NoGhosts (apiNext s a).2 ∧
      flatten (apiNext s a).2.data = flatAfter (flatten s.data) a := by
  -- without ghosts a section is there when one of its entries is
  have hsections := flatten_hasSection h.keys
  cases a with
  | setValue sec key value =>
      exact ⟨trivial, noGhosts_apply h (.setValue sec key value), flatten_set s.data sec key value⟩
  | deleteKey sec key =>
      obtain ⟨hdeleted, hdata⟩ := flatten_deleteKey (s := s) sec key
      exact ⟨hdeleted, noGhosts_apply h (.deleteKey sec key), hdata⟩
  | deleteSection sec =>
      exact ⟨trivial, noGhosts_apply h (.deleteSection sec), flatten_removeSection s.data sec⟩
  | getValue sec key => exact ⟨flatten_getValue sec key, h, rfl⟩
  | hasSection sec =>
      refine ⟨?_, h, rfl⟩
      exact Std.ExtTreeMap.contains_iff_mem.trans (hsections sec).symm
  | getSectionList sh =>
      exact ⟨(lists_keys sh s.data).congr fun sec => (hsections sec).symm, h, rfl⟩
  | getKeyList sh sec =>
      refine ⟨?_, h, rfl⟩
      simp only [apiNext, MongoStorage.getKeyList]
      cases hsec : s.data[sec]? with
      | none =>
          rw [FlatAnswer, hsections]
          exact GoMap.not_mem_iff.mpr hsec
      | some kv =>
          refine ⟨(hsections sec).mpr (GoMap.mem_iff.mpr ⟨kv, hsec⟩), (lists_keys sh kv).congr fun key => ?_⟩
          rw [flatten_get, hsec, Option.bind_some]
          rw [Std.ExtTreeMap.mem_iff_isSome_getElem?, Option.isSome_iff_ne_none]

end

/-- **The storage API refines a flat map.** From `New`, every answer to any sequence of calls is the one that a
    finite map from (section, key) to value gives, and the cache stands for that map in the end. -/
theorem api_refines_flatMap (key : Key) (calls : List ApiCall) :
    Allows FlatAnswer flatAfter FlatMap.empty calls (outputs apiNext (MongoStorage.new key) calls) ∧
      flatten (calls.foldl (fun s a => (apiNext s a).2) (MongoStorage.new key)).data
        = calls.foldl flatAfter FlatMap.empty := by
  have hnew : flatten (MongoStorage.new key).data = (FlatMap.empty : FlatConfig) := by
    ext sec key' : 3
    simp [flatten, FlatMap.empty, MongoStorage.new]
  have hrun := outputs_allowed (R := fun s m => NoGhosts s ∧ flatten s.data = m)
    (fun s m a hR => by
      obtain ⟨hs, rfl⟩ := hR
      exact apiNext_flat hs a)
    ⟨@noGhosts_new key, hnew⟩ calls
  exact ⟨hrun.1, hrun.2.2⟩

end RCloneCloud
