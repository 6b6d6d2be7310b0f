import RCloneCloud.Lib.Prog
import RCloneCloud.Storage.Load

/-!
# `Storage.Save` — `MongoStorage.Save` as a program over driver calls

`save` is the body of `Save` between taking and releasing the read lock: list the ids, upsert every
section, delete the ids left over. It is a `Lib.Prog` whose calls are the driver calls, so the same
definition is run alone against a server that fails as `SaveFaults` says (`runSave`), and stepped call by
call next to another process. What the process itself leaves open, the iteration orders and the nonces, is
`SaveChoice`.

`Encrypts` is what the replacement of a section has to be for a reader: every key there under its own nonce, and
nothing else besides `_id`. It is proved of whatever order the keys were visited in (`encrypts_of_replacement`), and
`Encrypts.readable_eq` gives back the section.
-/

set_option autoImplicit false

namespace RCloneCloud

open Lib

/-- The driver calls of `Save`. -/
inductive DriverCall where
  | find
  | replaceOne (id : GoString) (doc : Doc)
  | deleteOne (id : GoString)

/-- What a driver call returns. -/
def DriverCall.Answer : DriverCall → Type
  | .find => Except GoError (Cursor Doc)
  | .replaceOne _ _ => Except GoError Unit
  | .deleteOne _ => Except GoError Unit

/-- What one `Save` leaves open: the orders in which it ranges over the sections, over the keys of each
    and over the ids to delete, and what the random source yields for each field. -/
structure SaveChoice where
  sections : Shuffle (GoString × Section)
  keys : GoString → Shuffle (GoString × GoString)
  ids : Shuffle (GoString × Bool)
  nonce : GoString → GoString → Except GoError Nonce

/-- A `Save` in progress: what is left of it, as a program over the driver calls. -/
abbrev SaveProg := Prog DriverCall DriverCall.Answer (Except GoError Unit)

/-- Decoding a listed document into `struct { ID string }`: its `_id` has to be a string. -/
def decodeID (doc : Doc) : Except GoError GoString :=
  match doc.id? with
  | some id => .ok id
  | none => .error (.external (str "error decoding key _id"))

/-- The loop over the listing. The result of the cursor's `Err` is not looked at. -/
def listExisting : List Doc → GoMap Bool → Except GoError (GoMap Bool)
  | [], existingIDs => .ok existingIDs
  | doc :: rest, existingIDs =>
    match decodeID doc with
    | .error err => .error (.wrapf "save: decode existing: %w" [] err)
    | .ok id => listExisting rest (existingIDs.insert id true)

/-- One field of the replacement document. -/
def saveField (G : Gcm) (key : Key) (ch : SaveChoice) (sec k : GoString) (v : GoString) :
    Except GoError (Option Bson) :=
  match encrypt G key (ch.nonce sec k) v with
  | .error err => .error (.wrapf "save: encrypt %q.%q: %w" [sec, k] err)
  | .ok ciphertext => .ok (some (.binary 0 ciphertext))

/-- The deletion loop; the errors are dropped. -/
def deleteAll : List GoString → SaveProg
  | [] => .pure (.ok ())
  | id :: rest => .call (.deleteOne id) fun _ => deleteAll rest

/-- The upsert loop, followed by the deletion loop over what is left of `existingIDs`. -/
def upsertAll (G : Gcm) (key : Key) (ch : SaveChoice) :
    List (GoString × Section) → GoMap Bool → SaveProg
  | [], existingIDs => deleteAll ((ch.ids.apply existingIDs.toList).map Prod.fst)
  | (sec, kv) :: rest, existingIDs =>
    match collect (saveField G key ch sec) ((ch.keys sec).apply kv.toList) (∅ : Doc) with
    | .error err => .pure (.error err)
    -- `doc` carries no `_id`; the filter supplies it
    | .ok doc => .call (.replaceOne sec doc) fun
        | .error err => .pure (.error (.wrapf "save: upsert %q: %w" [sec] err))
        | .ok () => upsertAll G key ch rest (existingIDs.erase sec)

/-- `Save`. -/
def save (G : Gcm) (s : MongoStorage) (ch : SaveChoice) : SaveProg :=
  .call .find fun
    | .error err => .pure (.error (.wrapf "save: list existing: %w" [] err))
    | .ok cursor =>
      -- a cursor that stops early is taken for a short listing
      match listExisting cursor.items ∅ with
      | .error err => .pure (.error err)
      | .ok existingIDs => upsertAll G s.key ch (ch.sections.apply s.data.toList) existingIDs

/-! ## `Save` alone against a failing server -/

/-- How the driver calls of one `Save` end. -/
structure SaveFaults where
  find : FindOutcome
  replace : GoString → Outcome
  delete : GoString → Outcome

/-- The server's answer to a driver call. -/
def serve (f : SaveFaults) : (op : DriverCall) → Server → op.Answer × Server
  | .find, s => (s.coll.find f.find, s)
  | .replaceOne id doc, s => s.replaceOne (f.replace id) id doc
  | .deleteOne id, s => s.deleteOne (f.delete id) id

/-- `Save` with no other writer: what it returns, and the server afterwards. -/
def runSave (G : Gcm) (s : MongoStorage) (ch : SaveChoice) (f : SaveFaults) (srv : Server) :
    Except GoError Unit × Server :=
  (save G s ch).exec (serve f) srv

/-- A process and the server it works on. -/
structure Process where
  store : MongoStorage
  srv : Server

/-- `Save` as a step of the process: the cache is only read, under the read lock. -/
def Process.save (G : Gcm) (ch : SaveChoice) (f : SaveFaults) (p : Process) :
    Except GoError Unit × Process :=
  match runSave G p.store ch f p.srv with
  | (r, srv) => (r, { p with srv := srv })

/-- A `Save` of a process runs on the server and leaves the cache alone. -/
theorem Process.save_eq {G : Gcm} {ch : SaveChoice} {f : SaveFaults} {p p' : Process}
    {r : Except GoError Unit} (h : p.save G ch f = (r, p')) :
    runSave G p.store ch f p.srv = (r, p'.srv) ∧ p'.store = p.store := by
  cases h
  exact ⟨rfl, rfl⟩

/-- The faults of a `Save` during which no driver call fails. -/
def SaveFaults.none (order : Shuffle Doc) : SaveFaults :=
  ⟨.cursor order Option.none, fun _ => .ok, fun _ => .ok⟩

/-- The choices of a `Save` that visits everything in key order and draws the same nonce each time. -/
def SaveChoice.inOrder (nonce : Nonce) : SaveChoice :=
  ⟨Shuffle.id _, fun _ => Shuffle.id _, Shuffle.id _, fun _ _ => .ok nonce⟩

/-! ## The replacement document -/

/-- `d` is the complete encryption of a section: beside its `_id` it holds, under each key of the section
    and nothing else, a nonce followed by the value sealed with it. -/
def Encrypts (G : Gcm) (key : Key) (kv : Section) (d : Doc) : Prop :=
  ∀ k, k ≠ idKey →
    match kv[k]? with
    | none => d[k]? = none
    | some v => ∃ nonce : Nonce, d[k]? = some (.binary 0 (nonce.val ++ G.sealBox key nonce.val v))

section
variable {G : Gcm} {key : Key} {ch : SaveChoice}

/-- A field the replacement document holds was encrypted with some nonce. -/
theorem saveField_ok {sec k v : GoString} {w : Option Bson} (h : saveField G key ch sec k v = .ok w) :
    ∃ nonce : Nonce, w = some (.binary 0 (nonce.val ++ G.sealBox key nonce.val v)) := by
  unfold saveField at h
  cases hn : ch.nonce sec k with
  | error err => simp [hn, encrypt] at h
  | ok nonce =>
      simp only [hn, encrypt] at h
      cases h
      exact ⟨nonce, rfl⟩

/-- **The document the inner loop builds** has the fields of the section and no others, each encrypted. -/
theorem replacement_getElem? {sec : GoString} {kv : Section} {doc : Doc}
    (h : collect (saveField G key ch sec) ((ch.keys sec).apply kv.toList) ∅ = .ok doc) (k : GoString) :
    match kv[k]? with
    | none => doc[k]? = none
    | some v => ∃ nonce : Nonce, doc[k]? = some (.binary 0 (nonce.val ++ G.sealBox key nonce.val v)) := by
  obtain ⟨ht, rfl⟩ := collect_eq_ok ((ch.keys sec).perm kv.toList) h
  rw [Std.ExtTreeMap.getElem?_filterMap']
  cases hk : kv[k]? with
  | none => simp
  | some v =>
      obtain ⟨w, hw⟩ := ht k v hk
      obtain ⟨nonce, rfl⟩ := saveField_ok hw
      exact ⟨nonce, by simp [pick, hw]⟩

/-- A replacement the server accepts carries no `_id` of its own. -/
theorem keepsId_replacement {sec : GoString} {kv : Section} {doc : Doc}
    (h : collect (saveField G key ch sec) ((ch.keys sec).apply kv.toList) ∅ = .ok doc) (id : GoString) :
    keepsId id doc = true ↔ idKey ∉ kv := by
  have hk := replacement_getElem? h idKey
  rw [GoMap.not_mem_iff]
  cases hkv : kv[idKey]? with
  | none => simp_all [keepsId]
  | some v =>
      rw [hkv] at hk
      obtain ⟨nonce, hd⟩ := hk
      simp [keepsId, hd]

/-- The document that `ReplaceOne` is given encrypts the section, whatever the order of its keys. -/
theorem encrypts_of_replacement {sec : GoString} {kv : Section} {doc : Doc}
    (h : collect (saveField G key ch sec) ((ch.keys sec).apply kv.toList) ∅ = .ok doc) {id : GoString} :
    Encrypts G key kv (stored id doc) := by
  intro k hk
  have hd := replacement_getElem? h k
  cases hkv : kv[k]? with
  | none => simpa [stored, GoMap.getElem?_insert, Ne.symm hk, hkv] using hd
  | some w => simpa [stored, GoMap.getElem?_insert, Ne.symm hk, hkv] using hd

/-- What is sealed under a key opens under it, the nonce being read off the front. -/
theorem decrypt_sealed (nonce : Nonce) (v : GoString) :
    decrypt G key (nonce.val ++ G.sealBox key nonce.val v) = .ok v :=
  decrypt_encrypt (show encrypt G key (.ok nonce) v = .ok _ from rfl)

/-- Every binary field of an encryption decrypts. -/
theorem Encrypts.decryptable {kv : Section} {d : Doc} (h : Encrypts G key kv d) :
    Decryptable G key d := by
  intro k v b hk hne hb
  have hd := h k hne
  cases hkv : kv[k]? with
  | none => rw [hkv] at hd; simp [hk] at hd
  | some w =>
      rw [hkv] at hd
      obtain ⟨nonce, hd⟩ := hd
      rw [hk] at hd
      cases hd
      cases hb
      exact ⟨w, decrypt_sealed nonce w⟩

/-- **What is read back from an encrypted section is the section**, if no key of it is `_id`. -/
theorem Encrypts.readable_eq {kv : Section} {d : Doc} (h : Encrypts G key kv d) (hid : idKey ∉ kv) :
    readable G key d = kv := by
  refine Std.ExtTreeMap.ext_getElem? fun k => ?_
  rw [readable_getElem?]
  by_cases hk : k = idKey
  · -- the `_id` of the document is skipped, and the section has no such key
    rw [hk, GoMap.not_mem_iff.mp hid]
    cases d[idKey]? with
    | none => rfl
    | some v => simp [pick, watchField]
  · have hd := h k hk
    cases hkv : kv[k]? with
    | none => rw [hkv] at hd; simp [hd]
    | some v =>
        rw [hkv] at hd
        obtain ⟨nonce, hd⟩ := hd
        simp [hd, pick, watchField, hk, Bson.bytes?, decrypt_sealed]

end

end RCloneCloud
