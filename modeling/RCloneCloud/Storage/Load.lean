import RCloneCloud.Mongo.Collection
import RCloneCloud.Storage.Basic

/-!
# `Storage.Load` — reading documents: `Load` and `applyFullDocument`

Both walk the fields of a document and keep what is binary and decrypts. They differ on a binary field
that does not decrypt: `Load` fails, the watcher skips the field. `readable` is what the watcher keeps of
a document, and all of what `Load` keeps when it succeeds, so `decrypted` is the configuration a successful
`Load` reads (`load_ok`), and the one it does read when nothing fails (`load_of_decryptable`).

The faults of a `Load` are parameters: whether `Find` fails and whether the cursor ends with an error. The order in
which the documents come, and that of the fields of each, is a `Shuffle`, and no result below depends on it.
-/

set_option autoImplicit false

namespace RCloneCloud

open Lib

/-- One field in `Load`'s loop over a document. -/
def loadField (G : Gcm) (key : Key) (id : GoString) (k : GoString) (v : Bson) :
    Except GoError (Option GoString) :=
  -- the `_id` names the section and is no key of it
  if k = idKey then .ok none
  else
    match v.bytes? with
    -- a field of another type is left out
    | none => .ok none
    | some encrypted =>
      match decrypt G key encrypted with
      | .error err => .error (.wrapf "load: decrypt %q.%q: %w" [id, k] err)
      | .ok plaintext => .ok (some plaintext)

/-- One field in `applyFullDocument`'s loop over a document. -/
def watchField (G : Gcm) (key : Key) (k : GoString) (v : Bson) : Except GoError (Option GoString) :=
  if k = idKey then .ok none
  else
    match v.bytes? with
    | none => .ok none
    | some encrypted =>
      match decrypt G key encrypted with
      -- what does not decrypt is left out, where `Load` gives up
      | .error _ => .ok none
      | .ok plaintext => .ok (some plaintext)

/-- What the watcher keeps of a document. -/
def readable (G : Gcm) (key : Key) (d : Doc) : Section := d.filterMap (pick (watchField G key))

/-- Every binary field of the document decrypts under the key. -/
def Decryptable (G : Gcm) (key : Key) (d : Doc) : Prop :=
  ∀ k v b, d[k]? = some v → k ≠ idKey → v.bytes? = some b → ∃ p, decrypt G key b = .ok p

section
variable {G : Gcm} {key : Key}

theorem watchField_total (d : Doc) : Total (watchField G key) d := by
  intro k v _
  unfold watchField
  split
  · exact ⟨_, rfl⟩
  · split
    · exact ⟨_, rfl⟩
    · split <;> exact ⟨_, rfl⟩

/-- Where `Load` accepts a field, the watcher makes the same of it. -/
theorem watchField_of_loadField {id k : GoString} {v : Bson} {w : Option GoString}
    (h : loadField G key id k v = .ok w) : watchField G key k v = .ok w := by
  unfold loadField at h
  unfold watchField
  split
  · next hk => rwa [if_pos hk] at h
  · next hk =>
      rw [if_neg hk] at h
      cases hb : v.bytes? with
      | none => simpa [hb] using h
      | some b =>
          rw [hb] at h
          dsimp only at h ⊢
          cases hp : decrypt G key b with
          | error err => rw [hp] at h; cases h
          | ok p => rw [hp] at h; exact h

/-- `Load` fails on no field of a document exactly when its binary fields decrypt. -/
theorem loadField_total {id : GoString} {d : Doc} :
    Total (loadField G key id) d ↔ Decryptable G key d := by
  constructor
  · intro h k v b hkv hk hb
    obtain ⟨w, hw⟩ := h k v hkv
    simp only [loadField, if_neg hk, hb] at hw
    -- only a failed decryption makes the field loop fail
    cases hp : decrypt G key b with
    | error err => rw [hp] at hw; cases hw
    | ok p => exact ⟨p, rfl⟩
  · intro h k v hkv
    unfold loadField
    split
    · exact ⟨_, rfl⟩
    · next hk =>
        cases hb : v.bytes? with
        | none => exact ⟨_, rfl⟩
        | some b =>
            obtain ⟨p, hp⟩ := h k v b hkv hk hb
            exact ⟨some p, by simp [hp]⟩

theorem filterMap_loadField {id : GoString} {d : Doc} (h : Total (loadField G key id) d) :
    d.filterMap (pick (loadField G key id)) = readable G key d := by
  refine Std.ExtTreeMap.ext_getElem? fun k => ?_
  rw [readable, Std.ExtTreeMap.getElem?_filterMap', Std.ExtTreeMap.getElem?_filterMap']
  cases hk : d[k]? with
  | none => rfl
  | some v =>
      obtain ⟨w, hw⟩ := h k v hk
      simp [pick, hw, watchField_of_loadField hw]

theorem readable_getElem? (d : Doc) (k : GoString) :
    (readable G key d)[k]? = d[k]?.bind (pick (watchField G key) k) := by
  rw [readable, Std.ExtTreeMap.getElem?_filterMap']

/-- **The readable fields** are the binary ones beside the `_id` that decrypt, each as its plaintext. -/
theorem readable_eq_some {d : Doc} {k p : GoString} :
    (readable G key d)[k]? = some p ↔
      k ≠ idKey ∧ ∃ v b, d[k]? = some v ∧ v.bytes? = some b ∧ decrypt G key b = .ok p := by
  rw [readable_getElem?]
  cases hv : d[k]? with
  | none => simp
  | some v =>
      rw [Option.bind_some, pick, watchField]
      -- the cases of `watchField`, in its order
      by_cases hk : k = idKey
      · simp [hk]
      · rw [if_neg hk]
        cases hb : v.bytes? with
        | none => simp [hb]
        | some b =>
            dsimp only
            cases hp : decrypt G key b with
            | error err => simp [hb, hp]
            | ok p' => simp [hb, hp, hk]

end

/-! ## `Load` -/

/-- `Load`'s loop over the cursor: `decode` says which documents fail to decode, `sh` is the order in
    which the fields of each are visited. -/
def loadDocs (G : Gcm) (key : Key) (sh : Shuffle (GoString × Bson)) (decode : Doc → Option GoError) :
    List Doc → Config → Except GoError Config
  | [], data => .ok data
  | doc :: rest, data =>
    match decode doc with
    | some err => .error (.wrapf "load: decode: %w" [] err)
    | none =>
      match doc.id? with
      -- an `_id` of another type: the document is passed over
      | none => loadDocs G key sh decode rest data
      | some id =>
        match collect (loadField G key id) (sh.apply doc.toList) (∅ : Section) with
        | .error err => .error err
        | .ok sec => loadDocs G key sh decode rest (data.insert id sec)

/-- What may go wrong in one `Load` outside the process. -/
structure LoadFaults where
  find : FindOutcome
  decode : Doc → Option GoError

/-- `Load`, from what its `Find` returned. -/
def loadFrom (G : Gcm) (sh : Shuffle (GoString × Bson)) (decode : Doc → Option GoError)
    (found : Except GoError (Cursor Doc)) (s : MongoStorage) : Except GoError Unit × MongoStorage :=
  match found with
  -- a failed `Find` leaves the cache as it is
  | .error err => (.error (.wrapf "load: %w" [] err), s)
  | .ok cursor =>
    match loadDocs G s.key sh decode cursor.items ∅ with
    | .error err => (.error err, s)
    | .ok data =>
      match cursor.err with
      | some err => (.error (.wrapf "load: cursor: %w" [] err), s)
      -- only here is the cache replaced
      | none => (.ok (), { s with data := data })

/-- `Load` on a collection. -/
def load (G : Gcm) (sh : Shuffle (GoString × Bson)) (f : LoadFaults) (coll : Collection)
    (s : MongoStorage) : Except GoError Unit × MongoStorage :=
  loadFrom G sh f.decode (coll.find f.find) s

/-- The configuration held by the readable fields of the documents with a string id. -/
def decrypted (G : Gcm) (key : Key) (c : Collection) : Config := c.docs.map fun _ d => readable G key d

/-- Every document with a string id decrypts under the key. -/
def AllDecryptable (G : Gcm) (key : Key) (c : Collection) : Prop :=
  ∀ id d, c.get? id = some d → Decryptable G key d

section
variable {G : Gcm} {key : Key} {sh : Shuffle (GoString × Bson)} {decode : Doc → Option GoError}

theorem decrypted_getElem? (c : Collection) (id : GoString) :
    (decrypted G key c)[id]? = (c.get? id).map (readable G key) :=
  Std.ExtTreeMap.getElem?_map

/-- A document whose field loop ends normally is decryptable, and the loop gives its readable fields. -/
theorem collect_loadField {id : GoString} {d : Doc} {sec : Section}
    (h : collect (loadField G key id) (sh.apply d.toList) ∅ = .ok sec) :
    Decryptable G key d ∧ sec = readable G key d := by
  obtain ⟨ht, hsec⟩ := collect_eq_ok (sh.perm d.toList) h
  exact ⟨loadField_total.mp ht, hsec.trans (filterMap_loadField ht)⟩

theorem collect_loadField_of_decryptable {id : GoString} {d : Doc} (h : Decryptable G key d) :
    collect (loadField G key id) (sh.apply d.toList) ∅ = .ok (readable G key d) := by
  have ht : Total (loadField G key id) d := loadField_total.mpr h
  rw [collect_of_total (sh.perm d.toList) ht, filterMap_loadField ht]

/-- What the loop over the cursor leaves under an id, when it ends normally and no id occurs in two
    different documents. -/
theorem loadDocs_ok {l : List Doc} {acc data : Config} (h : loadDocs G key sh decode l acc = .ok data)
    (hl : ∀ id, ∀ d ∈ l, ∀ d' ∈ l, d.id? = some id → d'.id? = some id → d = d') (id : GoString) :
    (∀ d ∈ l, d.id? = some id → Decryptable G key d ∧ data[id]? = some (readable G key d)) ∧
    ((∀ d ∈ l, d.id? ≠ some id) → data[id]? = acc[id]?) := by
  induction l generalizing acc with
  | nil =>
      cases h
      exact ⟨fun d hd => absurd hd List.not_mem_nil, fun _ => rfl⟩
  | cons doc rest ih =>
      have hl' : ∀ id, ∀ d ∈ rest, ∀ d' ∈ rest, d.id? = some id → d'.id? = some id → d = d' :=
        fun id d hd d' hd' => hl id d (List.mem_cons_of_mem _ hd) d' (List.mem_cons_of_mem _ hd')
      simp only [loadDocs] at h
      split at h
      · cases h
      · split at h
        · next hnone =>
            -- a document without a string id changes nothing
            obtain ⟨hin, hout⟩ := ih h hl'
            refine ⟨fun d hd hid => ?_, fun hno => hout fun d hd => hno d (List.mem_cons_of_mem _ hd)⟩
            rcases List.mem_cons.mp hd with rfl | hd
            · rw [hnone] at hid; cases hid
            · exact hin d hd hid
        · next id' hsome =>
            split at h
            · cases h
            · next sec hsec =>
                obtain ⟨hdec, rfl⟩ := collect_loadField hsec
                obtain ⟨hin, hout⟩ := ih h hl'
                constructor
                · intro d hd hid
                  -- a later document with this id can only be the same one again
                  by_cases hrest : ∃ d' ∈ rest, d'.id? = some id
                  · obtain ⟨d', hd', hid'⟩ := hrest
                    have : d = d' := hl id d hd d' (List.mem_cons_of_mem _ hd') hid hid'
                    exact this ▸ hin d' hd' hid'
                  · have hno : ∀ d' ∈ rest, d'.id? ≠ some id := fun d' hd' he => hrest ⟨d', hd', he⟩
                    rcases List.mem_cons.mp hd with rfl | hd
                    · rw [hsome] at hid
                      cases hid
                      exact ⟨hdec, by rw [hout hno]; simp⟩
                    · exact absurd hid (hno d hd)
                · intro hno
                  have hne : id' ≠ id := fun he => hno doc List.mem_cons_self (he ▸ hsome)
                  rw [hout fun d hd => hno d (List.mem_cons_of_mem _ hd), GoMap.getElem?_insert, if_neg hne]

/-- The loop ends normally when nothing fails to decode or to decrypt. -/
theorem loadDocs_total {l : List Doc} (acc : Config) (hdec : ∀ d ∈ l, decode d = none)
    (h : ∀ d ∈ l, ∀ id, d.id? = some id → Decryptable G key d) :
    ∃ data, loadDocs G key sh decode l acc = .ok data := by
  induction l generalizing acc with
  | nil => exact ⟨acc, rfl⟩
  | cons doc rest ih =>
      have hrest := fun acc => ih acc (fun d hd => hdec d (List.mem_cons_of_mem _ hd))
        (fun d hd => h d (List.mem_cons_of_mem _ hd))
      simp only [loadDocs, hdec doc List.mem_cons_self]
      split
      · exact hrest acc
      · next id hid =>
          rw [collect_loadField_of_decryptable (h doc List.mem_cons_self id hid)]
          exact hrest _

/-- The loop over documents of which those with a string id are exactly the ones of a collection reads
    `decrypted`. -/
theorem loadDocs_all {c : Collection} {l : List Doc} {data : Config}
    (hl : ∀ id d, d ∈ l ∧ d.id? = some id ↔ c.get? id = some d)
    (h : loadDocs G key sh decode l ∅ = .ok data) :
    AllDecryptable G key c ∧ data = decrypted G key c := by
  have hunique : ∀ id, ∀ d ∈ l, ∀ d' ∈ l, d.id? = some id → d'.id? = some id → d = d' := by
    intro id d hd d' hd' hid hid'
    have hget := (hl id d).mp ⟨hd, hid⟩
    have hget' := (hl id d').mp ⟨hd', hid'⟩
    exact Option.some.inj (hget.symm.trans hget')
  have hspec := loadDocs_ok h hunique
  constructor
  · intro id d hget
    obtain ⟨hd, hid⟩ := (hl id d).mpr hget
    exact ((hspec id).1 d hd hid).1
  · refine Std.ExtTreeMap.ext_getElem? fun id => ?_
    rw [decrypted_getElem?]
    cases hget : c.get? id with
    | some d =>
        obtain ⟨hd, hid⟩ := (hl id d).mpr hget
        exact ((hspec id).1 d hd hid).2
    | none =>
        refine ((hspec id).2 fun d hd hid => ?_).trans (by simp)
        rw [(hl id d).mp ⟨hd, hid⟩] at hget
        cases hget

/-- A cursor that yields every document once yields those of the collection. -/
theorem shuffle_all (order : Shuffle Doc) (c : Collection) (id : GoString) (d : Doc) :
    d ∈ order.apply c.all ∧ d.id? = some id ↔ c.get? id = some d := by
  rw [order.mem_apply]
  exact Collection.mem_all_id

/-- **A successful `Load`** reads the whole collection: every document decrypts, and the cache becomes
    `decrypted`, with nothing left of what it held. -/
theorem load_ok {f : LoadFaults} {coll : Collection} {s s' : MongoStorage}
    (h : load G sh f coll s = (.ok (), s')) :
    AllDecryptable G s.key coll ∧ s' = { s with data := decrypted G s.key coll } := by
  unfold load loadFrom at h
  cases hf : f.find with
  | fail err => simp [hf, Collection.find] at h
  | cursor order stop =>
      rw [hf] at h
      cases stop with
      | some stop =>
          simp only [Collection.find] at h
          split at h <;> cases h
      | none =>
          simp only [Collection.find] at h
          split at h
          · cases h
          · next data hdata =>
              obtain ⟨hall, rfl⟩ := loadDocs_all (shuffle_all order coll) hdata
              cases h
              exact ⟨hall, rfl⟩

/-- A `Load` that returns an error leaves the storage as it was. -/
theorem loadFrom_error {found : Except GoError (Cursor Doc)} {s s' : MongoStorage} {err : GoError}
    (h : loadFrom G sh decode found s = (.error err, s')) : s' = s := by
  unfold loadFrom at h
  split at h
  · cases h; rfl
  · split at h
    · cases h; rfl
    · split at h <;> cases h
      rfl

/-- The faults of a `Load` during which nothing fails. -/
def LoadFaults.none (order : Shuffle Doc) : LoadFaults := ⟨.cursor order Option.none, fun _ => Option.none⟩

/-- **`Load` succeeds** on a decryptable collection when nothing else fails. -/
theorem load_of_decryptable {coll : Collection} {s : MongoStorage} (order : Shuffle Doc)
    (h : AllDecryptable G s.key coll) :
    load G sh (.none order) coll s = (.ok (), { s with data := decrypted G s.key coll }) := by
  obtain ⟨data, hdata⟩ : ∃ data, loadDocs G s.key sh (fun _ => Option.none) (order.apply coll.all) ∅
      = .ok data :=
    loadDocs_total ∅ (fun _ _ => rfl) fun d hd id hid =>
      h id d (Collection.mem_all_id.mp ⟨order.mem_apply.mp hd, hid⟩)
  obtain ⟨_, rfl⟩ := loadDocs_all (shuffle_all order coll) hdata
  simp only [load, loadFrom, LoadFaults.none, Collection.find, hdata]

end

/-! ## `applyFullDocument` and the change stream -/

/-- `applyFullDocument`. -/
def applyFullDocument (G : Gcm) (sh : Shuffle (GoString × Bson)) (id : GoString) (doc : Option Doc)
    (s : MongoStorage) : MongoStorage :=
  match doc with
  | none => s
  | some doc =>
    -- nothing is stored under the empty name
    if id = [] then s
    else
      match collect (watchField G s.key) (sh.apply doc.toList) (∅ : Section) with
      | .error _ => s  -- not reached: the loop never leaves early
      | .ok sec => { s with data := s.data.insert id sec }

/-- One round of `processChangeStream`: an event that does not decode is logged and dropped. -/
def processEvent (G : Gcm) (sh : Shuffle (GoString × Bson)) (event : Except GoError Event)
    (s : MongoStorage) : MongoStorage :=
  match event with
  | .error _ => s
  | .ok event =>
    match event.operationType with
    | .insert | .update | .replace => applyFullDocument G sh event.documentKeyID event.fullDocument s
    | .delete => { s with data := s.data.erase event.documentKeyID }
    | .other => s

section
variable {G : Gcm}

theorem applyFullDocument_some {sh : Shuffle (GoString × Bson)} {id : GoString} {doc : Doc}
    {s : MongoStorage} (h : id ≠ []) :
    applyFullDocument G sh id (some doc) s
      = { s with data := s.data.insert id (readable G s.key doc) } := by
  have hcol : collect (watchField G s.key) (sh.apply doc.toList) ∅ = .ok (readable G s.key doc) :=
    collect_of_total (sh.perm doc.toList) (watchField_total doc)
  simp only [applyFullDocument, if_neg h, hcol]

theorem applyFullDocument_key (sh : Shuffle (GoString × Bson)) (id : GoString) (doc : Option Doc)
    (s : MongoStorage) : (applyFullDocument G sh id doc s).key = s.key := by
  unfold applyFullDocument
  split
  · rfl
  · split
    · rfl
    · split <;> rfl

theorem processEvent_key (sh : Shuffle (GoString × Bson)) (e : Except GoError Event) (s : MongoStorage) :
    (processEvent G sh e s).key = s.key := by
  unfold processEvent
  split
  · rfl
  · split
    · exact applyFullDocument_key ..
    · exact applyFullDocument_key ..
    · exact applyFullDocument_key ..
    · rfl
    · rfl

/-- A process that receives an event keeps every other section. -/
theorem processEvent_other (sh : Shuffle (GoString × Bson)) {ev : Event} {s : MongoStorage}
    {sec : GoString} (h : ev.documentKeyID ≠ sec) :
    (processEvent G sh (.ok ev) s).data[sec]? = s.data[sec]? := by
  obtain ⟨op, id, doc⟩ := ev
  have hne : id ≠ sec := h
  have happly : (applyFullDocument G sh id doc s).data[sec]? = s.data[sec]? := by
    cases doc with
    | none => rfl
    | some d =>
        by_cases hid : id = []
        · simp [applyFullDocument, hid]
        · rw [applyFullDocument_some hid, GoMap.getElem?_insert, if_neg hne]
  cases op with
  | delete => simp only [processEvent, GoMap.getElem?_erase, if_neg hne]
  | other => rfl
  | _ => exact happly

end

end RCloneCloud
