import RCloneCloud.Storage.Watch

/-!
# `Storage.Converge` — what a watched cache holds once every event is delivered

After a successful `Load` and any run of the system in which every event has been delivered, the cache
holds exactly the readable part of every document with a non-empty id (`delivered_readable`), whatever the
other processes wrote. Two consequences: where all they wrote decrypts, the cache is what `Load` would read
(`watch_converges`); and a `Save` from that cache keeps of a document what the process could read, and
nothing else (`save_keeps_readable`).

The convergence itself is `Lib.Feed`'s `replica_eq_source`, brought here by the refinement of `Storage.Watch`: a
successful `Load` makes the cache and the collection agree (`synced_of_load`), every step keeps them settled, and with
nothing left to deliver they are equal. `OrdinaryInv` is the second invariant: nobody brings in a field that this
process cannot decrypt, or a document without a name. Only `watch_converges` needs it, to say that a fresh `Load`
would read the same.
-/

set_option autoImplicit false

namespace RCloneCloud

open Lib

section
variable {G : Gcm} {w w' : Watched} {as : List WatchAct}

/-- No step of the system touches the encryption key. -/
theorem run_key (hrun : run (Watched.step G) w as = some w') : w'.store.key = w.store.key :=
  run_invariant (G := fun _ _ => True) (fun _ _ _ hI _ hs => (watch_step_refines hI hs).1) rfl
    (along_of_forall (fun _ _ => trivial) w as) hrun

/-- A cache just loaded is in sync with the collection. -/
theorem synced_of_load {sh : Shuffle (GoString × Bson)} {f : LoadFaults} {s : MongoStorage}
    (hload : load G sh f w.coll s = (.ok (), w.store)) (hpend : w.pending = []) :
    (feedOf G w.store.key w).Synced := by
  obtain ⟨_, hstore⟩ := load_ok hload
  intro id
  have hdata : w.store.data[id]? = (w.coll.get? id).map (readable G w.store.key) := by
    rw [hstore]
    exact decrypted_getElem? w.coll id
  simp only [feedOf, hpend, List.map_nil, Feed.settled, List.foldl_nil, named, hdata]

/-- **Once every event is delivered** the cache holds the readable part of every document with a non-empty
    id, and no other named section. -/
theorem delivered_readable {sh : Shuffle (GoString × Bson)} {f : LoadFaults} {s : MongoStorage}
    (hload : load G sh f w.coll s = (.ok (), w.store)) (hpend : w.pending = [])
    (hrun : run (Watched.step G) w as = some w') (hdone : w'.pending = []) {id : GoString}
    (hid : id ≠ []) : w'.store.data[id]? = (w'.coll.get? id).map (readable G w.store.key) := by
  have hfeed : run Feed.step (feedOf G w.store.key w) (as.map (feedAct G w.store.key))
      = some (feedOf G w.store.key w') :=
    run_refines _ _ (G := fun _ _ => True) (fun _ _ _ hI _ hs => watch_step_refines hI hs) rfl
      (along_of_forall (fun _ _ => trivial) w as) hrun
  have heq := Feed.replica_eq_source (synced_of_load hload hpend) hfeed (by simp [feedOf, hdone])
  simpa [feedOf, named, hid] using congrFun heq id

/-! ## Convergence to what `Load` would read -/

/-- A write on a document with a non-empty string id whose binary fields all decrypt, or a step that writes
    nothing. -/
def WatchAct.Ordinary (G : Gcm) (key : Key) : WatchAct → Prop
  | .insert id doc | .replace id doc | .update id doc => id ≠ [] ∧ Decryptable G key (stored id doc)
  | .delete id => id ≠ []
  | .lookup _ | .deliver _ => True

/-- The document an event is about. -/
def Pending.id : Pending → GoString
  | .ready e => e.documentKeyID
  | .update id => id

/-- Under ordinary writes every document decrypts, no event is on the empty id, and the section with the
    empty name is the one that was loaded. -/
structure OrdinaryInv (G : Gcm) (key : Key) (w : Watched) : Prop where
  key_eq : w.store.key = key
  decryptable : AllDecryptable G key w.coll
  pending : ∀ p ∈ w.pending, p.id ≠ []
  unnamed : w.store.data[([] : GoString)]? = (w.coll.get? []).map (readable G key)

/-- Another event that is not on the empty id. -/
theorem OrdinaryInv.pending_snoc {key : Key} (h : OrdinaryInv G key w) {p : Pending} (hp : p.id ≠ []) :
    ∀ q ∈ w.pending ++ [p], q.id ≠ [] := by
  intro q hq
  rcases List.mem_append.mp hq with hold | hnew
  · exact h.pending q hold
  · rwa [List.mem_singleton.mp hnew]

/-- A decryptable document that is written, with its event, keeps the collection ordinary. -/
theorem OrdinaryInv.put {key : Key} (h : OrdinaryInv G key w) {id : GoString} {doc : Doc} {p : Pending}
    (hid : id ≠ []) (hdoc : Decryptable G key (stored id doc)) (hp : p.id = id) :
    OrdinaryInv G key { w with coll := w.coll.put id doc, pending := w.pending ++ [p] } where
  key_eq := h.key_eq
  decryptable := by
    intro id' d hget
    rw [Collection.get?_put] at hget
    split at hget
    · cases hget; exact hdoc
    · exact h.decryptable id' d hget
  pending := h.pending_snoc (by rwa [hp])
  unnamed := by simpa [hid] using h.unnamed

/-- A removal brings no document in. -/
theorem OrdinaryInv.remove {key : Key} (h : OrdinaryInv G key w) {id : GoString} {p : Pending}
    (hid : id ≠ []) (hp : p.id = id) :
    OrdinaryInv G key { w with coll := w.coll.remove id, pending := w.pending ++ [p] } where
  key_eq := h.key_eq
  decryptable := by
    intro id' d hget
    rw [Collection.get?_remove] at hget
    split at hget
    · cases hget
    · exact h.decryptable id' d hget
  pending := h.pending_snoc (by rwa [hp])
  unnamed := by simpa [hid] using h.unnamed

/-- One step keeps the invariant; only the writes have anything to show, and their condition is that of `Ordinary`. -/
theorem ordinaryInv_step {key : Key} {a : WatchAct} (h : OrdinaryInv G key w) (ha : a.Ordinary G key)
    (hs : w.step G a = some w') : OrdinaryInv G key w' := by
  cases a with
  | insert id doc =>
      simp only [Watched.step] at hs
      split at hs <;> cases hs
      exact h.put ha.1 ha.2 rfl
  | replace id doc =>
      simp only [Watched.step] at hs
      split at hs <;> cases hs
      exact h.put ha.1 ha.2 rfl
  | update id doc =>
      simp only [Watched.step] at hs
      split at hs <;> cases hs
      exact h.put ha.1 ha.2 rfl
  | delete id =>
      simp only [Watched.step] at hs
      split at hs <;> cases hs
      exact h.remove ha rfl
  -- a lookup changes what an event carries and not which document it is about
  | lookup n =>
      simp only [Watched.step] at hs
      cases hs
      refine { h with pending := fun p hp => ?_ }
      obtain ⟨i, hi⟩ := List.mem_iff_getElem?.mp hp
      rw [List.getElem?_modify] at hi
      obtain ⟨q, hq, hqp⟩ := Option.map_eq_some_iff.mp hi
      have hmem := h.pending q (List.mem_of_getElem? hq)
      split at hqp
      · rw [← hqp]
        cases q <;> exact hmem
      · rw [← hqp]; exact hmem
  -- the event has a document key, so the section without a name is left alone
  | deliver sh =>
      simp only [Watched.step] at hs
      split at hs
      · next e rest hq =>
          cases hs
          have he : e.documentKeyID ≠ [] := h.pending (.ready e) (hq ▸ List.mem_cons_self)
          exact {
            key_eq := (processEvent_key sh _ _).trans h.key_eq
            decryptable := h.decryptable
            pending := fun p hp => h.pending p (hq ▸ List.mem_cons_of_mem _ hp)
            unnamed := (processEvent_other sh he).trans h.unnamed }
      · cases hs

/-- **The watched cache converges.** It starts as a `Load` left it when the stream was opened; the others
    insert, replace, update and delete documents with non-empty string ids that decrypt, their events being
    looked up and delivered at any later time. Once all are delivered, a `Load` of the collection would
    return nil and read exactly the cache. -/
theorem watch_converges {sh : Shuffle (GoString × Bson)} {f : LoadFaults} {s : MongoStorage}
    (hload : load G sh f w.coll s = (.ok (), w.store)) (hpend : w.pending = [])
    (has : ∀ a ∈ as, a.Ordinary G w.store.key) (hrun : run (Watched.step G) w as = some w')
    (hdone : w'.pending = []) (sh' : Shuffle (GoString × Bson)) (order : Shuffle Doc) (t : MongoStorage)
    (ht : t.key = w.store.key) :
    load G sh' (.none order) w'.coll t = (.ok (), { t with data := w'.store.data }) := by
  obtain ⟨hdec, hstore⟩ := load_ok hload
  have hkey : w.store.key = s.key := by rw [hstore]
  have hinv : OrdinaryInv G w.store.key w := by
    refine ⟨rfl, hkey ▸ hdec, by simp [hpend], ?_⟩
    rw [hstore]
    exact decrypted_getElem? w.coll []
  have halong : Along (Watched.step G) (fun _ a => a.Ordinary G w.store.key) w as := along_of_mem has
  have hinv' : OrdinaryInv G w.store.key w' :=
    run_invariant (fun _ _ _ hI ha hs => ordinaryInv_step hI ha hs) hinv halong hrun
  have hdata : w'.store.data = decrypted G t.key w'.coll := by
    refine Std.ExtTreeMap.ext_getElem? fun id => ?_
    rw [decrypted_getElem?, ht]
    by_cases hid : id = []
    · rw [hid]; exact hinv'.unnamed
    · exact delivered_readable hload hpend hrun hdone hid
  rw [load_of_decryptable order (ht ▸ hinv'.decryptable), hdata]

end

/-! ### A run: an insert, an update overtaken by a delete, the lookup coming late -/

/-- A field sealed under the sample key. -/
def sampleField (v : String) : Bson :=
  .binary 0 (sampleNonce.val ++ tagGcm.sealBox sampleKey sampleNonce.val (str v))

/-- A storage that has just loaded an empty collection and opened its stream. -/
def freshWatched : Watched := ⟨Collection.empty, ⟨sampleKey, ∅⟩, []⟩

/-- An update whose document is looked up only after it was deleted. -/
def overtakenRun : List WatchAct :=
  [.insert (str "a") ((∅ : Doc).insert (str "k") (sampleField "v")), .insert (str "b") ∅,
    .update (str "b") ((∅ : Doc).insert (str "k") (sampleField "w")), .delete (str "b"), .lookup 2,
    .deliver (Shuffle.id _), .deliver (Shuffle.id _), .deliver (Shuffle.id _), .deliver (Shuffle.id _)]

/-- The sample's one field was sealed under the sample's key. -/
theorem decryptable_sampleField (id : GoString) (v : String) :
    Decryptable tagGcm sampleKey (stored id ((∅ : Doc).insert (str "k") (sampleField v))) := by
  intro k x b hk hne hb
  simp only [stored, GoMap.getElem?_insert, if_neg (Ne.symm hne)] at hk
  split at hk
  · cases hk
    cases hb
    exact ⟨str v, decrypt_sealed sampleNonce (str v)⟩
  · simp at hk

/-- The update comes to nothing, the events around it are applied, and the cache is what a `Load` reads. -/
theorem watch_converges_overtaken :
    ∃ w', run (Watched.step tagGcm) freshWatched overtakenRun = some w' ∧
      load tagGcm (Shuffle.id _) (.none (Shuffle.id _)) w'.coll ⟨sampleKey, ∅⟩
        = (.ok (), ⟨sampleKey, w'.store.data⟩) := by
  have hload : load tagGcm (Shuffle.id _) (.none (Shuffle.id _)) freshWatched.coll ⟨sampleKey, ∅⟩
      = (.ok (), freshWatched.store) := by rfl
  have hempty : Decryptable tagGcm sampleKey (stored (str "b") ∅) := by
    intro k x b hk hne hb
    simp [stored, Ne.symm hne] at hk
  have has : ∀ a ∈ overtakenRun, a.Ordinary tagGcm sampleKey := by
    simp [overtakenRun, WatchAct.Ordinary, decryptable_sampleField, hempty, show str "a" ≠ [] by decide,
      show str "b" ≠ [] by decide]
  obtain ⟨w', hrun, hdone⟩ : ∃ w', run (Watched.step tagGcm) freshWatched overtakenRun = some w' ∧
      w'.pending = [] := ⟨_, rfl, rfl⟩
  exact ⟨w', hrun, watch_converges hload rfl has hrun hdone _ _ _ rfl⟩

/-! ## What a `Save` keeps of the documents it replaces -/

/-- A field value that `Load` and the watcher skip: not binary, or not decryptable under the key. -/
def Skipped (G : Gcm) (key : Key) (v : Bson) : Prop :=
  ∀ b, v.bytes? = some b → ∃ err, decrypt G key b = .error err

/-- A field value that decrypts to `p`. -/
def ReadsAs (G : Gcm) (key : Key) (v : Bson) (p : GoString) : Prop :=
  ∃ b, v.bytes? = some b ∧ decrypt G key b = .ok p

section
variable {G : Gcm} {key : Key}

/-- A field that is not binary, or does not decrypt, is not among the readable ones. -/
theorem readable_skipped {d : Doc} {k : GoString} {v : Bson} (hk : k ≠ idKey) (hv : d[k]? = some v)
    (h : Skipped G key v) : (readable G key d)[k]? = none := by
  rw [readable_getElem?, hv, Option.bind_some]
  simp only [pick, watchField, if_neg hk]
  cases hb : v.bytes? with
  | none => rfl
  | some b =>
      obtain ⟨err, herr⟩ := h b hb
      simp [herr]

/-- A field that decrypts is among the readable ones with its plain text. -/
theorem readable_readsAs {d : Doc} {k p : GoString} {v : Bson} (hk : k ≠ idKey) (hv : d[k]? = some v)
    (h : ReadsAs G key v p) : (readable G key d)[k]? = some p := by
  obtain ⟨b, hb, hp⟩ := h
  simp [readable_getElem?, hv, pick, watchField, hk, hb, hp]

/-- **`Save` keeps what the process could read, and nothing else.** After a successful `Load`, any writes
    of the others with the delivery of all their events, and then a successful `Save`, every document with
    a non-empty id is still there; each of its fields that decrypted is still there and decrypts to the
    same text; each of its fields that was skipped is gone. -/
theorem save_keeps_readable {w w' : Watched} {as : List WatchAct} {sh : Shuffle (GoString × Bson)}
    {lf : LoadFaults} {s : MongoStorage} {ch : SaveChoice} {f : SaveFaults} {events : List Event}
    {srv : Server} (hload : load G sh lf w.coll s = (.ok (), w.store)) (hpend : w.pending = [])
    (hrun : run (Watched.step G) w as = some w') (hdone : w'.pending = [])
    (hsave : runSave G w'.store ch f ⟨w'.coll, events⟩ = (.ok (), srv)) {id : GoString} {d : Doc}
    (hid : id ≠ []) (hget : w'.coll.get? id = some d) :
    ∃ d', srv.coll.get? id = some d' ∧ ∀ k v, k ≠ idKey → d[k]? = some v →
      (∀ p, ReadsAs G w'.store.key v p → ∃ v', d'[k]? = some v' ∧ ReadsAs G w'.store.key v' p) ∧
      (Skipped G w'.store.key v → d'[k]? = none) := by
  have hkey : w'.store.key = w.store.key := run_key hrun
  have hdata : w'.store.data[id]? = some (readable G w'.store.key d) := by
    rw [delivered_readable hload hpend hrun hdone hid, hget, hkey]
    rfl
  obtain ⟨_, d', hget', henc⟩ := (runSave_ok hsave).1 id _ hdata
  refine ⟨d', hget', fun k v hk hv => ⟨fun p hp => ?_, fun hskip => ?_⟩⟩
  · have hd := henc k hk
    rw [readable_readsAs hk hv hp] at hd
    obtain ⟨nonce, hd⟩ := hd
    exact ⟨_, hd, _, rfl, decrypt_sealed nonce p⟩
  · have hd := henc k hk
    rwa [readable_skipped hk hv hskip] at hd

end

/-- A collection whose document has a field of another type than binary. -/
def notedWatched : Watched :=
  ⟨Collection.empty.put (str "a") ((∅ : Doc).insert (str "note") (.other 16 [1, 0, 0, 0])),
    ⟨sampleKey, (∅ : Config).insert (str "a") ∅⟩, []⟩

/-- The server after a `Save` of that process. -/
def notedAfter : Server :=
  (runSave tagGcm notedWatched.store (.inOrder sampleNonce) (.none (Shuffle.id _))
    ⟨notedWatched.coll, []⟩).2

theorem noted_load : load tagGcm (Shuffle.id _) (.none (Shuffle.id _)) notedWatched.coll ⟨sampleKey, ∅⟩
    = (.ok (), notedWatched.store) := by rfl

theorem noted_save : runSave tagGcm notedWatched.store (.inOrder sampleNonce) (.none (Shuffle.id _))
    ⟨notedWatched.coll, []⟩ = (.ok (), notedAfter) := Prod.ext (by decide) rfl

/-- The field is gone after a `Load` and a `Save`. -/
theorem save_drops_unread :
    ¬ ∀ (G : Gcm) (w w' : Watched) (as : List WatchAct) (sh : Shuffle (GoString × Bson)) (lf : LoadFaults)
        (s : MongoStorage) (ch : SaveChoice) (f : SaveFaults) (events : List Event) (srv : Server)
        (id : GoString) (d : Doc) (k : GoString) (v : Bson),
      load G sh lf w.coll s = (.ok (), w.store) → w.pending = [] →
      run (Watched.step G) w as = some w' → w'.pending = [] → w'.coll.foreign = [] →
      runSave G w'.store ch f ⟨w'.coll, events⟩ = (.ok (), srv) →
      w'.coll.get? id = some d → k ≠ idKey → d[k]? = some v → Skipped G w'.store.key v →
      ∃ d', srv.coll.get? id = some d' ∧ d'[k]? = some v := by
  intro hclaim
  obtain ⟨d', hget, hk⟩ := hclaim tagGcm notedWatched notedWatched [] _ _ _ _ _ _ _ (str "a") _ (str "note")
    (.other 16 [1, 0, 0, 0]) noted_load rfl rfl rfl rfl noted_save rfl (by decide) (by decide)
    (fun _ hb => by cases hb)
  have hgone : (notedAfter.coll.get? (str "a")).bind (fun d => d[str "note"]?) = none := by decide
  rw [hget] at hgone
  simp [hk] at hgone

/-- A document with a field of another type and one that decrypts. -/
def typedDoc : Doc := ((∅ : Doc).insert (str "note") (.other 16 [1, 0, 0, 0])).insert (str "type") (sampleField "s3")

/-- Another process replaces the document, and its event is delivered. -/
def typedRun : List WatchAct := [.replace (str "a") typedDoc, .deliver (Shuffle.id _)]

/-- After the delivered event the field that could be read is written back, and the plain note beside it is gone. -/
theorem save_keeps_readable_noted : ∃ w' srv d', run (Watched.step tagGcm) notedWatched typedRun = some w' ∧
    runSave tagGcm w'.store (.inOrder sampleNonce) (.none (Shuffle.id _)) ⟨w'.coll, []⟩ = (.ok (), srv) ∧
    srv.coll.get? (str "a") = some d' ∧ (∃ v', d'[str "type"]? = some v' ∧ ReadsAs tagGcm w'.store.key v' (str "s3")) ∧
    d'[str "note"]? = none := by
  obtain ⟨w', hrun, hdone, hget⟩ : ∃ w', run (Watched.step tagGcm) notedWatched typedRun = some w' ∧ w'.pending = [] ∧
      w'.coll.get? (str "a") = some (stored (str "a") typedDoc) := ⟨_, rfl, rfl, rfl⟩
  have hsave : runSave tagGcm w'.store (.inOrder sampleNonce) (.none (Shuffle.id _)) ⟨w'.coll, []⟩ =
      (.ok (), (runSave tagGcm w'.store (.inOrder sampleNonce) (.none (Shuffle.id _)) ⟨w'.coll, []⟩).2) := by
    cases hrun
    exact Prod.ext (by decide) rfl
  obtain ⟨d', hget', hfields⟩ := save_keeps_readable noted_load rfl hrun hdone hsave (by decide) hget
  have hkey : w'.store.key = sampleKey := run_key hrun
  have htype : ReadsAs tagGcm w'.store.key (sampleField "s3") (str "s3") := by
    rw [hkey]
    exact ⟨_, rfl, decrypt_sealed sampleNonce (str "s3")⟩
  have hkept := (hfields (str "type") (sampleField "s3") (by decide) rfl).1 (str "s3") htype
  have hgone := (hfields (str "note") (.other 16 [1, 0, 0, 0]) (by decide) rfl).2 (fun _ hb => by cases hb)
  exact ⟨w', _, d', hrun, hsave, hget', hkept, hgone⟩

end RCloneCloud
