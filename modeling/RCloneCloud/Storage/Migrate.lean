import RCloneCloud.Lib.FlatMap
import RCloneCloud.Storage.Export
import RCloneCloud.Storage.Storable

/-!
# `Storage.Migrate` — copying a configuration file into the store

`Migrate` sets every key of the parsed file in the cache, reports each section, and saves. A section is made
by its first `SetValue`, so one that the file has without keys is reported and not made.

The parsed file is any map of maps: how `goconfig` reads the text of a file is outside this module. The effect on the
cache is followed key by key (`copyKeys_get`), then section by section (`copySection_get`), and `copySections_spec`
says what the whole loop makes of a store, whatever the order of the sections. `Overlays` is the purpose in words,
that the file's entries are there and everything else is as it was; `migrate_overlays_iff` is the condition under
which the stored collection shows it, and `migrate_again` that a second migration of the same file changes nothing.
-/

set_option autoImplicit false

namespace RCloneCloud

open Lib

/-- The parsed source file, with the orders in which it lists its sections and their keys. -/
structure FileStore where
  data : Config
  order : RangeChoice

namespace FileStore

/-- The sections of the file. -/
def getSectionList (file : FileStore) : List GoString := file.order.sections.apply file.data.keys

/-- The keys of a section of the file; none for a section it does not have. -/
def getKeyList (file : FileStore) (sec : GoString) : List GoString :=
  (file.order.keys sec).apply (file.data[sec]?.getD ∅).keys

/-- The value of a key of the file. -/
def getValue (file : FileStore) (sec key : GoString) : Option GoString :=
  file.data[sec]?.bind fun kv => kv[key]?

end FileStore

/-- What may go wrong in one `Migrate`: choosing the file, writing a text to `out`, the driver calls. -/
structure MigrateFaults where
  setConfigPath : Except GoError Unit
  print : GoString → Except GoError Unit
  save : SaveFaults

/-- The faults of a `Migrate` during which nothing fails. -/
def MigrateFaults.none (order : Shuffle Doc) : MigrateFaults := ⟨.ok (), fun _ => .ok (), .none order⟩

/-- The line that reports a section. -/
def reportLine (file : FileStore) (sec : GoString) : GoString :=
  str "✓ " ++ sec ++ str " (" ++ str (Nat.repr (file.getKeyList sec).length) ++ str " keys)\n"

/-- The last line. -/
def doneLine (file : FileStore) : GoString :=
  str "Done — " ++ str (Nat.repr file.getSectionList.length) ++ str " remotes migrated.\n"

/-- The loop over the keys of a section. -/
def copyKeys (file : FileStore) (sec : GoString) : List GoString → MongoStorage → MongoStorage
  | [], store => store
  | key :: rest, store =>
    -- `GetValue`'s second result is dropped, so a missing key is copied as empty
    copyKeys file sec rest (store.setValue sec key ((file.getValue sec key).getD []))

/-- The loop over the sections, with what has been written to `out` so far. -/
def copySections (file : FileStore) (print : GoString → Except GoError Unit) :
    List GoString → MongoStorage → List GoString → Except GoError Unit × MongoStorage × List GoString
  | [], store, out => (.ok (), store, out)
  | sec :: rest, store, out =>
    let store := copyKeys file sec (file.getKeyList sec) store
    -- a report that cannot be written ends the loop, with the section already copied
    match print (reportLine file sec) with
    | .error err => (.error err, store, out)
    | .ok () => copySections file print rest store (out ++ [reportLine file sec])

/-- `Migrate`: what it returns, what it has written to `out`, and the process afterwards. -/
def migrate (G : Gcm) (file : FileStore) (configPath : GoString) (ch : SaveChoice) (f : MigrateFaults)
    (p : Process) : Except GoError Unit × List GoString × Process :=
  match f.setConfigPath with
  | .error err => (.error (.wrapf "set config path: %w" [] err), [], p)
  | .ok () =>
    -- an empty file is an error, and the store is left alone
    if file.getSectionList = [] then
      (.error (.errorf "no sections found in %s — nothing to migrate" [configPath]), [], p)
    else
      match copySections file f.print file.getSectionList p.store [] with
      | (.error err, store, out) => (.error err, out, { p with store := store })
      | (.ok (), store, out) =>
        match Process.save G ch f.save { p with store := store } with
        | (.error err, p) => (.error (.wrapf "save to mongodb: %w" [] err), out, p)
        | (.ok (), p) =>
          match f.print (doneLine file) with
          | .error err => (.error err, out, p)
          | .ok () => (.ok (), out ++ [doneLine file], p)

/-! ## The copy loops -/

section
variable {file : FileStore} {store : MongoStorage}

/-- The list names the sections that the file has, those without keys included. -/
theorem mem_getSectionList {sec : GoString} : sec ∈ file.getSectionList ↔ sec ∈ file.data := by
  rw [FileStore.getSectionList, Shuffle.mem_apply, Std.ExtTreeMap.mem_keys]

/-- The list of a section's keys names those that have a value. -/
theorem mem_getKeyList {sec key : GoString} :
    key ∈ file.getKeyList sec ↔ (file.getValue sec key).isSome = true := by
  rw [FileStore.getKeyList, Shuffle.mem_apply, Std.ExtTreeMap.mem_keys, FileStore.getValue,
    Std.ExtTreeMap.mem_iff_isSome_getElem?]
  cases file.data[sec]? with
  | none => simp
  | some kv => rfl

/-- Copying keys leaves the encryption key alone. -/
theorem copyKeys_key (sec : GoString) (keys : List GoString) :
    (copyKeys file sec keys store).key = store.key := by
  induction keys generalizing store with
  | nil => rfl
  | cons key rest ih => rw [copyKeys, ih]; rfl

/-- The keys of the section have the values of the file; every other entry is what it was. -/
theorem copyKeys_get (sec : GoString) (keys : List GoString)
    (hkeys : ∀ key ∈ keys, (file.getValue sec key).isSome = true) (sec' key' : GoString) :
    (flatten (copyKeys file sec keys store).data).get sec' key'
      = if sec = sec' ∧ key' ∈ keys then file.getValue sec key' else (flatten store.data).get sec' key' := by
  induction keys generalizing store with
  | nil => simp [copyKeys]
  | cons key rest ih =>
      obtain ⟨v, hv⟩ := Option.isSome_iff_exists.mp (hkeys key List.mem_cons_self)
      have hset : flatten (store.setValue sec key ((file.getValue sec key).getD [])).data
          = (flatten store.data).set sec key v := by
        rw [hv, Option.getD_some]
        exact flatten_set store.data sec key v
      rw [copyKeys, ih fun key hk => hkeys key (List.mem_cons_of_mem _ hk), hset]
      by_cases hsec : sec = sec'
      -- a key that comes again is set again to the same value
      · by_cases hrest : key' ∈ rest
        · rw [if_pos ⟨hsec, hrest⟩, if_pos ⟨hsec, List.mem_cons_of_mem _ hrest⟩]
        · rw [if_neg fun h => hrest h.2]
          by_cases hkey : key = key'
          · subst hkey hsec
            simp [FlatMap.set, hv]
          · have hne : ¬ (sec = sec' ∧ key' ∈ key :: rest) := by
              rintro ⟨-, hm⟩
              rcases List.mem_cons.mp hm with he | hm
              · exact hkey he.symm
              · exact hrest hm
            rw [if_neg hne]
            simp [FlatMap.set, hkey]
      · rw [if_neg fun h => hsec h.1, if_neg fun h => hsec h.1]
        simp [FlatMap.set, hsec]

/-- One section of the file over the entries that were there. -/
theorem copySection_get (sec sec' key' : GoString) :
    (flatten (copyKeys file sec (file.getKeyList sec) store).data).get sec' key'
      = if sec = sec' then (file.getValue sec' key').or ((flatten store.data).get sec' key')
        else (flatten store.data).get sec' key' := by
  rw [copyKeys_get sec _ fun key hk => mem_getKeyList.mp hk]
  by_cases hsec : sec = sec'
  · subst hsec
    rw [if_pos rfl]
    cases hv : file.getValue sec key' with
    | none =>
        have hno : ¬ (sec = sec ∧ key' ∈ file.getKeyList sec) := by
          rintro ⟨-, hk⟩
          rw [mem_getKeyList, hv] at hk
          cases hk
        rw [if_neg hno, Option.none_or]
    | some v =>
        have hk : key' ∈ file.getKeyList sec := mem_getKeyList.mpr (by rw [hv]; rfl)
        rw [if_pos ⟨rfl, hk⟩, Option.some_or]
  · rw [if_neg fun h => hsec h.1, if_neg hsec]

/-- The section is there afterwards if it has a key or was there before. -/
theorem copyKeys_mem (sec : GoString) (keys : List GoString) (sec' : GoString) :
    sec' ∈ (copyKeys file sec keys store).data ↔ sec' ∈ store.data ∨ (sec = sec' ∧ keys ≠ []) := by
  induction keys generalizing store with
  | nil => simp [copyKeys]
  | cons key rest ih =>
      rw [copyKeys, ih, MongoStorage.setValue]
      dsimp only
      rw [GoMap.mem_insert]
      constructor
      · rintro ((he | hm) | ⟨he, -⟩)
        · exact .inr ⟨he, List.cons_ne_nil _ _⟩
        · exact .inl hm
        · exact .inr ⟨he, List.cons_ne_nil _ _⟩
      · rintro (hm | ⟨he, -⟩)
        · exact .inl (.inr hm)
        · exact .inl (.inl he)

/-- What the copy of some sections leaves in the cache. -/
structure CopiedSections (file : FileStore) (secs : List GoString) (store store' : MongoStorage) : Prop where
  key : store'.key = store.key
  get : ∀ sec key, (flatten store'.data).get sec key =
    if sec ∈ secs then (file.getValue sec key).or ((flatten store.data).get sec key)
    else (flatten store.data).get sec key
  mem : ∀ sec, sec ∈ store'.data ↔ sec ∈ store.data ∨ (sec ∈ secs ∧ file.getKeyList sec ≠ [])

/-- **The copy loop**, when no report fails. -/
theorem copySections_spec {secs : List GoString} {out : List GoString} :
    ∃ store', copySections file (fun _ => .ok ()) secs store out
        = (.ok (), store', out ++ secs.map (reportLine file)) ∧
      CopiedSections file secs store store' := by
  induction secs generalizing store out with
  | nil => exact ⟨store, by simp [copySections], ⟨rfl, by simp, by simp⟩⟩
  | cons sec rest ih =>
      obtain ⟨store', hrest, hspec⟩ := @ih (copyKeys file sec (file.getKeyList sec) store)
        (out ++ [reportLine file sec])
      refine ⟨store', ?_, ?_, fun sec' key' => ?_, fun sec' => ?_⟩
      · simp only [copySections]
        rw [hrest, List.append_assoc]
        rfl
      · rw [hspec.key, copyKeys_key]
      -- a section that comes again later in the list is overlaid twice, which changes nothing
      · rw [hspec.get, copySection_get]
        by_cases hsec : sec = sec'
        · subst hsec
          rw [if_pos rfl, if_pos List.mem_cons_self]
          split
          · rw [← Option.or_assoc, Option.or_self]
          · rfl
        · rw [if_neg hsec]
          by_cases hrest : sec' ∈ rest
          · rw [if_pos hrest, if_pos (List.mem_cons_of_mem _ hrest)]
          · have hne : sec' ∉ sec :: rest := by
              rw [List.mem_cons, not_or]
              exact ⟨fun he => hsec he.symm, hrest⟩
            rw [if_neg hrest, if_neg hne]
      · rw [hspec.mem, copyKeys_mem, List.mem_cons]
        constructor
        · rintro ((hm | ⟨rfl, hk⟩) | ⟨hm, hk⟩)
          · exact .inl hm
          · exact .inr ⟨.inl rfl, hk⟩
          · exact .inr ⟨.inr hm, hk⟩
        · rintro (hm | ⟨rfl | hm, hk⟩)
          · exact .inl (.inl hm)
          · exact .inl (.inr ⟨rfl, hk⟩)
          · exact .inr ⟨hm, hk⟩

/-- The copy is determined by what it leaves. -/
theorem CopiedSections.unique {secs : List GoString} {s s' : MongoStorage}
    (h : CopiedSections file secs store s) (h' : CopiedSections file secs store s') : s = s' := by
  have hdata : s.data = s'.data :=
    nested_ext (fun sec => (h.mem sec).trans (h'.mem sec).symm)
      fun sec key => (h.get sec key).trans (h'.get sec key).symm
  obtain ⟨key, data⟩ := s
  obtain ⟨key', data'⟩ := s'
  have hkey : key = key' := h.key.trans h'.key.symm
  have hdata' : data = data' := hdata
  rw [hkey, hdata']

/-- The whole file over the entries that were there, and which sections there are. -/
theorem copyAll_spec {store' : MongoStorage} (h : CopiedSections file file.getSectionList store store') :
    (∀ sec key, (flatten store'.data).get sec key
      = ((flatten file.data).get sec key).or ((flatten store.data).get sec key)) ∧
    ∀ sec, sec ∈ store'.data ↔ sec ∈ store.data ∨ ∃ key, (file.getValue sec key).isSome = true := by
  constructor
  · intro sec key
    rw [h.get]
    split
    · rfl
    · next hsec =>
        rw [mem_getSectionList, GoMap.not_mem_iff] at hsec
        rw [flatten_get file.data, hsec, Option.bind_none, Option.none_or]
  · intro sec
    rw [h.mem]
    refine or_congr_right ?_
    constructor
    · rintro ⟨-, hkeys⟩
      obtain ⟨key, hkey⟩ := List.exists_mem_of_ne_nil _ hkeys
      exact ⟨key, mem_getKeyList.mp hkey⟩
    · rintro ⟨key, hkey⟩
      obtain ⟨v, hv⟩ := Option.isSome_iff_exists.mp hkey
      obtain ⟨kv, hkv, -⟩ := Option.bind_eq_some_iff.mp hv
      refine ⟨?_, List.ne_nil_of_mem (mem_getKeyList.mpr hkey)⟩
      rw [mem_getSectionList, GoMap.mem_iff]
      exact ⟨kv, hkv⟩

end

/-! ## The whole `Migrate` -/

/-- The configuration `r` is `m` overlaid with `f`: the sections of both, the values of `f` before those of
    `m`. -/
structure Overlays (m f r : Config) : Prop where
  sections : ∀ sec, sec ∈ r ↔ sec ∈ m ∨ sec ∈ f
  values : ∀ sec key, (flatten r).get sec key = ((flatten f).get sec key).or ((flatten m).get sec key)

/-- What a migration is to have done: the cache and the collection hold the overlay, and running it again,
    with whatever orders and nonces, returns nil and changes neither. -/
structure MigratedTo (G : Gcm) (file : Config) (p p' : Process) : Prop where
  key : p'.store.key = p.store.key
  memory : Overlays p.store.data file p'.store.data
  decryptable : AllDecryptable G p'.store.key p'.srv.coll
  collection : Overlays p.store.data file (decrypted G p'.store.key p'.srv.coll)
  again : ∀ (again : FileStore) (configPath : GoString) (ch : SaveChoice) (order : Shuffle Doc),
    again.data = file → Drawn ch p'.store.data →
    ∃ out p'', migrate G again configPath ch (.none order) p' = (.ok (), out, p'') ∧
      p''.store = p'.store ∧ AllDecryptable G p'.store.key p''.srv.coll ∧
      decrypted G p'.store.key p''.srv.coll = decrypted G p'.store.key p'.srv.coll

section
variable {G : Gcm} {file : FileStore} {configPath : GoString} {ch : SaveChoice} {order : Shuffle Doc}
  {p p' : Process} {out : List GoString}

/-- **What a `Migrate` during which nothing fails has done** when it returns nil: the file was not empty, its
    sections were copied and reported, and the cache was saved. -/
theorem migrate_nil (h : migrate G file configPath ch (.none order) p = (.ok (), out, p')) :
    file.getSectionList ≠ [] ∧ CopiedSections file file.getSectionList p.store p'.store ∧
      out = file.getSectionList.map (reportLine file) ++ [doneLine file] ∧
      runSave G p'.store ch (.none order) p.srv = (.ok (), p'.srv) := by
  obtain ⟨store, hcopy, hspec⟩ := @copySections_spec file p.store file.getSectionList []
  simp only [migrate, MigrateFaults.none] at h
  split at h
  · cases h
  · next hne =>
      rw [hcopy] at h
      dsimp only at h
      cases hsave : Process.save G ch (.none order) { p with store := store } with
      | mk r q =>
          rw [hsave] at h
          obtain ⟨hrun, hstore⟩ := Process.save_eq hsave
          cases r with
          | error err => cases h
          | ok u =>
              cases h
              rw [hstore]
              exact ⟨hne, hspec, rfl, hrun⟩

/-- A `Migrate` during which nothing fails returns nil if the file has a section and the copied configuration
    can be saved. -/
theorem migrate_returns_nil (hne : file.getSectionList ≠ []) {store : MongoStorage}
    (hspec : CopiedSections file file.getSectionList p.store store)
    (hsave : (runSave G store ch (.none order) p.srv).1 = .ok ()) :
    ∃ out p', migrate G file configPath ch (.none order) p = (.ok (), out, p') ∧ p'.store = store ∧
      runSave G store ch (.none order) p.srv = (.ok (), p'.srv) := by
  obtain ⟨store', hcopy, hspec'⟩ := @copySections_spec file p.store file.getSectionList []
  obtain rfl := hspec'.unique hspec
  cases hrun : runSave G store' ch (.none order) p.srv with
  | mk r srv =>
      rw [hrun] at hsave
      obtain rfl : r = .ok () := hsave
      refine ⟨file.getSectionList.map (reportLine file) ++ [doneLine file], ⟨store', srv⟩, ?_, rfl, rfl⟩
      simp only [migrate, MigrateFaults.none, if_neg hne, hcopy, Process.save, hrun, List.nil_append]

/-- Copying the same file onto its own copy changes nothing. -/
theorem copiedSections_again {again : FileStore} (hdata : again.data = file.data) {s s' : MongoStorage}
    (h : CopiedSections file file.getSectionList s s') :
    CopiedSections again again.getSectionList s' s' := by
  obtain ⟨hget, hmem⟩ := copyAll_spec h
  have hvalue : ∀ sec key, again.getValue sec key = file.getValue sec key := by
    intro sec key
    rw [FileStore.getValue, hdata, FileStore.getValue]
  refine ⟨rfl, fun sec key => ?_, fun sec => ?_⟩
  · split
    · rw [hvalue, hget]
      change _ = (file.getValue sec key).or ((file.getValue sec key).or _)
      rw [← Option.or_assoc, Option.or_self]
      rfl
    · rfl
  · refine ⟨.inl, fun h => ?_⟩
    rcases h with hs | ⟨_, hkeys⟩
    · exact hs
    · obtain ⟨key, hkey⟩ := List.exists_mem_of_ne_nil _ hkeys
      rw [mem_getKeyList, hvalue] at hkey
      exact (hmem sec).mpr (.inr ⟨key, hkey⟩)

/-- The sections of a file that have a key. -/
theorem exists_getValue_iff (sec : GoString) :
    (∃ key, (file.getValue sec key).isSome = true) ↔ ∃ kv, file.data[sec]? = some kv ∧ ∃ key, key ∈ kv := by
  simp only [FileStore.getValue, Option.isSome_iff_exists, Option.bind_eq_some_iff, GoMap.mem_iff]
  constructor
  · rintro ⟨key, v, kv, hkv, hv⟩
    exact ⟨kv, hkv, key, v, hv⟩
  · rintro ⟨kv, hkv, key, v, hv⟩
    exact ⟨key, v, kv, hkv, hv⟩

/-- **The copy is the overlay** exactly if every section that the file has without keys was there before: only
    a key makes a section. -/
theorem copied_overlays_iff {s s' : MongoStorage} (h : CopiedSections file file.getSectionList s s') :
    Overlays s.data file.data s'.data ↔
      ∀ (sec : GoString) (kv : Section), file.data[sec]? = some kv → (∀ key, key ∉ kv) → sec ∈ s.data := by
  obtain ⟨hget, hmem⟩ := copyAll_spec h
  constructor
  · intro hover sec kv hkv hempty
    have hsec : sec ∈ s'.data := (hover.sections sec).mpr (.inr (GoMap.mem_iff.mpr ⟨kv, hkv⟩))
    rcases (hmem sec).mp hsec with hold | hkeys
    · exact hold
    · obtain ⟨kv', hkv', key, hkey⟩ := (exists_getValue_iff sec).mp hkeys
      cases hkv.symm.trans hkv'
      exact absurd hkey (hempty key)
  · intro hempty
    refine ⟨fun sec => ?_, hget⟩
    rw [hmem, exists_getValue_iff, GoMap.mem_iff (m := file.data)]
    constructor
    · rintro (hold | ⟨kv, hkv, -⟩)
      · exact .inl hold
      · exact .inr ⟨kv, hkv⟩
    · rintro (hold | ⟨kv, hkv⟩)
      · exact .inl hold
      · by_cases hkey : ∃ key, key ∈ kv
        · exact .inr ⟨kv, hkv, hkey⟩
        · exact .inl (hempty sec kv hkv fun key hk => hkey ⟨key, hk⟩)

/-- **Running it again** on the same file returns nil, and the cache and the collection stay as they are. -/
theorem migrate_again (h : migrate G file configPath ch (.none order) p = (.ok (), out, p')) {again : FileStore}
    (configPath' : GoString) {ch' : SaveChoice} (order' : Shuffle Doc) (hdata : again.data = file.data)
    (hdrawn : Drawn ch' p'.store.data) :
    ∃ out' p'', migrate G again configPath' ch' (.none order') p' = (.ok (), out', p'') ∧
      p''.store = p'.store ∧ Mirrors G p'.store.key p'.store.data p''.srv.coll := by
  obtain ⟨hne, hcopy, -, hrun⟩ := migrate_nil h
  have hnil : (runSave G p'.store ch (.none order) p.srv).1 = .ok () := by rw [hrun]
  obtain ⟨hwritten, -, -, hforeign⟩ := runSave_ok hrun
  have hne' : again.getSectionList ≠ [] := by
    obtain ⟨sec, hsec⟩ := List.exists_mem_of_ne_nil _ hne
    refine List.ne_nil_of_mem (a := sec) ?_
    rw [mem_getSectionList] at hsec ⊢
    rw [hdata]
    exact hsec
  have hsave : (runSave G p'.store ch' (.none order') p'.srv).1 = .ok () :=
    runSave_returns_nil order' hdrawn (hforeign.trans (runSave_nil_only hnil).1)
      fun sec kv hsec => (hwritten sec kv hsec).1
  obtain ⟨out', p'', hmig, hstore, hrun'⟩ :=
    @migrate_returns_nil G again configPath' ch' order' p' hne' _ (copiedSections_again hdata hcopy) hsave
  exact ⟨out', p'', hmig, hstore, runSave_mirrors hrun'⟩

/-- **`Migrate` overlays the file on the store**, when nothing fails and it returns nil, exactly if every
    section that the file has without keys was in the store before. -/
theorem migrate_overlays_iff (h : migrate G file configPath ch (.none order) p = (.ok (), out, p')) :
    MigratedTo G file.data p p' ↔
      ∀ (sec : GoString) (kv : Section), file.data[sec]? = some kv → (∀ key, key ∉ kv) →
        sec ∈ p.store.data := by
  obtain ⟨-, hcopy, -, hrun⟩ := migrate_nil h
  have hmirror : Mirrors G p'.store.key p'.store.data p'.srv.coll := runSave_mirrors hrun
  rw [← copied_overlays_iff hcopy]
  refine ⟨MigratedTo.memory, fun hover => ?_⟩
  refine ⟨hcopy.key, hover, hmirror.allDecryptable, by rw [hmirror.decrypted_eq]; exact hover, ?_⟩
  intro again configPath' ch' order' hdata hdrawn
  obtain ⟨out', p'', hmig, hstore, hmirror'⟩ := migrate_again h configPath' order' hdata hdrawn
  refine ⟨out', p'', hmig, hstore, hmirror'.allDecryptable, ?_⟩
  rw [hmirror'.decrypted_eq, hmirror.decrypted_eq]

end

/-- A file with a section that has a key and one that has none. -/
def bareFile : FileStore :=
  ⟨((∅ : Config).insert (str "bare") ∅).insert (str "s3") ((∅ : Section).insert (str "type") (str "s3")),
    ⟨Shuffle.id _, fun _ => Shuffle.id _⟩⟩

/-- A store with nothing in it. -/
def blankProcess : Process := ⟨⟨sampleKey, ∅⟩, ⟨.empty, []⟩⟩

/-- **A section that is reported and not made**: the file has it without keys, and the store did not have
    it. -/
theorem migrate_drops_bare_section :
    ∃ out p', migrate tagGcm bareFile (str "rclone.conf") (.inOrder sampleNonce) (.none (Shuffle.id _))
        blankProcess = (.ok (), out, p') ∧
      str "✓ bare (0 keys)\n" ∈ out ∧ str "bare" ∈ bareFile.data ∧
      str "bare" ∉ p'.store.data ∧ p'.srv.coll.get? (str "bare") = none ∧
      ¬ MigratedTo tagGcm bareFile.data blankProcess p' := by
  have hnil : (migrate tagGcm bareFile (str "rclone.conf") (.inOrder sampleNonce) (.none (Shuffle.id _))
      blankProcess).1 = .ok () := by decide
  have hgone : str "bare" ∉ (migrate tagGcm bareFile (str "rclone.conf") (.inOrder sampleNonce)
      (.none (Shuffle.id _)) blankProcess).2.2.store.data := by decide
  refine ⟨_, _, Prod.ext hnil rfl, by decide, by decide, hgone, by decide, fun h => hgone ?_⟩
  exact (h.memory.sections (str "bare")).mpr (.inr (by decide))

/-- A store that has the section already, with a key. -/
def bareProcess : Process :=
  ⟨⟨sampleKey, (∅ : Config).insert (str "bare") ((∅ : Section).insert (str "type") (str "local"))⟩,
    ⟨.empty, []⟩⟩

/-- A bare section does no harm where the store already has the section. -/
theorem migrate_overlays_bareProcess :
    ∃ out p', migrate tagGcm bareFile (str "rclone.conf") (.inOrder sampleNonce) (.none (Shuffle.id _))
        bareProcess = (.ok (), out, p') ∧ MigratedTo tagGcm bareFile.data bareProcess p' := by
  have hnil : (migrate tagGcm bareFile (str "rclone.conf") (.inOrder sampleNonce) (.none (Shuffle.id _))
      bareProcess).1 = .ok () := by decide
  refine ⟨_, _, Prod.ext hnil rfl, (migrate_overlays_iff (Prod.ext hnil rfl)).mpr fun sec kv hkv hempty => ?_⟩
  have htype : ∀ kv', kv' = (∅ : Section).insert (str "type") (str "s3") → ¬ ∀ key, key ∉ kv' := by
    rintro kv' rfl hno
    exact hno (str "type") (by decide)
  simp only [bareFile, GoMap.getElem?_insert] at hkv
  split at hkv
  · cases hkv
    exact absurd hempty (htype _ rfl)
  · split at hkv
    · next hsec => exact hsec ▸ (by decide : str "bare" ∈ bareProcess.store.data)
    · simp at hkv

end RCloneCloud
