import RCloneCloud.Cli.Runtime

/-!
# `Cli.Lives` — the tool run again and again

Seen from outside, the collection holds a configuration, and each life of the tool makes a turn of it: a dump leaves it
alone, a migration that returns nil sets the file's values over it, and one that does not has done so for some of the
sections. Every run of lives under one key is such a chronicle (`lives_chronicle`), and a dump after it writes what the
chronicle ends with (`dump_after_lives`).

`Turn` is what one life may do to the configuration, whatever fails in it. A migration that fails on the way has
written the sections it had come to, each as a successful one would have (`Copied`, section by section); one that
succeeds has written all of them. `Holds` ties the collection to the configuration: it is readable under the key and
reads as this. The latest value of a key after successful lives is found by going back through the migrated files
(`Chronicle.latest`).
-/

set_option autoImplicit false

namespace RCloneCloud

open Lib

/-! ## The configuration held -/

/-- The collection can be read under the key, and this is what is read. -/
structure Holds (G : Gcm) (key : Key) (coll : Collection) (m : Config) : Prop where
  readable : AllDecryptable G key coll
  config : decrypted G key coll = m

/-- `m` with the values of `f` set over it; only a key makes a section. -/
structure Copied (m f r : Config) : Prop where
  values : ∀ sec key, (flatten r).get sec key = ((flatten f).get sec key).or ((flatten m).get sec key)
  sections : ∀ sec, sec ∈ r ↔ sec ∈ m ∨ ∃ key, ((flatten f).get sec key).isSome = true

/-- What a life makes of the configuration held, by whether it returned nil. -/
inductive Turn : Config → CliCommand → Bool → Config → Prop
  | dump {m : Config} {filePath : GoString} {ch : RangeChoice} {o : DumpOutcomes} {nil : Bool} :
      Turn m (.dump filePath ch o) nil m
  | migrated {m r : Config} {file : FileStore} {configPath : GoString} {ch : SaveChoice} {f : MigrateFaults}
      (h : Copied m file.data r) : Turn m (.migrate file configPath ch f) true r
  | interrupted {m r m' : Config} {file : FileStore} {configPath : GoString} {ch : SaveChoice} {f : MigrateFaults}
      (h : Copied m file.data r) (hsome : ∀ sec : GoString, m'[sec]? = m[sec]? ∨ m'[sec]? = r[sec]?) :
      Turn m (.migrate file configPath ch f) false m'

/-- What the lives at an address make of the configuration held there. -/
inductive Chronicle (address : MongoAddress) : Config → List (CliLife × ExitCode) → Config → Prop
  | nil {m : Config} : Chronicle address m [] m
  | elsewhere {m m' : Config} {life : CliLife} {exit : ExitCode} {rest : List (CliLife × ExitCode)}
      (h : life.address ≠ address) (hrest : Chronicle address m rest m') : Chronicle address m ((life, exit) :: rest) m'
  | here {m mid m' : Config} {life : CliLife} {exit : ExitCode} {rest : List (CliLife × ExitCode)}
      (h : life.address = address) (hturn : Turn m life.command exit.isNil mid) (hrest : Chronicle address mid rest m') :
      Chronicle address m ((life, exit) :: rest) m'

/-! ## Copying and saving -/

section
variable {G : Gcm} {key : Key} {coll : Collection} {m : Config} {file : FileStore} {store store' : MongoStorage}
  {ch : SaveChoice} {srv srv' : Server}

/-- What the loop has done to a store is to overlay the file. -/
theorem CopiedSections.copied (h : CopiedSections file file.getSectionList store store') :
    Copied store.data file.data store'.data :=
  ⟨(copyAll_spec h).1, (copyAll_spec h).2⟩

/-- Every file can be overlaid on every configuration. -/
theorem exists_copied (key : Key) (m : Config) (file : FileStore) : ∃ r, Copied m file.data r := by
  obtain ⟨store', -, hspec⟩ := @copySections_spec file ⟨key, m⟩ file.getSectionList []
  exact ⟨store'.data, hspec.copied⟩

/-- A copy loop that reports every section is one that no report stops. -/
theorem copySections_reported {print : GoString → Except GoError Unit} {secs out out' : List GoString}
    (h : copySections file print secs store out = (.ok (), store', out')) :
    copySections file (fun _ => .ok ()) secs store out = (.ok (), store', out') := by
  induction secs generalizing store out with
  | nil => exact h
  | cons sec rest ih =>
      rw [copySections] at h ⊢
      dsimp only at h ⊢
      split at h
      · cases h
      · exact ih h

/-- A loop that comes to its end has copied the whole file. -/
theorem copySections_copied {print : GoString → Except GoError Unit} {out : List GoString}
    (h : copySections file print file.getSectionList store [] = (.ok (), store', out)) :
    store'.key = store.key ∧ Copied store.data file.data store'.data := by
  obtain ⟨s, hs, hspec⟩ := @copySections_spec file store file.getSectionList []
  rw [copySections_reported h] at hs
  obtain rfl : store' = s := congrArg (fun r => r.2.1) hs
  exact ⟨hspec.key, hspec.copied⟩

/-- The sections held are those with a document. -/
theorem Holds.stored_iff (h : Holds G key coll m) (id : GoString) : id ∈ m ↔ ∃ d, coll.get? id = some d := by
  rw [GoMap.mem_iff, ← h.config]
  simp only [decrypted_getElem?, Option.map_eq_some_iff]
  constructor
  · rintro ⟨kv, d, hd, -⟩
    exact ⟨d, hd⟩
  · rintro ⟨d, hd⟩
    exact ⟨_, d, hd, rfl⟩

/-- **A save of more than is held** leaves exactly what was saved, when it returns nil, whatever failed besides. -/
theorem Holds.saved {f : SaveFaults} (h : Holds G store.key srv.coll m) (hmore : ∀ sec, sec ∈ m → sec ∈ store.data)
    (hsave : runSave G store ch f srv = (.ok (), srv')) : Holds G store.key srv'.coll store.data := by
  obtain ⟨hwritten, hpurged, hkept, -⟩ := runSave_ok hsave
  have hmirror : Mirrors G store.key store.data srv'.coll := by
    refine ⟨hwritten, fun id hnone => ?_⟩
    by_cases hp : Purges f srv.coll id
    · exact hpurged id hnone hp
    · rw [hkept id hnone hp]
      cases hget : srv.coll.get? id with
      | none => rfl
      | some d =>
          -- what has a document is held, so it was saved
          have hid : id ∈ store.data := hmore id ((h.stored_iff id).mpr ⟨d, hget⟩)
          rw [GoMap.mem_iff, hnone] at hid
          obtain ⟨kv, hkv⟩ := hid
          cases hkv
  exact ⟨hmirror.allDecryptable, hmirror.decrypted_eq⟩

/-- **A save that fails** leaves each section as it was, or as it is saved. -/
theorem Holds.notSaved {f : SaveFaults} {err : GoError} (h : Holds G store.key srv.coll m)
    (hsave : runSave G store ch f srv = (.error err, srv')) :
    ∃ m', Holds G store.key srv'.coll m' ∧ ∀ sec : GoString, m'[sec]? = m[sec]? ∨ m'[sec]? = store.data[sec]? := by
  obtain ⟨hdocs, -⟩ := runSave_error hsave
  refine ⟨decrypted G store.key srv'.coll, ⟨fun id d hget => ?_, rfl⟩, fun sec => ?_⟩
  · rcases hdocs id with hold | ⟨kv, d', -, -, hget', henc⟩
    · rw [hold] at hget
      exact h.readable id d hget
    · cases hget.symm.trans hget'
      exact henc.decryptable
  · rw [← h.config, decrypted_getElem?, decrypted_getElem?]
    rcases hdocs sec with hold | ⟨kv, d, hkv, hid, hget, henc⟩
    · exact .inl (by rw [hold])
    · refine .inr ?_
      rw [hget, hkv, Option.map_some, henc.readable_eq hid]

/-! ## One life -/

/-- **A migration makes its turn.** -/
theorem migrate_turn {f : MigrateFaults} {configPath : GoString} (h : Holds G store.key srv.coll m) (hdata : store.data = m) :
    ∃ m', Holds G store.key (migrate G file configPath ch f ⟨store, srv⟩).2.2.srv.coll m' ∧
      Turn m (.migrate file configPath ch f) (migrate G file configPath ch f ⟨store, srv⟩).1.isOk m' := by
  -- a migration that stops before it saves has done nothing
  have hstopped : Turn m (.migrate file configPath ch f) false m := by
    obtain ⟨r, hr⟩ := exists_copied store.key m file
    exact .interrupted hr fun sec => .inl rfl
  unfold migrate
  split
  · exact ⟨m, h, hstopped⟩
  · split
    · exact ⟨m, h, hstopped⟩
    · split
      · exact ⟨m, h, hstopped⟩
      · next copied out hcopy =>
          obtain ⟨hkey, hcopied⟩ := copySections_copied hcopy
          replace hkey : copied.key = store.key := hkey
          replace hcopied : Copied store.data file.data copied.data := hcopied
          rw [hdata] at hcopied
          rw [← hkey] at h
          split
          · next err p hsave =>
              obtain ⟨hrun, -⟩ := Process.save_eq hsave
              obtain ⟨m', hholds, hsome⟩ := h.notSaved hrun
              exact ⟨m', hkey ▸ hholds, .interrupted hcopied hsome⟩
          · next p hsave =>
              obtain ⟨hrun, -⟩ := Process.save_eq hsave
              have hholds := h.saved (fun sec hsec => (hcopied.sections sec).mpr (.inl hsec)) hrun
              rw [hkey] at hholds
              split
              · exact ⟨copied.data, hholds, .interrupted hcopied fun sec => .inr rfl⟩
              · exact ⟨copied.data, hholds, .migrated hcopied⟩

/-- A result that is no error. -/
theorem isOk_iff {r : Except GoError Unit} : r.isOk = true ↔ r = .ok () := by
  cases r with
  | ok u =>
      constructor
      · intro h
        rfl
      · intro h
        rfl
  | error err =>
      constructor
      · intro h
        cases h
      · intro h
        cases h

/-- **A dump that returns nil** has written the whole export, and nothing else. -/
theorem dump_ok {store : MongoStorage} {ch : RangeChoice} {filePath : GoString} {o : DumpOutcomes} {disk : Disk}
    (h : ((dump store ch filePath).exec (serveDump o) disk).1 = .ok ()) :
    ((dump store ch filePath).exec (serveDump o) disk).2 = Function.update disk filePath (some (exportText store.data)) := by
  obtain ⟨writeFile, print⟩ := o
  cases writeFile with
  | fail left err => cases h
  | ok =>
      cases print with
      | error err => cases h
      | ok u =>
          rw [← dumpText_eq store ch]
          rfl

section
variable {sha256 : Bytes → Key} {T : ErrorTests} {life : CliLife} {w : CliWorld} {address : MongoAddress}

/-- A life touches one collection only. -/
theorem CliLife.elsewhere (h : life.address ≠ address) : (life.main G sha256 T w).2.servers address = w.servers address := by
  unfold CliLife.main CliLife.execute
  split
  · rfl
  · split
    · rfl
    · unfold CliCommand.execute
      split
      · exact Function.update_of_ne h.symm _ _
      · rfl

/-- **A life makes its turn** of what is held under its key; a dump that returns nil has written what is held. -/
theorem CliLife.turn (h : Holds G (life.key sha256) (w.servers life.address).coll m) :
    ∃ m', Holds G (life.key sha256) ((life.main G sha256 T w).2.servers life.address).coll m' ∧
      Turn m life.command (life.main G sha256 T w).1.isNil m' ∧
      ∀ filePath ch o, life.command = .dump filePath ch o → (life.main G sha256 T w).1.isNil = true →
        (life.main G sha256 T w).2.disk = Function.update w.disk filePath (some (exportText m)) := by
  have hexit : (life.main G sha256 T w).1.isNil = (life.execute G sha256 w).1.isOk := by
    rw [Bool.eq_iff_iff, isOk_iff]
    exact isNil_resolveExitCode
  rw [hexit]
  show ∃ m', Holds G _ ((life.execute G sha256 w).2.servers life.address).coll m' ∧ _ ∧
    ∀ filePath ch o, _ → _ → (life.execute G sha256 w).2.disk = _
  -- a life that ends before its command has done nothing
  have hended : ∀ err : GoError, life.execute G sha256 w = (.error err, w) →
      ∃ m', Holds G (life.key sha256) ((life.execute G sha256 w).2.servers life.address).coll m' ∧
        Turn m life.command (life.execute G sha256 w).1.isOk m' ∧
        ∀ filePath ch o, life.command = .dump filePath ch o → (life.execute G sha256 w).1.isOk = true →
          (life.execute G sha256 w).2.disk = Function.update w.disk filePath (some (exportText m)) := by
    intro err herr
    rw [herr]
    refine ⟨m, h, ?_, fun filePath ch o _ hok => by cases hok⟩
    cases life.command with
    | dump filePath ch o => exact .dump
    | migrate file configPath ch f =>
        obtain ⟨r, hr⟩ := exists_copied (life.key sha256) m file
        exact .interrupted hr fun sec => .inl rfl
  cases hinit : initRuntime G sha256 life.toCliStart (w.servers life.address).coll with
  | error err =>
      refine hended err ?_
      unfold CliLife.execute
      rw [hinit]
  | ok store =>
      obtain ⟨hkey, -, hdata⟩ := initRuntime_ok hinit
      rw [h.config] at hdata
      cases hflags : life.requiredFlags with
      | error err =>
          refine hended err ?_
          unfold CliLife.execute
          rw [hinit, hflags]
      | ok u =>
          have hrun : life.execute G sha256 w = life.command.execute G life.address store w := by
            unfold CliLife.execute
            rw [hinit, hflags]
          rw [hrun]
          cases life.command with
          | dump filePath ch o =>
              refine ⟨m, h, .dump, fun filePath' ch' o' hsame hok => ?_⟩
              cases hsame
              rw [← hdata]
              exact dump_ok (isOk_iff.mp hok)
          | migrate file configPath ch f =>
              rw [← hkey] at h ⊢
              obtain ⟨m', hholds, hturn⟩ := @migrate_turn G m file store ch _ f configPath h hdata
              refine ⟨m', ?_, hturn, fun filePath ch o hno => by cases hno⟩
              show Holds G store.key (Function.update w.servers life.address _ life.address).coll m'
              rw [Function.update_self]
              exact hholds

/-! ## Any number of lives -/

/-- The files that the lives at an address migrate, in their order. -/
def migratedFiles (address : MongoAddress) (lives : List CliLife) : List Config :=
  lives.filterMap fun life =>
    if life.address = address then
      match life.command with
      | .migrate file .. => some file.data
      | .dump .. => none
    else none

/-- **The latest file that has a key gives its value**, where every migration returned nil. -/
theorem Chronicle.latest {lives : List CliLife} {exits : List ExitCode} {m' : Config}
    (h : Chronicle address m (lives.zip exits) m') (hlength : lives.length = exits.length)
    (hnil : ∀ exit ∈ exits, exit.isNil = true) (sec key : GoString) :
    (flatten m').get sec key =
      ((migratedFiles address lives).reverse.findSome? fun f => (flatten f).get sec key).or ((flatten m).get sec key) := by
  induction lives generalizing exits m with
  | nil =>
      cases h
      rfl
  | cons life rest ih =>
      cases exits with
      | nil => cases hlength
      | cons exit exits =>
          have hlength' : rest.length = exits.length := Nat.succ.inj hlength
          have hnil' : ∀ exit ∈ exits, exit.isNil = true := fun exit hexit => hnil exit (List.mem_cons_of_mem _ hexit)
          cases h with
          | elsewhere hno hrest =>
              have hfiles : migratedFiles address (life :: rest) = migratedFiles address rest :=
                List.filterMap_cons_none (if_neg hno)
              rw [hfiles]
              exact ih hrest hlength' hnil'
          -- the files of the later lives come first; where none has the key, this life's file decides
          | here hhere hturn hrest =>
              have hfiles : migratedFiles address (life :: rest) =
                  (match life.command with
                    | .migrate file .. => some file.data
                    | .dump .. => none).toList ++ migratedFiles address rest := by
                unfold migratedFiles
                rw [List.filterMap_cons, if_pos hhere]
                cases life.command <;> rfl
              rw [ih hrest hlength' hnil', hfiles, List.reverse_append, List.findSome?_append, Option.or_assoc]
              congr 1
              rw [hnil exit List.mem_cons_self] at hturn
              generalize life.command = command at hturn ⊢
              -- the life was successful, so its turn is not an interrupted one
              cases hturn with
              | dump => rfl
              | @migrated _ file _ _ _ hcopied =>
                  rw [hcopied.values]
                  show _ = ([file.data].findSome? fun f => (flatten f).get sec key).or _
                  rw [List.findSome?_singleton]

end

end

/-- A start under which every call succeeds. -/
def smoothStart : CliStart where
  getenv := fun name => if name = str "MONGO_KEY" then str "secret" else []
  args := [str "rclone-cloud"]
  cfg := ⟨str "mongodb://db", [], str "rclone", str "configs"⟩
  outcomes := ⟨.ok (), .ok (), Shuffle.id _, .none (Shuffle.id _), .ok (), .ok (), .ok (), .ok ()⟩

/-- The SHA-256 digest of the key that this start gives. -/
def secretDigest : Key :=
  ⟨[0x2b, 0xb8, 0x0d, 0x53, 0x7b, 0x1d, 0xa3, 0xe3, 0x8b, 0xd3, 0x03, 0x61, 0xaa, 0x85, 0x56, 0x86,
    0xbd, 0xe0, 0xea, 0xcd, 0x71, 0x62, 0xfe, 0xf6, 0xa2, 0x5f, 0xe9, 0x7b, 0xf5, 0x27, 0xa2, 0x5b], by decide⟩

/-- A life that migrates the file. -/
def migrateLife (file : FileStore) : CliLife :=
  ⟨smoothStart, .ok (), .migrate file (str "rclone.conf") (.inOrder sampleNonce) (.none (Shuffle.id _)), false, 0⟩

/-- rclone knows nothing of any error. -/
def noErrorTests : ErrorTests :=
  ⟨fun _ => false, fun _ => false, fun _ => false, fun _ => false, fun _ => false, fun _ => false, fun _ => false, fun _ => false⟩

/-- Empty collections and an empty disk. -/
def emptyWorld : CliWorld := ⟨fun _ => ⟨.empty, []⟩, fun _ => none⟩

end RCloneCloud
