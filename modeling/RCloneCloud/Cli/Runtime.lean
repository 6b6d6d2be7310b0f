import RCloneCloud.Go.Strings
import RCloneCloud.Storage.Migrate

/-!
# `Cli.Runtime` — one life of the command line tool

Every command starts with `initRuntime`: the flags go before the environment, the collection is opened under the key
they give, and the whole configuration is loaded. What the command then does to the collection and to the disk, and the
exit code, are functions of how each call outside the process ends. No other process writes to the collection while the
command runs.

Outcomes of calls outside the process are parameters of a life (`InitOutcomes`, `DumpOutcomes`), so that a theorem
about lives quantifies over all failures. `CliWorld` is what outlives the process: the collections by their address,
and the files. The exit code follows the source's table; `ErrorTests` are the tests on errors that rclone's library
makes.
-/

set_option autoImplicit false

namespace RCloneCloud

open Lib

/-! ## The start -/

/-- Where the configuration is stored and under which key. -/
structure MongoConfig where
  url : GoString
  key : GoString
  db : GoString
  collection : GoString

/-- How the calls of `initRuntime` end. -/
structure InitOutcomes where
  globalOptionsInit : Except GoError Unit
  connect : Except GoError Unit
  fields : Shuffle (GoString × Bson)
  load : LoadFaults
  startWatching : Except GoError Unit
  rcserverStart : Except GoError Unit
  metricsStart : Except GoError Unit
  /-- The profile's file is made and the profile started, where one is asked for. -/
  cpuProfile : Except GoError Unit

/-- Where a collection is. -/
structure MongoAddress where
  uri : GoString
  db : GoString
  collection : GoString
deriving DecidableEq

/-- A flag, or the environment's value where it is empty. -/
def flagOrEnv (flag env : GoString) : GoString := if flag = [] then env else flag

/-- `mongodb.New`. -/
def newMongoStorage (sha256 : Bytes → Key) (encKeyStr : GoString) : Except GoError MongoStorage :=
  let trimmedKey := trimSpace encKeyStr
  if trimmedKey = [] then .error (.errorf "encryption key cannot be empty or only whitespace" [])
  else .ok ⟨sha256 trimmedKey, ∅⟩

/-- The key is the hash of the trimmed text. -/
theorem newMongoStorage_key {sha256 : Bytes → Key} {encKeyStr : GoString} {store : MongoStorage}
    (h : newMongoStorage sha256 encKeyStr = .ok store) : store.key = sha256 (trimSpace encKeyStr) := by
  unfold newMongoStorage at h
  dsimp only at h
  split at h
  · cases h
  · cases h
    rfl

/-- What one process is started with, and how what it asks of the world ends; `os.Args` has the program's name first. -/
structure CliStart where
  getenv : GoString → GoString
  args : List GoString
  cfg : MongoConfig
  outcomes : InitOutcomes

namespace CliStart

/-- The flag, or the environment's value. -/
def mongoURI (c : CliStart) : GoString := flagOrEnv c.cfg.url (c.getenv (str "MONGO_URL"))

/-- Likewise for the key. -/
def encKey (c : CliStart) : GoString := flagOrEnv c.cfg.key (c.getenv (str "MONGO_KEY"))

/-- The collection that the process opens. -/
def address (c : CliStart) : MongoAddress := ⟨c.mongoURI, c.cfg.db, c.cfg.collection⟩

/-- The key that it opens it under. -/
def key (sha256 : Bytes → Key) (c : CliStart) : Key := sha256 (trimSpace c.encKey)

/-- The metrics server, which is started under every command but `rc`. -/
def metricsStart (c : CliStart) : Except GoError Unit :=
  match c.args[1]? with
  | some command => if command = str "rc" then .ok () else c.outcomes.metricsStart
  | none => .ok ()

end CliStart

/-- `initRuntime`, on the collection at the address it finds; a change stream that does not start is only logged. -/
def initRuntime (G : Gcm) (sha256 : Bytes → Key) (c : CliStart) (coll : Collection) : Except GoError MongoStorage :=
  match c.outcomes.globalOptionsInit with
  | .error err => .error (.wrapf "failed to initialise global options: %w" [] err)
  | .ok () =>
    if c.mongoURI = [] then .error (.errorf "MongoDB URI is not set; use --mongo-url or MONGO_URL" [])
    else if c.encKey = [] then .error (.errorf "MongoDB encryption key is not set; use --mongo-key or MONGO_KEY" [])
    else
      match c.outcomes.connect with
      | .error err => .error (.wrapf "failed to connect to MongoDB: %w" [] err)
      | .ok () =>
        match newMongoStorage sha256 c.encKey with
        | .error err => .error (.wrapf "failed to initialize MongoDB config storage: %w" [] err)
        | .ok mongoStore =>
          match load G c.outcomes.fields c.outcomes.load coll mongoStore with
          | (.error err, _) => .error (.wrapf "failed to load config from MongoDB: %w" [] err)
          | (.ok (), mongoStore) =>
            match c.outcomes.rcserverStart with
            | .error err => .error (.wrapf "failed to start remote control: %w" [] err)
            | .ok () =>
              match c.metricsStart with
              | .error err => .error (.wrapf "failed to start metrics server: %w" [] err)
              | .ok () =>
                match c.outcomes.cpuProfile with
                | .error err => .error err
                | .ok () => .ok mongoStore

/-- **What a start that succeeds has read**: everything in the collection, under the key it was given. -/
theorem initRuntime_ok {G : Gcm} {sha256 : Bytes → Key} {c : CliStart} {coll : Collection} {store : MongoStorage}
    (h : initRuntime G sha256 c coll = .ok store) :
    store.key = c.key sha256 ∧ AllDecryptable G (c.key sha256) coll ∧ store.data = decrypted G (c.key sha256) coll := by
  unfold initRuntime at h
  split at h
  · cases h
  · split at h
    · cases h
    · split at h
      · cases h
      · split at h
        · cases h
        · split at h
          · cases h
          · next fresh hnew =>
              have hfresh : fresh.key = c.key sha256 := newMongoStorage_key hnew
              split at h
              · cases h
              · next loaded hload =>
                  obtain ⟨hall, rfl⟩ := load_ok hload
                  rw [hfresh] at hall
                  -- nothing after the load touches what was read
                  have hstore : store = { fresh with data := decrypted G fresh.key coll } := by
                    split at h
                    · cases h
                    · split at h
                      · cases h
                      · split at h
                        · cases h
                        · cases h
                          rfl
                  subst hstore
                  rw [hfresh]
                  exact ⟨rfl, hall, rfl⟩

/-! ## The commands -/

/-- How `os.WriteFile` ends; one that fails leaves what it left of the file. -/
inductive WriteFileOutcome where
  | ok
  | fail (left : Option GoString) (err : GoError)

/-- How the writing of the file ends. -/
structure DumpOutcomes where
  writeFile : WriteFileOutcome
  print : Except GoError Unit

/-- The files by their path. -/
abbrev Disk := GoString → Option GoString

/-- What the disk, and the writer that the command prints to, make of a call of `Dump`. -/
def serveDump (o : DumpOutcomes) : DumpCall → Disk → Except GoError Unit × Disk
  | .writeFile filePath text, disk =>
      match o.writeFile with
      | .ok => (.ok (), Function.update disk filePath (some text))
      | .fail left err => (.error err, Function.update disk filePath left)
  | .print _, disk => (o.print, disk)

/-- The commands of this repository; `file` is what the parser made of the file to migrate. -/
inductive CliCommand where
  | migrate (file : FileStore) (configPath : GoString) (ch : SaveChoice) (f : MigrateFaults)
  | dump (filePath : GoString) (ch : RangeChoice) (o : DumpOutcomes)

/-- A life of the tool: its start, what the command line parser makes of the required flags, the command, and what
    rclone's option `ErrorOnNoTransfer` and its count of transfers are at the end. -/
structure CliLife extends CliStart where
  requiredFlags : Except GoError Unit
  command : CliCommand
  errorOnNoTransfer : Bool
  transfers : ℕ

/-- The collections and the disk. -/
structure CliWorld where
  servers : MongoAddress → Server
  disk : Disk

/-- The body of a command. -/
def CliCommand.execute (G : Gcm) (address : MongoAddress) (store : MongoStorage) (w : CliWorld) :
    CliCommand → Except GoError Unit × CliWorld
  | .migrate file configPath ch f =>
      let out := RCloneCloud.migrate G file configPath ch f ⟨store, w.servers address⟩
      (out.1, { w with servers := Function.update w.servers address out.2.2.srv })
  | .dump filePath ch o =>
      let out := (RCloneCloud.dump store ch filePath).exec (serveDump o) w.disk
      (out.1, { w with disk := out.2 })

/-- `Execute`: the required flags are looked at after `initRuntime`. -/
def CliLife.execute (G : Gcm) (sha256 : Bytes → Key) (life : CliLife) (w : CliWorld) : Except GoError Unit × CliWorld :=
  match initRuntime G sha256 life.toCliStart (w.servers life.address).coll with
  | .error err => (.error err, w)
  | .ok store =>
    match life.requiredFlags with
    | .error err => (.error err, w)
    | .ok () => life.command.execute G life.address store w

/-! ## The exit code -/

/-- The exit codes of the process, by their names. -/
inductive ExitCode where
  | success
  | noFilesTransferred
  | dirNotFound
  | fileNotFound
  | transferExceeded
  | durationExceeded
  | retryError
  | noRetryError
  | fatalError
  | usageError
deriving DecidableEq

/-- rclone's tests of an error, in the order in which they are asked. -/
structure ErrorTests where
  dirNotFound : GoError → Bool
  objectNotFound : GoError → Bool
  maxTransferLimitReached : GoError → Bool
  maxDurationReached : GoError → Bool
  shouldRetry : GoError → Bool
  noRetry : GoError → Bool
  noLowLevelRetry : GoError → Bool
  fatal : GoError → Bool

/-- The exit code for an error. -/
def ErrorTests.exitCode (T : ErrorTests) (err : GoError) : ExitCode :=
  if T.dirNotFound err then .dirNotFound
  else if T.objectNotFound err then .fileNotFound
  else if T.maxTransferLimitReached err then .transferExceeded
  else if T.maxDurationReached err then .durationExceeded
  else if T.shouldRetry err then .retryError
  else if T.noRetry err || T.noLowLevelRetry err then .noRetryError
  else if T.fatal err then .fatalError
  else .usageError

/-- An error is classified by rclone's tests; without one only the flag for no transfers matters. -/
def resolveExitCode (T : ErrorTests) (errorOnNoTransfer : Bool) (transfers : ℕ) : Except GoError Unit → ExitCode
  | .ok () => if errorOnNoTransfer && transfers = 0 then .noFilesTransferred else .success
  | .error err => T.exitCode err

/-- The exit codes of a command that returned nil. -/
def ExitCode.isNil : ExitCode → Bool
  | .success | .noFilesTransferred => true
  | _ => false

/-- An error has none of the exit codes of a run that returned nil. -/
theorem isNil_exitCode (T : ErrorTests) (err : GoError) : (T.exitCode err).isNil = false := by
  unfold ErrorTests.exitCode
  split_ifs <;> rfl

/-- **The exit code tells** whether the command returned nil. -/
theorem isNil_resolveExitCode {T : ErrorTests} {errorOnNoTransfer : Bool} {transfers : ℕ} {r : Except GoError Unit} :
    (resolveExitCode T errorOnNoTransfer transfers r).isNil = true ↔ r = .ok () := by
  cases r with
  | ok u =>
      refine ⟨fun _ => rfl, fun _ => ?_⟩
      show (if errorOnNoTransfer && transfers = 0 then ExitCode.noFilesTransferred else .success).isNil = true
      split <;> rfl
  | error err =>
      show (T.exitCode err).isNil = true ↔ _
      rw [isNil_exitCode]
      constructor
      · intro h
        cases h
      · intro h
        cases h

/-- `Main`: the exit code, and the world afterwards. -/
def CliLife.main (G : Gcm) (sha256 : Bytes → Key) (T : ErrorTests) (life : CliLife) (w : CliWorld) : ExitCode × CliWorld :=
  let out := life.execute G sha256 w
  (resolveExitCode T life.errorOnNoTransfer life.transfers out.1, out.2)

end RCloneCloud
