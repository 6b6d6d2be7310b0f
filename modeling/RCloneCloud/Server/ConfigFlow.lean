import RCloneCloud.Cli.Lives
import RCloneCloud.Server.Env
import RCloneCloud.Server.ServiceCalls
import RCloneCloud.Storage.Converge
import RCloneCloud.Storage.SaveCalls

/-!
# `Server.ConfigFlow` — from the tool to the remotes of the server

The tool and the server meet in the collection only: the tool migrates files into it and dumps it, the server loads it,
watches it, and writes its whole cache back when it is shut down. Next to the tool's lives the process of the server
starts, is given events and stops, any number of times; their reads and writes of the whole collection do not overlap,
each is one step. What the collection holds is what the tool's lives alone have made of it, and a server that is up and
has been given every event lets through the calls on exactly these remotes.

What a cache that follows the stream knows is `Follows`: with the events it has not yet seen it would be the readable
part of the collection. All writes of the collection come from `Save`, of the tool or of the server, so a property of
server states that the two commits keep is kept by every life (`KeptByWrites`). `ConfigInv` joins the two with the
chronicle of the tool's lives (`Cli.Lives`), which says what the collection holds; its step lemma treats a life and
the shutdown's `Save` apart (`ConfigInv.life`, `ConfigInv.shutdown`), the other actions change the cache only.

`Orderly` gathers what is asked of a run: no section without a name, one key for all, no life between the server's
`Load` and the opening of its stream, and a shutdown only when every event has been read. Lives, the server's `Load`
and the `Save` of its shutdown are single steps, so runs in which their driver calls overlap are not among those
described.
-/

set_option autoImplicit false

namespace RCloneCloud

open Lib

/-! ## A cache that follows the collection -/

/-- A cache that has been given the first `seen` events of the server, and would be in sync after the others. -/
structure Follows (G : Gcm) (srv : Server) (store : MongoStorage) (seen : ℕ) : Prop where
  seen_le : seen ≤ srv.events.length
  synced : (feedOf G store.key ⟨srv.coll, store, (srv.events.drop seen).map .ready⟩).Synced

section
variable {G : Gcm} {srv : Server} {store : MongoStorage} {seen : ℕ}

/-- A write that the watched storage can take is followed. -/
theorem Follows.write {a : WatchAct} {coll : Collection} {ev : Event} (h : Follows G srv store seen)
    (hs : Watched.step G ⟨srv.coll, store, (srv.events.drop seen).map .ready⟩ a =
      some ⟨coll, store, (srv.events.drop seen).map .ready ++ [.ready ev]⟩) :
    Follows G ⟨coll, srv.events ++ [ev]⟩ store seen := by
  refine ⟨?_, ?_⟩
  · show seen ≤ (srv.events ++ [ev]).length
    rw [List.length_append]
    exact Nat.le_add_right_of_le h.seen_le
  · show (feedOf G store.key ⟨coll, store, ((srv.events ++ [ev]).drop seen).map .ready⟩).Synced
    rw [List.drop_append_of_le_length h.seen_le, List.map_append]
    exact Feed.synced_step h.synced (watch_step_refines rfl hs).2

/-- A document that is put comes with its event, so a cache that followed still follows. -/
theorem Follows.commitPut (h : Follows G srv store seen) (id : GoString) (doc : Doc) :
    Follows G (srv.commitPut id doc) store seen := by
  cases hget : (srv.coll.get? id).isSome with
  | true => exact h.write (a := .replace id doc) (if_pos hget)
  | false =>
      have hnone : (srv.coll.get? id).isNone = true := Option.isSome_eq_false_iff.mp hget
      exact h.write (a := .insert id doc) (if_pos hnone)

/-- Likewise for a document that is removed. -/
theorem Follows.commitRemove (h : Follows G srv store seen) (id : GoString) : Follows G (srv.commitRemove id) store seen := by
  cases hget : srv.coll.get? id with
  | none =>
      rw [Server.commitRemove, hget]
      exact h
  | some d =>
      rw [Server.commitRemove, hget]
      exact h.write (a := .delete id) (if_pos (by rw [hget]; rfl))

/-- Applying the next event moves the cache along the stream. -/
theorem Follows.deliver {ev : Event} (h : Follows G srv store seen) (hev : srv.events[seen]? = some ev)
    (fields : Shuffle (GoString × Bson)) : Follows G srv (processEvent G fields (.ok ev) store) (seen + 1) := by
  obtain ⟨hlt, rfl⟩ := List.getElem?_eq_some_iff.mp hev
  refine ⟨hlt, ?_⟩
  have hs : Watched.step G ⟨srv.coll, store, (srv.events.drop seen).map .ready⟩ (.deliver fields) =
      some ⟨srv.coll, processEvent G fields (.ok srv.events[seen]) store, (srv.events.drop (seen + 1)).map .ready⟩ := by
    rw [List.drop_eq_getElem_cons hlt]
    rfl
  rw [processEvent_key]
  exact Feed.synced_step h.synced (watch_step_refines rfl hs).2

/-- A cache that was just loaded, and whose stream is opened now. -/
theorem follows_of_load (h : store.data = decrypted G store.key srv.coll) : Follows G srv store srv.events.length := by
  refine ⟨le_refl _, ?_⟩
  rw [List.drop_length]
  intro id
  show named (fun id => store.data[id]?) id = named (fun id => (srv.coll.get? id).map (readable G store.key)) id
  refine congrFun (named_congr fun id' _ => ?_) id
  rw [h, decrypted_getElem?]

/-- A cache that has been given every event. -/
theorem Follows.caught_up (h : Follows G srv store srv.events.length) {id : GoString} (hid : id ≠ []) :
    store.data[id]? = (decrypted G store.key srv.coll)[id]? := by
  have hsettled := h.synced id
  rw [List.drop_length] at hsettled
  have hnamed : named (fun id => store.data[id]?) id = named (fun id => (srv.coll.get? id).map (readable G store.key)) id :=
    hsettled
  rw [named, if_neg hid, named, if_neg hid] at hnamed
  rw [hnamed, decrypted_getElem?]

end

/-! ## What a life writes -/

/-- A property of servers that every write keeps. -/
structure KeptByWrites (I : Server → Prop) : Prop where
  put : ∀ srv id doc, I srv → I (srv.commitPut id doc)
  remove : ∀ srv id, I srv → I (srv.commitRemove id)

section
variable {G : Gcm} {I : Server → Prop} {sha256 : Bytes → Key} {T : ErrorTests} {life : CliLife} {w : CliWorld}
  {address : MongoAddress}

/-- A driver call is one of the two commits or changes nothing, also when it fails. -/
theorem kept_serve (hI : KeptByWrites I) (f : SaveFaults) (op : DriverCall) {srv : Server} (h : I srv) :
    I (serve f op srv).2 := by
  cases op with
  | find => exact h
  | replaceOne id doc =>
      show I (srv.replaceOne (f.replace id) id doc).2
      unfold Server.replaceOne
      split
      · split
        · exact hI.put srv id doc h
        · split
          · exact hI.put srv id doc h
          · exact h
      · split
        · exact h
        · exact h
  | deleteOne id =>
      show I (srv.deleteOne (f.delete id) id).2
      unfold Server.deleteOne
      split
      · exact hI.remove srv id h
      · split
        · exact hI.remove srv id h
        · exact h

/-- A `Save` is a program over driver calls, so it keeps what they keep. -/
theorem kept_runSave (hI : KeptByWrites I) {store : MongoStorage} {ch : SaveChoice} {f : SaveFaults} {srv : Server}
    (h : I srv) : I (runSave G store ch f srv).2 :=
  Prog.exec_invariant (serve f) (fun op _ _ hs => kept_serve hI f op hs) (save_makes G store ch) h

/-- A migration changes the collection by its `Save` only. -/
theorem kept_migrate (hI : KeptByWrites I) {file : FileStore} {configPath : GoString} {ch : SaveChoice}
    {f : MigrateFaults} {store : MongoStorage} {srv : Server} (h : I srv) :
    I (migrate G file configPath ch f ⟨store, srv⟩).2.2.srv := by
  unfold migrate
  split
  · exact h
  · split
    · exact h
    · split
      · exact h
      · next copied out hcopy =>
          have hkept : I (runSave G copied ch f.save srv).2 := kept_runSave hI h
          split
          · next err p hsave =>
              obtain ⟨hrun, -⟩ := Process.save_eq hsave
              rw [hrun] at hkept
              exact hkept
          · next p hsave =>
              obtain ⟨hrun, -⟩ := Process.save_eq hsave
              rw [hrun] at hkept
              split
              · exact hkept
              · exact hkept

/-- A life of the tool changes the collection at its address by a migration only. -/
theorem kept_main (hI : KeptByWrites I) (h : I (w.servers address)) :
    I ((life.main G sha256 T w).2.servers address) := by
  unfold CliLife.main CliLife.execute
  split
  · exact h
  · next store hinit =>
      split
      · exact h
      · unfold CliCommand.execute
        split
        · next file configPath ch f hcommand =>
            show I (Function.update w.servers life.address _ address)
            by_cases hhere : address = life.address
            · subst hhere
              rw [Function.update_self]
              exact kept_migrate hI h
            · rw [Function.update_of_ne hhere]
              exact h
        · exact h

/-- Following the stream is kept by every write. -/
theorem keptByWrites_follows {store : MongoStorage} {seen : ℕ} : KeptByWrites fun srv => Follows G srv store seen :=
  ⟨fun _ id doc h => h.commitPut id doc, fun _ id h => h.commitRemove id⟩

end

/-! ## The tool and the process of the server -/

/-- How far `main` is: the configuration is loaded, or it is watched and `seen` events have been given to it. -/
inductive ApiPhase where
  | down
  | loaded (store : MongoStorage)
  | watching (store : MongoStorage) (seen : ℕ)

/-- The collections and the disk, the server's process, and the lives of the tool so far with their exit codes. -/
structure ConfigSystem where
  world : CliWorld
  api : ApiPhase
  log : List (CliLife × ExitCode)

/-- No life yet, and no server. -/
def ConfigSystem.init (w : CliWorld) : ConfigSystem := ⟨w, .down, []⟩

/-- A life of the tool, or the next thing that happens to the server's process. -/
inductive ConfigAct where
  | life (life : CliLife)
  | load (fields : Shuffle (GoString × Bson)) (f : LoadFaults)
  | startWatching (outcome : Except GoError Unit)
  | deliver (fields : Shuffle (GoString × Bson))
  | shutdown (ch : SaveChoice) (f : SaveFaults)
  | crash

/-- The collection that `main` opens. -/
def Env.mongoAddress (env : Env) : MongoAddress := ⟨env.mongoURI, env.mongoDB, env.mongoCol⟩

/-- The key that it opens it under. -/
def Env.key (sha256 : Bytes → Key) (env : Env) : Key := sha256 (trimSpace env.mongoKey)

/-- The server of the collection that `main` opens. -/
def ConfigSystem.srv (env : Env) (sys : ConfigSystem) : Server := sys.world.servers env.mongoAddress

/-- One action. What `main` ends with `log.Fatalf` saves nothing; a shutdown saves, and an error of it is only logged.
    A life of the tool, a `Load` and the `Save` of a shutdown are each taken in one piece: no other writer comes between
    the driver calls of one of them. What such a writer can lose is another matter (`Storage.LostUpdate`). -/
def ConfigSystem.step (G : Gcm) (sha256 : Bytes → Key) (T : ErrorTests) (env : Env) (sys : ConfigSystem) :
    ConfigAct → Option ConfigSystem
  | .life life =>
      let out := life.main G sha256 T sys.world
      some { sys with world := out.2, log := sys.log ++ [(life, out.1)] }
  | .load fields f =>
    match sys.api with
    | .down =>
      match newMongoStorage sha256 env.mongoKey with
      | .error _ => some sys
      | .ok fresh =>
        match RCloneCloud.load G fields f (sys.srv env).coll fresh with
        | (.error _, _) => some sys
        | (.ok (), store) => some { sys with api := .loaded store }
    | _ => none
  | .startWatching outcome =>
    match sys.api with
    | .loaded store =>
      match outcome with
      | .error _ => some { sys with api := .down }
      | .ok () => some { sys with api := .watching store (sys.srv env).events.length }
    | _ => none
  | .deliver fields =>
    match sys.api with
    | .watching store seen =>
      match (sys.srv env).events[seen]? with
      | none => none
      | some ev => some { sys with api := .watching (processEvent G fields (.ok ev) store) (seen + 1) }
    | _ => none
  | .shutdown ch f =>
    match sys.api with
    | .watching store _ =>
      let srv := (runSave G store ch f (sys.srv env)).2
      some { sys with world := { sys.world with servers := Function.update sys.world.servers env.mongoAddress srv }, api := .down }
    | _ => none
  | .crash => some { sys with api := .down }

/-- What the actions have to meet. The tool uses the server's key on its collection, the files have no section without a
    name, no life falls between `Load` and the opening of the stream, and the server is shut down when every event has
    been given to it. -/
def Orderly (sha256 : Bytes → Key) (env : Env) (sys : ConfigSystem) : ConfigAct → Prop
  | .life life => life.address = env.mongoAddress →
      life.key sha256 = env.key sha256 ∧ (∀ store, sys.api ≠ .loaded store) ∧
      ∀ file configPath ch f, life.command = .migrate file configPath ch f → [] ∉ file.data
  | .shutdown _ _ => ∀ store seen, sys.api = .watching store seen → seen = (sys.srv env).events.length
  | _ => True

/-! ## Turns and chronicles -/

section
variable {address : MongoAddress} {m mid m' : Config} {command : CliCommand} {nil : Bool} {life : CliLife} {exit : ExitCode}
  {log : List (CliLife × ExitCode)} {sec key : GoString}

/-- A section with an entry is a section of the configuration. -/
theorem flatten_mem {data : Config} (h : ((flatten data).get sec key).isSome = true) : sec ∈ data := by
  rw [flatten_get] at h
  cases hsec : data[sec]? with
  | none =>
      rw [hsec] at h
      cases h
  | some kv => exact GoMap.mem_iff.mpr ⟨kv, hsec⟩

/-- A turn takes no section away. -/
theorem Turn.keeps (h : Turn m command nil m') (hsec : sec ∈ m) : sec ∈ m' := by
  cases h with
  | dump => exact hsec
  | migrated hcopied => exact (hcopied.sections sec).mpr (.inl hsec)
  | interrupted hcopied hsome =>
      rcases hsome sec with hold | hnew
      · rw [GoMap.mem_iff, hold, ← GoMap.mem_iff]
        exact hsec
      · rw [GoMap.mem_iff, hnew, ← GoMap.mem_iff]
        exact (hcopied.sections sec).mpr (.inl hsec)

/-- It brings only sections of the file. -/
theorem Turn.brings (h : Turn m command nil m') (hsec : sec ∈ m') :
    sec ∈ m ∨ ∃ file configPath ch f, command = .migrate file configPath ch f ∧ sec ∈ file.data := by
  have hcases : ∀ {file : FileStore} {r : Config}, Copied m file.data r → sec ∈ r → sec ∈ m ∨ sec ∈ file.data := by
    intro file r hcopied hr
    rcases (hcopied.sections sec).mp hr with hold | ⟨key, hkey⟩
    · exact .inl hold
    · exact .inr (flatten_mem hkey)
  cases h with
  | dump => exact .inl hsec
  | migrated hcopied => exact (hcases hcopied hsec).imp_right fun hfile => ⟨_, _, _, _, rfl, hfile⟩
  | interrupted hcopied hsome =>
      rcases hsome sec with hold | hnew
      · rw [GoMap.mem_iff, hold, ← GoMap.mem_iff] at hsec
        exact .inl hsec
      · rw [GoMap.mem_iff, hnew, ← GoMap.mem_iff] at hsec
        exact (hcases hcopied hsec).imp_right fun hfile => ⟨_, _, _, _, rfl, hfile⟩

/-- One more life on this collection takes its turn. -/
theorem Chronicle.snoc_here (h : Chronicle address m log mid) (hhere : life.address = address)
    (hturn : Turn mid life.command exit.isNil m') : Chronicle address m (log ++ [(life, exit)]) m' := by
  induction h with
  | nil => exact .here hhere hturn .nil
  | elsewhere hno _ ih => exact .elsewhere hno (ih hturn)
  | here hhere' hturn' _ ih => exact .here hhere' hturn' (ih hturn)

/-- A life on another collection leaves this one as it was. -/
theorem Chronicle.snoc_elsewhere (h : Chronicle address m log m') (hno : life.address ≠ address) :
    Chronicle address m (log ++ [(life, exit)]) m' := by
  induction h with
  | nil => exact .elsewhere hno .nil
  | elsewhere hno' _ ih => exact .elsewhere hno' ih
  | here hhere hturn _ ih => exact .here hhere hturn ih

/-- No life of the tool removes a section. -/
theorem Chronicle.keeps (h : Chronicle address m log m') (hsec : sec ∈ m) : sec ∈ m' := by
  induction h with
  | nil => exact hsec
  | elsewhere _ _ ih => exact ih hsec
  | here _ hturn _ ih => exact ih (hturn.keeps hsec)

/-- A migration that returned nil has brought the section: its file has a key there. -/
def Brought (address : MongoAddress) (log : List (CliLife × ExitCode)) (sec : GoString) : Prop :=
  ∃ life exit file configPath ch f key, (life, exit) ∈ log ∧ life.address = address ∧
    life.command = .migrate file configPath ch f ∧ exit.isNil = true ∧ ((flatten file.data).get sec key).isSome = true

/-- **What a migration has brought stays.** -/
theorem Chronicle.brought (h : Chronicle address m log m') (hbrought : Brought address log sec) : sec ∈ m' := by
  obtain ⟨life, exit, file, configPath, ch, f, key, hin, hhere, hcommand, hnil, hkey⟩ := hbrought
  induction h with
  | nil => cases hin
  | elsewhere hno _ ih =>
      rcases List.mem_cons.mp hin with heq | hrest
      · cases heq
        exact absurd hhere hno
      · exact ih hrest
  | here _ hturn hrest ih =>
      rcases List.mem_cons.mp hin with heq | htail
      · cases heq
        rw [hcommand, hnil] at hturn
        cases hturn with
        | migrated hcopied => exact hrest.keeps ((hcopied.sections sec).mpr (.inr ⟨key, hkey⟩))
      · exact ih htail

end

/-! ## What holds in every run -/

/-- The process has what is held, or catches up with it. -/
def ApiFollows (G : Gcm) (key : Key) (srv : Server) (m : Config) : ApiPhase → Prop
  | .down => True
  | .loaded store => store.key = key ∧ store.data = m
  | .watching store seen => store.key = key ∧ [] ∉ store.data ∧ Follows G srv store seen

/-- The collection holds what the tool's lives have made of it, and the process of the server follows. -/
structure ConfigInv (G : Gcm) (sha256 : Bytes → Key) (env : Env) (m₀ : Config) (sys : ConfigSystem) (m : Config) : Prop where
  chronicle : Chronicle env.mongoAddress m₀ sys.log m
  holds : Holds G (env.key sha256) (sys.srv env).coll m
  named : [] ∉ m
  api : ApiFollows G (env.key sha256) (sys.srv env) m sys.api

section
variable {G : Gcm} {sha256 : Bytes → Key} {T : ErrorTests} {env : Env} {m₀ m : Config} {sys sys' : ConfigSystem}

/-- A cache that has been given every event has what is held. -/
theorem Follows.holds {srv : Server} {store : MongoStorage} {key : Key} (h : Follows G srv store srv.events.length)
    (hkey : store.key = key) (hstore : [] ∉ store.data) (hm : [] ∉ m) (hholds : Holds G key srv.coll m) : store.data = m := by
  refine Std.ExtTreeMap.ext_getElem? fun sec => ?_
  by_cases hsec : sec = []
  · subst hsec
    rw [GoMap.not_mem_iff.mp hstore, GoMap.not_mem_iff.mp hm]
  · rw [h.caught_up hsec, hkey, hholds.config]

/-- An event brings no section without a name. -/
theorem processEvent_named {store : MongoStorage} (h : [] ∉ store.data) (fields : Shuffle (GoString × Bson)) (ev : Event) :
    [] ∉ (processEvent G fields (.ok ev) store).data := by
  by_cases hid : ev.documentKeyID = []
  · obtain ⟨op, id, doc⟩ := ev
    have hsame : applyFullDocument G fields id doc store = store := by
      cases doc with
      | none => rfl
      | some d => exact if_pos hid
    cases op with
    | insert | update | replace =>
        show [] ∉ (applyFullDocument G fields id doc store).data
        rw [hsame]
        exact h
    | delete =>
        show [] ∉ store.data.erase id
        rw [GoMap.mem_erase, not_and]
        intro hne
        exact absurd hid hne
    | other => exact h
  · rw [GoMap.not_mem_iff, processEvent_other fields hid, ← GoMap.not_mem_iff]
    exact h

/-- A life of the tool. -/
theorem ConfigInv.life (hI : ConfigInv G sha256 env m₀ sys m) {life : CliLife} (ho : Orderly sha256 env sys (.life life)) :
    ∃ m', ConfigInv G sha256 env m₀
      { sys with world := (life.main G sha256 T sys.world).2, log := sys.log ++ [(life, (life.main G sha256 T sys.world).1)] } m' := by
  by_cases hhere : life.address = env.mongoAddress
  · obtain ⟨hkey, hloaded, hfiles⟩ := ho hhere
    have hbefore : Holds G (life.key sha256) (sys.world.servers life.address).coll m := by
      rw [hkey, hhere]
      exact hI.holds
    -- a life on this collection takes a turn, and a watching server keeps following
    obtain ⟨m', hholds, hturn, -⟩ := CliLife.turn (T := T) hbefore
    rw [hkey, hhere] at hholds
    refine ⟨m', hI.chronicle.snoc_here hhere hturn, hholds, fun hnil => ?_, ?_⟩
    · rcases hturn.brings hnil with hold | ⟨file, configPath, ch, f, hcommand, hfile⟩
      · exact hI.named hold
      · exact hfiles file configPath ch f hcommand hfile
    · have hapi := hI.api
      show ApiFollows G _ _ _ sys.api
      cases hphase : sys.api with
      | down => trivial
      | loaded store => exact absurd hphase (hloaded store)
      | watching store seen =>
          rw [hphase] at hapi
          obtain ⟨hstore, hnamed, hfollows⟩ := hapi
          exact ⟨hstore, hnamed, kept_main (T := T) keptByWrites_follows hfollows⟩
  -- a life elsewhere leaves this collection as it was
  · have hsame : (life.main G sha256 T sys.world).2.servers env.mongoAddress = sys.srv env := CliLife.elsewhere hhere
    refine ⟨m, hI.chronicle.snoc_elsewhere hhere, ?_, hI.named, ?_⟩
    · show Holds G _ ((life.main G sha256 T sys.world).2.servers env.mongoAddress).coll m
      rw [hsame]
      exact hI.holds
    · show ApiFollows G _ ((life.main G sha256 T sys.world).2.servers env.mongoAddress) m sys.api
      rw [hsame]
      exact hI.api

/-- The shutdown of a server that has been given every event writes what is held, and its failure changes nothing. -/
theorem ConfigInv.shutdown (hI : ConfigInv G sha256 env m₀ sys m) {store : MongoStorage} {ch : SaveChoice} {f : SaveFaults}
    (hphase : sys.api = .watching store (sys.srv env).events.length) :
    Holds G (env.key sha256) (runSave G store ch f (sys.srv env)).2.coll m := by
  have hapi := hI.api
  rw [hphase] at hapi
  obtain ⟨hkey, hnamed, hfollows⟩ := hapi
  have hdata : store.data = m := hfollows.holds hkey hnamed hI.named hI.holds
  have hbefore : Holds G store.key (sys.srv env).coll m := by
    rw [hkey]
    exact hI.holds
  rcases hrun : runSave G store ch f (sys.srv env) with ⟨r, srv⟩
  cases r with
  | ok u =>
      have hafter := hbefore.saved (fun sec hsec => by rw [hdata]; exact hsec) hrun
      rw [hdata, hkey] at hafter
      exact hafter
  | error err =>
      obtain ⟨m', hafter, hsome⟩ := hbefore.notSaved hrun
      have hsame : m' = m := by
        refine Std.ExtTreeMap.ext_getElem? fun sec => ?_
        rcases hsome sec with hold | hnew
        · exact hold
        · rw [hnew, hdata]
      rw [hsame, hkey] at hafter
      exact hafter

/-- **Every orderly action keeps the invariant.** -/
theorem ConfigInv.step {a : ConfigAct} (hI : ConfigInv G sha256 env m₀ sys m) (ho : Orderly sha256 env sys a)
    (hs : sys.step G sha256 T env a = some sys') : ∃ m', ConfigInv G sha256 env m₀ sys' m' := by
  cases a with
  | life life =>
      cases hs
      exact hI.life ho
  -- a failing start leaves the server down; one that succeeds has read the collection as it is now
  | load fields f =>
      simp only [ConfigSystem.step] at hs
      split at hs
      · split at hs
        · cases hs
          exact ⟨m, hI⟩
        · next fresh hnew =>
            split at hs
            · cases hs
              exact ⟨m, hI⟩
            · next store hload =>
                cases hs
                obtain ⟨-, rfl⟩ := load_ok hload
                have hkey : fresh.key = env.key sha256 := newMongoStorage_key hnew
                refine ⟨m, hI.chronicle, hI.holds, hI.named, hkey, ?_⟩
                show decrypted G fresh.key (sys.srv env).coll = m
                rw [hkey]
                exact hI.holds.config
      · cases hs
  -- no life falls between the load and this step, so the stream starts where the snapshot was taken
  | startWatching outcome =>
      simp only [ConfigSystem.step] at hs
      split at hs
      · next store hphase =>
          split at hs
          · cases hs
            exact ⟨m, hI.chronicle, hI.holds, hI.named, trivial⟩
          · cases hs
            have hapi := hI.api
            rw [hphase] at hapi
            obtain ⟨hkey, hdata⟩ := hapi
            refine ⟨m, hI.chronicle, hI.holds, hI.named, hkey, ?_, follows_of_load ?_⟩
            · rw [hdata]
              exact hI.named
            · rw [hdata, hkey]
              exact hI.holds.config.symm
      · cases hs
  -- the next event of the stream
  | deliver fields =>
      simp only [ConfigSystem.step] at hs
      split at hs
      · next store seen hphase =>
          split at hs
          · cases hs
          · next ev hev =>
              cases hs
              have hapi := hI.api
              rw [hphase] at hapi
              obtain ⟨hkey, hnamed, hfollows⟩ := hapi
              refine ⟨m, hI.chronicle, hI.holds, hI.named, ?_, processEvent_named hnamed fields ev, hfollows.deliver hev fields⟩
              rw [processEvent_key]
              exact hkey
      · cases hs
  -- every event has been read, so the cache that is saved is what the collection holds
  | shutdown ch f =>
      simp only [ConfigSystem.step] at hs
      split at hs
      · next store seen hphase =>
          cases hs
          obtain rfl := ho store seen hphase
          refine ⟨m, hI.chronicle, ?_, hI.named, trivial⟩
          show Holds G _ (Function.update sys.world.servers env.mongoAddress _ env.mongoAddress).coll m
          rw [Function.update_self]
          exact hI.shutdown hphase
      · cases hs
  -- nothing is written
  | crash =>
      cases hs
      exact ⟨m, hI.chronicle, hI.holds, hI.named, trivial⟩

/-- Only what the sections are matters to a call, not their order. -/
theorem allowed_getSectionList {store : MongoStorage} {sh : Shuffle GoString} {call : WebApiCall} :
    call.Allowed (store.getSectionList sh) ↔ call.Allowed store.data.keys := by
  have hremote : ∀ remote, ConfiguredRemote (store.getSectionList sh) remote ↔ ConfiguredRemote store.data.keys remote := by
    intro remote
    rw [ConfiguredRemote, ConfiguredRemote, MongoStorage.getSectionList, sh.mem_apply]
  constructor
  · rintro ⟨hconfigured, hinside⟩
    exact ⟨fun remote hin => (hremote remote).mp (hconfigured remote hin), hinside⟩
  · rintro ⟨hconfigured, hinside⟩
    exact ⟨fun remote hin => (hremote remote).mpr (hconfigured remote hin), hinside⟩

end

/-- **The server's remotes are what the tool has made.** In every orderly run of the tool's lives and the server's
    process, in which no two of their writes and reads of the collection overlap, whatever fails in them: the collection holds the configuration that the tool's lives alone have made of what
    was held, with every section that a migration has brought; and a server that is up and has been given every event
    has this configuration, and starts a call of the UI exactly when all its remotes are of it, among the other
    conditions of a call. -/
theorem migrated_remotes_served {G : Gcm} {sha256 : Bytes → Key} {T : ErrorTests} {env : Env} {m₀ : Config}
    {w : CliWorld} {sys' : ConfigSystem} {as : List ConfigAct}
    (hholds : Holds G (env.key sha256) (w.servers env.mongoAddress).coll m₀) (hnamed : [] ∉ m₀)
    (horderly : Along (ConfigSystem.step G sha256 T env) (Orderly sha256 env) (.init w) as)
    (hrun : run (ConfigSystem.step G sha256 T env) (.init w) as = some sys') :
    ∃ m, Chronicle env.mongoAddress m₀ sys'.log m ∧ Holds G (env.key sha256) (sys'.srv env).coll m ∧
      (∀ sec, Brought env.mongoAddress sys'.log sec → sec ∈ m) ∧
      ∀ store, sys'.api = .watching store (sys'.srv env).events.length → store.data = m ∧
        ∀ (W : WebApi) (rc : RcEnv) (sh : Shuffle GoString) (ping : Option GoError) (time : ℚ) (authToken : JsString)
          (boundary : GoString) (browser : ServerRequest) (st : WebServer) (call : WebApiCall) (claims : TokenClaims)
          (path : GoString) (p : Params), rc.sections = store.getSectionList sh →
          ((W.handle rc ping time (call.request authToken boundary browser) st).1.reply = .rclone claims (.newJob path p) ↔
            Forwarded st browser time ∧
            (trimSpace (utf8Encode authToken) ≠ [] ∧
              verifyToken W.jwt (trimSpace (utf8Encode authToken)) W.publicKey ⌊time⌋ = .ok claims) ∧
            call.Fits ∧ path = str call.rcCall.method ∧ call.Allowed m.keys ∧
            ∃ entry, rc.calls path = some entry ∧ addHandles entry (some (mergeMembers ∅ call.rcCall.params)) = some p) := by
  have hinit : ConfigInv G sha256 env m₀ (.init w) m₀ := ⟨.nil, hholds, hnamed, trivial⟩
  obtain ⟨m, hI⟩ : ∃ m, ConfigInv G sha256 env m₀ sys' m := by
    refine run_invariant (I := fun sys => ∃ m, ConfigInv G sha256 env m₀ sys m) ?_ ⟨m₀, hinit⟩ horderly hrun
    rintro s a s' ⟨m, hI⟩ ho hs
    exact hI.step ho hs
  refine ⟨m, hI.chronicle, hI.holds, fun sec => hI.chronicle.brought, fun store hphase => ?_⟩
  have hapi := hI.api
  rw [hphase] at hapi
  obtain ⟨hkey, hstore, hfollows⟩ := hapi
  -- with every event read, the cache is the configuration
  have hdata : store.data = m := hfollows.holds hkey hstore hI.named hI.holds
  refine ⟨hdata, ?_⟩
  intro W rc sh ping time authToken boundary browser st call claims path p hsections
  rw [serviceCall_newJob, hsections, allowed_getSectionList, hdata]

/-- The environment of a server on the collection of `smoothStart`. -/
def flowEnv : Env where
  mongoKey := str " secret "
  mongoURI := str "mongodb://db"
  mongoDB := str "rclone"
  mongoCol := str "configs"
  jwtPublicKeyPEM := []
  jwtPrivateKeyPEM := []
  googleClientID := []
  googleClientSecret := []
  googleRedirectURL := []
  listenAddr := []
  allowedGoogleIDs := []
  corsAllowedURLs := []
  otelServiceName := []
  otelServiceVersion := []
  otelExporterEndpoint := []
  otelExporterHeaders := []

/-- The server is up and has been given every event. -/
def ConfigSystem.upToDate (env : Env) (sys : ConfigSystem) : Bool :=
  match sys.api with
  | .watching _ seen => decide (seen = (sys.srv env).events.length)
  | _ => false

/-- The server starts, the tool migrates a file, and the server is given the one event. -/
def flowActs : List ConfigAct :=
  [.load (Shuffle.id _) (.none (Shuffle.id _)), .startWatching (.ok ()), .life (migrateLife bareFile), .deliver (Shuffle.id _)]

/-- The sample's actions meet the conditions of an orderly run. -/
theorem flowActs_orderly :
    Along (ConfigSystem.step tagGcm (fun _ => secretDigest) noErrorTests flowEnv) (Orderly (fun _ => secretDigest) flowEnv)
      (.init emptyWorld) flowActs := by
  refine ⟨trivial, fun sys₁ h₁ => ⟨trivial, fun sys₂ h₂ => ⟨?_, fun sys₃ h₃ => ⟨trivial, fun sys₄ h₄ => trivial⟩⟩⟩⟩
  have hup : ∃ store seen, sys₂.api = .watching store seen := by
    cases h₁
    cases h₂
    exact ⟨_, _, rfl⟩
  intro _
  refine ⟨rfl, fun store hloaded => ?_, fun file configPath ch f hcommand => ?_⟩
  · obtain ⟨store', seen, hwatching⟩ := hup
    rw [hwatching] at hloaded
    cases hloaded
  · cases hcommand
    decide

/-- A server that is up while a file is migrated: with the events delivered it has the migrated remote. -/
theorem migrated_remotes_served_bare : ∃ sys store,
    run (ConfigSystem.step tagGcm (fun _ => secretDigest) noErrorTests flowEnv) (.init emptyWorld) flowActs = some sys ∧
    sys.api = .watching store (sys.srv flowEnv).events.length ∧ str "s3" ∈ store.data := by
  have hheld : Holds tagGcm (flowEnv.key fun _ => secretDigest) (emptyWorld.servers flowEnv.mongoAddress).coll ∅ := by
    refine ⟨?_, by with_unfolding_all rfl⟩
    intro id d h
    cases h
  have hnamed : ([] : GoString) ∉ (∅ : Config) := by decide
  have hsome : ((run (ConfigSystem.step tagGcm (fun _ => secretDigest) noErrorTests flowEnv) (.init emptyWorld) flowActs).map
      fun sys => (sys.upToDate flowEnv, sys.log)) = some (true, [(migrateLife bareFile, .success)]) := by
    with_unfolding_all rfl
  obtain ⟨sys, hrun, hend⟩ := Option.map_eq_some_iff.mp hsome
  obtain ⟨hup, hlog⟩ := Prod.mk.inj hend
  obtain ⟨store, hphase⟩ : ∃ store, sys.api = .watching store (sys.srv flowEnv).events.length := by
    unfold ConfigSystem.upToDate at hup
    split at hup
    · next store seen hwatching =>
        rw [decide_eq_true_iff] at hup
        exact ⟨store, hup ▸ hwatching⟩
    · cases hup
  obtain ⟨m, -, -, hbrought, hserved⟩ := migrated_remotes_served hheld hnamed flowActs_orderly hrun
  refine ⟨sys, store, hrun, hphase, ?_⟩
  rw [(hserved store hphase).1]
  refine hbrought (str "s3") ?_
  rw [hlog]
  exact ⟨_, _, bareFile, _, _, _, str "type", List.mem_singleton_self _, rfl, rfl, rfl, by decide⟩

end RCloneCloud
