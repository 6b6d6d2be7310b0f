import RCloneCloud.Lib.Run
import RCloneCloud.Mongo.Scan
import RCloneCloud.Storage.SaveSpec

/-!
# `Storage.Startup` — `Load`, then `StartWatching`, while others write

`main` and `initRuntime` call `Load` and, when it has returned, `StartWatching`. `Load` reads its cursor
document by document, and the stream reports the writes committed after it is opened; the others write all
the while. A write that falls between the moment the cursor passes its document and the opening of the
stream is in neither (`startup_misses_write`); without such a write nothing is missed
(`startup_complete`).

The states of the collection are kept with the run (`collAt`), so that a document in the snapshot can be compared with
the collection as it was at any moment. `Visible` says of one section that the snapshot has it as the collection had
it after a given write, at a moment no later than the opening of the stream. The invariant ties the cursor's progress
to the writes it can no longer see.
-/

set_option autoImplicit false

namespace RCloneCloud

open Lib

/-- How far the startup is. `loaded` and `watching` keep how many writes had been committed when the cursor of
    `Load` ended; `watching` also keeps what `Load` read, how many writes had been committed when the stream was
    opened, and up to which one the events have been delivered. -/
inductive StartupPhase where
  | idle
  | loading (scan : Scan)
  | loaded (read : Nat)
  | watching (snapshot : Config) (read opened seen : Nat)
  | failed

/-- The process and the server. The events are those of the writes committed since the start; `past` are
    the contents of the collection before each of them. -/
structure Startup where
  srv : Server
  past : List Collection
  store : MongoStorage
  phase : StartupPhase

/-- A write of another process, or the next thing the process does. -/
inductive StartupAct where
  | put (id : GoString) (doc : Doc)
  | remove (id : GoString)
  | find
  | pass (id : GoString)
  | endLoad (order : Shuffle Doc) (sh : Shuffle (GoString × Bson)) (decode : Doc → Option GoError)
  | watch
  | deliver (sh : Shuffle (GoString × Bson))

namespace Startup

/-- The collection after the first `n` writes. -/
def collAt (st : Startup) (n : Nat) : Collection := st.past[n]?.getD st.srv.coll

/-- A write that is committed. -/
def commit (st : Startup) (srv : Server) : Startup :=
  { st with srv := srv, past := st.past ++ [st.srv.coll] }

/-- One action. A `Load` that fails ends the program; it is not watched then. -/
def step (G : Gcm) (st : Startup) : StartupAct → Option Startup
  | .put id doc => some (st.commit (st.srv.commitPut id doc))
  | .remove id =>
    match st.srv.coll.get? id with
    | none => none
    | some _ => some (st.commit (st.srv.commitRemove id))
  | .find =>
    match st.phase with
    | .idle => some { st with phase := .loading .opened }
    | _ => none
  | .pass id =>
    match st.phase with
    | .loading sc => (sc.pass st.srv.coll id).map fun sc => { st with phase := .loading sc }
    | _ => none
  | .endLoad order sh decode =>
    match st.phase with
    | .loading sc =>
      (sc.finish st.srv.coll order).map fun cursor =>
        match loadFrom G sh decode (.ok cursor) st.store with
        -- the stream is opened only after `Load` has returned
        | (.ok (), store) => { st with store := store, phase := .loaded st.srv.events.length }
        | (.error _, store) => { st with store := store, phase := .failed }
    | _ => none
  | .watch =>
    match st.phase with
    | .loaded read =>
      some { st with phase := .watching st.store.data read st.srv.events.length st.srv.events.length }
    | _ => none
  | .deliver sh =>
    match st.phase with
    | .watching snapshot read opened seen =>
      match st.srv.events[seen]? with
      | none => none
      | some ev => some { st with
          store := processEvent G sh (.ok ev) st.store, phase := .watching snapshot read opened (seen + 1) }
    | _ => none

/-- What `Load` read shows the document of the `k`-th write as it was after this write, or after a later one that
    had been committed too when the cursor ended. A state that the collection was in only afterwards does not
    count, even if the snapshot happens to agree with it. -/
def Visible (G : Gcm) (st : Startup) (snapshot : Config) (read k : Nat) (id : GoString) : Prop :=
  ∃ n, k < n ∧ n ≤ read ∧ snapshot[id]? = (decrypted G st.store.key (st.collAt n))[id]?

/-- Once the events are delivered, every committed write is visible in what `Load` read or has been given
    to the process as an event. -/
def NothingMissed (G : Gcm) (st : Startup) : Prop :=
  ∀ snapshot read opened seen, st.phase = .watching snapshot read opened seen → seen = st.srv.events.length →
    ∀ k ev, st.srv.events[k]? = some ev →
      st.Visible G snapshot read k ev.documentKeyID ∨ (opened ≤ k ∧ k < seen)

end Startup

/-- What a step has to meet: no document is written between the moment the cursor of `Load` passes it and
    the opening of the stream. -/
def Undisturbed (st : Startup) (a : StartupAct) : Prop :=
  ∀ id, (a = .remove id ∨ ∃ doc, a = .put id doc) →
    match st.phase with
    | .loading sc => sc.hasPassed id = false
    | .loaded _ => False
    | _ => True

/-! ## What holds in every phase -/

/-- While it loads, the cursor is up to date; what has been loaded is what was stored when the stream was
    opened, or is stored now, and no write has come between the end of the cursor and that. -/
structure StartupInv (G : Gcm) (key : Key) (st : Startup) : Prop where
  key_eq : st.store.key = key
  count : st.past.length = st.srv.events.length
  phase : match st.phase with
    | .loading sc => sc.Current st.srv.coll
    | .loaded read => read = st.srv.events.length ∧ st.store.data = decrypted G key st.srv.coll
    | .watching snapshot read opened _ => read = opened ∧ opened ≤ st.srv.events.length ∧
        snapshot = decrypted G key (st.collAt opened)
    | _ => True

section
variable {G : Gcm} {key : Key} {st st' : Startup}

/-- A committed write leaves the earlier contents as they were. -/
theorem collAt_commit {srv : Server} {n : Nat} (h : n ≤ st.past.length) :
    (st.commit srv).collAt n = st.collAt n := by
  unfold Startup.collAt Startup.commit
  rcases Nat.lt_or_eq_of_le h with hlt | rfl
  · rw [List.getElem?_append_left hlt, List.getElem?_eq_getElem hlt]
    rfl
  · simp

/-- A committed write of a document that the cursor has not passed, or that the stream reports. -/
theorem StartupInv.commit {srv : Server} (id : GoString) (h : StartupInv G key st)
    (hevents : srv.events.length = st.srv.events.length + 1)
    (hother : ∀ id', id ≠ id' → srv.coll.get? id' = st.srv.coll.get? id')
    (hquiet : match st.phase with
      | .loading sc => sc.hasPassed id = false
      | .loaded _ => False
      | _ => True) : StartupInv G key (st.commit srv) := by
  obtain ⟨hkey, hcount, hphase⟩ := h
  have hcount' : (st.commit srv).past.length = (st.commit srv).srv.events.length := by
    simp only [Startup.commit, List.length_append, List.length_singleton]
    omega
  refine ⟨hkey, hcount', ?_⟩
  have hsame : (st.commit srv).phase = st.phase := rfl
  rw [hsame]
  -- a write matters only to a scan that is open or a stream that is
  cases hp : st.phase with
  | idle => trivial
  | failed => trivial
  | loading sc =>
      rw [hp] at hphase hquiet
      exact hphase.write hquiet hother
  -- between the scan and the stream no write is allowed
  | loaded read =>
      rw [hp] at hquiet
      exact hquiet.elim
  | watching snapshot read opened seen =>
      rw [hp] at hphase
      obtain ⟨hread, hle, hsnap⟩ := hphase
      refine ⟨hread, ?_, ?_⟩
      · show opened ≤ srv.events.length
        omega
      · show snapshot = decrypted G key ((st.commit srv).collAt opened)
        rw [collAt_commit (by omega)]
        exact hsnap

/-- A `Load` whose cursor is up to date reads what is stored. -/
theorem loadFrom_current {sc : Scan} {coll : Collection} {order : Shuffle Doc} {cursor : Cursor Doc}
    {sh : Shuffle (GoString × Bson)} {decode : Doc → Option GoError} {s s' : MongoStorage}
    (h : sc.Current coll) (hf : sc.finish coll order = some cursor)
    (hload : loadFrom G sh decode (.ok cursor) s = (.ok (), s')) :
    s' = { s with data := decrypted G s.key coll } := by
  simp only [loadFrom, (Scan.finish_some hf).2.1] at hload
  split at hload
  · cases hload
  · next data hdata =>
      cases hload
      rw [(loadDocs_all (h.finish hf) hdata).2]

/-- **One step**, of the process or of another writer. -/
theorem startup_step {a : StartupAct} (h : StartupInv G key st) (ha : Undisturbed st a)
    (hs : st.step G a = some st') : StartupInv G key st' := by
  cases a with
  | put id doc =>
      cases hs
      have hquiet := ha id (.inr ⟨doc, rfl⟩)
      refine h.commit id (by simp [Server.commitPut]) (fun id' hne => ?_) hquiet
      rw [Server.commitPut_get?, if_neg hne]
  | remove id =>
      simp only [Startup.step] at hs
      split at hs
      · cases hs
      · next d hget =>
          cases hs
          have hquiet := ha id (.inl rfl)
          refine h.commit id (by simp [Server.commitRemove, hget]) (fun id' hne => ?_) hquiet
          rw [Server.commitRemove_get?, if_neg hne]
  | find =>
      simp only [Startup.step] at hs
      split at hs
      · cases hs
        exact ⟨h.key_eq, h.count, Scan.current_opened⟩
      · cases hs
  | pass id =>
      simp only [Startup.step] at hs
      split at hs
      · next sc hph =>
          obtain ⟨sc', hpass, he⟩ := Option.map_eq_some_iff.mp hs
          cases he
          have hcur := h.phase
          rw [hph] at hcur
          exact ⟨h.key_eq, h.count, hcur.pass hpass⟩
      · cases hs
  | endLoad order sh decode =>
      simp only [Startup.step] at hs
      split at hs
      · next sc hph =>
          obtain ⟨cursor, hfinish, he⟩ := Option.map_eq_some_iff.mp hs
          have hcur := h.phase
          rw [hph] at hcur
          split at he
          · next store hload =>
              cases he
              obtain rfl := loadFrom_current hcur hfinish hload
              refine ⟨h.key_eq, h.count, rfl, ?_⟩
              show decrypted G st.store.key st.srv.coll = decrypted G key st.srv.coll
              rw [h.key_eq]
          · next err store hload =>
              cases he
              have hkey : store = st.store := loadFrom_error hload
              exact ⟨hkey ▸ h.key_eq, h.count, trivial⟩
      · cases hs
  | watch =>
      simp only [Startup.step] at hs
      split at hs
      · next read hph =>
          cases hs
          have hdata := h.phase
          rw [hph] at hdata
          obtain ⟨hread, hdata⟩ := hdata
          refine ⟨h.key_eq, h.count, hread, le_rfl, ?_⟩
          -- no write has been committed since: the current contents are those at the opening
          have hnow : st.collAt st.srv.events.length = st.srv.coll := by
            rw [Startup.collAt, List.getElem?_eq_none (by rw [h.count])]
            rfl
          show st.store.data = decrypted G key (st.collAt st.srv.events.length)
          rw [hnow]
          exact hdata
      · cases hs
  | deliver sh =>
      simp only [Startup.step] at hs
      split at hs
      · next snapshot read opened seen hph =>
          split at hs
          · cases hs
          · next ev hev =>
              cases hs
              have hsnap := h.phase
              rw [hph] at hsnap
              exact ⟨(processEvent_key sh _ _).trans h.key_eq, h.count, hsnap⟩
      · cases hs

/-- **The startup misses no write** along any run in which no document is written between the moment the
    cursor of `Load` passes it and the opening of the stream. -/
theorem startup_complete {as : List StartupAct} (hidle : st.phase = .idle)
    (hfresh : st.srv.events = [] ∧ st.past = []) (hquiet : Along (Startup.step G) Undisturbed st as)
    (hrun : run (Startup.step G) st as = some st') : st'.NothingMissed G := by
  have hinit : StartupInv G st.store.key st := by
    refine ⟨rfl, by rw [hfresh.1, hfresh.2]; rfl, ?_⟩
    rw [hidle]
    trivial
  have hinv : StartupInv G st.store.key st' :=
    run_invariant (fun _ _ _ hI ha hs => startup_step hI ha hs) hinit hquiet hrun
  intro snapshot read opened seen hph hseen k ev hev
  have hphase := hinv.phase
  rw [hph] at hphase
  obtain ⟨hread, -, hsnap⟩ := hphase
  have hk : k < st'.srv.events.length := (List.getElem?_eq_some_iff.mp hev).1
  by_cases hopen : opened ≤ k
  · exact .inr ⟨hopen, hseen ▸ hk⟩
  · -- the write came before the stream was opened: `Load` has read what was stored then
    refine .inl ⟨opened, by omega, hread.ge, ?_⟩
    rw [hsnap, hinv.key_eq]

end

/-! ### A write between the end of `Load` and the opening of the stream -/

/-- A storage about to load an empty collection. -/
def freshStartup : Startup := ⟨⟨Collection.empty, []⟩, [], ⟨sampleKey, ∅⟩, .idle⟩

/-- `Load`, a write of another process, `StartWatching`. -/
def gapRun : List StartupAct :=
  [.find, .endLoad (Shuffle.id _) (Shuffle.id _) (fun _ => none), .put (str "x") ∅, .watch]

/-- The write is neither in what `Load` read nor among the delivered events. -/
theorem startup_misses_write :
    ¬ ∀ (G : Gcm) (st st' : Startup) (as : List StartupAct), st.phase = .idle →
      st.srv.events = [] ∧ st.past = [] → run (Startup.step G) st as = some st' → st'.NothingMissed G := by
  intro hclaim
  obtain ⟨st', hrun, hph, hevents⟩ : ∃ st', run (Startup.step tagGcm) freshStartup gapRun = some st' ∧
      st'.phase = .watching ∅ 0 1 1 ∧
      st'.srv.events = [⟨.insert, str "x", some (stored (str "x") ∅)⟩] := ⟨_, rfl, rfl, rfl⟩
  have hmissed := hclaim tagGcm freshStartup st' gapRun rfl ⟨rfl, rfl⟩ hrun _ _ _ _ hph (by rw [hevents]; rfl) 0 _
    (by rw [hevents]; rfl)
  rcases hmissed with ⟨n, hpos, hle, -⟩ | ⟨hopen, -⟩
  · -- the cursor had ended before the write was committed
    exact absurd hle (Nat.not_le_of_lt hpos)
  · cases hopen

/-- A write before the cursor ends, and one after the stream is opened. -/
def gaplessRun : List StartupAct :=
  [.find, .put (str "x") ∅, .pass (str "x"), .endLoad (Shuffle.id _) (Shuffle.id _) (fun _ => none), .watch,
    .put (str "y") ∅, .deliver (Shuffle.id _)]

/-- A write during the scan, of a document the cursor has not reached, is in the snapshot: nothing is missed. -/
theorem startup_complete_gapless :
    ∃ st', run (Startup.step tagGcm) freshStartup gaplessRun = some st' ∧ st'.NothingMissed tagGcm := by
  have hquiet : Along (Startup.step tagGcm) Undisturbed freshStartup gaplessRun := by
    have hproc : ∀ {st a}, (∀ id, a ≠ .remove id ∧ ∀ doc, a ≠ .put id doc) → Undisturbed st a := by
      intro st a hne id ha
      rcases ha with rfl | ⟨doc, rfl⟩
      · exact absurd rfl (hne id).1
      · exact absurd rfl ((hne id).2 doc)
    refine along_cons (hproc (by simp)) rfl (along_cons ?_ rfl (along_cons (hproc (by simp)) rfl
      (along_cons (hproc (by simp)) rfl (along_cons (hproc (by simp)) rfl (along_cons ?_ rfl
        (along_cons (hproc (by simp)) rfl trivial))))))
    · exact fun id _ => rfl
    · exact fun id _ => trivial
  exact ⟨_, rfl, startup_complete rfl ⟨rfl, rfl⟩ hquiet rfl⟩

end RCloneCloud
