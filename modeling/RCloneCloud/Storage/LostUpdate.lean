import RCloneCloud.Storage.TwoWriters

/-!
# `Storage.LostUpdate` — when two processes keep each other's updates

Two processes with the same key edit disjoint sets of sections of one collection. `Save` writes the whole
cache and deletes what is not in it, so a process whose cache is behind undoes what the other has saved
(`save_loses_update`). `no_lost_update` is what does hold: where a `Save` writes a document of the other
process's sections only as the other process itself has that section, and no local call is made on a
section whose event is still on its way, each process finds its own sections in the collection as it left
them, and every other section is as it was.

The invariant has three layers: `PartyInv` for what one process may rely on about its own sections, `PairInv` for the
two of them over one collection, and `OnCourse` for a `Save` in progress, whose remaining calls still have to be right
about documents that the other process may write meanwhile. Every step has its lemma; `pair_step` puts them together
and `no_lost_update` is the induction over the run.
-/

set_option autoImplicit false

namespace RCloneCloud

open Lib

/-! ## What every step has to meet -/

/-- Local calls are on the own sections, and not on one whose event is still on its way to the caller,
    unless the call changes nothing; a `Save` writes a document of the other process's sections only where
    the two caches agree on it. -/
def Careful (own : Who → Set GoString) (p : Pair) : PairAct → Prop
  | .call w e => e.sec ∈ own w ∧
      (e.apply (p.party w).store = (p.party w).store ∨ ∀ ev ∈ p.pending w, ev.documentKeyID ≠ e.sec)
  | .drive w i .write => ∀ r id, (p.party w).saves[i]? = some r → r.target = some id →
      id ∈ own w.other → (p.party w).store.data[id]? = (p.party w.other).store.data[id]?
  | _ => True

/-! ## The invariant -/

/-- The documents a process still has to write: its own sections, where the collection differs. -/
def unsaved (G : Gcm) (mine : Set GoString) (srv : Server) (s : MongoStorage) : Set GoString :=
  {sec ∈ mine | s.data[sec]? ≠ (decrypted G s.key srv.coll)[sec]?}

/-- How far a running `Save` is: in its listing, which has yielded every unsaved document that is to be
    deleted and has been passed; or past it, where it returns nil only after it has written what is
    unsaved. -/
def OnCourse (G : Gcm) (mine : Set GoString) (srv : Server) (s : MongoStorage) (r : SaveRun) : Prop :=
  (∃ ch, r.prog = save G s ch ∧ ∀ sc, r.scan = some sc → ∀ sec ∈ unsaved G mine srv s,
    s.data[sec]? = none → sc.hasPassed sec = true → sc.Yielded sec) ∨
  Writes r.prog (unsaved G mine srv s)

/-- What holds of one process in every state reached: `b` is its cache as its local calls alone would have
    left it. -/
structure PartyInv (G : Gcm) (own : Who → Set GoString) (key : Key) (orig : Config) (w : Who)
    (srv : Server) (q : Party) (b : MongoStorage) : Prop where
  key_eq : q.store.key = key
  mine : ∀ sec ∈ own w, q.store.data[sec]? = b.data[sec]?
  elsewhere : ∀ sec, sec ∉ own w → sec ∉ own w.other → q.store.data[sec]? = orig[sec]?
  events : ∀ ev ∈ srv.events.drop q.seen, ev.documentKeyID ∉ own w.other → Agrees G q.store ev
  makes : ∀ r ∈ q.saves, r.prog.Makes (SaveCall G q.store)
  course : ∀ r ∈ q.saves, OnCourse G (own w) srv q.store r
  saved : q.saved = true → unsaved G (own w) srv q.store = ∅

/-- What holds of the pair: each process is as it should be, and the sections of neither are untouched. -/
structure PairInv (G : Gcm) (own : Who → Set GoString) (key : Key) (orig : Config) (p : Pair)
    (b : Who → MongoStorage) : Prop where
  party : ∀ w, PartyInv G own key orig w p.srv (p.party w) (b w)
  elsewhere : ∀ sec, (∀ w, sec ∉ own w) → (decrypted G key p.srv.coll)[sec]? = orig[sec]?

section
variable {G : Gcm} {own : Who → Set GoString} {key : Key} {orig : Config} {w : Who} {srv srv' : Server}
  {q : Party} {b : MongoStorage} {p p' : Pair} {bs : Who → MongoStorage}

/-- A step of one process that leaves the server alone. -/
theorem PairInv.setParty (h : PairInv G own key orig p bs)
    (hq : PartyInv G own key orig w p.srv q b) :
    PairInv G own key orig (p.setParty w q) (Function.update bs w b) where
  party := by
    intro v
    rcases eq_or_ne v w with rfl | hne
    · simpa only [Pair.setParty, Function.update_self] using hq
    · simpa only [Pair.setParty, Function.update_of_ne hne] using h.party v
  elsewhere := h.elsewhere

/-- Such a step that is no local call. -/
theorem PairInv.setParty_same (h : PairInv G own key orig p bs)
    (hq : PartyInv G own key orig w p.srv q (bs w)) : PairInv G own key orig (p.setParty w q) bs := by
  have hpair := h.setParty hq
  rwa [Function.update_eq_self] at hpair

/-! ### The steps of one process -/

/-- A local call on an own section with nothing of it on its way: the section is unsaved from now on. -/
theorem PartyInv.call {e : LocalCall} (h : PartyInv G own key orig w srv q b) (hidle : q.saves = [])
    (he : e.sec ∈ own w)
    (hquiet : e.apply q.store = q.store ∨ ∀ ev ∈ srv.events.drop q.seen, ev.documentKeyID ≠ e.sec) :
    PartyInv G own key orig w srv { q with store := e.apply q.store, saved := false } (e.apply b) where
  key_eq := (e.apply_key _).trans h.key_eq
  mine := by
    intro sec hsec
    by_cases hs : e.sec = sec
    · subst hs
      exact e.apply_congr (h.mine _ hsec)
    · rw [e.apply_other _ hs, e.apply_other _ hs]
      exact h.mine sec hsec
  elsewhere := by
    intro sec hsec hother
    have hne : e.sec ≠ sec := fun hs => hsec (hs ▸ he)
    rw [e.apply_other _ hne]
    exact h.elsewhere sec hsec hother
  events := by
    intro ev hev hid
    have hagree : Agrees G q.store ev := h.events ev hev hid
    rcases hquiet with hsame | hquiet
    · rwa [hsame]
    · exact hagree.congr (e.apply_key _) (e.apply_other _ (Ne.symm (hquiet ev hev)))
  makes := by
    intro r hr
    rw [hidle] at hr
    cases hr
  course := by
    intro r hr
    rw [hidle] at hr
    cases hr
  saved := by
    intro hs
    cases hs

/-- An event on a section of the other process changes that section; every other event agrees with the
    cache already. -/
theorem PartyInv.deliver {ev : Event} (sh : Shuffle (GoString × Bson))
    (h : PartyInv G own key orig w srv q b) (hdisj : ∀ sec ∈ own w, sec ∉ own w.other)
    (hidle : q.saves = []) (hev : srv.events[q.seen]? = some ev) :
    PartyInv G own key orig w srv
      { q with store := processEvent G sh (.ok ev) q.store, seen := q.seen + 1 } b := by
  obtain ⟨hlt, hget⟩ := List.getElem?_eq_some_iff.mp hev
  have hdrop : srv.events.drop q.seen = ev :: srv.events.drop (q.seen + 1) := by
    rw [List.drop_eq_getElem_cons hlt, hget]
  have hkey : (processEvent G sh (.ok ev) q.store).key = q.store.key := processEvent_key sh _ _
  have hrest : ∀ ev' ∈ srv.events.drop (q.seen + 1), ev' ∈ srv.events.drop q.seen := by
    intro ev' hev'
    rw [hdrop]
    exact List.mem_cons_of_mem _ hev'
  -- the event is about a section of the other process, or one that this process knows already
  by_cases hid : ev.documentKeyID ∈ own w.other
  · -- none of the own sections is touched, so nothing the invariant says of them changes
    have hother : ∀ sec, sec ∉ own w.other →
        (processEvent G sh (.ok ev) q.store).data[sec]? = q.store.data[sec]? := by
      intro sec hsec
      exact processEvent_other sh fun he => hsec (he ▸ hid)
    have hsame : unsaved G (own w) srv (processEvent G sh (.ok ev) q.store)
        = unsaved G (own w) srv q.store := by
      ext sec
      simp only [unsaved, Set.mem_ofPred_eq, hkey]
      refine and_congr_right fun hsec => ?_
      rw [hother sec (hdisj sec hsec)]
    exact {
      key_eq := hkey.trans h.key_eq
      mine := fun sec hsec => (hother sec (hdisj sec hsec)).trans (h.mine sec hsec)
      elsewhere := fun sec hsec ho => (hother sec ho).trans (h.elsewhere sec hsec ho)
      events := fun ev' hev' hid' =>
        (h.events ev' (hrest ev' hev') hid').congr hkey (hother _ hid')
      makes := fun r hr => by rw [hidle] at hr; cases hr
      course := fun r hr => by rw [hidle] at hr; cases hr
      saved := fun hs => hsame.trans (h.saved hs) }
  · -- the event tells the process what it already holds
    have hagree : Agrees G q.store ev := h.events ev (hdrop ▸ List.mem_cons_self) hid
    rw [processEvent_agrees sh hagree]
    exact { h with events := fun ev' hev' hid' => h.events ev' (hrest ev' hev') hid' }

/-- A new `Save` has all its calls before it, so it is on course. -/
theorem PartyInv.startSave (ch : SaveChoice) (h : PartyInv G own key orig w srv q b) :
    PartyInv G own key orig w srv { q with saves := q.saves ++ [⟨save G q.store ch, none⟩] } b := by
  refine { h with makes := fun r hr => ?_, course := fun r hr => ?_ }
  · rcases List.mem_append.mp hr with hr | hr
    · exact h.makes r hr
    · rw [List.mem_singleton.mp hr]
      exact save_makes G q.store ch
  · rcases List.mem_append.mp hr with hr | hr
    · exact h.course r hr
    · rw [List.mem_singleton.mp hr]
      exact .inl ⟨ch, rfl, fun sc hsc => by cases hsc⟩

/-- A `Save` that returns nil has written all that was unsaved. -/
theorem PartyInv.returnSave {i : Nat} {r : Except GoError Unit} {sc : Option Scan}
    (h : PartyInv G own key orig w srv q b) (hi : q.saves[i]? = some ⟨.pure r, sc⟩) :
    PartyInv G own key orig w srv
      { q with saves := q.saves.eraseIdx i, saved := q.saved || r.isOk } b := by
  refine { h with
    makes := fun r hr => h.makes r (List.mem_of_mem_eraseIdx hr)
    course := fun r hr => h.course r (List.mem_of_mem_eraseIdx hr)
    saved := fun hs => ?_ }
  rcases Bool.or_eq_true_iff.mp hs with hs | hok
  · exact h.saved hs
  · rcases h.course _ (List.mem_of_getElem? hi) with ⟨ch, hsave, -⟩ | hwrites
    · cases hsave
    · refine hwrites ?_
      cases r with
      | ok u => rfl
      | error err => cases hok

/-- A running `Save` is replaced by what is left of it. -/
theorem PartyInv.setSave {i : Nat} {r : SaveRun} (h : PartyInv G own key orig w srv q b)
    (hmakes : r.prog.Makes (SaveCall G q.store)) (hcourse : OnCourse G (own w) srv q.store r) :
    PartyInv G own key orig w srv { q with saves := q.saves.set i r } b := by
  refine { h with makes := fun r' hr' => ?_, course := fun r' hr' => ?_ }
  · rcases List.mem_or_eq_of_mem_set hr' with hr' | rfl
    · exact h.makes r' hr'
    · exact hmakes
  · rcases List.mem_or_eq_of_mem_set hr' with hr' | rfl
    · exact h.course r' hr'
    · exact hcourse

/-! ### The steps of a running `Save` -/

/-- An unsaved document that is to be deleted is stored. -/
theorem get?_of_unsaved {mine : Set GoString} {s : MongoStorage} {sec : GoString}
    (h : sec ∈ unsaved G mine srv s) (hnone : s.data[sec]? = none) : srv.coll.get? sec ≠ none := by
  intro hget
  have hdec : (decrypted G s.key srv.coll)[sec]? = none := by
    rw [decrypted_getElem?, hget]
    rfl
  exact h.2 (hnone.trans hdec.symm)

/-- The listing keeps the `Save` on its course: what it ends with names every unsaved document that is to
    be deleted. -/
theorem OnCourse.listing {mine : Set GoString} {s : MongoStorage} {r r' : SaveRun} {st : SaveStep}
    (hst : st ≠ .write) (hmakes : r.prog.Makes (SaveCall G s)) (h : OnCourse G mine srv s r)
    (hs : r.step srv st = some (r', srv')) :
    r'.prog.Makes (SaveCall G s) ∧ OnCourse G mine srv s r' := by
  unfold SaveRun.step at hs
  split at hs
  -- the cursor is opened and has passed nothing yet
  · cases hs
    refine ⟨hmakes, h.imp_left ?_⟩
    rintro ⟨ch, hprog, -⟩
    refine ⟨ch, hprog, fun sc hsc sec _ _ hpassed => ?_⟩
    cases hsc
    cases hpassed
  -- the cursor passes a document, which it yields if it is stored now
  · next id k sc hprog hscan =>
      obtain ⟨sc', hpass, he⟩ := Option.map_eq_some_iff.mp hs
      cases he
      refine ⟨hmakes, h.imp_left ?_⟩
      rintro ⟨ch, hsave, hyield⟩
      refine ⟨ch, hsave, fun sc'' hsc sec hsec hnone hpassed => ?_⟩
      cases hsc
      have hkept := Scan.yielded_pass hpass sec
      rcases (Scan.hasPassed_pass hpass sec).mp hpassed with hbefore | hnow
      · exact hkept.1 (hyield sc hscan sec hsec hnone hbefore)
      · exact hkept.2 hnow (hnow ▸ get?_of_unsaved hsec hnone)
  -- the cursor is closed: the listing is answered
  · next order k sc hprog hscan =>
      obtain ⟨cursor, hfinish, he⟩ := Option.map_eq_some_iff.mp hs
      cases he
      obtain ⟨hall, -, hitems⟩ := Scan.finish_some hfinish
      rw [hprog] at hmakes
      refine ⟨hmakes.2 _, .inr ?_⟩
      rcases h with ⟨ch, hsave, hyield⟩ | hwrites
      · -- every stored document has been passed by now, so what is to be deleted has been yielded
        refine save_owes (hsave.symm.trans hprog) fun sec hsec => ?_
        by_cases hnone : s.data[sec]? = none
        · have hpassed : sc.hasPassed sec = true := hall sec (get?_of_unsaved hsec hnone)
          obtain ⟨d, hd, hid⟩ := hyield sc hscan sec hsec hnone hpassed
          exact .inr ⟨d, (hitems d).mpr (.inl hd), hid⟩
        · exact .inl hnone
      · rw [hprog] at hwrites
        exact (hwrites (.ok cursor : Except GoError (Cursor Doc))).mono fun x hx => ⟨hx, Set.notMem_empty x⟩
  · exact absurd rfl hst
  · exact absurd rfl hst
  · cases hs

/-- A document is written as the cache of some process has it, and this process agrees with that one if
    the document may be one of its own: what it has saved stays saved. -/
theorem unsaved_wrote {id : GoString} {s : MongoStorage} (hkey : s.key = q.store.key)
    (hW : WroteAs G s id srv srv') (hdisj : ∀ sec ∈ own w, sec ∉ own w.other)
    (hagree : id ∉ own w.other → q.store.data[id]? = s.data[id]?) :
    unsaved G (own w) srv' q.store ⊆ unsaved G (own w) srv q.store \ {id} := by
  rintro sec ⟨hsec, hne⟩
  rw [← hkey] at hne
  by_cases hid : id = sec
  · subst hid
    have hsame := hagree (hdisj _ hsec)
    exact absurd (hsame.trans hW.here.symm) hne
  · rw [hW.other sec hid, hkey] at hne
    exact ⟨⟨hsec, hne⟩, fun he => hid he.symm⟩

/-- A write that agrees with the owner of the section leaves a process where it was, whoever made it. -/
theorem PartyInv.wrote {id : GoString} {s : MongoStorage} (h : PartyInv G own key orig w srv q b)
    (hkey : s.key = q.store.key) (hW : WroteAs G s id srv srv')
    (hdisj : ∀ sec ∈ own w, sec ∉ own w.other)
    (hagree : id ∉ own w.other → q.store.data[id]? = s.data[id]?) :
    PartyInv G own key orig w srv' q b := by
  have hsub := unsaved_wrote hkey hW hdisj hagree
  have hsub' : unsaved G (own w) srv' q.store ⊆ unsaved G (own w) srv q.store :=
    fun sec hsec => (hsub hsec).1
  refine { h with events := fun ev hev hid => ?_, course := fun r hr => ?_, saved := fun hs => ?_ }
  · obtain ⟨evs, hevs, hnew⟩ := hW.events
    rw [hevs, List.drop_append] at hev
    rcases List.mem_append.mp hev with hev | hev
    · exact h.events ev hev hid
    · -- the new event carries the section as `s` has it
      obtain ⟨rfl, hev'⟩ := hnew ev (List.mem_of_mem_drop hev)
      exact hev'.congr hkey.symm (hagree hid)
  · rcases h.course r hr with ⟨ch, hsave, hyield⟩ | hwrites
    · exact .inl ⟨ch, hsave, fun sc hsc sec hsec => hyield sc hsc sec (hsub' hsec)⟩
    · exact .inr (hwrites.mono hsub')
  · exact Set.subset_eq_empty hsub' (h.saved hs)

/-! ### The steps of the pair -/

/-- Seen from both sides: the writer is right about its own sections, and where it writes one of the other's it is
careful. -/
theorem PairInv.wrote {id : GoString} (h : PairInv G own key orig p bs)
    (hdisj : ∀ v, ∀ sec ∈ own v, sec ∉ own v.other) (hW : WroteAs G (p.party w).store id p.srv srv')
    (hcare : id ∈ own w.other → (p.party w).store.data[id]? = (p.party w.other).store.data[id]?) :
    PairInv G own key orig { p with srv := srv' } bs where
  party := by
    intro v
    have hkey : (p.party w).store.key = (p.party v).store.key :=
      (h.party w).key_eq.trans (h.party v).key_eq.symm
    refine (h.party v).wrote hkey hW (hdisj v) fun hid => ?_
    rcases v.eq_or_other w with rfl | rfl
    · rfl
    · rw [Who.other_other] at hid
      by_cases hown : id ∈ own w.other
      · exact (hcare hown).symm
      · -- a section of neither process: both have it as it was loaded
        have hv := (h.party w.other).elsewhere id hown (by rwa [Who.other_other])
        have hw := (h.party w).elsewhere id hid hown
        exact hv.trans hw.symm
  elsewhere := by
    intro sec hsec
    rw [← (h.party w).key_eq]
    by_cases hid : id = sec
    · subst hid
      exact hW.here.trans ((h.party w).elsewhere id (hsec w) (hsec w.other))
    · rw [hW.other sec hid, (h.party w).key_eq]
      exact h.elsewhere sec hsec

/-- A driver call of a `Save`, between those of the other process. -/
theorem pair_drive {i : Nat} {st : SaveStep} (h : PairInv G own key orig p bs)
    (hdisj : ∀ v, ∀ sec ∈ own v, sec ∉ own v.other) (hcare : Careful own p (.drive w i st))
    (hs : pairStep G p (.drive w i st) = some p') : PairInv G own key orig p' bs := by
  simp only [pairStep] at hs
  split at hs
  · cases hs
  · next r hi =>
      obtain ⟨⟨r', srv'⟩, hstep, he⟩ := Option.map_eq_some_iff.mp hs
      cases he
      have hmem : r ∈ (p.party w).saves := List.mem_of_getElem? hi
      have hmakes := (h.party w).makes r hmem
      have hcourse := (h.party w).course r hmem
      have hset : ∀ {srv}, PairInv G own key orig { p with srv := srv } bs →
          r'.prog.Makes (SaveCall G (p.party w).store) →
          OnCourse G (own w) srv (p.party w).store r' →
          PairInv G own key orig { p.setParty w { p.party w with saves := (p.party w).saves.set i r' }
            with srv := srv } bs := by
        intro srv hp hm hc
        exact hp.setParty_same ((hp.party w).setSave hm hc)
      by_cases hst : st = .write
      · subst hst
        -- a `Save` that writes is past its listing
        have hwrites : Writes r.prog (unsaved G (own w) p.srv (p.party w).store) := by
          rcases hcourse with ⟨ch, hsave, -⟩ | hwrites
          · obtain ⟨prog, scan⟩ := r
            cases hsave
            cases hstep
          · exact hwrites
        obtain ⟨hmakes', hcases⟩ := write_cases hmakes hstep
        rcases hcases with ⟨rfl, hkept⟩ | ⟨id, htarget, hW, hpaid⟩
        · exact hset h hmakes' (.inr (hkept _ hwrites))
        · have hp := h.wrote hdisj hW (hcare r id hi htarget)
          refine hset hp hmakes' (.inr ((hpaid _ hwrites).mono ?_))
          exact unsaved_wrote rfl hW (hdisj w) fun _ => rfl
      · have hsrv : srv' = p.srv := step_server hst hstep
        subst hsrv
        obtain ⟨hmakes', hcourse'⟩ := hcourse.listing hst hmakes hstep
        exact hset h hmakes' hcourse'

/-- **One step of the pair.** -/
theorem pair_step {a : PairAct} (hdisj : ∀ v, ∀ sec ∈ own v, sec ∉ own v.other)
    (h : PairInv G own key orig p bs) (ha : Careful own p a) (hs : pairStep G p a = some p') :
    PairInv G own key orig p' (localStep bs a) := by
  -- `saves` is empty where the lock asks for it, so calls and deliveries fall between saves
  cases a with
  | call w e =>
      simp only [pairStep] at hs
      split at hs
      · next hidle =>
          cases hs
          exact h.setParty ((h.party w).call (List.isEmpty_iff.mp hidle) ha.1 ha.2)
      · cases hs
  | startSave w ch =>
      cases hs
      exact h.setParty_same ((h.party w).startSave ch)
  | drive w i st => exact pair_drive h hdisj ha hs
  | returnSave w i =>
      simp only [pairStep] at hs
      split at hs
      · next r sc hi =>
          cases hs
          exact h.setParty_same ((h.party w).returnSave hi)
      · cases hs
  | deliver w sh =>
      simp only [pairStep] at hs
      split at hs
      · next hidle =>
          split at hs
          · cases hs
          · next ev hev =>
              cases hs
              exact h.setParty_same
                ((h.party w).deliver sh (hdisj w) (List.isEmpty_iff.mp hidle) hev)
      · cases hs

/-! ## No update is lost -/

/-- Both processes have just loaded the collection and opened their streams. -/
structure BothLoaded (G : Gcm) (key : Key) (p : Pair) : Prop where
  loaded : ∀ w, ∃ sh f s, s.key = key ∧
    load G sh f p.srv.coll s = (.ok (), (p.party w).store)
  streams : ∀ w, (p.party w).seen = p.srv.events.length
  idle : ∀ w, (p.party w).saves = [] ∧ (p.party w).saved = false

/-- Two fresh caches agree with the collection, and nothing is unsaved or on its way. -/
theorem BothLoaded.inv (h : BothLoaded G key p) :
    PairInv G own key (decrypted G key p.srv.coll) p fun w => (p.party w).store where
  party := by
    intro w
    obtain ⟨sh, f, s, rfl, hload⟩ := h.loaded w
    have hstore := (load_ok hload).2
    have hidle := h.idle w
    exact {
      key_eq := by rw [hstore]
      mine := fun sec hsec => rfl
      elsewhere := fun sec hsec ho => by rw [hstore]
      events := fun ev hev => by rw [h.streams w, List.drop_length] at hev; cases hev
      makes := fun r hr => by rw [hidle.1] at hr; cases hr
      course := fun r hr => by rw [hidle.1] at hr; cases hr
      saved := fun hs => by rw [hidle.2] at hs; cases hs }
  elsewhere := fun sec hsec => rfl

/-- **No update is lost between two processes** along any run in which every step is `Careful`: once each
    has returned from a `Save` with no local call since, the collection decrypts to the last local state
    of each process on its own sections, and elsewhere to what both loaded. -/
theorem no_lost_update {as : List PairAct} (hown : Disjoint (own .a) (own .b)) (hstart : BothLoaded G key p)
    (hcare : Along (pairStep G) (Careful own) p as) (hrun : run (pairStep G) p as = some p')
    (hsaved : ∀ w, (p'.party w).saved = true) (sec : GoString) :
    (∀ w, sec ∈ own w → (decrypted G key p'.srv.coll)[sec]?
      = (localStates (fun w => (p.party w).store) as w).data[sec]?) ∧
    ((∀ w, sec ∉ own w) → (decrypted G key p'.srv.coll)[sec]? = (decrypted G key p.srv.coll)[sec]?) := by
  have hdisj : ∀ v, ∀ sec ∈ own v, sec ∉ own v.other := by
    intro v sec hv ho
    cases v with
    | a => exact Set.disjoint_left.mp hown hv ho
    | b => exact Set.disjoint_left.mp hown ho hv
  have hinv : PairInv G own key (decrypted G key p.srv.coll) p'
      (localStates (fun w => (p.party w).store) as) :=
    run_history localStep (fun _ _ _ _ hI ha hs => pair_step hdisj hI ha hs) hstart.inv hcare hrun
  refine ⟨fun w hw => ?_, hinv.elsewhere sec⟩
  -- a section that differs would still be unsaved
  by_contra hne
  have hmine := (hinv.party w).mine sec hw
  have hmem : sec ∈ unsaved G (own w) p'.srv (p'.party w).store := by
    refine ⟨hw, fun he => hne ?_⟩
    rw [(hinv.party w).key_eq] at he
    exact he.symm.trans hmine
  rw [(hinv.party w).saved (hsaved w)] at hmem
  exact hmem

end

/-! ### A process that saves before it has heard of a section the other has added -/

/-- Two processes that have loaded an empty collection. -/
def freshPair : Pair := ⟨⟨Collection.empty, []⟩, fun _ => ⟨⟨sampleKey, ∅⟩, 0, [], false⟩⟩

/-- The sample's two processes have loaded the empty collection. -/
theorem freshPair_loaded : BothLoaded tagGcm sampleKey freshPair where
  loaded := fun _ => ⟨Shuffle.id _, .none (Shuffle.id _), ⟨sampleKey, ∅⟩, rfl, rfl⟩
  streams := fun _ => rfl
  idle := fun _ => ⟨rfl, rfl⟩

/-- The process `b` owns the section `x`, the process `a` none. -/
def ownX : Who → Set GoString
  | .a => ∅
  | .b => {str "x"}

/-- The second process owns section `x`, the first one nothing. -/
theorem ownX_disjoint : Disjoint (ownX .a) (ownX .b) := Set.empty_disjoint _

/-- The whole of a `Save` of one process: the ids its listing passes, and the number of its writes. -/
def wholeSave (w : Who) (ids : List GoString) (writes : Nat) : List PairAct :=
  .startSave w (.inOrder sampleNonce) :: .drive w 0 .openCursor ::
    (ids.map fun id => .drive w 0 (.pass id)) ++ [.drive w 0 (.endCursor (Shuffle.id _))] ++
    List.replicate writes (.drive w 0 .write) ++ [.returnSave w 0]

/-- The second process adds a section. -/
def addX : PairAct := .call .b (.setValue (str "x") (str "type") (str "s3"))

/-- The process `a` saves while the event of the added section is still on its way. -/
def staleRun : List PairAct :=
  addX :: wholeSave .b [] 1 ++ wholeSave .a [str "x"] 1 ++
    [.deliver .a (Shuffle.id _), .deliver .a (Shuffle.id _), .deliver .b (Shuffle.id _),
      .deliver .b (Shuffle.id _)]

/-- Both have saved, no driver call has failed and every event is delivered: the section is gone. -/
theorem save_loses_update :
    ¬ ∀ (G : Gcm) (own : Who → Set GoString) (key : Key) (p p' : Pair) (as : List PairAct),
      Disjoint (own .a) (own .b) → BothLoaded G key p →
      (∀ w e, PairAct.call w e ∈ as → e.sec ∈ own w) →
      run (pairStep G) p as = some p' → (∀ w, (p'.party w).saved = true) → (∀ w, p'.pending w = []) →
      ∀ sec,
        (∀ w, sec ∈ own w → (decrypted G key p'.srv.coll)[sec]?
          = (localStates (fun w => (p.party w).store) as w).data[sec]?) ∧
        ((∀ w, sec ∉ own w) →
          (decrypted G key p'.srv.coll)[sec]? = (decrypted G key p.srv.coll)[sec]?) := by
  intro hclaim
  have hcalls : ∀ w e, PairAct.call w e ∈ staleRun → e.sec ∈ ownX w := by
    intro w e he
    simp only [staleRun, addX, wholeSave, List.mem_append, List.mem_cons, List.mem_map,
      List.mem_replicate, List.not_mem_nil, PairAct.call.injEq, reduceCtorEq, and_false, or_false,
      exists_false] at he
    obtain ⟨rfl, rfl⟩ := he
    rfl
  obtain ⟨p', hrun, hsaved, hdone, hgone⟩ : ∃ p', run (pairStep tagGcm) freshPair staleRun = some p' ∧
      (∀ w, (p'.party w).saved = true) ∧ (∀ w, p'.pending w = []) ∧
      (decrypted tagGcm sampleKey p'.srv.coll)[str "x"]? = none :=
    ⟨_, rfl, fun w => by cases w <;> rfl, fun w => by cases w <;> rfl, by decide⟩
  have hx := (hclaim tagGcm ownX sampleKey freshPair p' staleRun ownX_disjoint freshPair_loaded hcalls hrun
    hsaved hdone (str "x")).1 .b rfl
  rw [hgone] at hx
  revert hx
  decide

/-- The process `a` saves after it has received the event. -/
def informedRun : List PairAct :=
  addX :: wholeSave .b [] 1 ++ .deliver .a (Shuffle.id _) :: wholeSave .a [str "x"] 1

/-- The run in which the event of the other's section comes before the `Save`: the section is still there. -/
theorem no_lost_update_informed :
    ∃ p', run (pairStep tagGcm) freshPair informedRun = some p' ∧
      (decrypted tagGcm sampleKey p'.srv.coll)[str "x"]?
        = (localStates (fun w => (freshPair.party w).store) informedRun .b).data[str "x"]? := by
  have hcare : Along (pairStep tagGcm) (Careful ownX) freshPair informedRun := by
    refine along_cons ⟨rfl, .inr fun ev hev => absurd hev List.not_mem_nil⟩ rfl ?_
    refine along_cons trivial rfl (along_cons trivial rfl (along_cons trivial rfl
      (along_cons ?_ rfl (along_cons trivial rfl (along_cons trivial rfl (along_cons trivial rfl
        (along_cons trivial rfl (along_cons trivial rfl (along_cons trivial rfl
          (along_cons ?_ rfl (along_cons trivial rfl trivial)))))))))))
    · intro r id hr ht hid
      cases hid
    · intro r id hr ht hid
      obtain rfl : id = str "x" := hid
      decide
  obtain ⟨p', hrun, hsaved⟩ : ∃ p', run (pairStep tagGcm) freshPair informedRun = some p' ∧
      ∀ w, (p'.party w).saved = true := ⟨_, rfl, fun w => by cases w <;> rfl⟩
  exact ⟨p', hrun,
    (no_lost_update ownX_disjoint freshPair_loaded hcare hrun hsaved (str "x")).1 .b rfl⟩

end RCloneCloud
