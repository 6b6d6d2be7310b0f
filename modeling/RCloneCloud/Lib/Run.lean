import Mathlib

/-!
# `Lib.Run` — runs of a transition system with executable steps

`step s a` is the state after action `a`, or `none` where `a` is not enabled. A run is a list of actions;
everything the environment decides is part of the action, so a run can be evaluated. `Along G` says that
every action of a run meets the condition `G` in the state it is taken in.

What a run keeps is proved from what one step keeps: `run_invariant` for a property of states, `run_history` for one
of the state and the actions so far, `run_refines` for two systems that step together. `along_iff_split` and
`run_append` cut a run at any of its actions, `Passes` says that a run goes through such a step, and `exists_cause`
finds the step at which a property that did not hold at first came about. `Reaches` and `always_iff_along` speak about
the states that the beginnings of a run reach, and `outputs` about what the steps let the outside see.
-/

set_option autoImplicit false

namespace Lib

variable {σ α β γ : Type}

/-- The state after the actions, when each was enabled. -/
def run (step : σ → α → Option σ) : σ → List α → Option σ
  | s, [] => some s
  | s, a :: rest =>
    match step s a with
    | none => none
    | some s' => run step s' rest

/-- Every action of the run meets `G` in the state it is taken in. -/
def Along (step : σ → α → Option σ) (G : σ → α → Prop) : σ → List α → Prop
  | _, [] => True
  | s, a :: rest => G s a ∧ ∀ s', step s a = some s' → Along step G s' rest

/-- A place in a list that has grown at its end is a place in the old list, or the end. -/
theorem append_cons_eq_snoc {l before after : List α} {a b : α} :
    l ++ [b] = before ++ a :: after ↔
      (before = l ∧ a = b ∧ after = []) ∨ ∃ rest, after = rest ++ [b] ∧ l = before ++ a :: rest := by
  constructor
  · intro h
    cases hafter : after.reverse with
    | nil =>
        obtain rfl := List.reverse_eq_nil_iff.mp hafter
        obtain ⟨rfl, hlast⟩ := List.append_inj' h rfl
        exact .inl ⟨rfl, (List.singleton_inj.mp hlast).symm, rfl⟩
    | cons last rest =>
        have hsplit : after = rest.reverse ++ [last] := by
          rw [← List.reverse_reverse after, hafter, List.reverse_cons]
        rw [hsplit, ← List.cons_append, ← List.append_assoc] at h
        obtain ⟨hinit, hlast⟩ := List.append_inj' h rfl
        rw [List.singleton_inj.mp hlast]
        exact .inr ⟨rest.reverse, hsplit, hinit⟩
  · rintro (⟨rfl, rfl, rfl⟩ | ⟨rest, rfl, rfl⟩)
    · rfl
    · simp

variable {step : σ → α → Option σ} {G : σ → α → Prop}

/-- A run is its first step and the run from there. -/
theorem run_cons {s s' : σ} {a : α} {rest : List α} :
    run step s (a :: rest) = some s' ↔ ∃ m, step s a = some m ∧ run step m rest = some s' := by
  show (match step s a with | none => none | some m => run step m rest) = some s' ↔ _
  cases step s a with
  | none =>
      constructor
      · intro h
        cases h
      · rintro ⟨m, hm, -⟩
        cases hm
  | some m =>
      constructor
      · intro h
        exact ⟨m, rfl, h⟩
      · rintro ⟨m', hm, h⟩
        cases hm
        exact h

/-- A run can be cut anywhere. -/
theorem run_append {s s' : σ} {before after : List α} :
    run step s (before ++ after) = some s' ↔
      ∃ m, run step s before = some m ∧ run step m after = some s' := by
  induction before generalizing s with
  | nil =>
      show run step s after = some s' ↔ ∃ m, some s = some m ∧ run step m after = some s'
      constructor
      · intro h
        exact ⟨s, rfl, h⟩
      · rintro ⟨m, hm, h⟩
        cases hm
        exact h
  | cons a rest ih =>
      rw [List.cons_append, run_cons]
      constructor
      · rintro ⟨m, hm, hrest⟩
        obtain ⟨k, hk, hafter⟩ := ih.mp hrest
        exact ⟨k, run_cons.mpr ⟨m, hm, hk⟩, hafter⟩
      · rintro ⟨k, hk, hafter⟩
        obtain ⟨m, hm, hrest⟩ := run_cons.mp hk
        exact ⟨m, hm, ih.mpr ⟨k, hrest, hafter⟩⟩

/-- Where every action is enabled in every state, every list of actions is a run. -/
theorem exists_run (h : ∀ s a, ∃ s', step s a = some s') (s : σ) (as : List α) :
    ∃ s', run step s as = some s' := by
  induction as generalizing s with
  | nil => exact ⟨s, rfl⟩
  | cons a rest ih =>
      obtain ⟨m, hm⟩ := h s a
      obtain ⟨s', hs'⟩ := ih m
      exact ⟨s', run_cons.mpr ⟨m, hm, hs'⟩⟩

/-- A run meets `G` along it when each action does, in the state that the actions before it lead to. -/
theorem along_iff_split {s : σ} {as : List α} :
    Along step G s as ↔
      ∀ before a after m, as = before ++ a :: after → run step s before = some m → G m a := by
  induction as generalizing s with
  | nil => simp [Along]
  | cons a rest ih =>
      constructor
      · rintro ⟨ha, hrest⟩ before b after m hsplit hrun
        cases before with
        | nil =>
            obtain ⟨rfl, rfl⟩ := List.cons.inj hsplit
            cases hrun
            exact ha
        | cons c before =>
            obtain ⟨rfl, hrest'⟩ := List.cons.inj hsplit
            obtain ⟨k, hk, hbefore⟩ := run_cons.mp hrun
            exact ih.mp (hrest k hk) before b after m hrest' hbefore
      · intro h
        refine ⟨h [] a rest s rfl rfl, fun k hk => ih.mpr fun before b after m hsplit hrun => ?_⟩
        exact h (a :: before) b after m (by rw [hsplit, List.cons_append]) (run_cons.mpr ⟨k, hk, hrun⟩)

/-- A condition met by the first step and along the rest is met along the run. -/
theorem along_cons {s m : σ} {a : α} {rest : List α} (ha : G s a) (hs : step s a = some m)
    (h : Along step G m rest) : Along step G s (a :: rest) :=
  ⟨ha, fun s' hs' => by cases hs.symm.trans hs'; exact h⟩

/-- A condition that every step meets is met along every run. -/
theorem along_of_forall (h : ∀ s a, G s a) (s : σ) (as : List α) : Along step G s as := by
  induction as generalizing s with
  | nil => trivial
  | cons a rest ih => exact ⟨h s a, fun s' _ => ih s'⟩

/-- A condition on the action alone is met along a run whose actions all meet it. -/
theorem along_of_mem {A : α → Prop} {s : σ} {as : List α} (h : ∀ a ∈ as, A a) :
    Along step (fun _ a => A a) s as := by
  induction as generalizing s with
  | nil => trivial
  | cons a rest ih =>
      exact ⟨h a List.mem_cons_self, fun s' _ => ih fun b hb => h b (List.mem_cons_of_mem _ hb)⟩

/-- **The invariant rule.** What every step taken under `G` preserves holds at the end of every run along
    `G` that starts with it. -/
theorem run_invariant {I : σ → Prop}
    (hstep : ∀ s a s', I s → G s a → step s a = some s' → I s') {s s' : σ} {as : List α}
    (hI : I s) (hG : Along step G s as) (hrun : run step s as = some s') : I s' := by
  induction as generalizing s with
  | nil => cases hrun; exact hI
  | cons a rest ih =>
      obtain ⟨m, hm, hrest⟩ := run_cons.mp hrun
      exact ih (hstep s a m hI hG.1 hm) (hG.2 m hm) hrest

/-- **The history rule.** The same for a relation between the state and what has been computed, action by
    action, from the run so far. -/
theorem run_history {I : σ → β → Prop} (f : β → α → β)
    (hstep : ∀ s a s' b, I s b → G s a → step s a = some s' → I s' (f b a)) {s s' : σ} {b : β}
    {as : List α} (hI : I s b) (hG : Along step G s as) (hrun : run step s as = some s') :
    I s' (as.foldl f b) := by
  induction as generalizing s b with
  | nil => cases hrun; exact hI
  | cons a rest ih =>
      obtain ⟨m, hm, hrest⟩ := run_cons.mp hrun
      exact ih (hstep s a m b hI hG.1 hm) (hG.2 m hm) hrest

/-- **The rule of beginnings.** An invariant that speaks of the actions taken so far, under a condition `C` on the
    whole list of them that its prefixes inherit. -/
theorem run_beginnings {C : List α → Prop} {I : List α → σ → Prop} {s₀ : σ}
    (hC : ∀ as a, C (as ++ [a]) → C as) (hinit : I [] s₀)
    (hstep : ∀ as a s s', C (as ++ [a]) → I as s → step s a = some s' → I (as ++ [a]) s')
    {as : List α} {s' : σ} (h : C as) (hrun : run step s₀ as = some s') : I as s' := by
  induction as using List.reverseRecOn generalizing s' with
  | nil => cases hrun; exact hinit
  | append_singleton as a ih =>
      obtain ⟨m, hm, hlast⟩ := run_append.mp hrun
      obtain ⟨k, hk, hnil⟩ := run_cons.mp hlast
      cases hnil
      exact hstep as a m _ h (ih (hC as a h) hm) hk

/-- **The exactness rule.** When every step, under an invariant, keeps `T` exactly if it is taken under `G`, a
    run ends with `T` exactly if it is a run along `G`. -/
theorem run_iff_along {I T : σ → Prop}
    (hstep : ∀ s a s', I s → step s a = some s' → I s' ∧ (T s' ↔ T s ∧ G s a)) {s s' : σ} {as : List α}
    (hI : I s) (hrun : run step s as = some s') : T s' ↔ T s ∧ Along step G s as := by
  induction as generalizing s with
  | nil =>
      cases hrun
      exact ⟨fun hT => ⟨hT, trivial⟩, And.left⟩
  | cons a rest ih =>
      obtain ⟨m, hm, hrest⟩ := run_cons.mp hrun
      obtain ⟨hIm, hT⟩ := hstep s a m hI hm
      have hwhole := ih hIm hrest
      rw [hT, and_assoc] at hwhole
      rw [hwhole]
      constructor
      · rintro ⟨hTs, ha, halong⟩
        exact ⟨hTs, along_cons ha hm halong⟩
      · rintro ⟨hTs, ha, halong⟩
        exact ⟨hTs, ha, halong m hm⟩

/-- **The refinement rule.** If, under an invariant, every step of the system is matched by the step of an
    abstract one on the image of the state, then a run is matched by the abstract run. -/
theorem run_refines {I : σ → Prop} (abs : σ → β) (act : α → γ) {astep : β → γ → Option β}
    (hstep : ∀ s a s', I s → G s a → step s a = some s' →
      I s' ∧ astep (abs s) (act a) = some (abs s')) {s s' : σ} {as : List α}
    (hI : I s) (hG : Along step G s as) (hrun : run step s as = some s') :
    run astep (abs s) (as.map act) = some (abs s') := by
  induction as generalizing s with
  | nil => cases hrun; rfl
  | cons a rest ih =>
      obtain ⟨m, hm, hrest⟩ := run_cons.mp hrun
      obtain ⟨hIm, habs⟩ := hstep s a m hI hG.1 hm
      exact run_cons.mpr ⟨abs m, habs, ih hIm (hG.2 m hm) hrest⟩

/-! ## Every state of a run -/

/-- A state the run passes through, its first and its last included. -/
def Reaches (step : σ → α → Option σ) (s : σ) (as : List α) (m : σ) : Prop :=
  ∃ before after, as = before ++ after ∧ run step s before = some m

/-- With no actions left only the state itself is reached. -/
theorem reaches_nil {s m : σ} : Reaches step s [] m ↔ m = s := by
  constructor
  · rintro ⟨before, after, hsplit, hrun⟩
    obtain ⟨rfl, -⟩ := List.append_eq_nil_iff.mp hsplit.symm
    cases hrun
    rfl
  · rintro rfl
    exact ⟨[], [], rfl, rfl⟩

/-- A state is reached at once or behind the first step. -/
theorem reaches_cons {s m : σ} {a : α} {rest : List α} :
    Reaches step s (a :: rest) m ↔ m = s ∨ ∃ k, step s a = some k ∧ Reaches step k rest m := by
  constructor
  · rintro ⟨before, after, hsplit, hrun⟩
    cases before with
    | nil =>
        cases hrun
        exact .inl rfl
    | cons b before =>
        obtain ⟨rfl, hrest⟩ := List.cons.inj hsplit
        obtain ⟨k, hk, hbefore⟩ := run_cons.mp hrun
        exact .inr ⟨k, hk, before, after, hrest, hbefore⟩
  · rintro (rfl | ⟨k, hk, before, after, hrest, hbefore⟩)
    · exact ⟨[], a :: rest, rfl, rfl⟩
    · exact ⟨a :: before, after, by rw [hrest, List.cons_append], run_cons.mpr ⟨k, hk, hbefore⟩⟩

/-- **The rule of exact conditions.** When, under an invariant, a step out of a state with `T` leads to one with `T`
    exactly if it is taken under `G`, all the states of a run have `T` exactly if it is a run along `G`. -/
theorem always_iff_along {I T : σ → Prop}
    (hstep : ∀ s a s', I s → T s → step s a = some s' → I s' ∧ (T s' ↔ G s a)) {s s' : σ} {as : List α}
    (hI : I s) (hT : T s) (hrun : run step s as = some s') :
    (∀ m, Reaches step s as m → T m) ↔ Along step G s as := by
  induction as generalizing s with
  | nil => exact ⟨fun _ => trivial, fun _ m hm => reaches_nil.mp hm ▸ hT⟩
  | cons a rest ih =>
      obtain ⟨k, hk, hrest⟩ := run_cons.mp hrun
      obtain ⟨hIk, hTk⟩ := hstep s a k hI hT hk
      constructor
      · intro hall
        have hthere : T k := hall k (reaches_cons.mpr (.inr ⟨k, hk, [], rest, rfl, rfl⟩))
        have hafter : ∀ m, Reaches step k rest m → T m := fun m hm =>
          hall m (reaches_cons.mpr (.inr ⟨k, hk, hm⟩))
        exact along_cons (hTk.mp hthere) hk ((ih hIk hthere hrest).mp hafter)
      · rintro ⟨ha, halong⟩ m hm
        rcases reaches_cons.mp hm with rfl | ⟨k', hk', hm⟩
        · exact hT
        · cases hk.symm.trans hk'
          exact (ih hIk (hTk.mpr ha) hrest).mpr (halong k hk) m hm

/-! ## One step of a run -/

/-- The run from `s` to `s'` goes from `m` to `m'` by the action `a`. -/
def Passes (step : σ → α → Option σ) (s : σ) (as : List α) (s' m : σ) (a : α) (m' : σ) : Prop :=
  ∃ before after, as = before ++ a :: after ∧ run step s before = some m ∧ step m a = some m' ∧ run step m' after = some s'

/-- A step that the rest of a run passes through is one of the whole run. -/
theorem Passes.cons {s k s' m m' : σ} {a b : α} {rest : List α} (hb : step s b = some k)
    (h : Passes step k rest s' m a m') : Passes step s (b :: rest) s' m a m' := by
  obtain ⟨before, after, rfl, hbefore, ha, hafter⟩ := h
  exact ⟨b :: before, after, rfl, run_cons.mpr ⟨k, hb, hbefore⟩, ha, hafter⟩

/-- The actions of a run meet what the run meets. -/
theorem Along.passes {s s' m m' : σ} {a : α} {as : List α} (hG : Along step G s as) (h : Passes step s as s' m a m') : G m a := by
  obtain ⟨before, after, hsplit, hbefore, -, -⟩ := h
  exact along_iff_split.mp hG before a after m hsplit hbefore

/-- **The rule of causes.** What a run ends with, but has not begun with, one of its steps has brought about. -/
theorem exists_cause {P : σ → Prop} {s s' : σ} {as : List α} (hrun : run step s as = some s') (hno : ¬ P s) (hP : P s') :
    ∃ m a m', Passes step s as s' m a m' ∧ ¬ P m ∧ P m' := by
  induction as generalizing s with
  | nil =>
      cases hrun
      exact absurd hP hno
  | cons a rest ih =>
      obtain ⟨k, hk, hrest⟩ := run_cons.mp hrun
      by_cases hthere : P k
      · exact ⟨s, a, k, ⟨[], rest, rfl, rfl, hk, hrest⟩, hno, hthere⟩
      · obtain ⟨m, b, m', hpasses, hbefore, hafter⟩ := ih hrest hthere
        exact ⟨m, b, m', hpasses.cons hk, hbefore, hafter⟩

/-! ## Machines that answer every action -/

/-- The answers to the actions, one after the other. -/
def outputs (next : σ → α → β × σ) : σ → List α → List β
  | _, [] => []
  | s, a :: rest => (next s a).1 :: outputs next (next s a).2 rest

/-- The specification allows the answers: each is one for its action in the state that the actions before it
    have led to. -/
def Allows (spec : γ → α → β → Prop) (after : γ → α → γ) : γ → List α → List β → Prop
  | _, [], [] => True
  | t, a :: as, b :: bs => spec t a b ∧ Allows spec after (after t a) as bs
  | _, _, _ => False

/-- **The rule of answers.** If related states give allowed answers and stay related, every answer of a run is
    allowed, and the run ends in related states. -/
theorem outputs_allowed {next : σ → α → β × σ} {spec : γ → α → β → Prop} {after : γ → α → γ}
    {R : σ → γ → Prop}
    (hnext : ∀ s t a, R s t → spec t a (next s a).1 ∧ R (next s a).2 (after t a)) {s : σ} {t : γ}
    (h : R s t) (as : List α) :
    Allows spec after t as (outputs next s as) ∧
      R (as.foldl (fun s a => (next s a).2) s) (as.foldl after t) := by
  induction as generalizing s t with
  | nil => exact ⟨trivial, h⟩
  | cons a rest ih =>
      obtain ⟨hanswer, hrel⟩ := hnext s t a h
      obtain ⟨hrest, hend⟩ := ih hrel
      exact ⟨⟨hanswer, hrest⟩, hend⟩

end Lib
