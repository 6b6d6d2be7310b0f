import RCloneCloud.Ui.Dialogs

/-!
# `Ui.DialogStack` — which user actions keep the dialog stack balanced

An action settles the dialog on top when it submits its job or dismisses it; it should then take exactly that
request off the stack. Three actions do not: confirming a deletion takes nothing off, nor does the escape key,
and the button in the file viewer's backdrop closes twice. In every run the requests below an open one are
those it was opened on, and a request that is off the stack never comes back.

The proofs go by the handlers: `ClickHandler.run_cases` says what one handler does to the stack,
`ClickHandler.run_stack` and `ClickHandler.run_closes` what a bubbling click does, and `DialogPage.step_cases` what a
whole action does. Templates are data, so what a button is bound to is read off the template of the dialog on top
(`template_confirm`, `template_enter`). `Balancing` is the condition on a step: it looks at the state before the
action, never at what is left.
-/

set_option autoImplicit false

namespace RCloneCloud

open Lib

/-! ## What a click does to the stack -/

section
variable {folder : Option RemotePath} {input : JsString} {p p' : DialogPage}

@[simp] theorem DialogPage.submitJob_submitted (r : JobRequest) :
    (p.submitJob r).submitted = p.submitted ++ [r] := rfl

/-- **What a handler does**: nothing, or it closes the dialog, or it submits a job and closes the dialog; only
    the one that confirms a deletion submits a job and leaves the dialog. -/
theorem ClickHandler.run_cases (h : ClickHandler) (folder : Option RemotePath) (input : JsString)
    (p : DialogPage) :
    h.run folder input p = p ∨ (h = .closeDialog ∧ h.run folder input p = p.closeDialog) ∨
      (∃ request, h.run folder input p = (p.submitJob request).closeDialog) ∨
      (h = .confirmDelete ∧ ∃ request, h.run folder input p = p.submitJob request) := by
  cases h with
  | closeDialog => exact .inr (.inl ⟨rfl, rfl⟩)
  | confirmMove =>
      show RCloneCloud.confirmMove folder p input = p ∨ _
      unfold ClickHandler.run RCloneCloud.confirmMove
      split
      · exact .inr (.inr (.inl ⟨_, rfl⟩))
      · exact .inl rfl
  | confirmCopy =>
      show RCloneCloud.confirmCopy folder p input = p ∨ _
      unfold ClickHandler.run RCloneCloud.confirmCopy
      split
      · exact .inr (.inr (.inl ⟨_, rfl⟩))
      · exact .inl rfl
  -- a name that is blank submits nothing and closes nothing
  | confirmRename =>
      show RCloneCloud.confirmRename folder p input = p ∨ _
      unfold ClickHandler.run RCloneCloud.confirmRename
      dsimp only
      split
      · split
        · exact .inl rfl
        · exact .inr (.inr (.inl ⟨_, rfl⟩))
      · exact .inl rfl
  -- the one handler that submits and does not close
  | confirmDelete =>
      show RCloneCloud.confirmDelete folder p = p ∨ _
      unfold ClickHandler.run RCloneCloud.confirmDelete
      split
      · exact .inr (.inr (.inr ⟨rfl, _, rfl⟩))
      · exact .inl rfl

/-- A handler constructs no request, and takes at most the top one off the stack. -/
theorem ClickHandler.run_stack (h : ClickHandler) (folder : Option RemotePath) (input : JsString)
    (p : DialogPage) :
    (h.run folder input p).created = p.created ∧
      (h.run folder input p).dialogs.requests <+: p.dialogs.requests := by
  rcases h.run_cases folder input p with
    hrun | ⟨-, hrun⟩ | ⟨request, hrun⟩ | ⟨-, request, hrun⟩ <;> rw [hrun]
  · exact ⟨rfl, List.prefix_refl _⟩
  · exact ⟨rfl, List.dropLast_prefix _⟩
  · exact ⟨rfl, List.dropLast_prefix _⟩
  · exact ⟨rfl, List.prefix_refl _⟩

/-- Moving, copying and renaming close the dialog when they submit a job. -/
theorem ClickHandler.run_closes {h : ClickHandler} (hne : h ≠ .confirmDelete)
    (hsub : (h.run folder input p).submitted ≠ p.submitted) :
    (h.run folder input p).dialogs.requests = p.dialogs.requests.dropLast := by
  rcases h.run_cases folder input p with
    hrun | ⟨-, hrun⟩ | ⟨request, hrun⟩ | ⟨hdelete, -⟩
  · exact absurd (congrArg DialogPage.submitted hrun) hsub
  · rw [hrun]; rfl
  · rw [hrun]; rfl
  · exact absurd hdelete hne

/-- What a click leaves of the stack: the requests below some height, and no new one. -/
theorem click_shrinks (path : Bubble) :
    (click folder input path p).created = p.created ∧
      (click folder input path p).dialogs.requests <+: p.dialogs.requests := by
  unfold click
  generalize path.reduceOption = handlers
  induction handlers generalizing p with
  | nil => exact ⟨rfl, List.prefix_refl _⟩
  | cons h rest ih =>
      obtain ⟨hcreated, hpre⟩ := h.run_stack folder input p
      obtain ⟨ihcreated, ihpre⟩ := ih (p := h.run folder input p)
      exact ⟨ihcreated.trans hcreated, ihpre.trans hpre⟩

/-- **What a step does to the stack**: it puts a new request on top, or leaves the requests below some
    height. -/
theorem DialogPage.step_cases {a : UserAction} (h : p.step a = some p') :
    (∃ request, a = .openDialog request ∧ p' = p.openDialog request) ∨
      (p'.created = p.created ∧ p'.dialogs.requests <+: p.dialogs.requests) := by
  cases a with
  | openDialog request =>
      cases h
      exact .inl ⟨request, rfl, rfl⟩
  | confirm folder input =>
      obtain ⟨dialog, -, h⟩ := Option.bind_eq_some_iff.mp h
      split at h
      · cases h
      · obtain ⟨path, -, rfl⟩ := Option.map_eq_some_iff.mp h
        exact .inr (click_shrinks path)
  | confirmByEnter folder input =>
      obtain ⟨dialog, -, h⟩ := Option.bind_eq_some_iff.mp h
      obtain ⟨handler, -, rfl⟩ := Option.map_eq_some_iff.mp h
      -- one handler is a path of one element
      exact .inr (click_shrinks [some handler])
  | cancel =>
      obtain ⟨dialog, -, rfl⟩ := Option.map_eq_some_iff.mp h
      exact .inr (click_shrinks dialog.cancel)
  | clickBackdrop onButton =>
      obtain ⟨dialog, -, rfl⟩ := Option.map_eq_some_iff.mp h
      exact .inr (click_shrinks _)
  | pressEscape =>
      obtain ⟨dialog, -, rfl⟩ := Option.map_eq_some_iff.mp h
      exact .inr ⟨rfl, List.prefix_refl _⟩

end

/-! ## Runs -/

/-- The requests on the stack are distinct objects, made so far. -/
structure DialogInv (p : DialogPage) : Prop where
  made : ∀ r ∈ p.dialogs.requests, r.ref < p.created
  distinct : (p.dialogs.requests.map RequestObject.ref).Nodup

/-- An empty stack has no two requests that could be one. -/
theorem dialogInv_initial : DialogInv .initial := ⟨by simp [DialogPage.initial], by simp [DialogPage.initial]⟩

/-- Opening pushes a request with a number of its own; every other action leaves a beginning of the stack. -/
theorem DialogInv.step {p p' : DialogPage} {a : UserAction} (hI : DialogInv p) (h : p.step a = some p') :
    DialogInv p' := by
  rcases DialogPage.step_cases h with ⟨request, rfl, rfl⟩ | ⟨hcreated, hpre⟩
  · refine ⟨?_, ?_⟩
    · intro r hr
      show r.ref < p.created + 1
      rcases List.mem_append.mp hr with hold | hnew
      · exact Nat.lt_succ_of_lt (hI.made r hold)
      · obtain rfl := List.mem_singleton.mp hnew
        exact Nat.lt_succ_self _
    · show ((p.dialogs.requests ++ [RequestObject.mk p.created request]).map RequestObject.ref).Nodup
      rw [List.map_append, List.nodup_append]
      refine ⟨hI.distinct, by simp, ?_⟩
      intro a ha b hb hab
      obtain ⟨r, hr, rfl⟩ := List.mem_map.mp ha
      have hlt := hI.made r hr
      simp only [List.map_cons, List.map_nil, List.mem_singleton] at hb
      omega
  · have hsub := hpre.sublist
    refine ⟨fun r hr => ?_, (hsub.map _).nodup hI.distinct⟩
    rw [hcreated]
    exact hI.made r (hsub.subset hr)

/-- The run lemma. -/
theorem dialogInv_run {actions : List UserAction} {p p' : DialogPage} (hI : DialogInv p)
    (h : run DialogPage.step p actions = some p') : DialogInv p' :=
  run_invariant (G := fun _ _ => True) (fun _ _ _ hI _ h => hI.step h) hI (along_of_forall (fun _ _ => trivial) _ _) h

/-- **A request off the stack stays off**: only new requests are put on it. -/
theorem gone_stays_gone {actions : List UserAction} {p p' : DialogPage} {r : RequestObject}
    (hmade : r.ref < p.created) (hgone : r ∉ p.dialogs.requests)
    (h : run DialogPage.step p actions = some p') : r ∉ p'.dialogs.requests := by
  have hinv : r.ref < p'.created ∧ r ∉ p'.dialogs.requests := by
    refine run_invariant (I := fun p => r.ref < p.created ∧ r ∉ p.dialogs.requests) (G := fun _ _ => True)
      ?_ ⟨hmade, hgone⟩ (along_of_forall (fun _ _ => trivial) _ _) h
    rintro p a p' ⟨hmade, hgone⟩ - hs
    rcases DialogPage.step_cases hs with ⟨request, rfl, rfl⟩ | ⟨hcreated, hpre⟩
    · refine ⟨Nat.lt_succ_of_lt hmade, fun hmem => ?_⟩
      rcases List.mem_append.mp hmem with hold | hnew
      · exact hgone hold
      · obtain rfl := List.mem_singleton.mp hnew
        exact absurd hmade (Nat.lt_irrefl _)
    · exact ⟨hcreated ▸ hmade, fun hmem => hgone (hpre.subset hmem)⟩
  exact hinv.2

/-- The request was put on the stack `below`, by one of the actions. -/
def OpenedOn (actions : List UserAction) (r : RequestObject) (below : List RequestObject) : Prop :=
  ∃ earlier later p, actions = earlier ++ .openDialog r.value :: later ∧
    run DialogPage.step .initial earlier = some p ∧ p.created = r.ref ∧ p.dialogs.requests = below

/-- What a request was opened on does not change. -/
theorem OpenedOn.append {actions : List UserAction} {r : RequestObject} {below : List RequestObject}
    (h : OpenedOn actions r below) (a : UserAction) : OpenedOn (actions ++ [a]) r below := by
  obtain ⟨earlier, later, p, rfl, hp⟩ := h
  exact ⟨earlier, later ++ [a], p, by simp, hp⟩

/-- **What lies below a request is what it was opened on.** -/
theorem openedOn_of_run {actions : List UserAction} {p : DialogPage}
    (h : run DialogPage.step .initial actions = some p) :
    ∀ below r above, p.dialogs.requests = below ++ r :: above → OpenedOn actions r below := by
  refine (run_beginnings (C := fun _ => True) (I := fun actions p => run DialogPage.step .initial actions = some p ∧
    ∀ below r above, p.dialogs.requests = below ++ r :: above → OpenedOn actions r below)
    (fun _ _ _ => trivial) ⟨rfl, by simp [DialogPage.initial]⟩ ?_ trivial h).2
  rintro actions a p p' - ⟨hrun, ih⟩ hs
  refine ⟨run_append.mpr ⟨p, hrun, run_cons.mpr ⟨p', hs, rfl⟩⟩, fun below r above hsplit => ?_⟩
  rcases DialogPage.step_cases hs with ⟨request, rfl, rfl⟩ | ⟨-, rest, hpre⟩
  · have hsplit : p.dialogs.requests ++ [⟨p.created, request⟩] = below ++ r :: above := hsplit
    rcases append_cons_eq_snoc.mp hsplit with ⟨rfl, rfl, rfl⟩ | ⟨above', rfl, hold⟩
    · exact ⟨actions, [], p, rfl, hrun, rfl, rfl⟩
    · exact (ih below r above' hold).append _
  · rw [hsplit, List.append_assoc, List.cons_append] at hpre
    exact (ih below r (above ++ rest) hpre.symm).append _

/-! ## Settling the dialog on top -/

/-- The action dismisses the dialog on top. -/
def UserAction.dismisses : UserAction → Bool
  | .cancel => true
  | .clickBackdrop _ => true
  | .pressEscape => true
  | _ => false

/-- The step dismisses the dialog on top or submits its job. -/
def Settles (p : DialogPage) (a : UserAction) (p' : DialogPage) : Prop :=
  a.dismisses = true ∨ p'.submitted ≠ p.submitted

/-- The actions that take exactly one request off the stack when they settle it: not a deletion that is
    confirmed, not the escape key, and not the button in the file viewer's backdrop, unless the viewer's
    request is the last one. -/
def Balancing (p : DialogPage) : UserAction → Prop
  | .confirm folder _ =>
      folder ≠ none → ∀ r ∈ p.dialogs.requests.getLast?, r.value.ctor ≠ .items .delete
  | .clickBackdrop onButton =>
      onButton = true → ∀ r ∈ p.dialogs.requests.getLast?, r.value.ctor = .fileViewer →
        p.dialogs.requests.length = 1
  | .pressEscape => False
  | _ => True

section
variable {folder : Option RemotePath} {input : JsString} {p p' : DialogPage} {below : List RequestObject}
  {r : RequestObject}

/-- A confirmed deletion submits its job, if the page shows a folder, and leaves the stack alone. -/
theorem confirmDelete_spec {item : ListFolderItem} {ref : Nat}
    (htop : p.dialogs.requests.getLast? = some ⟨ref, .items .delete item⟩) :
    (confirmDelete folder p).dialogs = p.dialogs ∧
      ((confirmDelete folder p).submitted ≠ p.submitted ↔ folder ≠ none) := by
  have hitem : p.requestItem .delete = some item := by
    simp [DialogPage.requestItem, selectTopDialogRequest, htop, DialogRequest.ctor]
  unfold confirmDelete
  rw [hitem]
  cases folder with
  | none => exact ⟨rfl, by simp⟩
  | some remotePath => exact ⟨rfl, by simp⟩

/-- The confirm button runs one handler, which is the one for deletions in one dialog only. -/
theorem template_confirm {request : DialogRequest} {path : Bubble} (h : request.template.confirm = some path) :
    ∃ handler : ClickHandler, path = [some handler, none] ∧
      (handler = .confirmDelete ↔ request.ctor = .items .delete) := by
  cases request with
  | items dialog item =>
      cases dialog <;> exact ⟨_, (Option.some_inj.mp h).symm, by simp [DialogRequest.ctor]⟩
  | fileViewer => cases h

/-- The enter key is never bound to confirming a deletion. -/
theorem template_enter {request : DialogRequest} {handler : ClickHandler}
    (h : request.template.enter = some handler) : handler ≠ .confirmDelete := by
  rintro rfl
  cases request with
  | items dialog item => cases dialog <;> cases h
  | fileViewer => cases h

/-- Confirming takes its request off the stack unless it confirms a deletion. -/
theorem confirm_pops_iff (htop : p.dialogs.requests = below ++ [r])
    (h : p.step (.confirm folder input) = some p') :
    (p'.submitted ≠ p.submitted → p'.dialogs.requests = below) ↔ Balancing p (.confirm folder input) := by
  have hlast : p.dialogs.requests.getLast? = some r := by rw [htop, List.getLast?_concat]
  have hdrop : p.dialogs.requests.dropLast = below := by rw [htop, List.dropLast_concat]
  simp only [DialogPage.step, DialogPage.top, hlast, Option.map_some, Option.bind_some] at h
  split at h
  · cases h
  obtain ⟨path, hpath, rfl⟩ := Option.map_eq_some_iff.mp h
  obtain ⟨handler, rfl, hdelete⟩ := template_confirm hpath
  show ((handler.run folder input p).submitted ≠ _ → (handler.run folder input p).dialogs.requests = below) ↔ _
  -- a deletion submits and leaves its request on the stack; every other handler closes once it submits
  by_cases hctor : r.value.ctor = .items .delete
  · obtain ⟨ref, request⟩ := r
    obtain rfl := hdelete.mpr hctor
    cases request with
    | fileViewer => cases hctor
    | items dialog item =>
        cases hctor
        obtain ⟨hdialogs, hsub⟩ := @confirmDelete_spec folder p _ _ hlast
        show ((confirmDelete folder p).submitted ≠ _ → (confirmDelete folder p).dialogs.requests = below) ↔ _
        rw [hsub, hdialogs]
        constructor
        · intro hpops hfolder
          exact absurd (htop ▸ hpops hfolder) (by simp)
        · intro hnot hfolder
          exact absurd rfl (hnot hfolder _ hlast)
  · refine ⟨fun _ _ q hq => ?_, fun _ hsub => ?_⟩
    · obtain rfl := Option.some_inj.mp (hlast.symm.trans hq)
      exact hctor
    · exact (ClickHandler.run_closes (fun hh => hctor (hdelete.mp hh)) hsub).trans hdrop

/-- Confirming by the enter key always does, where it submits at all. -/
theorem confirmByEnter_pops (htop : p.dialogs.requests = below ++ [r])
    (h : p.step (.confirmByEnter folder input) = some p') (hsub : p'.submitted ≠ p.submitted) :
    p'.dialogs.requests = below := by
  have hlast : p.dialogs.requests.getLast? = some r := by rw [htop, List.getLast?_concat]
  have hdrop : p.dialogs.requests.dropLast = below := by rw [htop, List.dropLast_concat]
  simp only [DialogPage.step, DialogPage.top, hlast, Option.map_some, Option.bind_some] at h
  obtain ⟨handler, hhandler, rfl⟩ := Option.map_eq_some_iff.mp h
  exact (ClickHandler.run_closes (template_enter hhandler) hsub).trans hdrop

/-- The cancel button takes the request on top off and no other. -/
theorem cancel_pops (htop : p.dialogs.requests = below ++ [r]) (h : p.step .cancel = some p') :
    p'.dialogs.requests = below := by
  have hlast : p.dialogs.requests.getLast? = some r := by rw [htop, List.getLast?_concat]
  have hdrop : p.dialogs.requests.dropLast = below := by rw [htop, List.dropLast_concat]
  rw [DialogPage.step, DialogPage.top, hlast] at h
  obtain rfl := Option.some_inj.mp h
  obtain ⟨ref, request⟩ := r
  cases request with
  | items dialog item => cases dialog <;> exact hdrop
  | fileViewer => exact hdrop

/-- The backdrop closes once, but the file viewer's button in it closes a second time, where there is more to close. -/
theorem clickBackdrop_pops_iff {onButton : Bool} (htop : p.dialogs.requests = below ++ [r])
    (h : p.step (.clickBackdrop onButton) = some p') :
    p'.dialogs.requests = below ↔ Balancing p (.clickBackdrop onButton) := by
  have hlast : p.dialogs.requests.getLast? = some r := by rw [htop, List.getLast?_concat]
  have hdrop : p.dialogs.requests.dropLast = below := by rw [htop, List.dropLast_concat]
  rw [DialogPage.step, DialogPage.top, hlast] at h
  obtain rfl := Option.some_inj.mp h
  obtain ⟨ref, request⟩ := r
  cases onButton with
  | false =>
      refine ⟨fun _ hno => (by cases hno), fun _ => ?_⟩
      cases request with
      | items dialog item => cases dialog <;> exact hdrop
      | fileViewer => exact hdrop
  | true =>
      cases request with
      | items dialog item =>
          refine ⟨fun _ _ => by simp [hlast, DialogRequest.ctor], fun _ => ?_⟩
          cases dialog <;> exact hdrop
      | fileViewer remote dirPath fileName mimeType =>
          -- the button's handler and the form's: two requests go
          have htwice : (click none [] [some .closeDialog, some .closeDialog] p).dialogs.requests
              = below.dropLast := congrArg List.dropLast hdrop
          show (click none [] [some .closeDialog, some .closeDialog] p).dialogs.requests = below ↔ _
          rw [htwice]
          constructor
          · intro hpops _ _ _ _
            have hlen := congrArg List.length hpops
            rw [List.length_dropLast] at hlen
            rw [htop, List.length_append, List.length_singleton]
            omega
          · intro hone
            have hlen := hone rfl _ hlast rfl
            rw [htop, List.length_append, List.length_singleton] at hlen
            obtain rfl := List.length_eq_zero_iff.mp (Nat.succ_injective hlen)
            rfl

/-- **What settling an action does to the stack**: it takes the top request, and nothing else, exactly when
    the action is one of the balancing ones. -/
theorem settles_pops_iff {a : UserAction} (htop : p.dialogs.requests = below ++ [r])
    (h : p.step a = some p') :
    (Settles p a p' → p'.dialogs.requests = below) ↔ Balancing p a := by
  -- a confirmation settles by what it submits, a dismissal in any case
  have hconfirms : a.dismisses = false → (Settles p a p' ↔ p'.submitted ≠ p.submitted) :=
    fun hno => by simp [Settles, hno]
  have hdismisses : a.dismisses = true → Settles p a p' := .inl
  cases a with
  | openDialog other =>
      cases h
      exact ⟨fun _ => trivial, fun _ hsettles => absurd rfl ((hconfirms rfl).mp hsettles)⟩
  | confirm folder input =>
      rw [hconfirms rfl]
      exact confirm_pops_iff htop h
  | confirmByEnter folder input =>
      rw [hconfirms rfl]
      exact ⟨fun _ => trivial, fun _ => confirmByEnter_pops htop h⟩
  | cancel => exact ⟨fun _ => trivial, fun _ _ => cancel_pops htop h⟩
  | clickBackdrop onButton =>
      rw [← clickBackdrop_pops_iff htop h]
      exact ⟨fun hpops => hpops (hdismisses rfl), fun hpop _ => hpop⟩
  | pressEscape =>
      obtain ⟨-, -, rfl⟩ := Option.map_eq_some_iff.mp h
      refine ⟨fun hpops => ?_, False.elim⟩
      exact absurd (htop ▸ hpops (hdismisses rfl)) (by simp)

end

/-! ## Balanced runs -/

/-- Every action of the run that settles the dialog on top takes exactly its request off the stack, which is
    then what that dialog was opened on, and the request is never selected again. -/
def BalancedRun (actions : List UserAction) : Prop :=
  ∀ before a after p p', actions = before ++ a :: after →
    run DialogPage.step .initial before = some p → p.step a = some p' → Settles p a p' →
    ∃ below r, p.dialogs.requests = below ++ [r] ∧ p'.dialogs.requests = below ∧ OpenedOn before r below ∧
      ∀ later rest q, after = later ++ rest → run DialogPage.step p' later = some q →
        ∀ ctor, selectTopDialogRequest ctor q.dialogs ≠ some r

/-- Only the action that opens a dialog is possible without one, and it settles nothing. -/
theorem top_of_settles {p p' : DialogPage} {a : UserAction} (h : p.step a = some p')
    (hsettles : Settles p a p') : ∃ below r, p.dialogs.requests = below ++ [r] := by
  cases hlast : p.dialogs.requests.getLast? with
  | some r =>
      obtain ⟨below, htop⟩ := List.getLast?_eq_some_iff.mp hlast
      exact ⟨below, r, htop⟩
  | none =>
      have htop : p.top = none := by rw [DialogPage.top, hlast]; rfl
      cases a with
      | openDialog request =>
          cases h
          rcases hsettles with hno | hno
          · cases hno
          · exact absurd rfl hno
      | _ =>
          rw [DialogPage.step, htop] at h
          cases h

/-- The request that a dialog shows is on the stack. -/
theorem selectTop_mem {ctor : DialogCtor} {state : DialogState} {r : RequestObject}
    (h : selectTopDialogRequest ctor state = some r) : r ∈ state.requests := by
  unfold selectTopDialogRequest at h
  split at h
  · split at h
    · cases h
      exact List.mem_of_getLast? ‹_›
    · cases h
  · cases h

/-- **The dialog stack is balanced** in exactly the runs all of whose actions are balancing ones: no deletion
    is confirmed, no dialog is left with the escape key, and the file viewer's backdrop is clicked beside its
    button or with nothing below the viewer. -/
theorem dialog_stack_balanced_iff {actions : List UserAction} {p : DialogPage}
    (h : run DialogPage.step .initial actions = some p) :
    BalancedRun actions ↔ Along DialogPage.step Balancing .initial actions := by
  rw [along_iff_split]
  constructor
  -- a balanced run: what it says of a settling step is all that the condition asks for
  · intro hbal before a after q hsplit hq
    subst hsplit
    obtain ⟨q₀, hq₀, hrest⟩ := run_append.mp h
    obtain rfl := Option.some_inj.mp (hq.symm.trans hq₀)
    obtain ⟨q', hstep, -⟩ := run_cons.mp hrest
    by_cases hsettles : Settles q a q'
    · obtain ⟨below, r, htop, hpop, -, -⟩ := hbal before a after q q' rfl hq hstep hsettles
      exact (settles_pops_iff htop hstep).mp fun _ => hpop
    · cases hlast : q.dialogs.requests.getLast? with
      | none =>
          cases a with
          | openDialog request => trivial
          | _ =>
              rw [DialogPage.step, DialogPage.top, hlast] at hstep
              cases hstep
      | some r =>
          obtain ⟨below, htop⟩ := List.getLast?_eq_some_iff.mp hlast
          exact (settles_pops_iff htop hstep).mp fun hyes => absurd hyes hsettles
  -- conversely the request is off the stack after the step, and does not come back
  · intro hG before a after q q' hsplit hq hstep hsettles
    obtain ⟨below, r, htop⟩ := top_of_settles hstep hsettles
    have hpop : q'.dialogs.requests = below := (settles_pops_iff htop hstep).mpr (hG before a after q hsplit hq) hsettles
    refine ⟨below, r, htop, hpop, openedOn_of_run hq below r [] htop, ?_⟩
    intro later rest last hafter hlater ctor hselected
    have hI : DialogInv q := dialogInv_run dialogInv_initial hq
    have hI' : DialogInv q' := hI.step hstep
    have hcreated : r.ref < q'.created := by
      have hmade := hI.made r (by rw [htop]; simp)
      rcases DialogPage.step_cases hstep with ⟨request, rfl, rfl⟩ | ⟨hcreated, -⟩
      · exact Nat.lt_succ_of_lt hmade
      · rwa [hcreated]
    -- requests are told apart by their numbers
    have hgone : r ∉ q'.dialogs.requests := by
      have hdistinct := hI.distinct
      rw [htop, List.map_append, List.nodup_append] at hdistinct
      rw [hpop]
      intro hin
      exact hdistinct.2.2 r.ref (List.mem_map_of_mem hin) r.ref (by simp) rfl
    exact gone_stays_gone hcreated hgone hlater (selectTop_mem hselected)

/-- A file of the sample, by its name. -/
def sampleItem (name : String) : ListFolderItem := ⟨js "a/" ++ js name, js name, false⟩

/-- The folder that the sample's page shows. -/
def sampleFolder : Option RemotePath := some ⟨js "r", some (js "a")⟩

/-- A file is viewed and the viewer left through its backdrop; then a file is moved. -/
def balancedActions : List UserAction :=
  [.openDialog (.fileViewer (js "r") (some (js "a")) (js "x.png") (js "image/png")), .clickBackdrop true,
    .openDialog (moveItemsDialogRequest (sampleItem "y")), .confirm sampleFolder (js "b")]

/-- A run in which a file viewer is closed by the button in its backdrop and a move is confirmed. -/
theorem dialog_stack_balanced_move : BalancedRun balancedActions :=
  (dialog_stack_balanced_iff
      (p := ⟨⟨[]⟩, [.moveFile (js "r") (js "a/y") (js "r") (js "b/y")], 2⟩) (by decide)).mpr <|
    along_cons trivial rfl <|
    along_cons (fun _ _ _ _ => rfl) rfl <|
    along_cons trivial rfl <|
    along_cons (fun _ r hr => by cases hr; decide) rfl trivial

/-- A deletion is confirmed; then the dialog to move another file is opened and cancelled. -/
def deletingActions : List UserAction :=
  [.openDialog (deleteItemsDialogRequest (sampleItem "x")), .confirm sampleFolder [],
    .openDialog (moveItemsDialogRequest (sampleItem "y")), .cancel]

/-- **A confirmed deletion comes back**: its request is still below the next dialog, and on top again, with
    its confirmation, when that one is cancelled. -/
theorem deletion_reappears :
    run DialogPage.step .initial deletingActions =
      some ⟨⟨[⟨0, deleteItemsDialogRequest (sampleItem "x")⟩]⟩, [.deleteFile (js "r") (js "a/x")], 2⟩ ∧
    ¬ BalancedRun deletingActions := by
  refine ⟨by decide, fun hbal => ?_⟩
  let opened : DialogPage := ⟨⟨[⟨0, deleteItemsDialogRequest (sampleItem "x")⟩]⟩, [], 1⟩
  obtain ⟨below, r, htop, hpop, -⟩ := hbal [.openDialog (deleteItemsDialogRequest (sampleItem "x"))]
    (.confirm sampleFolder []) [.openDialog (moveItemsDialogRequest (sampleItem "y")), .cancel]
    opened (confirmDelete sampleFolder opened) rfl rfl rfl (.inr (by decide))
  have hsame : opened.dialogs.requests = below := hpop
  rw [← hsame] at htop
  exact absurd htop (by simp)

end RCloneCloud
