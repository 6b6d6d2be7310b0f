import RCloneCloud.Ui.DialogStack
import RCloneCloud.Lib.Components

/-!
# `Ui.DialogPaths` — where the dialogs put an item

Moving and copying join the text typed to the item's name, renaming joins the shown folder to the text typed.
Compared by their components, the paths of a move and of a copy are always what the dialog says. That of a
rename is, unless the new name has a slash in it: the text is joined as it is.

`PutsInPlace` is what a dialog promises, in components: the item's own path as the source, and as the target the typed
folder with the item's name, or the shown folder with the typed name. `confirmDialog_puts_iff` is the exact condition,
which only concerns a rename. The item is taken to be shown in the folder (`ShownIn`), since its path was listed
there.
-/

set_option autoImplicit false

namespace RCloneCloud

open Lib

/-! ## The paths of a job -/

/-- The path that a job takes its item from. -/
def JobRequest.fromPath : JobRequest → Option JsString
  | .moveFile _ fromPath _ _ => some fromPath
  | .moveFolder _ fromPath _ _ => some fromPath
  | .copyFile _ fromPath _ _ => some fromPath
  | .copyFolder _ fromPath _ _ _ => some fromPath
  | _ => none

/-- The path that a job puts its item at. -/
def JobRequest.toPath : JobRequest → Option JsString
  | .moveFile _ _ _ toPath => some toPath
  | .moveFolder _ _ _ toPath => some toPath
  | .copyFile _ _ _ toPath => some toPath
  | .copyFolder _ _ _ toPath _ => some toPath
  | _ => none

/-- The handler that confirms a dialog. -/
def confirmDialog (dialog : ItemsDialog) (folder : Option RemotePath) (p : DialogPage) (input : JsString) :
    DialogPage :=
  match dialog with
  | .move => confirmMove folder p input
  | .copy => confirmCopy folder p input
  | .rename => confirmRename folder p input
  | .delete => confirmDelete folder p

/-- The components of the folder that the page shows. -/
def RemotePath.folders (remotePath : RemotePath) : List JsString := components '/' (remotePath.path.getD [])

/-- `remotePath.path ? `${remotePath.path}/${name}` : name`. -/
def inFolder (remotePath : RemotePath) (name : JsString) : JsString :=
  match orUndefined remotePath.path with
  | some path => path ++ '/' :: name
  | none => name

/-- An item of the folder that the page shows. -/
structure ListFolderItem.ShownIn (item : ListFolderItem) (remotePath : RemotePath) : Prop where
  named : item.name ≠ []
  plain : '/' ∉ item.name
  path : item.path = inFolder remotePath item.name

/-- **The place that a dialog names**: the folder typed with the item's name below it; for a rename, the shown
    folder with the name typed. -/
def namedPlace (dialog : ItemsDialog) (remotePath : RemotePath) (item : ListFolderItem) (input : JsString) :
    List JsString :=
  match dialog with
  | .rename => remotePath.folders ++ [trim input]
  | _ => components '/' (trim input) ++ [item.name]

/-- **The job puts the item there**; a rename changes the last component of its path only. -/
def PutsInPlace (dialog : ItemsDialog) (remotePath : RemotePath) (item : ListFolderItem) (input : JsString)
    (request : JobRequest) : Prop :=
  ∃ fromPath toPath, request.fromPath = some fromPath ∧ request.toPath = some toPath ∧
    components '/' toPath = namedPlace dialog remotePath item input ∧
    (dialog = .rename → (components '/' toPath).dropLast = (components '/' fromPath).dropLast)

/-! ## Joining -/

/-- Normalizing takes slashes off the end, which add no component. -/
theorem components_normalizePath (path : JsString) : components '/' (normalizePath path) = components '/' (trim path) := by
  unfold normalizePath
  dsimp only
  split
  · next hempty => rw [List.isEmpty_iff.mp hempty]
  · exact components_rdropWhile '/' (trim path)

/-- The root is spelled in two ways, with the same components. -/
theorem components_joinPath (basePath : JsString) {name : JsString} (hne : name ≠ []) (hslash : '/' ∉ name) :
    components '/' (joinPath basePath name) = components '/' basePath ++ [name] := by
  have hname : components '/' name = [name] := components_of_not_mem hne hslash
  unfold joinPath
  split
  · next hroot =>
      have hnone : components '/' basePath = [] := by
        rw [Bool.or_eq_true, List.isEmpty_iff, decide_eq_true_iff] at hroot
        rcases hroot with rfl | rfl
        · exact components_nil '/'
        · rw [components_cons_self, components_nil]
      rw [components_cons_self, hname, hnone, List.nil_append]
  · rw [components_append_cons, hname]

/-- A name in a folder adds its components to the folder's. -/
theorem components_inFolder (remotePath : RemotePath) (name : JsString) :
    components '/' (inFolder remotePath name) = remotePath.folders ++ components '/' name := by
  unfold inFolder RemotePath.folders
  cases remotePath.path with
  | none =>
      show components '/' name = components '/' [] ++ components '/' name
      rw [components_nil, List.nil_append]
  | some path =>
      cases path with
      | nil =>
          show components '/' name = components '/' [] ++ components '/' name
          rw [components_nil, List.nil_append]
      | cons c rest => exact components_append_cons '/' (c :: rest) name

/-! ## What is submitted -/

section
variable {p : DialogPage} {input : JsString} {remotePath : RemotePath} {item : ListFolderItem} {request : JobRequest}

/-- The paths of the job that a move or a copy submits. -/
theorem confirmDialog_joins {dialog : ItemsDialog} (hdialog : dialog = .move ∨ dialog = .copy)
    (hitem : p.requestItem dialog = some item)
    (hsubmit : (confirmDialog dialog (some remotePath) p input).submitted = p.submitted ++ [request]) :
    request.fromPath = some item.path ∧ request.toPath = some (joinPath (normalizePath input) item.name) := by
  rcases hdialog with rfl | rfl
  · unfold confirmDialog confirmMove at hsubmit
    rw [hitem] at hsubmit
    rw [← List.singleton_inj.mp (List.append_cancel_left hsubmit)]
    split <;> exact ⟨rfl, rfl⟩
  · unfold confirmDialog confirmCopy at hsubmit
    rw [hitem] at hsubmit
    rw [← List.singleton_inj.mp (List.append_cancel_left hsubmit)]
    split <;> exact ⟨rfl, rfl⟩

/-- **A move and a copy** put the item where they say. -/
theorem confirmDialog_puts_joined {dialog : ItemsDialog} (hdialog : dialog = .move ∨ dialog = .copy)
    (hitem : p.requestItem dialog = some item) (hshown : item.ShownIn remotePath)
    (hsubmit : (confirmDialog dialog (some remotePath) p input).submitted = p.submitted ++ [request]) :
    PutsInPlace dialog remotePath item input request := by
  obtain ⟨hfrom, hto⟩ := confirmDialog_joins hdialog hitem hsubmit
  have hplace : namedPlace dialog remotePath item input = components '/' (trim input) ++ [item.name] := by
    rcases hdialog with rfl | rfl <;> rfl
  refine ⟨_, _, hfrom, hto, ?_, fun hrename => ?_⟩
  · rw [components_joinPath _ hshown.named hshown.plain, components_normalizePath, hplace]
  · rcases hdialog with rfl | rfl <;> cases hrename

/-- A rename submits nothing for an empty name. -/
theorem confirmRename_paths (hitem : p.requestItem .rename = some item)
    (hsubmit : (confirmRename (some remotePath) p input).submitted = p.submitted ++ [request]) :
    trim input ≠ [] ∧ request.fromPath = some item.path ∧ request.toPath = some (inFolder remotePath (trim input)) := by
  unfold confirmRename at hsubmit
  rw [hitem] at hsubmit
  dsimp only at hsubmit
  split at hsubmit
  · exact absurd hsubmit (by simp)
  · next hguard =>
      rw [Bool.or_eq_true, List.isEmpty_iff, not_or] at hguard
      have hrequest := List.singleton_inj.mp (List.append_cancel_left hsubmit)
      rw [← hrequest]
      refine ⟨hguard.1, ?_⟩
      split <;> exact ⟨rfl, rfl⟩

/-- **The dialogs put the item where they say** exactly if a rename's new name has no slash. -/
theorem confirmDialog_puts_iff {dialog : ItemsDialog} (hdialog : dialog ≠ .delete)
    (hitem : p.requestItem dialog = some item) (hshown : item.ShownIn remotePath)
    (hsubmit : (confirmDialog dialog (some remotePath) p input).submitted = p.submitted ++ [request]) :
    PutsInPlace dialog remotePath item input request ↔ (dialog = .rename → '/' ∉ trim input) := by
  cases dialog with
  | move => exact iff_of_true (confirmDialog_puts_joined (.inl rfl) hitem hshown hsubmit) nofun
  | copy => exact iff_of_true (confirmDialog_puts_joined (.inr rfl) hitem hshown hsubmit) nofun
  | rename =>
      obtain ⟨hne, hfrom, hto⟩ := confirmRename_paths hitem hsubmit
      constructor
      · rintro ⟨fromPath, toPath, -, hto', hplace, -⟩ -
        obtain rfl := Option.some_inj.mp (hto.symm.trans hto')
        rw [components_inFolder] at hplace
        -- a component has no separator
        have hself : components '/' (trim input) = [trim input] := List.append_cancel_left hplace
        exact (components_eq_self_iff hne).mp hself
      · intro hplain
        have hself := components_of_not_mem hne (hplain rfl)
        refine ⟨_, _, hfrom, hto, ?_, fun _ => ?_⟩
        · rw [components_inFolder, hself]
          rfl
        · rw [hshown.path, components_inFolder, components_inFolder, hself,
            components_of_not_mem hshown.named hshown.plain, List.dropLast_concat, List.dropLast_concat]
  | delete => exact absurd rfl hdialog

end

/-! ## Inputs -/

/-- The file `a.txt` of the folder `docs`. -/
def docsFolder : RemotePath := ⟨js "r", some (js "docs")⟩

/-- A file of the sample's folder. -/
def docsFile : ListFolderItem := ⟨js "docs/a.txt", js "a.txt", false⟩

/-- The sample's file is listed in the sample's folder. -/
theorem docsFile_shown : docsFile.ShownIn docsFolder := ⟨by decide, by decide, rfl⟩

/-- A copy, and a rename to a plain name. -/
theorem confirmDialog_puts_copy :
    PutsInPlace .copy docsFolder docsFile (js " /backup//2024/ ")
        (.copyFile (js "r") (js "docs/a.txt") (js "r") (js "/backup//2024/a.txt")) ∧
      PutsInPlace .rename docsFolder docsFile (js " b.txt ")
        (.moveFile (js "r") (js "docs/a.txt") (js "r") (js "docs/b.txt")) := by
  constructor
  · have hcopy : ItemsDialog.copy ≠ .delete := by decide
    have hitem : (DialogPage.initial.openDialog (copyItemsDialogRequest docsFile)).requestItem .copy = some docsFile := rfl
    have hsubmit : (confirmDialog .copy (some docsFolder)
        (DialogPage.initial.openDialog (copyItemsDialogRequest docsFile)) (js " /backup//2024/ ")).submitted =
        (DialogPage.initial.openDialog (copyItemsDialogRequest docsFile)).submitted ++
          [.copyFile (js "r") (js "docs/a.txt") (js "r") (js "/backup//2024/a.txt")] := by decide
    exact (confirmDialog_puts_iff hcopy hitem docsFile_shown hsubmit).mpr nofun
  · have hrename : ItemsDialog.rename ≠ .delete := by decide
    have hitem : (DialogPage.initial.openDialog (renameItemsDialogRequest docsFile)).requestItem .rename = some docsFile := rfl
    have hsubmit : (confirmDialog .rename (some docsFolder)
        (DialogPage.initial.openDialog (renameItemsDialogRequest docsFile)) (js " b.txt ")).submitted =
        (DialogPage.initial.openDialog (renameItemsDialogRequest docsFile)).submitted ++
          [.moveFile (js "r") (js "docs/a.txt") (js "r") (js "docs/b.txt")] := by decide
    have hplain : '/' ∉ trim (js " b.txt ") := by decide
    exact (confirmDialog_puts_iff hrename hitem docsFile_shown hsubmit).mpr fun _ => hplain

/-- **A slash in the new name moves the file** into a folder below. -/
theorem confirmDialog_moves :
    (confirmRename (some docsFolder) (DialogPage.initial.openDialog (renameItemsDialogRequest docsFile))
        (js "sub/b.txt")).submitted =
      [.moveFile (js "r") (js "docs/a.txt") (js "r") (js "docs/sub/b.txt")] ∧
    ¬ PutsInPlace .rename docsFolder docsFile (js "sub/b.txt")
      (.moveFile (js "r") (js "docs/a.txt") (js "r") (js "docs/sub/b.txt")) := by
  refine ⟨by decide, ?_⟩
  rintro ⟨fromPath, toPath, -, hto, hplace, -⟩
  cases hto
  revert hplace
  decide

end RCloneCloud
