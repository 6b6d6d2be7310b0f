import RCloneCloud.Ui.JobState
import RCloneCloud.Lib.Run

/-!
# `Ui.Dialogs` — the stack of dialog requests and the dialogs' handlers

The store holds a stack of requests; a dialog is open when its request is on top. The stack is pushed where an
item is clicked and popped by what the dialogs' templates bind to their buttons. A click runs the handler of
the element clicked and then those of the elements around it.

A request is an object: two requests made of equal data are still two, so each carries the number of its
construction.

Bubbling is a list of handlers, the innermost element's first, so that a button inside a backdrop runs both. A
template says which handlers its elements have; `DialogPage.step` only looks them up. The preview paths are those of
the components: `normalizePath` takes slashes off the end and `joinPath` puts one between folder and name.
-/

set_option autoImplicit false

namespace RCloneCloud

/-! ## Requests and the store -/

/-- What the dialogs read of a `ListFolderItem`. -/
structure ListFolderItem where
  path : JsString
  name : JsString
  isDir : Bool
deriving DecidableEq

/-- The four dialogs about an item. -/
inductive ItemsDialog where
  | move
  | copy
  | rename
  | delete
deriving DecidableEq

/-- The classes of requests, for `instanceof`. -/
inductive DialogCtor where
  | items (dialog : ItemsDialog)
  | fileViewer
deriving DecidableEq

/-- The dialogs for items, and the file viewer, each with what it was opened for. -/
inductive DialogRequest where
  | items (dialog : ItemsDialog) (item : ListFolderItem)
  | fileViewer (remote : JsString) (dirPath : Option JsString) (fileName mimeType : JsString)
deriving DecidableEq

/-- `new MoveItemsDialogRequest(item)`. -/
def moveItemsDialogRequest (item : ListFolderItem) : DialogRequest := .items .move item

/-- `new CopyItemsDialogRequest(item)`. -/
def copyItemsDialogRequest (item : ListFolderItem) : DialogRequest := .items .copy item

/-- `new RenameItemsDialogRequest(item)`. -/
def renameItemsDialogRequest (item : ListFolderItem) : DialogRequest := .items .rename item

/-- `new DeleteItemsDialogRequest(item)`. -/
def deleteItemsDialogRequest (item : ListFolderItem) : DialogRequest := .items .delete item

/-- The class of a request, by which the page finds the dialog to show. -/
def DialogRequest.ctor : DialogRequest → DialogCtor
  | .items dialog _ => .items dialog
  | .fileViewer .. => .fileViewer

/-- A request object. -/
structure RequestObject where
  ref : Nat
  value : DialogRequest
deriving DecidableEq

/-- The last request is the one on top. -/
structure DialogState where
  requests : List RequestObject
deriving DecidableEq

/-- Opening pushes a request, closing pops one. -/
inductive DialogsAction where
  | openDialog (request : RequestObject)
  | closeDialog

/-- The reducer of the dialogs' store. -/
def dialogReducer (state : DialogState) : DialogsAction → DialogState
  | .openDialog request => ⟨state.requests ++ [request]⟩
  | .closeDialog => ⟨state.requests.dropLast⟩

/-- The request on top, if it is of the class asked for. -/
def selectTopDialogRequest (ctor : DialogCtor) (state : DialogState) : Option RequestObject :=
  match state.requests.getLast? with
  | some request => if request.value.ctor = ctor then some request else none
  | none => none

/-! ## The page -/

/-- The dialogs, the jobs submitted by them, and the number of requests constructed. -/
structure DialogPage where
  dialogs : DialogState
  submitted : List JobRequest
  created : Nat
deriving DecidableEq

namespace DialogPage

/-- No dialog is open and no job was submitted. -/
def initial : DialogPage := ⟨⟨[]⟩, [], 0⟩

/-- `dispatch(openDialog({ request: new …(item) }))`. -/
def openDialog (p : DialogPage) (request : DialogRequest) : DialogPage :=
  { p with dialogs := dialogReducer p.dialogs (.openDialog ⟨p.created, request⟩), created := p.created + 1 }

/-- Dispatches the closing of whatever is on top. -/
def closeDialog (p : DialogPage) : DialogPage :=
  { p with dialogs := dialogReducer p.dialogs .closeDialog }

/-- Hands a job to the jobs' store. -/
def submitJob (p : DialogPage) (request : JobRequest) : DialogPage :=
  { p with submitted := p.submitted ++ [request] }

/-- The item of `this.request()` in one of the four dialogs. -/
def requestItem (p : DialogPage) (dialog : ItemsDialog) : Option ListFolderItem :=
  match selectTopDialogRequest (.items dialog) p.dialogs with
  | some ⟨_, .items _ item⟩ => some item
  | _ => none

end DialogPage

/-! ## The handlers -/

/-- White space and line ends, as `trim` takes them. -/
def isJsSpace (c : Char) : Bool :=
  c ∈ ['\t', '\n', '\x0b', '\x0c', '\r', ' ', '\u00a0', '\u1680', '\u2028', '\u2029', '\u202f', '\u205f',
    '\u3000', '\ufeff'] || ('\u2000' ≤ c && c ≤ '\u200a')

/-- The text without white space at its ends. -/
def trim (s : JsString) : JsString := (s.dropWhile isJsSpace).rdropWhile isJsSpace

/-- The trimmed path without the slashes at its end. -/
def normalizePath (path : JsString) : JsString :=
  let trimmed := trim path
  if trimmed.isEmpty then []
  else trimmed.rdropWhile fun c => c = '/'

/-- A folder and a name with a slash between them; in the root the name with a slash before it. -/
def joinPath (basePath name : JsString) : JsString :=
  if basePath.isEmpty || basePath = ['/'] then '/' :: name
  else basePath ++ '/' :: name

section
variable (folder : Option RemotePath) (p : DialogPage)

/-- Submits the move to the previewed place and closes. -/
def confirmMove (destinationPath : JsString) : DialogPage :=
  match p.requestItem .move, folder with
  | some item, some remotePath =>
      let finalPath := joinPath (normalizePath destinationPath) item.name
      let p := p.submitJob <|
        if item.isDir then .moveFolder remotePath.remote item.path remotePath.remote finalPath
        else .moveFile remotePath.remote item.path remotePath.remote finalPath
      p.closeDialog
  | _, _ => p

/-- Submits the copy to the previewed place and closes. -/
def confirmCopy (destinationPath : JsString) : DialogPage :=
  match p.requestItem .copy, folder with
  | some item, some remotePath =>
      let finalPath := joinPath (normalizePath destinationPath) item.name
      let p := p.submitJob <|
        if item.isDir then .copyFolder remotePath.remote item.path remotePath.remote finalPath false
        else .copyFile remotePath.remote item.path remotePath.remote finalPath
      p.closeDialog
  | _, _ => p

/-- Submits a move to the new name in the same folder and closes. -/
def confirmRename (input : JsString) : DialogPage :=
  let newName := trim input
  match p.requestItem .rename, folder with
  | some item, some remotePath =>
      if newName.isEmpty || newName = item.name then p
      else
        let toPath := match orUndefined remotePath.path with
          | some path => path ++ '/' :: newName
          | none => newName
        let p := p.submitJob <|
          if item.isDir then .moveFolder remotePath.remote item.path remotePath.remote toPath
          else .moveFile remotePath.remote item.path remotePath.remote toPath
        p.closeDialog
  | _, _ => p

/-- Unlike its siblings, it does not close the dialog. -/
def confirmDelete : DialogPage :=
  match p.requestItem .delete, folder with
  | some item, some remotePath =>
      p.submitJob <|
        if item.isDir then .deleteFolder remotePath.remote item.path
        else .deleteFile remotePath.remote item.path
  | _, _ => p

end

/-! ## The templates -/

/-- What a template binds to `(click)` or `(keydown.enter)`. -/
inductive ClickHandler where
  | closeDialog
  | confirmMove
  | confirmCopy
  | confirmRename
  | confirmDelete

/-- What a handler does, with the page's folder and the text of the dialog's input. -/
def ClickHandler.run (folder : Option RemotePath) (input : JsString) (p : DialogPage) : ClickHandler → DialogPage
  | .closeDialog => p.closeDialog
  | .confirmMove => RCloneCloud.confirmMove folder p input
  | .confirmCopy => RCloneCloud.confirmCopy folder p input
  | .confirmRename => RCloneCloud.confirmRename folder p input
  | .confirmDelete => RCloneCloud.confirmDelete folder p

/-- The elements a click passes, from the one clicked outwards, each with its `(click)` handler if it has
    one. -/
abbrev Bubble := List (Option ClickHandler)

/-- A click runs the handlers along its path, one after another. -/
def click (folder : Option RemotePath) (input : JsString) (path : Bubble) (p : DialogPage) : DialogPage :=
  path.reduceOption.foldl (ClickHandler.run folder input) p

/-- The parts of a dialog that a user acts on. -/
structure DialogTemplate where
  /-- `No`, `Cancel` or the cross -/
  cancel : Bubble
  /-- `Move`, `Copy`, `Rename` or `Yes` -/
  confirm : Option Bubble
  /-- when the confirm button is `[disabled]`, by what stands in the input -/
  disabled : JsString → Bool
  /-- the input's `(keydown.enter)` -/
  enter : Option ClickHandler
  backdropForm : Bubble
  backdropButton : Bubble

/-- The dialogs with an input: the buttons stand in a form without a handler, the backdrop's button in one
    that closes the dialog. -/
def inputDialog (confirm : ClickHandler) (disabled : JsString → Bool) : DialogTemplate where
  cancel := [some .closeDialog, none]
  confirm := some [some confirm, none]
  disabled := disabled
  enter := some confirm
  backdropForm := [some .closeDialog]
  backdropButton := [none, some .closeDialog]

/-- Which handlers the dialog of a request has, on its buttons, its input and its backdrop. -/
def DialogRequest.template : DialogRequest → DialogTemplate
  | .items .move _ => inputDialog .confirmMove fun destinationPath => (trim destinationPath).isEmpty
  | .items .copy _ => inputDialog .confirmCopy fun destinationPath => (trim destinationPath).isEmpty
  | .items .rename item =>
      inputDialog .confirmRename fun newName => (trim newName).isEmpty || trim newName = item.name
  | .items .delete _ =>
      { cancel := [some .closeDialog, none]
        confirm := some [some .confirmDelete, none]
        disabled := fun _ => false
        enter := none
        backdropForm := [some .closeDialog]
        backdropButton := [none, some .closeDialog] }
  | .fileViewer .. =>
      { cancel := [some .closeDialog]
        confirm := none
        disabled := fun _ => false
        enter := none
        backdropForm := [some .closeDialog]
        -- here the button has a handler of its own
        backdropButton := [some .closeDialog, some .closeDialog] }

/-! ## User actions -/

/-- What a user does. A confirmation comes with the folder the page shows and with what stands in the dialog's
    input. -/
inductive UserAction where
  | openDialog (request : DialogRequest)
  | confirm (folder : Option RemotePath) (input : JsString)
  | confirmByEnter (folder : Option RemotePath) (input : JsString)
  | cancel
  | clickBackdrop (onButton : Bool)
  /-- closes the `<dialog>` element natively; no template handles it -/
  | pressEscape

/-- The template of the dialog on top. -/
def DialogPage.top (p : DialogPage) : Option DialogTemplate :=
  p.dialogs.requests.getLast?.map fun request => request.value.template

/-- One user action: opening a dialog, or acting on the one on top. -/
def DialogPage.step (p : DialogPage) : UserAction → Option DialogPage
  | .openDialog request => some (p.openDialog request)
  | .confirm folder input =>
      p.top.bind fun dialog =>
        if dialog.disabled input then none
        else dialog.confirm.map fun path => click folder input path p
  | .confirmByEnter folder input => p.top.bind fun dialog => dialog.enter.map (ClickHandler.run folder input p)
  | .cancel => p.top.map fun dialog => click none [] dialog.cancel p
  | .clickBackdrop onButton =>
      p.top.map fun dialog =>
        click none [] (if onButton then dialog.backdropButton else dialog.backdropForm) p
  | .pressEscape => p.top.map fun _ => p

end RCloneCloud
