import RCloneCloud.Go.Basic
import RCloneCloud.Lib.Codec

/-!
# `Ui.FolderLink` — the address of a folder in the router's URL

Five places of the UI link to a folder: they encode `remote:path` with base64, without padding. The page
decodes the parameter and splits it at colons, keeping the first two parts, so a path comes back exactly when
it has no colon of its own.

`encoded_eq` brings the five places together, so everything else is about one function of a remote and a path. The
path of the router's url is outside: the parameter arrives as the text that was put into the link. `Lib.Codec`
supplies the round trip of base64 without padding and of UTF-8.
-/

set_option autoImplicit false

namespace RCloneCloud

open Lib

/-- A well-formed JavaScript string. -/
abbrev JsString := List Char

/-- The JavaScript string of a literal. -/
def js (s : String) : JsString := s.toList

/-- The folder a page shows; the path is `undefined` at the root. -/
structure RemotePath where
  remote : JsString
  path : Option JsString
deriving DecidableEq

/-! ## The links -/

/-- `Buffer.from(`…`).toString('base64').replace(/=/g, '')` on `remote:path`. -/
def encodeRemotePath (remote path : JsString) : JsString :=
  (base64Encode (utf8Encode (remote ++ ':' :: path))).filter fun c => c ≠ '='

/-- A click on a folder in the table. -/
def folderListTableLink (remote itemPath : JsString) : JsString := encodeRemotePath remote itemPath

/-- A click on a folder among the cards. -/
def folderListCardsLink (remote itemPath : JsString) : JsString := encodeRemotePath remote itemPath

/-- The breadcrumb of a folder above the current one. -/
def breadcrumbLink (remote curLink : JsString) : JsString := encodeRemotePath remote curLink

/-- The breadcrumb of the remote. -/
def breadcrumbRemoteLink (remote : JsString) : JsString := encodeRemotePath remote []

/-- The card of a remote. -/
def remoteCardLink (remote : JsString) : JsString := encodeRemotePath remote []

/-- A link to a folder, from one of the five places. -/
inductive FolderLink where
  | table (remote itemPath : JsString)
  | cards (remote itemPath : JsString)
  | breadcrumb (remote curLink : JsString)
  | breadcrumbRemote (remote : JsString)
  | remoteCard (remote : JsString)

namespace FolderLink

/-- The remote and the path the link is for. -/
def target : FolderLink → JsString × JsString
  | .table remote path => (remote, path)
  | .cards remote path => (remote, path)
  | .breadcrumb remote path => (remote, path)
  | .breadcrumbRemote remote => (remote, [])
  | .remoteCard remote => (remote, [])

/-- The route parameter. -/
def encoded : FolderLink → JsString
  | .table remote path => folderListTableLink remote path
  | .cards remote path => folderListCardsLink remote path
  | .breadcrumb remote path => breadcrumbLink remote path
  | .breadcrumbRemote remote => breadcrumbRemoteLink remote
  | .remoteCard remote => remoteCardLink remote

/-- The five links are encoded alike; they only differ in what they lead to. -/
theorem encoded_eq (l : FolderLink) : l.encoded = encodeRemotePath l.target.1 l.target.2 := by
  cases l <;> rfl

end FolderLink

/-! ## The page -/

/-- `path || undefined`. -/
def orUndefined (path : Option JsString) : Option JsString :=
  match path with
  | some (c :: rest) => some (c :: rest)
  | _ => none

/-- `REMOTE_PATH$_PROVIDER` on the route parameter. -/
def remotePathOf (encodedRemotePath : Option JsString) : Except String RemotePath :=
  match encodedRemotePath with
  | none => .error "No remote path provided"
  | some encoded =>
    if encoded = [] then .error "No remote path provided"
    else
      let remotePath := utf8Decode (base64Decode encoded)
      -- the parts after the second one are dropped
      let parts := remotePath.splitOn ':'
      match orUndefined parts[0]? with
      | none => .error "No remote provided"
      | some remote => .ok ⟨remote, orUndefined parts[1]?⟩

/-! ## The round trip -/

/-- A text that is not empty is kept. -/
theorem orUndefined_some {s : JsString} (h : s ≠ []) : orUndefined (some s) = some s := by
  cases s with
  | nil => exact absurd rfl h
  | cons c rest => rfl

/-- The first part of a string split at a character. -/
theorem head_splitOn (s : JsString) (c : Char) :
    ∃ first, (s.splitOn c)[0]? = some first ∧ c ∉ first ∧ (c ∉ s → first = s) := by
  by_cases hc : c ∈ s
  · obtain ⟨first, rest, rfl, hfirst⟩ := List.eq_append_cons_of_mem hc
    rw [List.splitOn_append_cons_self_of_not_mem hfirst]
    exact ⟨first, rfl, hfirst, fun hno => absurd hc hno⟩
  · rw [List.splitOn_eq_singleton hc]
    exact ⟨s, rfl, hc, fun _ => rfl⟩

/-- There is always a colon to encode. -/
theorem encodeRemotePath_ne_nil (remote path : JsString) : encodeRemotePath remote path ≠ [] := by
  refine base64Encode_stripped_ne_nil fun hnil => ?_
  have hdecoded := utf8Decode_encode (remote ++ ':' :: path)
  rw [hnil] at hdecoded
  exact absurd (congrArg List.length hdecoded) (by simp [utf8Decode, utf8DecodeLoop])

/-- **What the page makes of a link**: the remote, and the path up to its first colon. -/
theorem remotePathOf_encoded {remote : JsString} (hne : remote ≠ []) (hcolon : ':' ∉ remote)
    (path : JsString) :
    ∃ first, (path.splitOn ':')[0]? = some first ∧
      remotePathOf (some (encodeRemotePath remote path)) = .ok ⟨remote, orUndefined (some first)⟩ := by
  obtain ⟨first, hfirst, -, -⟩ := head_splitOn path ':'
  refine ⟨first, hfirst, ?_⟩
  have hencoded := encodeRemotePath_ne_nil remote path
  have hdecoded : utf8Decode (base64Decode (encodeRemotePath remote path)) = remote ++ ':' :: path := by
    rw [encodeRemotePath, base64Decode_stripped, utf8Decode_encode]
  have hparts : (remote ++ ':' :: path).splitOn ':' = remote :: path.splitOn ':' :=
    List.splitOn_append_cons_self_of_not_mem hcolon path
  simp only [remotePathOf, if_neg hencoded, hdecoded, hparts, List.getElem?_cons_zero,
    List.getElem?_cons_succ, orUndefined_some hne, hfirst]

/-- **Folder links round-trip** exactly when the path has no colon: for a non-empty remote without one, the
    page shows the remote and the path the link is for, the path being `undefined` when it is empty. -/
theorem folder_link_round_trip_iff (l : FolderLink) (hne : l.target.1 ≠ []) (hcolon : ':' ∉ l.target.1) :
    remotePathOf (some l.encoded) = .ok ⟨l.target.1, orUndefined (some l.target.2)⟩ ↔
      ':' ∉ l.target.2 := by
  obtain ⟨first, hfirst, hpage⟩ := remotePathOf_encoded hne hcolon l.target.2
  obtain ⟨first', hfirst', hno, hwhole⟩ := head_splitOn l.target.2 ':'
  obtain rfl : first = first' := by
    rw [hfirst] at hfirst'
    exact Option.some_inj.mp hfirst'
  rw [l.encoded_eq, hpage]
  constructor
  · intro hsame hin
    have hpath : orUndefined (some first) = orUndefined (some l.target.2) := by
      injection hsame with hsame
      exact (RemotePath.mk.inj hsame).2
    rw [orUndefined_some (List.ne_nil_of_mem hin)] at hpath
    -- the path that comes back has no colon
    cases first with
    | nil => cases hpath
    | cons c rest =>
        have hsame : c :: rest = l.target.2 := Option.some_inj.mp hpath
        exact hno (hsame ▸ hin)
  · intro hout
    rw [hwhole hout]

/-- A remote and a path without colons. -/
theorem folder_link_round_trip_plain :
    remotePathOf (some (FolderLink.table (js "my-remote") (js "some/dir")).encoded)
      = .ok ⟨js "my-remote", some (js "some/dir")⟩ :=
  (folder_link_round_trip_iff (.table (js "my-remote") (js "some/dir")) (by decide) (by decide)).mpr
    (by decide)

/-- **A colon in a folder's name** sends the link to another folder. -/
theorem folder_link_drops_colon :
    remotePathOf (some (FolderLink.table (js "r") (js "photos/2024: Rome")).encoded)
      = .ok ⟨js "r", some (js "photos/2024")⟩ := by
  decide +kernel

end RCloneCloud
