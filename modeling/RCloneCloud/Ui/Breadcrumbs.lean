import RCloneCloud.Ui.LoginRedirect
import RCloneCloud.Lib.Components

/-!
# `Ui.Breadcrumbs` — the links above a folder, and the links that are strings

The breadcrumbs are pushed by a loop that carries the path walked so far; the remote has no link at the root,
and the last folder never has one. The links of the breadcrumbs and of the remotes' cards are strings, with the
base64 text in them as it is; the router splits such a string at its slashes, and a slash is a digit of base64.

`prevPathOf` is the path that the loop carries, and `pushPastFolder_foldl` the induction over the folders already
behind. `breadcrumbItems_spec` gives the whole list for any path, and `breadcrumbItems_walk` reads it as a walk: each
link leads to the folder that its text names. For the links that are strings everything hangs on six bits:
`linkDigits` are the digits of the base64 text, and a slash is the digit 63 (`stringLinks_match_iff`).
-/

set_option autoImplicit false

namespace RCloneCloud

open Lib

/-! ## The breadcrumbs -/

/-- A text and the link behind it, if it has one. -/
structure BreadcrumbItem where
  id : JsString
  text : JsString
  routerLink : Option JsString
deriving DecidableEq

/-- `/folders/${encoded}`. -/
def foldersUrl (encoded : JsString) : JsString := js "/folders/" ++ encoded

/-- `prevPath ? `${prevPath}/${folder}` : folder`. -/
def curLinkOf (prevPath : Option JsString) (folder : JsString) : JsString :=
  match orUndefined prevPath with
  | some prevPath => prevPath ++ '/' :: folder
  | none => folder

/-- One round of the loop: the breadcrumbs and `prevPath`. -/
def pushPastFolder (remote : JsString) (state : List BreadcrumbItem × Option JsString) (folder : JsString) :
    List BreadcrumbItem × Option JsString :=
  let curLink := curLinkOf state.2 folder
  (state.1 ++ [⟨remote ++ ':' :: curLink, folder, some (foldersUrl (breadcrumbLink remote curLink))⟩], some curLink)

/-- `path?.split('/') ?? []`. -/
def pathFolders (path : Option JsString) : List JsString :=
  match path with
  | some path => path.splitOn '/'
  | none => []

/-- The home, the remote, and one item for each folder of the path. -/
def breadcrumbItems (remotePath : RemotePath) : List BreadcrumbItem :=
  let folders := pathFolders remotePath.path
  let breadcrumbs : List BreadcrumbItem :=
    [⟨js "home", js "Home", some (js "/remotes")⟩,
      ⟨remotePath.remote, remotePath.remote,
        if 0 < folders.length then some (foldersUrl (breadcrumbRemoteLink remotePath.remote)) else none⟩]
  let pastFolderNames := folders.dropLast
  let (breadcrumbs, prevPath) := pastFolderNames.foldl (pushPastFolder remotePath.remote) (breadcrumbs, none)
  match orUndefined folders.getLast? with
  | some curFolderName =>
      -- without a folder above, the id has the text of `null` in it
      breadcrumbs ++ [⟨remotePath.remote ++ ':' :: (prevPath.getD (js "null") ++ '/' :: curFolderName),
        curFolderName, none⟩]
  | none => breadcrumbs

/-- The link of `RemoteCardComponent`. -/
def remoteCardFoldersLink (remote : JsString) : JsString := foldersUrl (remoteCardLink remote)

/-! ## The loop -/

/-- The path to the last of some folders; names that are empty do not start it. -/
def linkPath (folders : List JsString) : JsString := ['/'].intercalate (folders.dropWhile fun folder => folder.isEmpty)

/-- `prevPath` after the folders. -/
def prevPathOf (folders : List JsString) : Option JsString :=
  if folders = [] then none else some (linkPath folders)

/-- **The walk**: the next link continues the path. -/
theorem curLinkOf_prevPath (folders : List JsString) (folder : JsString) :
    curLinkOf (prevPathOf folders) folder = linkPath (folders ++ [folder]) := by
  rw [linkPath, List.dropWhile_append]
  cases hstart : folders.dropWhile fun folder => folder.isEmpty with
  | nil =>
      -- nothing but empty names so far: `prevPath` is falsy
      have hfalsy : orUndefined (prevPathOf folders) = none := by
        unfold prevPathOf
        split
        · rfl
        · rw [linkPath, hstart, List.intercalate_nil]
          rfl
      rw [curLinkOf, hfalsy]
      show folder = ['/'].intercalate ([folder].dropWhile fun folder => folder.isEmpty)
      cases folder with
      | nil => rfl
      | cons c rest => exact List.intercalate_singleton.symm
  | cons name names =>
      have hname : name ≠ [] := by
        have hkept := List.head_dropWhile_not (fun folder : JsString => folder.isEmpty) (l := folders) (by simp [hstart])
        simpa [hstart] using hkept
      have hfolders : folders ≠ [] := by
        rintro rfl
        cases hstart
      have hprev : orUndefined (prevPathOf folders) = some (linkPath folders) := by
        rw [prevPathOf, if_neg hfolders]
        refine orUndefined_some ?_
        rw [linkPath, hstart]
        exact intercalate_ne_nil '/' hname names
      rw [curLinkOf, hprev]
      show linkPath folders ++ '/' :: folder = ['/'].intercalate (name :: names ++ [folder])
      rw [intercalate_snoc '/' (List.cons_ne_nil name names), linkPath, hstart]

/-- One round, from the path to the folders before. -/
theorem pushPastFolder_prevPath (remote : JsString) (items : List BreadcrumbItem) (folders : List JsString)
    (folder : JsString) :
    pushPastFolder remote (items, prevPathOf folders) folder =
      (items ++ [⟨remote ++ ':' :: linkPath (folders ++ [folder]), folder,
        some (foldersUrl (encodeRemotePath remote (linkPath (folders ++ [folder]))))⟩],
        prevPathOf (folders ++ [folder])) := by
  have hprev : prevPathOf (folders ++ [folder]) = some (linkPath (folders ++ [folder])) := if_neg (by simp)
  unfold pushPastFolder
  dsimp only
  rw [curLinkOf_prevPath, hprev]
  rfl

/-- What the loop has pushed after some folders, and the path it carries. -/
theorem pushPastFolder_foldl (remote : JsString) (items : List BreadcrumbItem) (folders : List JsString) :
    ∃ breadcrumbs,
      folders.foldl (pushPastFolder remote) (items, none) = (breadcrumbs, prevPathOf folders) ∧
      breadcrumbs.map (·.text) = items.map (·.text) ++ folders ∧
      breadcrumbs.map (·.routerLink) = items.map (·.routerLink) ++ (List.range folders.length).map fun i =>
        some (foldersUrl (encodeRemotePath remote (linkPath (folders.take (i + 1))))) := by
  induction folders using List.reverseRecOn with
  | nil => exact ⟨items, rfl, by simp, by simp⟩
  | append_singleton folders folder ih =>
      obtain ⟨breadcrumbs, hfold, htexts, hlinks⟩ := ih
      have hnext : (folders ++ [folder]).foldl (pushPastFolder remote) (items, none)
          = pushPastFolder remote (breadcrumbs, prevPathOf folders) folder := by
        rw [List.foldl_append, hfold]
        rfl
      refine ⟨_, hnext.trans (pushPastFolder_prevPath remote breadcrumbs folders folder), ?_, ?_⟩
      · rw [List.map_append, htexts, List.append_assoc]
        rfl
      · -- the earlier links lie within the earlier folders
        have hearlier : ((List.range folders.length).map fun i =>
              some (foldersUrl (encodeRemotePath remote (linkPath ((folders ++ [folder]).take (i + 1))))))
            = (List.range folders.length).map fun i =>
              some (foldersUrl (encodeRemotePath remote (linkPath (folders.take (i + 1))))) := by
          refine List.map_congr_left fun i hi => ?_
          rw [List.take_append_of_le_length (List.mem_range.mp hi)]
        have hlast : (folders ++ [folder]).take (folders.length + 1) = folders ++ [folder] :=
          List.take_of_length_le (by simp)
        rw [List.map_append, hlinks, List.length_append, List.length_singleton, List.range_succ, List.map_append,
          hearlier, List.map_singleton, List.map_singleton, hlast, List.append_assoc]

/-! ## The breadcrumbs of a path -/

/-- What the breadcrumbs of any path are. -/
theorem breadcrumbItems_spec (remotePath : RemotePath) :
    (breadcrumbItems remotePath).map (·.text) =
        js "Home" :: remotePath.remote :: ((pathFolders remotePath.path).dropLast ++
          (orUndefined (pathFolders remotePath.path).getLast?).toList) ∧
      (breadcrumbItems remotePath).map (·.routerLink) =
        some (js "/remotes") ::
          (if 0 < (pathFolders remotePath.path).length then some (foldersUrl (encodeRemotePath remotePath.remote []))
            else none) ::
          ((List.range ((pathFolders remotePath.path).length - 1)).map (fun i =>
            some (foldersUrl (encodeRemotePath remotePath.remote
              (linkPath ((pathFolders remotePath.path).dropLast.take (i + 1)))))) ++
          (orUndefined (pathFolders remotePath.path).getLast?).toList.map fun _ => none) := by
  obtain ⟨breadcrumbs, hfold, htexts, hlinks⟩ := pushPastFolder_foldl remotePath.remote
    [⟨js "home", js "Home", some (js "/remotes")⟩,
      ⟨remotePath.remote, remotePath.remote,
        if 0 < (pathFolders remotePath.path).length then some (foldersUrl (breadcrumbRemoteLink remotePath.remote))
        else none⟩] (pathFolders remotePath.path).dropLast
  -- the items after the loop: one more where the last folder has a name
  have hitems : breadcrumbItems remotePath =
      match orUndefined (pathFolders remotePath.path).getLast? with
      | some curFolderName => breadcrumbs ++ [⟨remotePath.remote ++
          ':' :: ((prevPathOf (pathFolders remotePath.path).dropLast).getD (js "null") ++ '/' :: curFolderName),
          curFolderName, none⟩]
      | none => breadcrumbs := by
    unfold breadcrumbItems
    dsimp only
    rw [hfold]
  rw [List.length_dropLast] at hlinks
  rw [hitems]
  cases orUndefined (pathFolders remotePath.path).getLast? with
  | none =>
      show breadcrumbs.map _ = _ ∧ breadcrumbs.map _ = _
      rw [htexts, hlinks, Option.toList_none, List.map_nil, List.append_nil, List.append_nil]
      exact ⟨rfl, rfl⟩
  | some curFolderName =>
      show (breadcrumbs ++ [_]).map _ = _ ∧ (breadcrumbs ++ [_]).map _ = _
      rw [List.map_append, List.map_append, htexts, hlinks, Option.toList_some, List.append_assoc, List.append_assoc]
      exact ⟨rfl, rfl⟩

/-- The path made of folders; none is the root. -/
def joinedPath (folders : List JsString) : Option JsString :=
  if folders = [] then none else some (['/'].intercalate folders)

/-- Folders without slashes come back from the path they are joined to. -/
theorem pathFolders_joinedPath {folders : List JsString} (h : ∀ folder ∈ folders, '/' ∉ folder) :
    pathFolders (joinedPath folders) = folders := by
  unfold joinedPath
  split
  · next hnil => exact hnil.symm
  · next hne => exact List.splitOn_intercalate '/' h hne

/-- Folders whose names are not empty are all walked. -/
theorem linkPath_eq {folders : List JsString} (h : ∀ folder ∈ folders, folder ≠ []) :
    linkPath folders = ['/'].intercalate folders := by
  rw [linkPath]
  cases folders with
  | nil => rfl
  | cons folder rest =>
      rw [List.dropWhile_cons_of_neg (by simpa using h folder List.mem_cons_self)]

/-- **The breadcrumbs walk the path.** -/
theorem breadcrumbItems_walk (remote : JsString) (folders : List JsString)
    (h : ∀ folder ∈ folders, folder ≠ [] ∧ '/' ∉ folder) :
    (breadcrumbItems ⟨remote, joinedPath folders⟩).map (·.text) = js "Home" :: remote :: folders ∧
      (breadcrumbItems ⟨remote, joinedPath folders⟩).map (·.routerLink) =
        some (js "/remotes") ::
          (if folders = [] then none else some (js "/folders/" ++ encodeRemotePath remote [])) ::
          (List.range folders.length).map fun i =>
            if i + 1 < folders.length then
              some (js "/folders/" ++ encodeRemotePath remote (['/'].intercalate (folders.take (i + 1))))
            else none := by
  obtain ⟨htexts, hlinks⟩ := breadcrumbItems_spec ⟨remote, joinedPath folders⟩
  dsimp only at htexts hlinks
  rw [pathFolders_joinedPath fun folder hfolder => (h folder hfolder).2] at htexts hlinks
  rw [htexts, hlinks]
  -- the last folder is the current one and has no link
  cases folders using List.reverseRecOn with
  | nil => exact ⟨rfl, rfl⟩
  | append_singleton folders last _ =>
      have hlast : orUndefined (folders ++ [last]).getLast? = some last := by
        rw [List.getLast?_concat]
        exact orUndefined_some (h last (by simp)).1
      have hlength : (folders ++ [last]).length - 1 = folders.length := by simp
      rw [hlast, List.dropLast_concat, hlength]
      refine ⟨rfl, ?_⟩
      rw [if_pos (by simp), if_neg (by simp)]
      congr 2
      rw [List.length_append, List.length_singleton, List.range_succ, List.map_append, List.map_singleton,
        if_neg (Nat.lt_irrefl _)]
      congr 1
      refine List.map_congr_left fun i hi => ?_
      have hi : i < folders.length := List.mem_range.mp hi
      rw [if_pos (by omega), List.take_append_of_le_length hi, linkPath_eq fun folder hfolder => ?_]
      · rfl
      · exact (h folder (List.mem_append_left _ (List.mem_of_mem_take hfolder))).1

/-- Three folders below a remote: every item but the last has the link of its own folder. -/
theorem breadcrumbItems_walk_abc :
    ((breadcrumbItems ⟨js "r", joinedPath [js "a", js "b", js "c"]⟩).map (·.text) =
        js "Home" :: js "r" :: [js "a", js "b", js "c"]) ∧
      (breadcrumbItems ⟨js "r", joinedPath [js "a", js "b", js "c"]⟩).map (·.routerLink) =
        [some (js "/remotes"), some (js "/folders/cjo"), some (js "/folders/cjph"), some (js "/folders/cjphL2I"),
          none] := by
  have hwalk := breadcrumbItems_walk (js "r") [js "a", js "b", js "c"] (by decide)
  exact ⟨hwalk.1, hwalk.2.trans (by decide)⟩

/-! ## Links that are strings -/

/-- The values of the digits that the base64 text of `remote:path` is made of. -/
def linkDigits (remote path : JsString) : List ℕ := base64Values (utf8Encode (remote ++ ':' :: path))

/-- The digit of 63 is the slash. -/
theorem slash_mem_encodeRemotePath (remote path : JsString) :
    '/' ∈ encodeRemotePath remote path ↔ 63 ∈ linkDigits remote path := by
  rw [encodeRemotePath_eq, List.mem_map]
  constructor
  · rintro ⟨n, hn, hslash⟩
    have hdigit : ∀ n < 64, base64Digit n = '/' → n = 63 := by decide
    rwa [hdigit n (base64Values_lt _ n hn) hslash] at hn
  · intro h63
    exact ⟨63, h63, rfl⟩

/-- **A string link matches `folders/:remotePath`**: between its slashes stand `folders` and one encoded segment,
    and the page is handed all of that. -/
def MatchesFolderRoute (R : Router) (link : JsString) : Prop :=
  ∃ encoded, link = foldersUrl encoded ∧ link.splitOn '/' = [[], js "folders", encoded] ∧
    R.remotePathParam (R.pathname [link]) = some encoded

/-- The url of a folder has two segments, the second its encoded address. -/
theorem foldersUrl_eq_rooted (encoded : JsString) : foldersUrl encoded = rooted '/' [js "folders", encoded] := by
  simp [foldersUrl, rooted, js]

/-- One link: it matches as long as no digit of it is a slash. -/
theorem matchesFolderRoute_iff (R : Router) (remote path : JsString) :
    MatchesFolderRoute R (foldersUrl (encodeRemotePath remote path)) ↔ 63 ∉ linkDigits remote path := by
  rw [← slash_mem_encodeRemotePath]
  constructor
  · rintro ⟨encoded, hlink, hsplit, -⟩
    have hsame : encodeRemotePath remote path = encoded := List.append_cancel_left hlink
    rw [hsame]
    exact not_mem_of_mem_splitOn (s := foldersUrl (encodeRemotePath remote path)) (by simp [hsplit])
  · intro hslash
    have hne := encodeRemotePath_ne_nil remote path
    have hdot : '.' ∉ encodeRemotePath remote path := by
      rw [encodeRemotePath_eq]
      intro hdot
      obtain ⟨n, hn, hdigit⟩ := List.mem_map.mp hdot
      have hno : ∀ n < 64, base64Digit n ≠ '.' := by decide
      exact hno n (base64Values_lt _ n hn) hdigit
    refine ⟨encodeRemotePath remote path, rfl, ?_, ?_⟩
    · rw [foldersUrl_eq_rooted]
      refine splitOn_rooted fun segment hsegment => ?_
      rcases List.mem_cons.mp hsegment with rfl | hsegment
      · decide
      · rwa [List.mem_singleton.mp hsegment]
    · rw [foldersUrl_eq_rooted, R.pathname_folder hne hslash hdot, R.remotePathParam_folder]

/-- The paths that the breadcrumbs link to: that of the remote, and those of the folders above the last one. -/
def linkedPaths (path : Option JsString) : List JsString :=
  if pathFolders path = [] then []
  else [] :: (List.range ((pathFolders path).length - 1)).map fun i => linkPath ((pathFolders path).take (i + 1))

/-- The links that the breadcrumbs build, after that of the home. -/
theorem breadcrumbItems_links (remotePath : RemotePath) :
    (breadcrumbItems remotePath).tail.filterMap (·.routerLink) =
      (linkedPaths remotePath.path).map fun path => foldersUrl (encodeRemotePath remotePath.remote path) := by
  have hlinks := (breadcrumbItems_spec remotePath).2
  have htail : (breadcrumbItems remotePath).tail.filterMap (·.routerLink)
      = ((breadcrumbItems remotePath).map (·.routerLink)).tail.filterMap id := by
    rw [← List.map_tail, List.filterMap_map]
    rfl
  -- the current folder has no link
  have hunlinked : ((orUndefined (pathFolders remotePath.path).getLast?).toList.map
      fun _ => (none : Option JsString)).filterMap id = [] := by
    cases orUndefined (pathFolders remotePath.path).getLast? with
    | none => rfl
    | some last => rfl
  rw [htail, hlinks, List.tail_cons, linkedPaths]
  by_cases hnil : pathFolders remotePath.path = []
  · rw [hnil]
    rfl
  · have hpast : ∀ i ∈ List.range ((pathFolders remotePath.path).length - 1),
        (pathFolders remotePath.path).dropLast.take (i + 1) = (pathFolders remotePath.path).take (i + 1) := by
      intro i hi
      have hlt := List.mem_range.mp hi
      rw [List.dropLast_eq_take, List.take_take, Nat.min_eq_left (by omega)]
    rw [if_pos (List.length_pos_of_ne_nil hnil), if_neg hnil, List.map_cons, List.map_map]
    show foldersUrl _ :: List.filterMap id (_ ++ _) = _
    rw [List.filterMap_append, hunlinked, List.append_nil, List.filterMap_map]
    congr 1
    rw [← List.filterMap_eq_map]
    refine List.filterMap_congr fun i hi => ?_
    simp only [Function.comp_apply, id_eq, hpast i hi]

/-- **String links match the folder route** exactly if no six bits of the bytes of `remote:path` are all ones. -/
theorem stringLinks_match_iff (R : Router) :
    (∀ remote, MatchesFolderRoute R (remoteCardFoldersLink remote) ↔ 63 ∉ linkDigits remote []) ∧
    ∀ remotePath : RemotePath,
      (∀ item ∈ (breadcrumbItems remotePath).tail, ∀ link, item.routerLink = some link → MatchesFolderRoute R link) ↔
        ∀ path ∈ linkedPaths remotePath.path, 63 ∉ linkDigits remotePath.remote path := by
  refine ⟨fun remote => matchesFolderRoute_iff R remote [], fun remotePath => ?_⟩
  have hlinks : (∀ item ∈ (breadcrumbItems remotePath).tail, ∀ link, item.routerLink = some link →
        MatchesFolderRoute R link) ↔
      ∀ link ∈ (breadcrumbItems remotePath).tail.filterMap (·.routerLink), MatchesFolderRoute R link := by
    simp only [List.mem_filterMap]
    constructor
    · rintro h link ⟨item, hitem, hlink⟩
      exact h item hitem link hlink
    · intro h item hitem link hlink
      exact h link ⟨item, hitem, hlink⟩
  rw [hlinks, breadcrumbItems_links, List.forall_mem_map]
  exact forall₂_congr fun path _ => matchesFolderRoute_iff R remotePath.remote path

/-- **A question mark is enough**: the breadcrumb of the folder `photos?` ends in a slash, which the router drops,
    and the page that opens shows the folder `photos`. -/
theorem stringLinks_mismatch :
    (∃ item ∈ (breadcrumbItems ⟨js "r", some (js "photos?/2024")⟩).tail,
      item.routerLink = some (js "/folders/cjpwaG90b3M/")) ∧
    ¬ MatchesFolderRoute angularRouter (js "/folders/cjpwaG90b3M/") ∧
    encodeRemotePath (js "r") (js "photos?") = js "cjpwaG90b3M/" ∧
    angularRouter.remotePathParam (angularRouter.pathname [js "/folders/cjpwaG90b3M/"]) = some (js "cjpwaG90b3M") ∧
    remotePathOf (some (js "cjpwaG90b3M")) = .ok ⟨js "r", some (js "photos")⟩ := by
  have hencoded : encodeRemotePath (js "r") (js "photos?") = js "cjpwaG90b3M/" := by decide
  have hlink : js "/folders/cjpwaG90b3M/" = foldersUrl (encodeRemotePath (js "r") (js "photos?")) := by
    rw [hencoded]
    rfl
  refine ⟨by decide, ?_, hencoded, by decide +kernel, by decide +kernel⟩
  rw [hlink, matchesFolderRoute_iff]
  decide

end RCloneCloud
