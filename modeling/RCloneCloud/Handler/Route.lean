import RCloneCloud.Handler.Escape
import RCloneCloud.Lib.Percent

/-!
# `Handler.Route` — from the path of a request to the handler

The server decodes the path, the mux redirects a path that is not clean to the clean one and picks the route
by what is then the escaped path, and `StripPrefix` takes the route off. The requests are authenticated; the
route of the other handlers and of none is `notFound`.

The path that the handler finally sees is not the decoded path of the URL: the mux works on the escaped path,
redirects where `path.Clean` changes it, and `StripPrefix` needs both forms to begin with the route. `apiGet_of_clean`
names the conditions under which a request arrives, and `down_of_cleanPath` with `cleanPath_of_down` what the clean
paths are: those whose components all go down, with or without a slash at the end. `handleGet_eq_serveRemote` says
what a GET then serves.
-/

set_option autoImplicit false

namespace RCloneCloud

open Lib

/-! ## The standard library -/

/-- The ASCII letters and digits. -/
def isAlphanumeric (c : UInt8) : Bool :=
  ascii 'a' ≤ c && c ≤ ascii 'z' || ascii 'A' ≤ c && c ≤ ascii 'Z' || ascii '0' ≤ c && c ≤ ascii '9'

/-- `url.shouldEscape` in a path. -/
def shouldEscape (c : UInt8) : Bool := !(isAlphanumeric c || (str "-_.~$&+,/:;=@").contains c)

/-- `url.validEncoded` in a path. -/
def validEncoded (raw : GoString) : Bool :=
  raw.all fun c => (str "!$&'()*+,;=:@[]%").contains c || !shouldEscape c

/-- `URL.EscapedPath`, for a path as it was received and decoded. -/
def escapedPath (raw path : GoString) : GoString :=
  if validEncoded raw then raw else percentEncode shouldEscape path

/-- `http.cleanPath`; `path.Clean` of a rooted path drops what moves up from the root. -/
def cleanPath (p : GoString) : GoString :=
  let segments := resolve move [] (splitSlash p)
  let np := if segments = [] then [ascii '/'] else rooted (ascii '/') segments
  if p.getLast? = some (ascii '/') ∧ np ≠ [ascii '/'] then np ++ [ascii '/'] else np

/-! ## The route -/

/-- What `RegisterRoutes` strips. -/
def rclonePrefix : GoString := str "/api/v1/rclone"

/-- What `RegisterRoutes` handles. -/
def rclonePattern : GoString := rclonePrefix ++ [ascii '/']

/-- What becomes of a request on its way: malformed, redirected, without a route, or handled. -/
inductive ApiReply where
  | badRequest
  | redirect (path : GoString)
  | notFound
  | handled (reply : Reply)

/-- A GET as the handler receives it. -/
def getRequest (urlPath : GoString) : Request where
  method := str "GET"
  urlPath := urlPath
  contentType := []
  mediaType := .error (.external (str "mime: no media type"))
  query := ∅
  form := .ok ∅
  body := .failed (.external (str "EOF"))

/-- The API's answer to a GET of a path. -/
def apiGet (env : RcEnv) (raw : GoString) : ApiReply :=
  match percentDecode raw with
  | none => .badRequest
  | some path =>
    let escaped := escapedPath raw path
    if cleanPath escaped ≠ escaped then .redirect (cleanPath escaped)
    else if rclonePattern.isPrefixOf escaped && rclonePrefix.isPrefixOf raw then
      .handled (serveHTTP env (getRequest (path.drop rclonePrefix.length)))
    else .notFound

/-! ## Clean paths -/

section
variable {env : RcEnv} {raw p rest : GoString} {segments : List GoString} {set : UInt8 → Bool}

/-- A component goes down when it is a name. -/
theorem move_down {component : GoString} :
    move component = .down ↔ component ≠ [] ∧ component ≠ str "." ∧ component ≠ str ".." := by
  unfold move
  split
  · next hup => simp [hup]
  · next hup =>
      split
      · next hstay =>
          constructor
          · intro h
            cases h
          · rintro ⟨hne, hdot, -⟩
            exact (hstay.elim hne hdot).elim
      · next hstay =>
          obtain ⟨hne, hdot⟩ := not_or.mp hstay
          exact ⟨fun _ => ⟨hne, hdot, hup⟩, fun _ => rfl⟩

/-- Names without slashes come back as the components behind the root. -/
theorem splitSlash_rooted (hslash : ∀ segment ∈ segments, ascii '/' ∉ segment) :
    splitSlash (rooted (ascii '/') segments) = [] :: segments :=
  splitOn_rooted hslash

/-- A path of components that all move down is clean. -/
theorem cleanPath_of_down (hne : segments ≠ []) (hslash : ∀ segment ∈ segments, ascii '/' ∉ segment)
    (hdown : ∀ segment ∈ segments, move segment = .down) :
    cleanPath (rooted (ascii '/') segments) = rooted (ascii '/') segments := by
  have hresolve : resolve move [] (splitSlash (rooted (ascii '/') segments)) = segments := by
    rw [splitSlash_rooted hslash]
    show resolve move [] segments = segments
    rw [resolve_of_down hdown, List.nil_append]
  -- the last component is not empty, so the path does not end with a slash
  have hend : (rooted (ascii '/') segments).getLast? ≠ some (ascii '/') := by
    obtain ⟨before, last, rfl⟩ := List.eq_nil_or_concat segments |>.resolve_left hne
    have hlast : last ∈ before.concat last := by simp
    have hsome : last ≠ [] := (move_down.mp (hdown last hlast)).1
    rw [List.concat_eq_append, rooted, List.flatMap_append, List.flatMap_singleton,
      List.getLast?_append_of_ne_nil _ (List.cons_ne_nil _ _), List.getLast?_cons_of_ne_nil hsome]
    intro he
    exact hslash last hlast (List.mem_of_getLast? he)
  simp only [cleanPath, hresolve, if_neg hne, hend, false_and, if_false]

/-- **The components of a clean path** move down, but for an empty one at the end. -/
theorem down_of_cleanPath (h : cleanPath p = p) :
    ∃ segments : List GoString, (∀ segment ∈ segments, move segment = .down) ∧
      (splitSlash p = [] :: segments ∨ splitSlash p = [] :: (segments ++ [[]])) := by
  have hmem : ∀ segment ∈ resolve move [] (splitSlash p), segment ∈ splitSlash p ∧ move segment = .down := by
    intro segment hin
    exact (mem_resolve hin).resolve_left List.not_mem_nil
  have hslash : ∀ segment ∈ resolve move [] (splitSlash p), ascii '/' ∉ segment :=
    fun segment hin => not_mem_of_mem_splitOn (hmem segment hin).1
  refine ⟨resolve move [] (splitSlash p), fun segment hin => (hmem segment hin).2, ?_⟩
  rw [cleanPath] at h
  generalize resolve move [] (splitSlash p) = segments at h hslash
  cases segments with
  -- nothing is left but the root
  | nil =>
      have hroot : p = [ascii '/'] := by simpa using h.symm
      exact .inr (hroot ▸ rfl)
  | cons first others =>
      rw [if_neg (List.cons_ne_nil first others)] at h
      split at h
      -- the cleaning keeps a slash at the end, which reads as an empty last segment
      · have htrailing : p = rooted (ascii '/') ((first :: others) ++ [[]]) := by
          rw [← h, rooted, rooted, List.flatMap_append]
          rfl
        refine .inr ?_
        rw [htrailing]
        refine splitSlash_rooted fun segment hin => ?_
        rcases List.mem_append.mp hin with hin | hin
        · exact hslash segment hin
        · rw [List.mem_singleton.mp hin]
          exact List.not_mem_nil
      · exact .inl (by rw [← h]; exact splitSlash_rooted hslash)

/-! ## What a handled request is -/

/-- The escaped path decodes to the path, whether the raw one was kept or a new one made. -/
theorem percentDecode_escapedPath {path : GoString} (h : percentDecode raw = some path) :
    percentDecode (escapedPath raw path) = some path := by
  have hsign : shouldEscape percentSign = true := by decide
  unfold escapedPath
  split
  · exact h
  · exact percentDecode_encode fun _ => hsign

/-- The route has nothing to decode. -/
theorem percentDecode_pattern (rest : GoString) :
    percentDecode (rclonePattern ++ rest) = (percentDecode rest).map (rclonePattern ++ ·) := by
  have hplain : percentSign ∉ rclonePattern := by decide
  exact percentDecode_append hplain rest

/-- A GET is handled with its leading slashes taken off. -/
theorem serveHTTP_get (env : RcEnv) (urlPath : GoString) :
    serveHTTP env (getRequest urlPath) = handleGet env (urlPath.dropWhile fun c => c = ascii '/') := by
  have hpost : str "GET" ≠ str "POST" := by decide
  unfold serveHTTP getRequest
  dsimp only
  rw [if_neg hpost, if_pos (.inl rfl)]

/-- The slash that is left of the route is trimmed. -/
theorem dropWhile_pattern (rest : GoString) :
    ((rclonePattern ++ rest).drop rclonePrefix.length).dropWhile (fun c => c = ascii '/') =
      rest.dropWhile fun c => c = ascii '/' := by
  rw [rclonePattern, List.append_assoc, List.drop_left, List.singleton_append, List.dropWhile_cons_of_pos]
  exact decide_eq_true rfl

/-- **A handled request** has a clean path under the route; the handler sees what follows the slashes. -/
theorem apiGet_handled {reply : Reply} (h : apiGet env raw = .handled reply) :
    ∃ rest, percentDecode raw = some (rclonePattern ++ rest) ∧
      cleanPath (escapedPath raw (rclonePattern ++ rest)) = escapedPath raw (rclonePattern ++ rest) ∧
      handleGet env (rest.dropWhile fun c => c = ascii '/') = reply := by
  unfold apiGet at h
  split at h
  · cases h
  · next path hdecode =>
      dsimp only at h
      split at h
      · cases h
      · next hclean =>
          split at h
          · next hroute =>
              obtain ⟨tail, htail⟩ := List.isPrefixOf_iff_prefix.mp (Bool.and_eq_true_iff.mp hroute).1
              have hescaped := percentDecode_escapedPath hdecode
              rw [← htail, percentDecode_pattern] at hescaped
              obtain ⟨rest, -, rfl⟩ := Option.map_eq_some_iff.mp hescaped
              rw [ApiReply.handled.injEq, serveHTTP_get, dropWhile_pattern] at h
              exact ⟨rest, hdecode, not_not.mp hclean, h⟩
          · cases h

/-- A request under the route whose path is clean is handled with what stands behind the route. -/
theorem apiGet_of_clean (hdecode : percentDecode raw = some (rclonePattern ++ rest))
    (hclean : cleanPath (escapedPath raw (rclonePattern ++ rest)) = escapedPath raw (rclonePattern ++ rest))
    (hraw : rclonePattern <+: raw) :
    apiGet env raw = .handled (handleGet env (rest.dropWhile fun c => c = ascii '/')) := by
  have hkept : percentEncode shouldEscape rclonePattern = rclonePattern := by decide
  have hescaped : rclonePattern.isPrefixOf (escapedPath raw (rclonePattern ++ rest)) = true := by
    rw [List.isPrefixOf_iff_prefix]
    unfold escapedPath
    split
    · exact hraw
    · rw [percentEncode_append, hkept]
      exact List.prefix_append _ _
  have hstrip : rclonePrefix.isPrefixOf raw = true :=
    List.isPrefixOf_iff_prefix.mpr ((List.prefix_append rclonePrefix _).trans hraw)
  unfold apiGet
  rw [hdecode]
  dsimp only
  rw [if_neg (not_not.mpr hclean), hescaped, hstrip, Bool.and_self, if_pos rfl, serveHTTP_get, dropWhile_pattern]

/-! ## What a GET serves -/

/-- The first place of a byte is after a text without it. -/
theorem index_append {s t : GoString} {c : UInt8} (h : c ∉ s) : index (s ++ c :: t) c = some s.length := by
  refine List.idxOf?_eq_some_iff.mpr ⟨by simp, ?_, ?_⟩
  · rw [List.getElem_append_right (Nat.le_refl _)]
    simp
  · intro j hj
    rw [List.getElem_append_left hj]
    rintro rfl
    exact h (List.getElem_mem hj)

/-- The match cuts at the first closing bracket, and has no line break in it. -/
theorem fsMatch_eq_some {path fsName remotePath : GoString} :
    fsMatch path = some (fsName, remotePath) ↔
      path = ascii '[' :: (fsName ++ ascii ']' :: remotePath) ∧ ascii ']' ∉ fsName ∧ ascii '\n' ∉ path := by
  constructor
  · intro h
    unfold fsMatch at h
    split at h
    · cases h
    · next c s =>
        split at h
        · next hhead =>
            split at h
            · cases h
            · next i hi =>
                obtain ⟨hsplit, hfirst⟩ := index_some hi
                cases h
                refine ⟨?_, hfirst, ?_⟩
                · rw [hhead.1, ← hsplit]
                · rw [hhead.1, List.mem_cons, not_or]
                  exact ⟨by decide, hhead.2⟩
        · cases h
  -- the first closing bracket is the one behind the name
  · rintro ⟨rfl, hbracket, hnewline⟩
    rw [List.mem_cons, not_or] at hnewline
    have hrest : (fsName ++ ascii ']' :: remotePath).drop (fsName.length + 1) = remotePath := by
      rw [← List.drop_drop, List.drop_left]
      rfl
    rw [fsMatch, if_pos ⟨rfl, hnewline.2⟩, index_append hbracket]
    dsimp only
    rw [List.take_left, hrest]

/-- The check accepts exactly the values that name a configured remote. -/
theorem validateFsParam_eq_ok {sections : List GoString} {value : GoString} :
    validateFsParam sections value = .ok () ↔ NamesRemote sections value := by
  refine ⟨validateFsParam_ok, ?_⟩
  rintro ⟨name, rest, rfl, hcolon, hne, hmem⟩
  rw [validateFsParam, index_append hcolon]
  dsimp only
  rw [List.take_left, if_neg hne, if_pos hmem]

/-- **What a GET is served with**: the two parts of its path, each validated. -/
theorem handleGet_eq_serveRemote {path fsName remotePath : GoString} :
    handleGet env path = .serveRemote remotePath fsName ↔
      fsMatch path = some (fsName, remotePath) ∧ NamesRemote env.sections fsName ∧
        str ".." ∉ splitSlash remotePath := by
  constructor
  · intro h
    obtain ⟨hmatch, hfs, hremote⟩ := handleGet_serves h
    exact ⟨hmatch, validateFsParam_ok hfs, validateRemoteParam_ok hremote⟩
  · rintro ⟨hmatch, hfs, hremote⟩
    have hvalid : validateRemoteParam remotePath = .ok () := if_neg hremote
    rw [handleGet, hmatch]
    dsimp only
    rw [validateFsParam_eq_ok.mpr hfs]
    dsimp only
    rw [hvalid]

end

end RCloneCloud
