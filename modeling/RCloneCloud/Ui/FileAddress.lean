import RCloneCloud.Ui.HttpCache
import RCloneCloud.Ui.RequestUrl
import RCloneCloud.Handler.Route

/-!
# `Ui.FileAddress` — from the UI's file to the handler's

`fetchFileContent` writes the remote and the path into a url as they are. The handler serves that file exactly
when they have nothing that the url's syntax, the mux or the fs value takes for itself: `file_address_iff`.

`Addressable` lists what the address must be: without the characters that a url takes for itself (`urlSyntax`),
without white space at its end, made of components that no cleaning changes, and of a remote that is configured up to
its first colon. In one direction each condition is used where the request passes (`Addressable.parsePath_eq`,
`Addressable.served`). In the other, a file that is served has come through all of these places
(`Addressable.of_served`), so whatever would have broken it is not there.
-/

set_option autoImplicit false

namespace RCloneCloud

open Lib

/-- What the url says after the route. -/
def fileAddress (remote path : JsString) : JsString := '[' :: (remote ++ ':' :: ']' :: path)

/-- The API's answer to the request of `fetchFileContent`; the endpoint is an origin. -/
def fetchFileContent (env : RcEnv) (webApiEndpoint remote : JsString) (dirPath : Option JsString)
    (fileName : JsString) : ApiReply :=
  apiGet env (requestPath ((fetchFileContentUrl webApiEndpoint remote dirPath fileName).drop webApiEndpoint.length))

/-- What stands for something else in the text of a url: it ends the path, is decoded, counts as a slash or is
    dropped. -/
def urlSyntax : JsString := js "#?%\\\t\n\r"

/-- The path consists of components that name something. -/
def Components (path : JsString) : Prop :=
  ∀ segment ∈ path.splitOn '/', segment ≠ [] ∧ segment ≠ js "." ∧ segment ≠ js ".."

/-- An address that reaches the handler as it is. -/
structure Addressable (sections : List GoString) (remote path : JsString) : Prop where
  plain : (fileAddress remote path).Disjoint urlSyntax
  /-- nothing is dropped at the end -/
  ending : ∀ c ∈ path.getLast?, ' ' < c
  /-- nothing is cleaned, in a remote with slashes either -/
  components : Components (fileAddress remote path)
  /-- the fs value is understood up to its first colon -/
  configured : remote.takeWhile (fun c => c ≠ ':') ≠ [] ∧
    utf8Encode (remote.takeWhile fun c => c ≠ ':') ∈ sections

section
variable {env : RcEnv} {remote path text : JsString} {set : UInt8 → Bool}

/-! ## The url -/

/-- The url's text after the origin and its slash. -/
def addressText (remote path : JsString) : JsString := js "api/v1/rclone/" ++ fileAddress remote path

/-- The url is the endpoint and the address. -/
theorem fetchFileContentUrl_drop (webApiEndpoint remote : JsString) (dirPath : Option JsString)
    (fileName : JsString) :
    (fetchFileContentUrl webApiEndpoint remote dirPath fileName).drop webApiEndpoint.length =
      '/' :: addressText remote (filePath dirPath fileName) := by
  have hcut : js "/api/v1/rclone/[" = '/' :: (js "api/v1/rclone/" ++ ['[']) := rfl
  have hclose : js ":]" = [':', ']'] := rfl
  rw [fetchFileContentUrl, List.append_assoc, List.append_assoc, List.append_assoc, List.drop_left, hcut, hclose]
  simp only [addressText, fileAddress, List.cons_append, List.append_assoc, List.nil_append]

/-- Behind the endpoint stand the route's pattern and the file's address. -/
theorem utf8Encode_addressText (remote path : JsString) :
    utf8Encode ('/' :: addressText remote path) = rclonePattern ++ utf8Encode (fileAddress remote path) := by
  have hpattern : utf8Encode (js "/api/v1/rclone/") = rclonePattern := by decide
  rw [← hpattern, ← utf8Encode_append]
  rfl

/-- The address is the remote with its colon in brackets, and the path. -/
theorem utf8Encode_fileAddress (remote path : JsString) :
    utf8Encode (fileAddress remote path) =
      ascii '[' :: (utf8Encode (remote ++ [':']) ++ ascii ']' :: utf8Encode path) := by
  have hcut : fileAddress remote path = ['['] ++ (remote ++ [':']) ++ [']'] ++ path := by
    simp [fileAddress]
  have hopen : utf8Encode ['['] = [ascii '['] := by decide
  have hclose : utf8Encode [']'] = [ascii ']'] := by decide
  rw [hcut, utf8Encode_append, utf8Encode_append, utf8Encode_append, hopen, hclose]
  simp only [List.append_assoc, List.cons_append, List.nil_append]

/-- The components of the text: those of the route and those of the address. -/
theorem splitOn_addressText (remote path : JsString) :
    (addressText remote path).splitOn '/' =
      [js "api", js "v1", js "rclone"] ++ (fileAddress remote path).splitOn '/' := by
  have hcut : addressText remote path = js "api/v1/rclone" ++ '/' :: fileAddress remote path := rfl
  have hroute : (js "api/v1/rclone").splitOn '/' = [js "api", js "v1", js "rclone"] := by decide
  rw [hcut, List.splitOn_append_cons_self, hroute]

/-! ## Escaped components -/

/-- The escaped path is the text, escaped by one of two sets; both keep slashes and dots. -/
theorem escapedPath_percentEncode (s : GoString) :
    ∃ set : UInt8 → Bool, set (ascii '/') = false ∧ set (ascii '.') = false ∧
      escapedPath (percentEncode pathSet s) s = percentEncode set s := by
  unfold escapedPath
  split
  · exact ⟨pathSet, by decide, by decide, rfl⟩
  · exact ⟨shouldEscape, by decide, by decide, rfl⟩

/-- The url's encoding leaves slashes alone, so segments can be looked at before it. -/
theorem splitSlash_percentEncode (hset : set (ascii '/') = false) (s : JsString) :
    splitSlash (percentEncode set (utf8Encode s)) =
      (s.splitOn '/').map fun segment => percentEncode set (utf8Encode segment) := by
  have hdigit : hexValue (ascii '/') = none := by decide
  have hslash : (utf8Encode s).splitOn (ascii '/') = (s.splitOn '/').map utf8Encode :=
    splitOn_utf8Encode (by decide) s
  rw [splitSlash, splitOn_percentEncode hset (by decide) hdigit, hslash, List.map_map]
  rfl

/-- What is escaped to a text without percent signs is that text. -/
theorem percentEncode_utf8Encode_eq {segment plain : JsString} (hplain : percentSign ∉ utf8Encode plain)
    (hkept : percentEncode set (utf8Encode plain) = utf8Encode plain) :
    percentEncode set (utf8Encode segment) = utf8Encode plain ↔ segment = plain := by
  constructor
  · intro h
    have hsame : percentEncode set (utf8Encode segment) = utf8Encode segment :=
      percentEncode_eq_of_not_mem (h ▸ hplain)
    exact utf8Encode_injective (hsame.symm.trans h)
  · rintro rfl
    exact hkept

/-- Encoding makes no segment a dotted one, and leaves those that are. -/
theorem move_percentEncode (hset : set (ascii '.') = false) {segment : JsString} :
    move (percentEncode set (utf8Encode segment)) = .down ↔
      segment ≠ [] ∧ segment ≠ js "." ∧ segment ≠ js ".." := by
  have hdot : percentEncode set (utf8Encode (js ".")) = utf8Encode (js ".") := by
    show (if set (ascii '.') then _ else _) ++ [] = _
    rw [hset]
    rfl
  have hdots : percentEncode set (utf8Encode (js "..")) = utf8Encode (js "..") := by
    show (if set (ascii '.') then _ else _) ++ ((if set (ascii '.') then _ else _) ++ []) = _
    rw [hset]
    rfl
  have hsign : percentSign ∉ utf8Encode [] ∧ percentSign ∉ utf8Encode (js ".") ∧
      percentSign ∉ utf8Encode (js "..") := by decide
  have hdotted : str "." = utf8Encode (js ".") ∧ str ".." = utf8Encode (js "..") := by decide
  rw [move_down, hdotted.1, hdotted.2]
  exact and_congr (not_congr (percentEncode_utf8Encode_eq hsign.1 rfl)) <|
    and_congr (not_congr (percentEncode_utf8Encode_eq hsign.2.1 hdot))
      (not_congr (percentEncode_utf8Encode_eq hsign.2.2 hdots))

/-- The path of an address is clean when its components move down. -/
theorem cleanPath_percentEncode (hslash : set (ascii '/') = false) (hdot : set (ascii '.') = false)
    (h : Components text) :
    cleanPath (percentEncode set (utf8Encode ('/' :: text))) = percentEncode set (utf8Encode ('/' :: text)) := by
  have hhead : percentEncode set (utf8Encode ('/' :: text)) =
      rooted (ascii '/') (splitSlash (percentEncode set (utf8Encode text))) := by
    rw [splitSlash, rooted_splitOn]
    show (if set (ascii '/') then _ else _) ++ percentEncode set (utf8Encode text) = _
    rw [hslash]
    rfl
  rw [hhead]
  refine cleanPath_of_down (List.splitOn_ne_nil _ _) (fun _ hmem => not_mem_of_mem_splitOn hmem) ?_
  intro segment hmem
  rw [splitSlash_percentEncode hslash] at hmem
  obtain ⟨plain, hplain, rfl⟩ := List.mem_map.mp hmem
  exact (move_percentEncode hdot).mpr (h plain hplain)

/-- **A clean path** that does not end with a slash has components that name something. -/
theorem components_of_cleanPath (hslash : set (ascii '/') = false) (hdot : set (ascii '.') = false)
    (hend : ('/' :: text).getLast? ≠ some '/')
    (h : cleanPath (percentEncode set (utf8Encode ('/' :: text))) =
      percentEncode set (utf8Encode ('/' :: text))) : Components text := by
  obtain ⟨segments, hdown, hsplit⟩ := down_of_cleanPath h
  have htext : ('/' :: text).splitOn '/' = [] :: text.splitOn '/' :=
    List.splitOn_append_cons_self_of_not_mem List.not_mem_nil text
  rw [splitSlash_percentEncode hslash, htext, List.map_cons] at hsplit
  rcases hsplit with hsplit | hsplit
  · intro segment hmem
    refine (move_percentEncode hdot).mp (hdown _ ?_)
    rw [← (List.cons.inj hsplit).2]
    exact List.mem_map_of_mem hmem
  · -- an empty component at the end is a slash at the end
    have hlast := congrArg List.getLast? (List.cons.inj hsplit).2
    rw [List.getLast?_concat, List.getLast?_map] at hlast
    obtain ⟨last, hlast, hempty⟩ := Option.map_eq_some_iff.mp hlast
    have hnil : percentSign ∉ utf8Encode [] := by decide
    obtain rfl := (percentEncode_utf8Encode_eq hnil rfl).mp hempty
    have hrooted := rooted_splitOn '/' text
    rw [← List.dropLast_append_getLast? [] hlast, rooted, List.flatMap_append, List.flatMap_singleton] at hrooted
    have hslashed := congrArg List.getLast? hrooted
    rw [List.getLast?_concat] at hslashed
    exact absurd hslashed.symm hend

/-! ## The handler -/

/-- A path that is made of components does not end in a slash. -/
theorem Components.getLast? (h : Components path) : path.getLast? ≠ some '/' := by
  intro hslash
  have hmem : [] ∈ path.splitOn '/' := by
    rw [← List.dropLast_append_getLast? '/' hslash, List.splitOn_append_cons_self]
    exact List.mem_append_right _ (by simp)
  exact (h [] hmem).1 rfl

/-- A path that is made of components is not empty. -/
theorem Components.ne_nil (h : Components path) : path ≠ [] := by
  rintro rfl
  exact (h [] (by simp)).1 rfl

/-- An ASCII byte of the encoding is a character of the text. -/
theorem ascii_mem_utf8Encode {c : Char} (h : c.toNat < 128) (s : JsString) : ascii c ∈ utf8Encode s ↔ c ∈ s :=
  mem_utf8Encode h s

/-- The fs value names the remote up to its first colon. -/
theorem namesRemote_iff {sections : List GoString} :
    NamesRemote sections (utf8Encode (remote ++ [':'])) ↔
      remote.takeWhile (fun c => c ≠ ':') ≠ [] ∧ utf8Encode (remote.takeWhile fun c => c ≠ ':') ∈ sections := by
  obtain ⟨others, hsplit⟩ : ∃ others, remote ++ [':'] = remote.takeWhile (fun c => c ≠ ':') ++ ':' :: others := by
    have hwhole := List.takeWhile_append_dropWhile (p := fun c => decide (c ≠ ':')) (l := remote)
    cases hrest : remote.dropWhile fun c => c ≠ ':' with
    | nil =>
        rw [hrest, List.append_nil] at hwhole
        exact ⟨[], by rw [hwhole]⟩
    | cons c cs =>
        have hcolon := List.head?_dropWhile_not (fun c => decide (c ≠ ':')) remote
        rw [hrest] at hcolon
        obtain rfl : c = ':' := by simpa using hcolon
        refine ⟨cs ++ [':'], ?_⟩
        rw [← List.cons_append, ← hrest, ← List.append_assoc, hwhole]
  have hfree : ascii ':' ∉ utf8Encode (remote.takeWhile fun c => c ≠ ':') := by
    rw [ascii_mem_utf8Encode (by decide)]
    intro hmem
    simpa using List.mem_takeWhile_imp hmem
  have hbytes : utf8Encode (remote ++ [':']) =
      utf8Encode (remote.takeWhile fun c => c ≠ ':') ++ ascii ':' :: utf8Encode others := by
    have hcolon : utf8Encode [':'] = [ascii ':'] := by decide
    rw [hsplit, utf8Encode_append, ← List.singleton_append, utf8Encode_append, hcolon, List.singleton_append]
  generalize remote.takeWhile (fun c => decide (c ≠ ':')) = name at hfree hbytes ⊢
  rw [hbytes]
  constructor
  · rintro ⟨name', rest, heq, hcolon, hne, hmem⟩
    -- what stands before the first colon is determined
    have hfirst := congrArg (List.splitOn (ascii ':')) heq
    rw [List.splitOn_append_cons_self_of_not_mem hfree, List.splitOn_append_cons_self_of_not_mem hcolon] at hfirst
    obtain rfl := (List.cons.inj hfirst).1
    exact ⟨fun hnil => hne (hnil ▸ rfl), hmem⟩
  · rintro ⟨hne, hmem⟩
    refine ⟨_, _, rfl, hfree, fun hnil => hne (utf8Encode_injective hnil), hmem⟩

/-- **What the handler serves for an address**, given that its remote has no closing bracket. -/
theorem handleGet_fileAddress (hbracket : ']' ∉ remote) (hpath : Components path) :
    handleGet env (utf8Encode (fileAddress remote path)) =
        .serveRemote (utf8Encode path) (utf8Encode (remote ++ [':'])) ↔
      '\n' ∉ fileAddress remote path ∧ remote.takeWhile (fun c => c ≠ ':') ≠ [] ∧
        utf8Encode (remote.takeWhile fun c => c ≠ ':') ∈ env.sections := by
  have hclose : ascii ']' ∉ utf8Encode (remote ++ [':']) := by
    rw [ascii_mem_utf8Encode (by decide)]
    simpa using hbracket
  have hdots : str ".." ∉ splitSlash (utf8Encode path) := by
    have hstr : str ".." = utf8Encode (js "..") := by decide
    have hsplit : splitSlash (utf8Encode path) = (path.splitOn '/').map utf8Encode :=
      splitOn_utf8Encode (by decide) path
    rw [hstr, hsplit, List.mem_map_of_injective utf8Encode_injective]
    exact fun hmem => (hpath _ hmem).2.2 rfl
  rw [handleGet_eq_serveRemote, fsMatch_eq_some, namesRemote_iff,
    ascii_mem_utf8Encode (c := '\n') (by decide)]
  constructor
  · rintro ⟨⟨-, -, hnewline⟩, hconfigured, -⟩
    exact ⟨hnewline, hconfigured⟩
  · rintro ⟨hnewline, hconfigured⟩
    exact ⟨⟨utf8Encode_fileAddress remote path, hclose, hnewline⟩, hconfigured, hdots⟩

/-! ## The way from the UI to the handler -/

/-- What the address adds to the route. -/
theorem addressText_free {c : Char} (h : c ∉ js "/api/v1/rclone/") :
    c ∈ '/' :: addressText remote path ↔ c ∈ fileAddress remote path := by
  have hcut : '/' :: addressText remote path = js "/api/v1/rclone/" ++ fileAddress remote path := rfl
  rw [hcut, List.mem_append]
  exact or_iff_right h

/-- The address ends as the path does. -/
theorem getLast?_addressText (hne : path ≠ []) : ('/' :: addressText remote path).getLast? = path.getLast? := by
  have hcut : '/' :: addressText remote path = (js "/api/v1/rclone/[" ++ remote ++ [':', ']']) ++ path := by
    simp [addressText, fileAddress, js]
  rw [hcut, List.getLast?_append_of_ne_nil _ hne]

/-- An address starts with no slash. -/
theorem dropWhile_fileAddress (remote path : JsString) :
    (utf8Encode (fileAddress remote path)).dropWhile (fun c => c = ascii '/') =
      utf8Encode (fileAddress remote path) := by
  have hhead : ascii '[' ≠ ascii '/' := by decide
  rw [utf8Encode_fileAddress, List.dropWhile_cons_of_neg (by simpa using hhead)]

/-- Nothing of the url's own syntax occurs in the address. -/
theorem Addressable.not_mem (h : Addressable env.sections remote path) {c : Char} (hc : c ∈ urlSyntax) :
    c ∉ '/' :: addressText remote path := by
  have hroute : urlSyntax.Disjoint (js "/api/v1/rclone/") := List.inter_eq_nil_iff_disjoint.mp (by decide)
  rw [addressText_free (hroute hc)]
  exact fun hmem => h.plain hmem hc

/-- The whole address is made of components, the brackets being part of the first. -/
theorem Addressable.text_components (h : Addressable env.sections remote path) :
    Components (addressText remote path) := by
  intro segment hmem
  rw [splitOn_addressText, List.mem_append] at hmem
  rcases hmem with hmem | hmem
  · revert segment
    decide
  · exact h.components segment hmem

/-- The browser requests the text as it is. -/
theorem Addressable.parsePath_eq (hpath : Components path) (h : Addressable env.sections remote path) :
    parsePath ('/' :: addressText remote path) = '/' :: addressText remote path := by
  have hdropped : js "\t\n\r" ⊆ urlSyntax := by decide
  have hending : js "#?" ⊆ urlSyntax := by decide
  have htext : pathText ('/' :: addressText remote path) = '/' :: addressText remote path := by
    refine pathText_eq_self.mpr ⟨fun c hc => ?_, ?_⟩
    · exact ⟨fun hin => h.not_mem (hdropped hin) hc, fun hin => h.not_mem (hending hin) hc⟩
    · rw [getLast?_addressText hpath.ne_nil]
      exact h.ending
  have hslashes : toSlashes (addressText remote path) = addressText remote path :=
    toSlashes_eq_self.mpr fun hmem => h.not_mem (c := '\\') (by decide) (List.mem_cons_of_mem _ hmem)
  have hdown : ∀ segment ∈ (toSlashes (addressText remote path)).splitOn '/', segmentMove segment = .down := by
    rw [hslashes]
    intro segment hmem
    obtain ⟨-, hdot, hdots⟩ := h.text_components segment hmem
    refine segmentMove_down (fun hin => h.not_mem (c := '%') (by decide) ?_) hdot hdots
    exact List.mem_cons_of_mem _ (mem_of_mem_splitOn hmem hin)
  rw [RCloneCloud.parsePath_eq htext hdown, toSlashes_cons, hslashes]

/-- **An addressable file is served**: no stage changes the address. -/
theorem Addressable.served (hbracket : ']' ∉ remote) (hpath : Components path)
    (h : Addressable env.sections remote path) :
    apiGet env (requestPath ('/' :: addressText remote path)) =
      .handled (.serveRemote (utf8Encode path) (utf8Encode (remote ++ [':']))) := by
  have hrequest : requestPath ('/' :: addressText remote path) =
      percentEncode pathSet (rclonePattern ++ utf8Encode (fileAddress remote path)) := by
    rw [requestPath, h.parsePath_eq hpath, utf8Encode_addressText]
  have hsign : percentSign ∉ rclonePattern ++ utf8Encode (fileAddress remote path) := by
    rw [← utf8Encode_addressText]
    exact mt (mem_utf8Encode (c := '%') (by decide) _).mp (h.not_mem (by decide))
  have hkept : percentEncode pathSet rclonePattern = rclonePattern := by decide
  rw [hrequest, apiGet_of_clean, dropWhile_fileAddress]
  · refine congrArg ApiReply.handled ((handleGet_fileAddress hbracket hpath).mpr ⟨?_, h.configured⟩)
    exact fun hmem => h.plain hmem (by decide)
  · exact percentDecode_encode fun hin => absurd hin hsign
  · obtain ⟨set, hslash, hdot, hescaped⟩ :=
      escapedPath_percentEncode (rclonePattern ++ utf8Encode (fileAddress remote path))
    rw [hescaped, ← utf8Encode_addressText]
    exact cleanPath_percentEncode hslash hdot h.text_components
  · rw [percentEncode_append, hkept]
    exact List.prefix_append _ _

/-- **A file that is served is addressable**: every stage keeps the length of the address. -/
theorem Addressable.of_served (hbracket : ']' ∉ remote) (hpath : Components path)
    (h : apiGet env (requestPath ('/' :: addressText remote path)) =
      .handled (.serveRemote (utf8Encode path) (utf8Encode (remote ++ [':'])))) :
    Addressable env.sections remote path := by
  obtain ⟨rest, hdecode, hclean, hreply⟩ := apiGet_handled h
  have hseen : rest.dropWhile (fun c => c = ascii '/') = utf8Encode (fileAddress remote path) := by
    rw [utf8Encode_fileAddress]
    exact (fsMatch_eq_some.mp (handleGet_eq_serveRemote.mp hreply).1).1
  have hsub : List.Sublist (utf8Encode (fileAddress remote path)) rest := hseen ▸ List.dropWhile_sublist _
  have hrest := hsub.length_le
  -- the text is no longer than what the server decodes, so no stage has shortened it
  have hsign : pathSet percentSign = false := by decide
  obtain ⟨hdecoded, hpercent⟩ := percentDecode_encode_length hsign hdecode
  have hwhole := congrArg List.length (utf8Encode_addressText remote path)
  rw [List.length_append] at hwhole hdecoded hpercent
  obtain ⟨htext, -, hparse⟩ := @parsePath_kept (addressText remote path) (by omega)
  rw [hparse, length_toSlashes] at hdecoded hpercent
  have hplain : percentSign ∉ utf8Encode (toSlashes ('/' :: addressText remote path)) := hpercent (by omega)
  obtain rfl : utf8Encode (fileAddress remote path) = rest := hsub.eq_of_length_le (by omega)
  rw [requestPath, hparse] at hdecode hclean
  rw [percentDecode_encode fun hin => absurd hin hplain, ← utf8Encode_addressText] at hdecode
  have hslashes : toSlashes ('/' :: addressText remote path) = '/' :: addressText remote path :=
    utf8Encode_injective (Option.some.inj hdecode)
  rw [hslashes, ← utf8Encode_addressText] at hclean
  rw [hslashes] at hplain
  obtain ⟨hcut, hending⟩ := pathText_eq_self.mp htext
  have hlast : ('/' :: addressText remote path).getLast? = path.getLast? := getLast?_addressText hpath.ne_nil
  refine ⟨fun c hc hsyntax => ?_, hlast ▸ hending, ?_, ?_⟩
  · have hmem : c ∈ '/' :: addressText remote path := List.mem_append_right (js "/api/v1/rclone/") hc
    have hall : urlSyntax = js "#?" ++ ['%', '\\'] ++ js "\t\n\r" := by decide
    rw [hall, List.mem_append, List.mem_append, List.mem_pair] at hsyntax
    rcases hsyntax with (hin | rfl | rfl) | hin
    · exact (hcut c hmem).2 hin
    · exact hplain ((mem_utf8Encode (by decide) _).mpr hmem)
    · exact toSlashes_eq_self.mp hslashes hmem
    · exact (hcut c hmem).1 hin
  · obtain ⟨set, hslash, hdot, hescaped⟩ :=
      escapedPath_percentEncode (utf8Encode ('/' :: addressText remote path))
    rw [hescaped] at hclean
    have htotal := components_of_cleanPath hslash hdot (hlast ▸ hpath.getLast?) hclean
    intro segment hmem
    refine htotal segment ?_
    rw [splitOn_addressText]
    exact List.mem_append_right _ hmem
  · rw [hseen] at hreply
    exact ((handleGet_fileAddress hbracket hpath).mp hreply).2

end

/-- **When the file asked for is the file served**: exactly when its address has nothing that the url's syntax,
    the mux or the fs value takes for itself. -/
theorem file_address_iff (env : RcEnv) (webApiEndpoint remote : JsString) (dirPath : Option JsString)
    (fileName : JsString) (hbracket : ']' ∉ remote) (hpath : Components (filePath dirPath fileName)) :
    fetchFileContent env webApiEndpoint remote dirPath fileName =
        .handled (.serveRemote (utf8Encode (filePath dirPath fileName)) (utf8Encode (remote ++ [':']))) ↔
      Addressable env.sections remote (filePath dirPath fileName) := by
  rw [fetchFileContent, fetchFileContentUrl_drop]
  exact ⟨Addressable.of_served hbracket hpath, Addressable.served hbracket hpath⟩

/-! ### A number sign in a file name -/

/-- The control characters, for the sample's url parser. -/
def isControl (c : Char) : Bool := c.toNat < 32 || 127 ≤ c.toNat && c.toNat < 160

/-- The endpoint of the sample. -/
def localEndpoint : JsString := js "http://localhost:3000"

/-- The file `a#b` is asked for and the file `a` is served. -/
theorem hash_address_cut :
    fetchFileContent remoteEnv localEndpoint (js "r") none (js "a#b") =
        .handled (.serveRemote (str "a") (str "r:")) ∧
      ¬ ∀ (env : RcEnv) (webApiEndpoint remote : JsString) (dirPath : Option JsString) (fileName : JsString),
        utf8Encode remote ∈ env.sections → ']' ∉ remote → Components (filePath dirPath fileName) →
        (filePath dirPath fileName).all (fun c => !isControl c) →
        fetchFileContent env webApiEndpoint remote dirPath fileName =
          .handled (.serveRemote (utf8Encode (filePath dirPath fileName)) (utf8Encode (remote ++ [':']))) := by
  have hserved : fetchFileContent remoteEnv localEndpoint (js "r") none (js "a#b") =
      .handled (.serveRemote (str "a") (str "r:")) := rfl
  refine ⟨hserved, fun hclaim => ?_⟩
  have hasked := hclaim remoteEnv localEndpoint (js "r") none (js "a#b") (by decide) (by decide)
    (by unfold Components; decide) (by decide)
  rw [hserved] at hasked
  have hpath : str "a" = utf8Encode (js "a#b") := by
    injection hasked with hreply
    injection hreply
  revert hpath
  decide

/-- A file of a folder, with a space, a plus sign and a letter beyond ASCII in its name. -/
theorem file_address_plain :
    fetchFileContent remoteEnv localEndpoint (js "r") (some (js "d")) (js "é +.txt") =
        .handled (.serveRemote (utf8Encode (js "d/é +.txt")) (utf8Encode (js "r" ++ [':']))) ∧
      Addressable remoteEnv.sections (js "r") (js "d/é +.txt") := by
  have hserved : fetchFileContent remoteEnv localEndpoint (js "r") (some (js "d")) (js "é +.txt") =
      .handled (.serveRemote (utf8Encode (js "d/é +.txt")) (utf8Encode (js "r" ++ [':']))) := rfl
  have hiff := file_address_iff remoteEnv localEndpoint (js "r") (some (js "d")) (js "é +.txt") (by decide)
    (by unfold Components; decide)
  exact ⟨hserved, hiff.mp hserved⟩

end RCloneCloud
