import RCloneCloud.Ui.JobState
import RCloneCloud.Lib.Percent

/-!
# `Ui.LoginRedirect` — back to the folder after a login

A 401 saves the pathname of the location and shows the login page; the callback page navigates to what was
saved. The pathname holds the segments encoded, and the navigation takes them as they are and encodes them
again, so the parameter that comes back is the encoded one: `loginRedirect_param`. It is the same where
there was nothing to encode.

The router is a parameter with what its documentation says of commands and segments (`Router`): it splits at slashes,
encodes character by character, and decodes what it has encoded. `angularRouter` shows that the assumptions can be
met. A folder's address is base64, so what its encoding changes is decided by the two digits that are neither letters
nor numbers (`encode_encoded_iff`), and the round trip is decided by these as well (`loginRedirect_returns_iff`).
-/

set_option autoImplicit false

namespace RCloneCloud

open Lib

/-! ## The router -/

/-- What the router makes of commands and of a URL, as far as the pages rely on it. -/
structure Router where
  /-- The parts of the first command. -/
  parts : JsString → List JsString
  /-- What a character of a segment is written as in the URL. -/
  encodeChar : Char → JsString
  /-- A segment of the URL, read. -/
  decode : JsString → JsString
  /-- An absolute command is split at its slashes; what is between them is not decoded. -/
  parts_rooted : ∀ segments : List JsString,
    (∀ segment ∈ segments, segment ≠ [] ∧ '/' ∉ segment ∧ '.' ∉ segment) →
      parts (rooted '/' segments) = segments
  encodeChar_alphanum : ∀ c : Char, c.isAlphanum = true → encodeChar c = [c]
  encodeChar_plus : encodeChar '+' = js "%2B"
  encodeChar_slash : encodeChar '/' = js "%2F"
  slash_not_mem : ∀ c, '/' ∉ encodeChar c
  decode_encode : ∀ segment : JsString, decode (segment.flatMap encodeChar) = segment

namespace Router

/-- A segment as it stands in a location. -/
def encode (R : Router) (segment : JsString) : JsString := segment.flatMap R.encodeChar

/-- The segments that the commands name. -/
def segments (R : Router) : List JsString → List JsString
  | [] => []
  | first :: rest => R.parts first ++ rest

/-- The pathname of the location after a navigation. -/
def pathname (R : Router) (commands : List JsString) : JsString :=
  rooted '/' ((R.segments commands).map R.encode)

/-- The parameter of the route `folders/:remotePath`. -/
def remotePathParam (R : Router) (pathname : JsString) : Option JsString :=
  match (pathname.splitOn '/').map R.decode with
  | [root, folders, remotePath] => if root = [] ∧ folders = js "folders" then some remotePath else none
  | _ => none

end Router

/-! ## The pages -/

/-- What the pages read and write: the location, the item `auth_redirect_path` of the local storage, and the
    token in the store. -/
structure Browser where
  pathname : JsString
  authRedirectPath : Option JsString
  authToken : Option JsString

/-- `router.navigate(commands)`. -/
def Browser.navigate (R : Router) (commands : List JsString) (b : Browser) : Browser :=
  { b with pathname := R.pathname commands }

/-- `router.navigate(['/folders', encoded])`, as the table and the cards open a folder. -/
def FolderLink.navigate (R : Router) (l : FolderLink) (b : Browser) : Browser :=
  b.navigate R [js "/folders", l.encoded]

/-- The interceptor on a failed request: the browser afterwards, and the error that goes on to the caller. -/
def webApiAuthRequestInterceptor (R : Router) (webApiEndpoint url : JsString) (status : Nat) (b : Browser) :
    Browser × Option Nat :=
  if webApiEndpoint <+: url ∧ status = 401 then
    (Browser.navigate R [js "/auth/v1/google/login"] { b with authRedirectPath := some b.pathname }, none)
  else (b, some status)

/-- The callback page on a result of the token's request. -/
def callbackPage (R : Router) (authTokenResult : Result JsString) (b : Browser) : Browser :=
  if hasSucceed authTokenResult then
    let redirectPath := b.authRedirectPath.getD (js "/remotes")
    Browser.navigate R [redirectPath] { b with authToken := authTokenResult.data }
  else b

/-! ## What the URL keeps -/

namespace Router

variable (R : Router) {segment : JsString}

/-- An encoded segment is one segment. -/
theorem slash_not_mem_encode (segment : JsString) : '/' ∉ R.encode segment := by
  intro hslash
  obtain ⟨c, -, hc⟩ := List.mem_flatMap.mp hslash
  exact R.slash_not_mem c hc

/-- Letters and numbers are not encoded. -/
theorem encode_alphanum (h : ∀ c ∈ segment, c.isAlphanum = true) : R.encode segment = segment := by
  induction segment with
  | nil => rfl
  | cons c rest ih =>
      obtain ⟨hc, hrest⟩ := List.forall_mem_cons.mp h
      have htail := ih hrest
      unfold encode at htail ⊢
      rw [List.flatMap_cons, R.encodeChar_alphanum c hc, htail]
      rfl

/-- Encoding leaves no segment empty. -/
theorem encode_ne_nil (h : segment ≠ []) : R.encode segment ≠ [] := by
  intro hnil
  refine h ?_
  calc segment = R.decode (R.encode segment) := (R.decode_encode segment).symm
    _ = R.decode [] := congrArg R.decode hnil
    _ = [] := R.decode_encode []

/-- The first segment of a folder's url stands for itself. -/
theorem encode_folders : R.encode (js "folders") = js "folders" :=
  R.encode_alphanum (by simp [js])

/-- The parameter of the URL of a folder is the segment that was written into it. -/
theorem remotePathParam_folder (segment : JsString) :
    R.remotePathParam (rooted '/' [js "folders", R.encode segment]) = some segment := by
  have hsplit : (rooted '/' [js "folders", R.encode segment]).splitOn '/'
      = [[], js "folders", R.encode segment] := by
    refine splitOn_rooted fun s hs => ?_
    rcases List.mem_cons.mp hs with rfl | hs
    · decide
    · rw [List.mem_singleton.mp hs]
      exact R.slash_not_mem_encode segment
  have hroot : R.decode [] = [] := R.decode_encode []
  have hfolders : R.decode (js "folders") = js "folders" := by
    have hdecoded := R.decode_encode (js "folders")
    rwa [← encode, R.encode_folders] at hdecoded
  have hsegment : R.decode (R.encode segment) = segment := R.decode_encode segment
  unfold remotePathParam
  rw [hsplit, List.map_cons, List.map_cons, List.map_cons, List.map_nil, hroot, hfolders, hsegment]
  exact if_pos ⟨rfl, rfl⟩

/-- A command that is a path of two segments, without dots. -/
theorem pathname_folder (hne : segment ≠ []) (hslash : '/' ∉ segment) (hdot : '.' ∉ segment) :
    R.pathname [rooted '/' [js "folders", segment]] = rooted '/' [js "folders", R.encode segment] := by
  have hparts : R.parts (rooted '/' [js "folders", segment]) = [js "folders", segment] := by
    refine R.parts_rooted _ fun s hs => ?_
    rcases List.mem_cons.mp hs with rfl | hs
    · decide
    · rw [List.mem_singleton.mp hs]
      exact ⟨hne, hslash, hdot⟩
  rw [pathname, segments, hparts, List.append_nil, List.map_cons, List.map_cons, List.map_nil, R.encode_folders]

/-- The location of a folder's page. -/
theorem pathname_folders (segment : JsString) :
    R.pathname [js "/folders", segment] = rooted '/' [js "folders", R.encode segment] := by
  have hparts : R.parts (js "/folders") = [js "folders"] := by
    refine R.parts_rooted [js "folders"] fun s hs => ?_
    rw [List.mem_singleton.mp hs]
    decide
  rw [pathname, segments, hparts, List.singleton_append, List.map_cons, List.map_cons, List.map_nil, R.encode_folders]

end Router

/-! ## The parameter of a link -/

/-- The digits of base64 are letters and digits, the plus sign and the slash. -/
theorem base64Digit_cases {n : Nat} (h : n < 64) :
    (n < 62 ∧ (base64Digit n).isAlphanum = true) ∨ (62 ≤ n ∧ (base64Digit n = '+' ∨ base64Digit n = '/')) := by
  revert n
  decide

/-- A folder's address is made of base64 digits. -/
theorem encodeRemotePath_eq (remote path : JsString) :
    encodeRemotePath remote path = (base64Values (utf8Encode (remote ++ ':' :: path))).map base64Digit :=
  base64Encode_stripped _

/-- What a digit is written as. -/
theorem mem_encodeChar_digit (R : Router) {n : Nat} (h : n < 64) {c : Char}
    (hc : c ∈ R.encodeChar (base64Digit n)) : c.isAlphanum = true ∨ c = '%' := by
  rcases base64Digit_cases h with ⟨-, halphanum⟩ | ⟨-, hplus | hslash⟩
  · rw [R.encodeChar_alphanum _ halphanum, List.mem_singleton] at hc
    exact .inl (hc ▸ halphanum)
  · rw [hplus, R.encodeChar_plus] at hc
    have hplain : ∀ c ∈ js "%2B", c.isAlphanum = true ∨ c = '%' := by simp [js]
    exact hplain c hc
  · rw [hslash, R.encodeChar_slash] at hc
    have hplain : ∀ c ∈ js "%2F", c.isAlphanum = true ∨ c = '%' := by simp [js]
    exact hplain c hc

/-- What the parameter is written as: letters, digits and percent signs. -/
theorem mem_encode_encoded (R : Router) {remote path : JsString} {c : Char}
    (hc : c ∈ R.encode (encodeRemotePath remote path)) : c.isAlphanum = true ∨ c = '%' := by
  rw [encodeRemotePath_eq] at hc
  obtain ⟨digit, hdigit, hc⟩ := List.mem_flatMap.mp hc
  obtain ⟨n, hn, rfl⟩ := List.mem_map.mp hdigit
  exact mem_encodeChar_digit R (base64Values_lt _ n hn) hc

/-- The parameter is written as it is, exactly if it has no plus sign and no slash. -/
theorem encode_encoded_iff (R : Router) (remote path : JsString) :
    R.encode (encodeRemotePath remote path) = encodeRemotePath remote path ↔
      ∀ n ∈ base64Values (utf8Encode (remote ++ ':' :: path)), n < 62 := by
  have hlt := base64Values_lt (utf8Encode (remote ++ ':' :: path))
  constructor
  · intro hsame n hn
    have hdigit : base64Digit n ∈ R.encode (encodeRemotePath remote path) := by
      rw [hsame, encodeRemotePath_eq]
      exact List.mem_map_of_mem hn
    have hplain := mem_encode_encoded R hdigit
    rcases base64Digit_cases (hlt n hn) with ⟨hsmall, -⟩ | ⟨-, hplus | hslash⟩
    · exact hsmall
    · rw [hplus] at hplain
      exact absurd hplain (by decide)
    · rw [hslash] at hplain
      exact absurd hplain (by decide)
  · intro hsmall
    refine R.encode_alphanum fun c hc => ?_
    rw [encodeRemotePath_eq] at hc
    obtain ⟨n, hn, rfl⟩ := List.mem_map.mp hc
    rcases base64Digit_cases (hlt n hn) with ⟨-, halphanum⟩ | ⟨hge, -⟩
    · exact halphanum
    · exact absurd (hsmall n hn) (by omega)

/-! ## The redirect -/

section
variable (R : Router) (l : FolderLink) (b callback : Browser) (token : JsString)
variable {webApiEndpoint url : JsString}

/-- The page of a folder is opened with its parameter. -/
theorem remotePathParam_navigate : R.remotePathParam (l.navigate R b).pathname = some l.encoded := by
  rw [FolderLink.navigate, Browser.navigate, R.pathname_folders, R.remotePathParam_folder]

/-- What a 401 of the web API saves. -/
theorem interceptor_saves (h : webApiEndpoint <+: url) :
    (webApiAuthRequestInterceptor R webApiEndpoint url 401 b).1.authRedirectPath = some b.pathname := by
  rw [webApiAuthRequestInterceptor, if_pos ⟨h, rfl⟩]
  rfl

/-- **The parameter that comes back** is the one that was written into the URL, still encoded. -/
theorem loginRedirect_param (hurl : webApiEndpoint <+: url)
    (hsaved : callback.authRedirectPath =
      (webApiAuthRequestInterceptor R webApiEndpoint url 401 (l.navigate R b)).1.authRedirectPath) :
    R.remotePathParam (callbackPage R (toSuccess token) callback).pathname = some (R.encode l.encoded) := by
  have hpath : callback.authRedirectPath = some (rooted '/' [js "folders", R.encode l.encoded]) := by
    rw [hsaved, interceptor_saves R _ hurl, FolderLink.navigate, Browser.navigate, R.pathname_folders]
  have hne : R.encode l.encoded ≠ [] :=
    R.encode_ne_nil (l.encoded_eq ▸ encodeRemotePath_ne_nil _ _)
  have hdot : '.' ∉ R.encode l.encoded := by
    intro hdot
    rw [l.encoded_eq] at hdot
    exact absurd (mem_encode_encoded R hdot) (by decide)
  have hsucceed : hasSucceed (toSuccess token) = true := rfl
  rw [callbackPage, if_pos hsucceed]
  dsimp only
  rw [hpath, Option.getD_some, Browser.navigate, R.pathname_folder hne (R.slash_not_mem_encode _) hdot,
    R.remotePathParam_folder]

/-- **The login redirect returns to the same folder** exactly if no six bits of the bytes of `remote:path`
    have a value above 61: the digits of those are the plus sign and the slash, which the URL escapes. -/
theorem loginRedirect_returns_iff (hurl : webApiEndpoint <+: url)
    (hsaved : callback.authRedirectPath =
      (webApiAuthRequestInterceptor R webApiEndpoint url 401 (l.navigate R b)).1.authRedirectPath) :
    R.remotePathParam (callbackPage R (toSuccess token) callback).pathname = some l.encoded ↔
      ∀ n ∈ base64Values (utf8Encode (l.target.1 ++ ':' :: l.target.2)), n < 62 := by
  rw [loginRedirect_param R l b callback token hurl hsaved, ← encode_encoded_iff R, l.encoded_eq]
  exact Option.some_inj

end

/-! ## A router -/

/-- The bytes that `encodeUriSegment` escapes. -/
def uriEscaped (b : UInt8) : Bool :=
  !(65 ≤ b && b ≤ 90 || 97 ≤ b && b ≤ 122 || 48 ≤ b && b ≤ 57 || (str "-_.!~*'@:$,&").contains b)

/-- The character of a byte, and the byte of a character. -/
def byteChar (b : UInt8) : Char := Char.ofNat b.toNat

/-- The byte of such a character. -/
def charByte (c : Char) : UInt8 := UInt8.ofNat c.toNat

/-- A byte is read back from its character. -/
theorem charByte_byteChar (b : UInt8) : charByte (byteChar b) = b := by
  have hvalid : b.toNat.isValidChar := .inl (Nat.lt_trans b.toNat_lt (by decide))
  rw [charByte, byteChar, Char.toNat_ofNat, if_pos hvalid, UInt8.ofNat_toNat]

/-- A character as the browser encodes it in a segment. -/
def encodeUriChar (c : Char) : JsString := (percentEncode uriEscaped (String.utf8EncodeChar c)).map byteChar

/-- The decoding of a whole segment. -/
def decodeUriSegment (segment : JsString) : JsString :=
  utf8Decode ((percentDecode (segment.map charByte)).getD [])

/-- What was encoded character by character is decoded as a whole. -/
theorem decodeUriSegment_encode (segment : JsString) :
    decodeUriSegment (segment.flatMap encodeUriChar) = segment := by
  have hbytes : (segment.flatMap encodeUriChar).map charByte = percentEncode uriEscaped (utf8Encode segment) := by
    have hchar : ∀ c, (encodeUriChar c).map charByte = percentEncode uriEscaped (String.utf8EncodeChar c) := by
      intro c
      rw [encodeUriChar, List.map_map]
      refine (List.map_congr_left fun b _ => charByte_byteChar b).trans (List.map_id _)
    rw [List.map_flatMap, percentEncode, utf8Encode, List.flatMap_assoc]
    exact List.flatMap_congr fun c _ => hchar c
  rw [decodeUriSegment, hbytes, percentDecode_encode fun _ => rfl, Option.getD_some, utf8Decode_encode]

/-- Letters and numbers stand for themselves. -/
theorem encodeUriChar_alphanum (c : Char) (h : c.isAlphanum = true) : encodeUriChar c = [c] := by
  have hrange : 65 ≤ c.toNat ∧ c.toNat ≤ 90 ∨ 97 ≤ c.toNat ∧ c.toNat ≤ 122 ∨ 48 ≤ c.toNat ∧ c.toNat ≤ 57 := by
    simpa [Char.isAlphanum, Char.isAlpha, Char.isUpper, Char.isLower, Char.isDigit,
      UInt32.le_iff_toNat_le, or_assoc] using h
  have hascii : c.toNat < 128 := by omega
  have hkept : uriEscaped (UInt8.ofNat c.toNat) = false := by
    simp [uriEscaped, UInt8.le_iff_toNat_le]
    omega
  have hchar : byteChar (UInt8.ofNat c.toNat) = c := by
    rw [byteChar, UInt8.toNat_ofNat', Nat.mod_eq_of_lt (by omega), Char.ofNat_toNat]
  rw [encodeUriChar, utf8EncodeChar_ascii hascii, percentEncode_cons, hkept]
  simp [percentEncode, hchar]

/-- No encoding brings a slash in. -/
theorem slash_not_mem_encodeUriChar (c : Char) : '/' ∉ encodeUriChar c := by
  intro hslash
  obtain ⟨b, hb, hchar⟩ := List.mem_map.mp hslash
  -- the byte of a slash is escaped, and escapes have no slash
  obtain rfl : b = charByte '/' := by rw [← hchar, charByte_byteChar]
  obtain ⟨a, -, ha⟩ := List.mem_flatMap.mp hb
  split at ha
  · exact not_mem_percentEncodeByte (by decide) rfl a ha
  · next hkept =>
      rw [List.mem_singleton] at ha
      subst ha
      exact hkept rfl

/-- The router, on paths without dots. -/
def angularRouter : Router where
  parts command := (command.splitOn '/').filter (· ≠ [])
  encodeChar := encodeUriChar
  decode := decodeUriSegment
  parts_rooted segments h := by
    rw [splitOn_rooted fun s hs => (h s hs).2.1]
    exact List.filter_eq_self.mpr fun s hs => decide_eq_true (h s hs).1
  encodeChar_alphanum := encodeUriChar_alphanum
  encodeChar_plus := rfl
  encodeChar_slash := rfl
  slash_not_mem := slash_not_mem_encodeUriChar
  decode_encode := decodeUriSegment_encode

/-- The address of the web API, and of one of its methods. -/
def webApiAddress : JsString := js "http://localhost:3000"

/-- The url of the sample's listing. -/
def listUrl : JsString := js "http://localhost:3000/api/v1/rclone/operations/list"

/-- The browser at the remotes. -/
def remotesBrowser : Browser := ⟨js "/remotes", none, none⟩

/-- The browser on the login page, after a 401 on the page of a folder. -/
def loginBrowser (l : FolderLink) : Browser :=
  (webApiAuthRequestInterceptor angularRouter webApiAddress listUrl 401 (l.navigate angularRouter remotesBrowser)).1

/-- The address of this folder needs no escape, so the user is back where the login began. -/
theorem loginRedirect_returns_photos :
    angularRouter.remotePathParam (callbackPage angularRouter (toSuccess (js "token"))
        (loginBrowser (.table (js "my-remote") (js "photos")))).pathname
      = some (FolderLink.table (js "my-remote") (js "photos")).encoded :=
  (loginRedirect_returns_iff angularRouter (.table (js "my-remote") (js "photos")) remotesBrowser _
    (js "token") (by decide) rfl).mpr (by decide)

/-- **A plus sign comes back escaped**: after the login the parameter is not that of the folder `~backup`, and
    the page does not show that folder. -/
theorem loginRedirect_escapes :
    (FolderLink.table (js "r") (js "~backup")).encoded = js "cjp+YmFja3Vw" ∧
      (loginBrowser (.table (js "r") (js "~backup"))).authRedirectPath = some (js "/folders/cjp%2BYmFja3Vw") ∧
      angularRouter.remotePathParam (callbackPage angularRouter (toSuccess (js "token"))
        (loginBrowser (.table (js "r") (js "~backup")))).pathname = some (js "cjp%2BYmFja3Vw") ∧
      remotePathOf (some (js "cjp%2BYmFja3Vw")) ≠ .ok ⟨js "r", some (js "~backup")⟩ := by
  decide +kernel

end RCloneCloud
