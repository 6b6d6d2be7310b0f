import RCloneCloud.Lib.CookieJar
import RCloneCloud.Server.Pipeline
import RCloneCloud.Ui.LoginRedirect
import RCloneCloud.Ui.Pkce
import RCloneCloud.Ui.QueryUrl

/-!
# `Ui.Login` — the login page and the callback page

The login page makes a verifier, keeps it in a cookie and goes to the server with its challenge; the callback page reads
the verifier back and sends it with the code and the state of its own location. It deletes the cookie under the path of its
own directory, where the cookie does not stand, so the verifier stays until the next visit of the login page.

Cookies are those of `Lib.CookieJar`, with the texts of the source for names and paths. The url of the login request
is built by the query encoder of `Ui.QueryUrl`, so `loginRequest_loginPage` can say what the server reads from it: the
state and the challenge of the page, for every state that needs no escape.
-/

set_option autoImplicit false

namespace RCloneCloud

open Lib

/-! ## Cookies -/

/-- The cookies of the UI's origin; times are in seconds. -/
abbrev UiCookies := CookieJar JsString ℚ

/-- `CookieService.set` with a path: a number stands for days. -/
def setCookie (name value : JsString) (expires : ℚ) (path : JsString) (now : ℚ) (jar : UiCookies) : UiCookies :=
  jar.set now ⟨name, path, value, now + expires * 86400⟩

/-- `CookieService.get`. -/
def getCookie (name : JsString) (now : ℚ) (location : JsString) (jar : UiCookies) : JsString :=
  (jar.get? now location name).getD []

/-- `CookieService.delete` without a path, on a page at the location. -/
def deleteCookie (name location : JsString) (jar : UiCookies) : UiCookies := jar.remove name (defaultPath location)

/-- The name of the cookie that holds the verifier. -/
def oauthVerifier : JsString := js "oauth_verifier"

/-! ## The pages -/

/-- `LoginPageComponent.ngOnInit`: the url that it goes to, after its origin, and the cookies. -/
def loginPage (digest : List UInt8 → Vector UInt8 32) (loginUrl state : JsString) (array : Vector UInt32 56) (now : ℚ)
    (jar : UiCookies) : JsString × UiCookies :=
  let codeVerifier := generateCodeVerifier array
  let codeChallenge := generateCodeChallenge digest codeVerifier
  (loginUrl ++ js "?select_account=true&state=" ++ state ++ js "&code_challenge_method=S256&challenge=" ++ codeChallenge,
    setCookie oauthVerifier codeVerifier 300 (js "/") now jar)

/-- The request for the url. -/
def loginRequest (url : JsString) (browser : ServerRequest) : ServerRequest :=
  { browser with method := str "GET", rawPath := requestPath url, query := parseQuery (requestQuery url) }

/-- The pathname of the callback page. -/
def callbackPath : JsString := js "/auth/v1/google/callback"

/-- `fetchAccessToken`, on the path of the API. -/
def fetchAccessToken (code codeVerifier state : JsString) (stateCookie : Option GoString) (browser : ServerRequest) :
    ServerRequest :=
  { browser with
    method := str "POST"
    rawPath := utf8Encode callbackPath
    stateCookie := stateCookie
    callbackBody := .ok ⟨utf8Encode code, utf8Encode codeVerifier, utf8Encode state⟩ }

/-- A parameter that counts as given. -/
def givenParam : Option JsString → Option JsString
  | some (c :: s) => some (c :: s)
  | _ => none

/-- The callback page on the parameters of its location: the request it sends, if both are there, and the cookies. -/
def callbackParams (code state : Option JsString) (now : ℚ) (stateCookie : Option GoString) (browser : ServerRequest)
    (jar : UiCookies) : Option ServerRequest × UiCookies :=
  match givenParam code, givenParam state with
  | some code, some state =>
      let codeVerifier := getCookie oauthVerifier now callbackPath jar
      (some (fetchAccessToken code codeVerifier state stateCookie browser), deleteCookie oauthVerifier callbackPath jar)
  | _, _ => (none, jar)

/-- The callback page on the answer; `failure` is the error that the client makes of an error status. A 401 takes the page
    to the login page, and is no result. -/
def callbackAnswer (R : Router) (webApiEndpoint : JsString) (failure : JsError) (reply : AuthReply) (b : Browser) : Browser :=
  match reply.body with
  | .tokens response => callbackPage R (toSuccess (utf8Decode response.token)) b
  | .error _ status =>
    match webApiAuthRequestInterceptor R webApiEndpoint (webApiEndpoint ++ callbackPath) status b with
    | (b, some _) => callbackPage R (toFailure failure) b
    | (b, none) => b
  | .redirect _ _ => b

/-! ## What the server makes of the url -/

/-- The characters that need no escape are ASCII. -/
theorem unreserved_ascii {c : Char} (hc : unreserved c = true) : c.toNat < 128 := by
  have hrange : (65 ≤ c.toNat ∧ c.toNat ≤ 90 ∨ 97 ≤ c.toNat ∧ c.toNat ≤ 122 ∨ 48 ≤ c.toNat ∧ c.toNat ≤ 57) ∨
      c ∈ ['-', '.', '_', '~'] := by
    simpa [unreserved, Char.isAlphanum, Char.isAlpha, Char.isUpper, Char.isLower, Char.isDigit, UInt32.le_iff_toNat_le,
      or_assoc] using hc
  rcases hrange with hrange | hmark
  · omega
  · simp only [List.mem_cons, List.not_mem_nil, or_false] at hmark
    rcases hmark with rfl | rfl | rfl | rfl <;> decide

/-- An unreserved character is its own escape. -/
theorem encodeURIComponent_unreserved {s : JsString} (h : ∀ c ∈ s, unreserved c = true) : encodeURIComponent s = s := by
  have hall : ∀ n < 128, unreserved (Char.ofNat n) = true → encodeURIComponent [Char.ofNat n] = [Char.ofNat n] := by
    decide +kernel
  induction s with
  | nil => rfl
  | cons c rest ih =>
      obtain ⟨hc, hrest⟩ := List.forall_mem_cons.mp h
      have hfirst : encodeURIComponent [c] = [c] := by
        have hchar := hall c.toNat (unreserved_ascii hc)
        rw [Char.ofNat_toNat] at hchar
        exact hchar hc
      have hsplit : encodeURIComponent (c :: rest) = encodeURIComponent [c] ++ encodeURIComponent rest := by
        rw [encodeURIComponent, ← List.singleton_append, utf8Encode_append, percentEncode_append, List.map_append]
        rfl
      rw [hsplit, hfirst, ih hrest, List.singleton_append]

section
variable {values : Values} {key k value : GoString}

/-- Adding under one key leaves the other keys alone. -/
theorem Values.getElem?_add_ne (h : key ≠ k) : (values.add key value)[k]? = values[k]? := by
  rw [Values.add, GoMap.getElem?_insert, if_neg h]

/-- It leaves what is read of the other keys alone. -/
theorem Values.get_add_ne (h : key ≠ k) : (values.add key value).get k = values.get k := by
  rw [Values.get, Values.getElem?_add_ne h, Values.get]

/-- What is added under a new key is read back. -/
theorem Values.get_add_new (h : values[key]? = none) : (values.add key value).get key = value := by
  rw [Values.get, Values.add, GoMap.getElem?_insert, if_pos rfl, h]
  rfl

end

/-- **The server is given the state and the challenge of the page.** -/
theorem loginRequest_loginPage (digest : List UInt8 → Vector UInt8 32) {loginUrl state : JsString} (array : Vector UInt32 56)
    (now : ℚ) (jar : UiCookies) (browser : ServerRequest) (hurl : PlainText loginUrl) (hstate : ∀ c ∈ state, unreserved c = true) :
    (loginRequest (loginPage digest loginUrl state array now jar).1 browser).login =
      ⟨utf8Encode state, utf8Encode (generateCodeChallenge digest (generateCodeVerifier array)), str "S256"⟩ := by
  let challenge := generateCodeChallenge digest (generateCodeVerifier array)
  have hchallenge : encodeURIComponent challenge = challenge :=
    encodeURIComponent_unreserved (generateCodeChallenge_legal digest (generateCodeVerifier array)).2.2.2
  have hfixed : ∀ text ∈ [js "select_account", js "true", js "state", js "code_challenge_method", js "S256", js "challenge"],
      encodeURIComponent text = text := by decide +kernel
  have hlink : (loginPage digest loginUrl state array now jar).1 = loginUrl ++ '?' :: queryOf
      [(js "select_account", js "true"), (js "state", state), (js "code_challenge_method", js "S256"), (js "challenge", challenge)] := by
    simp only [queryOf, List.map_cons, List.map_nil, hchallenge, encodeURIComponent_unreserved hstate,
      hfixed (js "select_account") (by simp), hfixed (js "true") (by simp), hfixed (js "state") (by simp),
      hfixed (js "code_challenge_method") (by simp), hfixed (js "S256") (by simp), hfixed (js "challenge") (by simp)]
    simp [loginPage, challenge, js, List.intercalate]
  have hquery : (loginRequest (loginPage digest loginUrl state array now jar).1 browser).query =
      (((Values.add ∅ (str "select_account") (str "true")).add (str "state") (utf8Encode state)).add
        (str "code_challenge_method") (str "S256")).add (str "challenge") (utf8Encode challenge) := by
    show parseQuery (requestQuery _) = _
    rw [hlink, parseQuery_queryOf hurl]
    rfl
  have hnames : [str "select_account", str "state", str "code_challenge_method", str "challenge"].Nodup := by decide +kernel
  simp only [List.nodup_cons, List.mem_cons, List.not_mem_nil, or_false, not_or] at hnames
  obtain ⟨⟨hselect_state, hselect_method, hselect_challenge⟩, ⟨hstate_method, hstate_challenge⟩, hmethod, -⟩ := hnames
  have hempty : ∀ key : GoString, (∅ : Values)[key]? = none := fun key => Std.ExtTreeMap.getElem?_empty
  unfold ServerRequest.login
  rw [hquery]
  refine (LoginHttp.mk.injEq ..).mpr ⟨?_, ?_, ?_⟩
  · rw [Values.get_add_ne (Ne.symm hstate_challenge), Values.get_add_ne (Ne.symm hstate_method), Values.get_add_new]
    rw [Values.getElem?_add_ne hselect_state, hempty]
  · rw [Values.get_add_new]
    rw [Values.getElem?_add_ne hmethod, Values.getElem?_add_ne hstate_challenge, Values.getElem?_add_ne hselect_challenge, hempty]
  · rw [Values.get_add_ne (Ne.symm hmethod), Values.get_add_new]
    rw [Values.getElem?_add_ne hstate_method, Values.getElem?_add_ne hselect_method, hempty]

end RCloneCloud
