import RCloneCloud.Server.Access

/-!
# `Server.Env` — the configuration of the server

`LoadEnv` reads the environment; `main` makes the server of it. Two of its values are lists, whose items stand
between commas, with any white space around them. What decides about a login and about the headers of a response
is membership in these lists as they stand in the environment (`configured_access`).

`ListItem` is an item as a careful operator writes it, padded with white space but not blank, without commas and
trimmed; it carries its own well-formedness, so that `joinList` of such items is what a round trip can be stated for.
For values that were written otherwise `mem_splitList` still says what their items are. `configured_access` goes from
the environment to the decisions: through `LoadEnv`, the loops of `newHandler` and `originMap`, to the list check of a
login and the CORS headers.
-/

set_option autoImplicit false

namespace RCloneCloud

open Lib

/-! ## `LoadEnv` -/

/-- What `LoadEnv` returns. -/
structure Env where
  mongoKey : GoString
  mongoURI : GoString
  mongoDB : GoString
  mongoCol : GoString
  jwtPublicKeyPEM : GoString
  jwtPrivateKeyPEM : GoString
  googleClientID : GoString
  googleClientSecret : GoString
  googleRedirectURL : GoString
  listenAddr : GoString
  allowedGoogleIDs : List GoString
  corsAllowedURLs : List GoString
  otelServiceName : GoString
  otelServiceVersion : GoString
  otelExporterEndpoint : GoString
  otelExporterHeaders : GoString
deriving DecidableEq

/-- `os.Getenv`: `""` for a variable that is not set. -/
abbrev Getenv := GoString → GoString

/-- A missing variable ends the process with the error. -/
def requireEnv (getenv : Getenv) (key : String) : Except GoError GoString :=
  if getenv (str key) = [] then .error (.errorf "required environment variable %s is not set" [str key])
  else .ok (getenv (str key))

/-- The value of a variable, or the fallback where it is empty. -/
def getEnv (getenv : Getenv) (key fallback : String) : GoString :=
  if getenv (str key) ≠ [] then getenv (str key) else str fallback

/-- The loop over `strings.Split(value, ",")`: the items, trimmed, but for the blank ones. -/
def splitList (value : GoString) : List GoString :=
  ((value.splitOn (ascii ',')).map trimSpace).filter fun item => item ≠ []

/-- The required variables in the source's order, so that the first one that is missing is reported; then the
defaults. -/
def loadEnv (getenv : Getenv) : Except GoError Env := do
  let pub ← requireEnv getenv "AUTH_JWT_PUBLIC_KEY"
  let priv ← requireEnv getenv "AUTH_JWT_PRIVATE_KEY"
  let allowedGoogleIDsStr ← requireEnv getenv "AUTH_ALLOWED_GOOGLE_IDS"
  if splitList allowedGoogleIDsStr = [] then
    throw (.errorf "AUTH_ALLOWED_GOOGLE_IDS must contain at least one valid Google ID" [])
  let mongoKey ← requireEnv getenv "RCLONE_CONFIG_MONGO_KEY"
  let mongoURI ← requireEnv getenv "RCLONE_CONFIG_MONGO_URI"
  let googleClientID ← requireEnv getenv "AUTH_GOOGLE_CLIENT_ID"
  let googleClientSecret ← requireEnv getenv "AUTH_GOOGLE_CLIENT_SECRET"
  return {
    mongoKey := mongoKey
    mongoURI := mongoURI
    mongoDB := getEnv getenv "RCLONE_CONFIG_MONGO_DB" "rclone"
    mongoCol := getEnv getenv "RCLONE_CONFIG_MONGO_COL" "configs"
    jwtPublicKeyPEM := pub
    jwtPrivateKeyPEM := priv
    googleClientID := googleClientID
    googleClientSecret := googleClientSecret
    googleRedirectURL := getEnv getenv "AUTH_GOOGLE_REDIRECT_URL" "http://localhost:8080/auth/v1/google/callback"
    listenAddr := getEnv getenv "LISTEN_ADDR" ":8080"
    allowedGoogleIDs := splitList allowedGoogleIDsStr
    corsAllowedURLs := splitList (getEnv getenv "CORS_ALLOWED_URLS" "http://localhost:4200")
    otelServiceName := getEnv getenv "OTEL_SERVICE_NAME" "rclone-cloud-web-api"
    otelServiceVersion := getEnv getenv "OTEL_SERVICE_VERSION" "1.0.0"
    otelExporterEndpoint := getenv (str "OTEL_EXPORTER_OTLP_ENDPOINT")
    otelExporterHeaders := getenv (str "OTEL_EXPORTER_OTLP_HEADERS") }

/-- What `main` gives `auth.NewHandler`. -/
def Env.authConfig (env : Env) : AuthConfig :=
  ⟨env.googleClientID, env.googleClientSecret, env.googleRedirectURL, env.jwtPrivateKeyPEM, env.allowedGoogleIDs⟩

/-- The handlers as `main` sets them up; `loadPublicKey` is that of `NewRCloneAPIHandler`. -/
def newWebApi (D : AuthDeps) (J : JwtLib) (loadPublicKey : GoString → Except GoError PublicKey) (env : Env) :
    Except GoError WebApi :=
  match newHandler D env.authConfig true with
  | .error err => .error (.wrapf "init auth: %v" [] err)
  | .ok auth =>
    match loadPublicKey env.jwtPublicKeyPEM with
    | .error err => .error (.wrapf "init rclone handler: %v" [] (.wrapf "load public key: %w" [] err))
    | .ok publicKey => .ok ⟨D, auth, J, publicKey, originMap env.corsAllowedURLs⟩

/-! ## Lists in the environment -/

/-- The item stands in the list, between commas and white space. -/
def ListedIn (value item : GoString) : Prop := item ≠ [] ∧ ∃ piece ∈ value.splitOn (ascii ','), trimSpace piece = item

/-- An item of a list is a piece between commas, trimmed, that is not blank. -/
theorem mem_splitList {value item : GoString} : item ∈ splitList value ↔ ListedIn value item := by
  rw [splitList, List.mem_filter, List.mem_map, decide_eq_true_eq]
  exact and_comm

/-- An item as it is written into a list: white space, the item, white space. The item is not empty, has no comma in it
    and neither begins nor ends with white space of its own, which `TrimSpace` would take for padding. -/
structure ListItem where
  left : List Char
  item : GoString
  right : List Char
  blank_left : ∀ c ∈ left, c ∈ spaceRunes
  blank_right : ∀ c ∈ right, c ∈ spaceRunes
  ne_nil : item ≠ []
  trimmed : Trimmed item
  comma : ascii ',' ∉ item

/-- The item with its padding. -/
def ListItem.text (i : ListItem) : GoString := utf8Encode i.left ++ i.item ++ utf8Encode i.right

/-- The value of the variable. -/
def joinList (items : List ListItem) : GoString := [ascii ','].intercalate (items.map ListItem.text)

/-- No byte of a white space but its first starts one. -/
theorem space_tail {v w : GoString} {b : UInt8} (hv : v ∈ spaces) (hw : w ∈ spaces) (hb : b ∈ w.tail) : v.head? ≠ some b := by
  have hfirst : ∀ v ∈ spaces, ∀ b ∈ v.head?, ¬ (0x80 ≤ b ∧ b < 0xC0) := by decide +kernel
  have hnext : ∀ w ∈ spaces, ∀ b ∈ w.tail, 0x80 ≤ b ∧ b < 0xC0 := by decide +kernel
  intro hhead
  exact hfirst v hv b hhead (hnext w hw b hb)

/-- White space holds no comma. -/
theorem comma_not_mem_spaces {blank : List Char} (h : ∀ c ∈ blank, c ∈ spaceRunes) : ascii ',' ∉ utf8Encode blank := by
  have hnone : ∀ w ∈ spaces, ascii ',' ∉ w := by decide
  intro hcomma
  obtain ⟨c, hc, hin⟩ := List.mem_flatMap.mp hcomma
  exact hnone _ (List.mem_map_of_mem (h c hc)) hin

/-- A trimmed text that is not blank is not made to start with white space by white space after it. -/
theorem cleanLeft_append {core : GoString} (hcore : Trimmed core) (hne : core ≠ []) {right : List Char}
    (hright : ∀ c ∈ right, c ∈ spaceRunes) : CleanLeft spaces (core ++ utf8Encode right) := by
  intro w hw hstarts
  rcases List.prefix_or_prefix_of_prefix hstarts (List.prefix_append core _) with hinside | ⟨t, rfl⟩
  · exact hcore.1 w hw hinside
  · have ht : t <+: utf8Encode right := (List.prefix_append_right_inj core).mp hstarts
    -- a white space that goes beyond the text would go on where another one starts
    cases right with
    | nil =>
        obtain rfl : t = [] := List.prefix_nil.mp ht
        rw [List.append_nil] at hw
        exact hcore.1 core hw (List.prefix_refl core)
    | cons c rest =>
        cases t with
        | nil =>
            rw [List.append_nil] at hw
            exact hcore.1 core hw (List.prefix_refl core)
        | cons b t =>
            have hspace : String.utf8EncodeChar c ∈ spaces := List.mem_map_of_mem (hright c List.mem_cons_self)
            have hhead : (String.utf8EncodeChar c).head? = some b := by
              obtain ⟨more, hmore⟩ := ht
              have hencode : utf8Encode (c :: rest) = String.utf8EncodeChar c ++ utf8Encode rest := rfl
              rw [hencode] at hmore
              cases hc : String.utf8EncodeChar c with
              | nil => exact absurd hc (spaces_ne_nil _ hspace)
              | cons b' bs =>
                  rw [hc] at hmore
                  exact congrArg some (List.cons.inj hmore).1.symm
            have htail : b ∈ (core ++ b :: t).tail := by
              rw [List.tail_append_of_ne_nil hne]
              exact List.mem_append_right _ List.mem_cons_self
            exact space_tail hspace hw htail hhead

/-- Trimming takes off the padding and nothing else, since the item does not begin or end with white space. -/
theorem ListItem.trimSpace_text (i : ListItem) : trimSpace i.text = i.item :=
  trimSpace_surrounded i.blank_left i.blank_right i.trimmed (cleanLeft_append i.trimmed i.ne_nil i.blank_right)

/-- **A list is read as it is written**: the items, without the white space around them. -/
theorem splitList_joinList (items : List ListItem) : splitList (joinList items) = items.map ListItem.item := by
  cases items with
  | nil => rfl
  | cons first rest =>
      have hcomma : ∀ text ∈ (first :: rest).map ListItem.text, ascii ',' ∉ text := by
        intro text htext
        obtain ⟨i, -, rfl⟩ := List.mem_map.mp htext
        rw [ListItem.text, List.mem_append, List.mem_append, not_or, not_or]
        exact ⟨⟨comma_not_mem_spaces i.blank_left, i.comma⟩, comma_not_mem_spaces i.blank_right⟩
      have htrim : ((first :: rest).map ListItem.text).map trimSpace = (first :: rest).map ListItem.item := by
        rw [List.map_map]
        exact List.map_congr_left fun i _ => i.trimSpace_text
      rw [splitList, joinList, List.splitOn_intercalate _ hcomma (List.cons_ne_nil _ _), htrim]
      refine List.filter_eq_self.mpr fun item hitem => ?_
      obtain ⟨i, -, rfl⟩ := List.mem_map.mp hitem
      exact decide_eq_true i.ne_nil

/-- The user `u`, between a tabulator and a no-break space. -/
def paddedItem : ListItem where
  left := ['\t']
  item := str "u"
  right := ['\u00a0']
  blank_left := by simp [spaceRunes]
  blank_right := by simp [spaceRunes]
  ne_nil := by decide
  trimmed := trimmed_of_graphic (by decide +kernel)
  comma := by decide +kernel

/-- The star, after a blank. -/
def starItem : ListItem where
  left := [' ']
  item := str "*"
  right := []
  blank_left := by simp [spaceRunes]
  blank_right := by simp [spaceRunes]
  ne_nil := by decide
  trimmed := trimmed_of_graphic (by decide +kernel)
  comma := by decide +kernel

/-- Two items, one with a tab before it and a no-break space behind it. -/
theorem splitList_joinList_padded :
    joinList [paddedItem, starItem] = utf8Encode ['\t', 'u', '\u00a0', ',', ' ', '*'] ∧
      splitList (joinList [paddedItem, starItem]) = [str "u", str "*"] := by
  refine ⟨by decide +kernel, ?_⟩
  rw [splitList_joinList]
  rfl

/-! ## What is loaded -/

/-- The variables without which there is no server. -/
def requiredKeys : List String :=
  ["AUTH_JWT_PUBLIC_KEY", "AUTH_JWT_PRIVATE_KEY", "AUTH_ALLOWED_GOOGLE_IDS", "RCLONE_CONFIG_MONGO_KEY",
    "RCLONE_CONFIG_MONGO_URI", "AUTH_GOOGLE_CLIENT_ID", "AUTH_GOOGLE_CLIENT_SECRET"]

/-- The list of the users, and that of the origins. -/
def googleIDsValue (getenv : Getenv) : GoString := getenv (str "AUTH_ALLOWED_GOOGLE_IDS")

/-- The value that the list of allowed origins is read from, or its fallback. -/
def corsURLsValue (getenv : Getenv) : GoString := getEnv getenv "CORS_ALLOWED_URLS" "http://localhost:4200"

section
variable {getenv : Getenv} {key : String}

/-- A variable that is set is returned as it is. -/
theorem requireEnv_of_ne (h : getenv (str key) ≠ []) : requireEnv getenv key = .ok (getenv (str key)) := if_neg h

/-- A variable that is missing or empty is named in the error. -/
theorem requireEnv_of_eq (h : getenv (str key) = []) :
    requireEnv getenv key = .error (.errorf "required environment variable %s is not set" [str key]) := if_pos h

/-- What goes on after a variable that is required. -/
theorem requireEnv_bind {K : Type} {k : GoString → Except GoError K} {x : K} :
    (requireEnv getenv key >>= k) = .ok x ↔ getenv (str key) ≠ [] ∧ k (getenv (str key)) = .ok x := by
  by_cases h : getenv (str key) = []
  · rw [requireEnv_of_eq h]
    constructor
    · intro hk
      cases hk
    · rintro ⟨hne, -⟩
      exact absurd h hne
  · rw [requireEnv_of_ne h]
    exact ⟨fun hk => ⟨h, hk⟩, And.right⟩

end

/-- **When there is a configuration**, and what its two lists are. -/
theorem loadEnv_ok {getenv : Getenv} {env : Env} (h : loadEnv getenv = .ok env) :
    (∀ key ∈ requiredKeys, getenv (str key) ≠ []) ∧ env.allowedGoogleIDs = splitList (googleIDsValue getenv) ∧
      env.allowedGoogleIDs ≠ [] ∧ env.corsAllowedURLs = splitList (corsURLsValue getenv) := by
  unfold loadEnv at h
  obtain ⟨hpub, h⟩ := requireEnv_bind.mp h
  obtain ⟨hpriv, h⟩ := requireEnv_bind.mp h
  obtain ⟨hids, h⟩ := requireEnv_bind.mp h
  by_cases hnone : splitList (getenv (str "AUTH_ALLOWED_GOOGLE_IDS")) = []
  · rw [if_pos hnone] at h
    cases h
  · rw [if_neg hnone] at h
    obtain ⟨hkey, h⟩ := requireEnv_bind.mp h
    obtain ⟨huri, h⟩ := requireEnv_bind.mp h
    obtain ⟨hclient, h⟩ := requireEnv_bind.mp h
    obtain ⟨hsecret, h⟩ := requireEnv_bind.mp h
    cases h
    refine ⟨?_, rfl, hnone, rfl⟩
    intro key hin
    simp only [requiredKeys, List.mem_cons, List.not_mem_nil, or_false] at hin
    rcases hin with rfl | rfl | rfl | rfl | rfl | rfl | rfl <;> assumption

/-- Where the server is made at all, its login list and its origins are those of the environment. -/
theorem newWebApi_ok {D : AuthDeps} {J : JwtLib} {loadPublicKey : GoString → Except GoError PublicKey} {env : Env}
    {W : WebApi} (h : newWebApi D J loadPublicKey env = .ok W) :
    newHandler D env.authConfig true = .ok W.auth ∧ W.allowedOrigins = originMap env.corsAllowedURLs := by
  unfold newWebApi at h
  split at h
  · cases h
  · next auth hauth =>
      split at h
      · cases h
      · cases h
        exact ⟨hauth, rfl⟩

/-- The handler's list is what the loop over the ids makes of the configured ones. -/
theorem newHandler_allows {D : AuthDeps} {h : AuthHandler} {cfg : AuthConfig} {tokenStore : Bool}
    (hnew : newHandler D cfg tokenStore = .ok h) :
    h.allowedGoogleIDs = (allowIDs cfg.allowedGoogleIDs).1 ∧ h.allowAllGoogleIDs = (allowIDs cfg.allowedGoogleIDs).2 := by
  unfold newHandler at hnew
  split at hnew
  · cases hnew
  · cases hnew
    exact ⟨rfl, rfl⟩

/-! ## Origins -/

/-- The loop adds each origin and removes none. -/
theorem originMap_foldl (origins : List GoString) (m : GoMap Bool) (origin : GoString) :
    (origins.foldl (fun m origin => m.insert origin true) m)[origin]?.getD false = true ↔
      origin ∈ origins ∨ m[origin]?.getD false = true := by
  induction origins generalizing m with
  | nil => simp
  | cons first rest ih =>
      rw [List.foldl_cons, ih, GoMap.getElem?_insert]
      by_cases hfirst : first = origin
      · simp [hfirst]
      · have hne : origin ≠ first := fun he => hfirst he.symm
        simp [hfirst, hne]

/-- The map holds exactly the configured origins. -/
theorem originMap_spec (origins : List GoString) (origin : GoString) :
    (originMap origins)[origin]?.getD false = true ↔ origin ∈ origins := by
  rw [originMap, originMap_foldl]
  simp

/-- The headers of a response: none before the handlers, and those for its origin after the rate limit. -/
theorem handle_cors (W : WebApi) (env : RcEnv) (ping : Option GoError) (time : ℚ) (r : ServerRequest) (s : WebServer)
    (c : CorsHeaders) : (W.handle env ping time r s).1.cors = some c ↔
      r.isForHandlers = true ∧ Forwarded s r time ∧ W.corsHeaders r.origin = some c := by
  by_cases hfor : ∃ path, ForHandlers r path
  · obtain ⟨path, hpath⟩ := hfor
    rw [handle_of_forHandlers hpath]
    by_cases hforwarded : Forwarded s r time
    · rw [serve_forwarded hforwarded]
      exact ⟨fun h => ⟨isForHandlers_iff.mpr ⟨path, hpath⟩, hforwarded, h⟩, fun h => h.2.2⟩
    · rw [serve_limited hforwarded]
      constructor
      · intro h
        cases h
      · rintro ⟨-, hno, -⟩
        exact absurd hno hforwarded
  · rw [(@handle_of_not_forHandlers W env ping time r s (not_exists.mp hfor)).2.1]
    constructor
    · intro h
      cases h
    · rintro ⟨hin, -⟩
      exact absurd (isForHandlers_iff.mp hin) hfor

/-! ## Access -/

/-- **The two lists decide.** For every environment that a server comes up with: the check of a login is whether the
    user, or `*`, stands in `AUTH_ALLOWED_GOOGLE_IDS`, where someone always does; and a response carries the CORS
    headers, for the origin of the request and no other, exactly when the request gets past the rate limit and its
    origin stands in `CORS_ALLOWED_URLS`. No blank user and no request without an origin is ever let in by them. -/
theorem configured_access {getenv : Getenv} {env : Env} {D : AuthDeps} {J : JwtLib}
    {loadPublicKey : GoString → Except GoError PublicKey} {W : WebApi} (hload : loadEnv getenv = .ok env)
    (hnew : newWebApi D J loadPublicKey env = .ok W) :
    (∀ userID, W.auth.allowAllGoogleIDs = true ∨ W.auth.allowedGoogleIDs[userID]?.getD false = true ↔
      ListedIn (googleIDsValue getenv) userID ∨ ListedIn (googleIDsValue getenv) (str "*")) ∧
    (∃ userID, ListedIn (googleIDsValue getenv) userID) ∧
    ∀ rc ping time r s c, (W.handle rc ping time r s).1.cors = some c ↔
      r.isForHandlers = true ∧ Forwarded s r time ∧ ListedIn (corsURLsValue getenv) r.origin ∧
        c = ⟨r.origin, str "GET, POST, PUT, DELETE, OPTIONS", str "Content-Type, Authorization", str "true"⟩ := by
  obtain ⟨-, hids, hsome, hurls⟩ := loadEnv_ok hload
  obtain ⟨hauth, horigins⟩ := newWebApi_ok hnew
  refine ⟨fun userID => ?_, ?_, fun rc ping time r s c => ?_⟩
  · have hmaps : W.auth.allowedGoogleIDs = (allowIDs env.allowedGoogleIDs).1 ∧
        W.auth.allowAllGoogleIDs = (allowIDs env.allowedGoogleIDs).2 := newHandler_allows hauth
    rw [hmaps.1, hmaps.2, allowIDs_spec, hids, mem_splitList, mem_splitList]
  -- `LoadEnv` refuses a list without items
  · obtain ⟨userID, rest, hcons⟩ := List.exists_cons_of_ne_nil hsome
    refine ⟨userID, mem_splitList.mp ?_⟩
    rw [← hids, hcons]
    exact List.mem_cons_self
  · rw [handle_cors]
    have hlisted : W.allowedOrigins[r.origin]?.getD false = true ↔ ListedIn (corsURLsValue getenv) r.origin := by
      rw [horigins, originMap_spec, hurls, mem_splitList]
    -- the headers of an origin that is in the map
    have hheaders : W.corsHeaders r.origin = some c ↔ ListedIn (corsURLsValue getenv) r.origin ∧
        c = ⟨r.origin, str "GET, POST, PUT, DELETE, OPTIONS", str "Content-Type, Authorization", str "true"⟩ := by
      unfold WebApi.corsHeaders
      rw [← hlisted]
      split
      · next hin => exact ⟨fun h => ⟨hin, (Option.some.inj h).symm⟩, fun h => congrArg some h.2.symm⟩
      · next hout =>
          constructor
          · intro h
            cases h
          · rintro ⟨hin, -⟩
            exact absurd hin hout
    rw [hheaders]

/-- An environment with two users and the default origin. -/
def sampleGetenv (key : GoString) : GoString :=
  if key = str "AUTH_ALLOWED_GOOGLE_IDS" then str " u ,,v"
  else if key = str "CORS_ALLOWED_URLS" then []
  else str "set"

/-- An environment with a padded list: who may log in is read off its text. -/
theorem configured_access_sample : ∃ env W, loadEnv sampleGetenv = .ok env ∧
    newWebApi sampleDeps sampleJwt (fun pem => .ok (.ed25519 pem)) env = .ok W ∧
    (W.auth.allowAllGoogleIDs = true ∨ W.auth.allowedGoogleIDs[str "v"]?.getD false = true ↔
      ListedIn (str " u ,,v") (str "v") ∨ ListedIn (str " u ,,v") (str "*")) := by
  obtain ⟨env, hload⟩ : ∃ env, loadEnv sampleGetenv = .ok env := ⟨_, rfl⟩
  obtain ⟨W, hnew⟩ : ∃ W, newWebApi sampleDeps sampleJwt (fun pem => .ok (.ed25519 pem)) env = .ok W := ⟨_, rfl⟩
  exact ⟨env, W, hload, hnew, (configured_access hload hnew).1 (str "v")⟩

end RCloneCloud
