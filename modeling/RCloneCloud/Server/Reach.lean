import RCloneCloud.Server.Access

/-!
# `Server.Reach` — the mux and the plain route agree

The route to rclone was described without the mux (`apiGet`): a clean path under the pattern. The mux compares
decoded segments instead, and the prefix is stripped from the path and from what was received. Both describe the
same requests (`mux_rclone_iff`), so what is known of a GET on the plain route holds behind the whole chain.

The work is in the two path functions: the mux cuts the escaped path at its slashes and decodes each segment
(`muxPath`), while the handler's route is a prefix of the decoded and of the raw path. `matchRoute_pattern` and
`fitsPath_rclone_iff` turn a match into such a prefix. With `handle_get` a GET can be followed through the whole
server without naming the mux again.
-/

set_option autoImplicit false

namespace RCloneCloud

open Lib

section
variable {method raw path s t : GoString}

/-! ## Segments -/

/-- Only nothing decodes to nothing. -/
theorem percentDecode_eq_nil (h : percentDecode s = some []) : s = [] := by
  -- every decoded byte is a byte of the result
  have hnone : ∀ (d : Option GoString) (c : UInt8), d.map (c :: ·) ≠ some [] := by
    intro d c hd
    obtain ⟨rest, -, hrest⟩ := Option.map_eq_some_iff.mp hd
    cases hrest
  unfold percentDecode at h
  split at h
  · rfl
  · split at h
    · split at h
      · exact absurd h (hnone _ _)
      · cases h
    · exact absurd h (hnone _ _)
  · split at h
    · cases h
    · exact absurd h (hnone _ _)

/-- A segment that starts with a plain text is compared as equal to it only if nothing follows. -/
theorem muxSegment_eq {plain : GoString} (hplain : percentSign ∉ plain) :
    (percentDecode (plain ++ t)).getD (plain ++ t) = plain ↔ t = [] := by
  constructor
  · intro h
    rw [percentDecode_append hplain] at h
    cases hd : percentDecode t with
    | none =>
        rw [hd] at h
        exact List.append_right_eq_self.mp h
    | some d =>
        rw [hd] at h
        obtain rfl : d = [] := List.append_right_eq_self.mp h
        exact percentDecode_eq_nil hd
  · rintro rfl
    have hnil : percentDecode [] = some [] := rfl
    rw [percentDecode_append hplain, hnil]
    exact List.append_nil plain

/-- The route is rooted in its segments. -/
theorem rclonePrefix_eq : rclonePrefix = rooted (ascii '/') Route.rclone.literals := by decide

/-- The segments of the pattern are names. -/
theorem slash_not_mem_literals : ∀ segment ∈ Route.rclone.literals, ascii '/' ∉ segment := by decide

/-- The segments of a path under the route. -/
theorem muxPath_pattern (rest : GoString) :
    muxPath (rclonePattern ++ rest) =
      Route.rclone.literals ++ (splitSlash rest).map fun segment => (percentDecode segment).getD segment := by
  have hslash : ∀ segment ∈ Route.rclone.literals ++ splitSlash rest, ascii '/' ∉ segment := by
    intro segment hin
    rcases List.mem_append.mp hin with hin | hin
    · exact slash_not_mem_literals segment hin
    · exact not_mem_of_mem_splitOn hin
  have hrooted : rclonePattern ++ rest = rooted (ascii '/') (Route.rclone.literals ++ splitSlash rest) := by
    rw [rooted, List.flatMap_append, rclonePattern, rclonePrefix_eq, List.append_assoc]
    show _ = rooted (ascii '/') Route.rclone.literals ++ rooted (ascii '/') (splitSlash rest)
    rw [splitSlash, rooted_splitOn, List.singleton_append]
  -- the names of the pattern decode to themselves
  have hliterals : Route.rclone.literals.map (fun segment => (percentDecode segment).getD segment) = Route.rclone.literals := by
    decide
  rw [muxPath, hrooted, splitSlash_rooted hslash, List.tail_cons, List.map_append, hliterals]

/-- A path that starts as the route does is under it exactly if its segments fit. -/
theorem fitsPath_rclone_iff (h : rclonePrefix <+: s) :
    Route.rclone.fitsPath (muxPath s) = true ↔ rclonePattern <+: s := by
  constructor
  · intro hfits
    obtain ⟨hliterals, hlength⟩ := Bool.and_eq_true_iff.mp hfits
    have hmore : Route.rclone.literals.length < (muxPath s).length := of_decide_eq_true hlength
    obtain ⟨rest, rfl⟩ := h
    cases rest with
    -- the prefix alone has no segment for the wildcard
    | nil =>
        rw [List.append_nil] at hmore
        exact absurd hmore (by decide)
    | cons c rest =>
        by_cases hc : c = ascii '/'
        · subst hc
          exact ⟨rest, by rw [rclonePattern, List.append_assoc, List.singleton_append]⟩
        · -- the third segment goes on after `rclone`
          exfalso
          -- the text up to the next slash belongs to the third segment, which then is not `rclone`
          obtain ⟨first, others, hsplit⟩ := List.exists_cons_of_ne_nil (List.splitOn_ne_nil (ascii '/') (c :: rest))
          have hwhole : rooted (ascii '/') (first :: others) = ascii '/' :: c :: rest := by
            rw [← hsplit, rooted_splitOn]
          have hhead : first ++ rooted (ascii '/') others = c :: rest := (List.cons.inj hwhole).2
          have hfirst : first ≠ [] := by
            rintro rfl
            cases others with
            | nil => cases hhead
            | cons next others => exact hc (List.cons.inj hhead).1.symm
          have hpath : rclonePrefix ++ c :: rest =
              rooted (ascii '/') (str "api" :: str "v1" :: (str "rclone" ++ first) :: others) := by
            rw [← hhead]
            rfl
          have hslash : ∀ segment ∈ str "api" :: str "v1" :: (str "rclone" ++ first) :: others, ascii '/' ∉ segment := by
            have hsegments : ∀ segment ∈ first :: others, ascii '/' ∉ segment := by
              rw [← hsplit]
              exact fun segment hin => not_mem_of_mem_splitOn hin
            have hthird : ascii '/' ∉ str "rclone" ++ first := by
              rw [List.mem_append, not_or]
              exact ⟨by decide, hsegments first List.mem_cons_self⟩
            simp only [List.mem_cons, forall_eq_or_imp]
            exact ⟨by decide, by decide, hthird, fun segment hin => hsegments segment (List.mem_cons_of_mem _ hin)⟩
          have hthree := List.isPrefixOf_iff_prefix.mp hliterals
          rw [muxPath, hpath, splitSlash_rooted hslash, List.tail_cons, List.map_cons, List.map_cons, List.map_cons] at hthree
          have hthird := (List.cons_prefix_cons.mp (List.cons_prefix_cons.mp (List.cons_prefix_cons.mp hthree).2).2).1
          exact hfirst ((muxSegment_eq (by decide)).mp hthird.symm)
  · rintro ⟨rest, rfl⟩
    rw [Route.fitsPath, muxPath_pattern, Bool.and_eq_true]
    refine ⟨List.isPrefixOf_iff_prefix.mpr (List.prefix_append _ _), ?_⟩
    have hne : splitSlash rest ≠ [] := List.splitOn_ne_nil _ _
    have hpos : 0 < (splitSlash rest).length := List.length_pos_of_ne_nil hne
    simpa using hpos

/-! ## The route -/

/-- A path under the route fits no other pattern. -/
theorem matchRoute_pattern (rest : GoString) : matchRoute method (rclonePattern ++ rest) = some .rclone := by
  have hfits : Route.rclone.fitsPath (muxPath (rclonePattern ++ rest)) = true :=
    (fitsPath_rclone_iff ((List.prefix_append rclonePrefix [ascii '/']).trans (List.prefix_append _ rest))).mpr
      (List.prefix_append _ _)
  have hother : ∀ route ∈ [Route.login, .callback, .refresh, .health], route.fitsPath (muxPath (rclonePattern ++ rest)) = false := by
    intro route hin
    have hhead : route.literals.head? ≠ some (str "api") := by
      revert route
      decide
    have hliterals : route.fitsPath (muxPath (rclonePattern ++ rest)) = decide (muxPath (rclonePattern ++ rest) = route.literals) := by
      cases route with
      | rclone => exact absurd rfl hhead
      | _ => rfl
    rw [hliterals, muxPath_pattern]
    refine decide_eq_false fun he => hhead ?_
    rw [← he]
    rfl
  have hrclone : (Route.rclone.fitsMethod method && Route.rclone.fitsPath (muxPath (rclonePattern ++ rest))) = true := by
    rw [hfits]
    rfl
  refine List.find?_eq_some_iff_append.mpr ⟨hrclone, [.login, .callback, .refresh, .health], [], rfl, fun route hin => ?_⟩
  rw [hother route hin, Bool.and_false]
  rfl

/-- The route that is chosen fits the path. -/
theorem matchRoute_fits {route : Route} (h : matchRoute method s = some route) : route.fitsPath (muxPath s) = true := by
  have hboth : (route.fitsMethod method && route.fitsPath (muxPath s)) = true :=
    (List.find?_eq_some_iff_append.mp h).1
  exact (Bool.and_eq_true_iff.mp hboth).2

/-- The path as it was received starts as the route does, so it does as it is escaped. -/
theorem rclonePrefix_escapedPath (hraw : rclonePrefix <+: raw) (hpath : rclonePrefix <+: path) :
    rclonePrefix <+: escapedPath raw path := by
  have hkept : percentEncode shouldEscape rclonePrefix = rclonePrefix := by decide
  unfold escapedPath
  split
  · exact hraw
  · obtain ⟨rest, rfl⟩ := hpath
    rw [percentEncode_append, hkept]
    exact List.prefix_append _ _

/-- **The mux and the plain route**: what gets to the RC handler, for every method whose path is cleaned. -/
theorem mux_rclone_iff (hmethod : method ≠ str "CONNECT") (hdecode : percentDecode raw = some path) (urlPath : GoString) :
    (mux method raw path = .handler .rclone ∧ stripPrefix raw path = some urlPath) ↔
      cleanPath (escapedPath raw path) = escapedPath raw path ∧
        rclonePattern.isPrefixOf (escapedPath raw path) = true ∧ rclonePrefix.isPrefixOf raw = true ∧
        urlPath = path.drop rclonePrefix.length := by
  constructor
  · rintro ⟨hmux, hstrip⟩
    unfold stripPrefix at hstrip
    split at hstrip
    · next hboth =>
        cases hstrip
        obtain ⟨hpath, hraw⟩ := Bool.and_eq_true_iff.mp hboth
        have hstarts := rclonePrefix_escapedPath (List.isPrefixOf_iff_prefix.mp hraw) (List.isPrefixOf_iff_prefix.mp hpath)
        -- the mux picks the route only for a path that is clean already
        unfold mux at hmux
        split at hmux
        · cases hmux
        · dsimp only at hmux
          split at hmux
          · next route hroute =>
              split at hmux
              · cases hmux
              · next hclean =>
                  cases hmux
                  have hsame := not_not.mp hclean
                  have hfits := matchRoute_fits hroute
                  rw [hsame, fitsPath_rclone_iff hstarts] at hfits
                  exact ⟨hsame, List.isPrefixOf_iff_prefix.mpr hfits, hraw, rfl⟩
          · split at hmux
            · cases hmux
            · split at hmux
              · cases hmux
              · split at hmux <;> cases hmux
    · cases hstrip
  · rintro ⟨hclean, hpattern, hraw, rfl⟩
    -- conversely the pattern is matched and the path is clean, so there is no redirect
    obtain ⟨rest, hrest⟩ := List.isPrefixOf_iff_prefix.mp hpattern
    have hstar : raw ≠ [ascii '*'] := by
      rintro rfl
      exact absurd hraw (by decide)
    constructor
    · rw [mux, if_neg hstar]
      dsimp only
      rw [if_neg hmethod, hclean, ← hrest, matchRoute_pattern]
      exact if_neg (not_not.mpr rfl)
    · -- what is received under the route decodes to a path under it
      have hpath : rclonePrefix.isPrefixOf path = true := by
        obtain ⟨tail, rfl⟩ := List.isPrefixOf_iff_prefix.mp hraw
        have hplain : percentSign ∉ rclonePrefix := by decide
        rw [percentDecode_append hplain] at hdecode
        obtain ⟨d, -, rfl⟩ := Option.map_eq_some_iff.mp hdecode
        exact List.isPrefixOf_iff_prefix.mpr (List.prefix_append _ _)
      rw [stripPrefix, hpath, hraw, Bool.and_self, if_pos rfl]

/-- Where the plain route leads. -/
theorem apiGet_eq_handled {env : RcEnv} {reply : Reply} :
    apiGet env raw = .handled reply ↔ ∃ path, percentDecode raw = some path ∧
      cleanPath (escapedPath raw path) = escapedPath raw path ∧
      rclonePattern.isPrefixOf (escapedPath raw path) = true ∧ rclonePrefix.isPrefixOf raw = true ∧
      serveHTTP env (getRequest (path.drop rclonePrefix.length)) = reply := by
  unfold apiGet
  constructor
  · intro h
    split at h
    · cases h
    · next path hdecode =>
        dsimp only at h
        split at h
        · cases h
        · next hclean =>
            split at h
            · next hboth =>
                obtain ⟨hpattern, hraw⟩ := Bool.and_eq_true_iff.mp hboth
                exact ⟨path, hdecode, not_not.mp hclean, hpattern, hraw, ApiReply.handled.inj h⟩
            · cases h
  · rintro ⟨path, hdecode, hclean, hpattern, hraw, rfl⟩
    rw [hdecode]
    dsimp only
    rw [if_neg (not_not.mpr hclean), hpattern, hraw, Bool.and_self, if_pos rfl]

end

/-! ## Behind the chain -/

section
variable {W : WebApi} {env : RcEnv} {ping : Option GoError} {time : ℚ} {r : ServerRequest} {s : WebServer} {claims : TokenClaims}
  {reply : Reply}

/-- A request to rclone that the chain lets through, by a method that is neither OPTIONS nor CONNECT: what counts is
    its path. -/
theorem handle_rclone_of_path (hmethod : r.method ≠ str "OPTIONS" ∧ r.method ≠ str "CONNECT") (hforwarded : Forwarded s r time)
    (hbearer : bearerMiddleware W.jwt W.publicKey ⌊time⌋ r.authorization = .ok claims) :
    (W.handle env ping time r s).1.reply = .rclone claims reply ↔ ∃ path, percentDecode r.rawPath = some path ∧
      cleanPath (escapedPath r.rawPath path) = escapedPath r.rawPath path ∧
      rclonePattern.isPrefixOf (escapedPath r.rawPath path) = true ∧ rclonePrefix.isPrefixOf r.rawPath = true ∧
      serveHTTP env (r.rc (path.drop rclonePrefix.length)) = reply := by
  rw [handle_rclone]
  constructor
  · rintro ⟨path, hpath, -, -, hmux, -, urlPath, hstrip, hreply⟩
    obtain ⟨hclean, hpattern, hraw, rfl⟩ := (mux_rclone_iff hmethod.2 hpath.1 urlPath).mp ⟨hmux, hstrip⟩
    exact ⟨path, hpath.1, hclean, hpattern, hraw, hreply⟩
  · rintro ⟨path, hdecode, hclean, hpattern, hraw, hreply⟩
    obtain ⟨hmux, hstrip⟩ := (mux_rclone_iff hmethod.2 hdecode _).mpr ⟨hclean, hpattern, hraw, rfl⟩
    exact ⟨path, ⟨hdecode, fun hown => hmethod.1 hown.1⟩, hforwarded, hmethod.1, hmux, hbearer, _, hstrip, hreply⟩

/-- **The whole server and the plain route.** A GET that gets past the rate limit with a verified token is answered by
    the server exactly as the plain route answers its path. -/
theorem handle_get (hget : r.method = str "GET") (hforwarded : Forwarded s r time)
    (hbearer : bearerMiddleware W.jwt W.publicKey ⌊time⌋ r.authorization = .ok claims) :
    (W.handle env ping time r s).1.reply = .rclone claims reply ↔ apiGet env r.rawPath = .handled reply := by
  have hmethod : r.method ≠ str "OPTIONS" ∧ r.method ≠ str "CONNECT" := by
    rw [hget]
    decide
  have hserve : ∀ urlPath, serveHTTP env (r.rc urlPath) = serveHTTP env (getRequest urlPath) := by
    intro urlPath
    have hpost : (r.rc urlPath).method ≠ str "POST" := by
      rw [show (r.rc urlPath).method = r.method from rfl, hget]
      decide
    have hfirst : (r.rc urlPath).method = str "GET" ∨ (r.rc urlPath).method = str "HEAD" := .inl hget
    rw [serveHTTP_get, serveHTTP, if_neg hpost, if_pos hfirst]
    rfl
  rw [handle_rclone_of_path hmethod hforwarded hbearer, apiGet_eq_handled]
  simp only [hserve]

end

end RCloneCloud
