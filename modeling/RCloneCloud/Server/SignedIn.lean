import RCloneCloud.Server.Challenge
import RCloneCloud.Server.ServiceCalls

/-!
# `Server.SignedIn` — what a signed-in page can do

The token of a page goes from the signature to the header of every call: it is decoded out of JSON, put behind `Bearer`,
trimmed by the server and verified. So a page that shows as signed in is served as the user who has consented in this
browser, exactly until the token's time is over, whatever calls it makes (`signed_in_page_served`).

What is new here is the way of a token through texts: it is made of characters that need no escape (`CompactTokens`,
the compact form that the library documents), so JSON, the header and the trimming all give it back. Until the next
answer, or until the tab is left, nothing in a run changes the token of a tab (`kept_since_answer`).
-/

set_option autoImplicit false

namespace RCloneCloud

open Lib AuthHandler

/-! ## Tokens -/

/-- A compact token is URL-safe (RFC 7519). -/
def CompactTokens (J : JwtLib) : Prop :=
  ∀ m key c raw, J.sign m key c = .ok raw → ∃ text : JsString, raw = utf8Encode text ∧ text ≠ [] ∧ ∀ x ∈ text, unreserved x = true

section
variable {J : JwtLib} {privateKey : PrivateKey} {now ttl : Int} {userID email raw : GoString}

/-- A token that the handler signs has the compact form. -/
theorem signToken_compact (hcompact : CompactTokens J) (h : signToken J privateKey now ttl userID email = .ok raw) :
    ∃ text : JsString, raw = utf8Encode text ∧ text ≠ [] ∧ ∀ x ∈ text, unreserved x = true := by
  unfold signToken at h
  cases privateKey with
  | rsa key => exact hcompact _ _ _ _ h
  | ed25519 key => exact hcompact _ _ _ _ h
  | other type => cases h

/-- A character that needs no escape is no white space and no control character. -/
theorem unreserved_graphic {c : Char} (hc : unreserved c = true) : 32 < c.toNat := by
  by_contra hle
  have hall : ∀ n < 33, unreserved (Char.ofNat n) = false := by decide +kernel
  have hno := hall c.toNat (by omega)
  rw [Char.ofNat_toNat, hc] at hno
  cases hno

/-- **The token in the header is the token signed**: nothing of it is trimmed. -/
theorem trimSpace_token (hcompact : CompactTokens J) (h : signToken J privateKey now ttl userID email = .ok raw) :
    trimSpace (utf8Encode (utf8Decode raw)) = raw ∧ raw ≠ [] := by
  obtain ⟨text, rfl, hne, htext⟩ := signToken_compact hcompact h
  refine ⟨?_, utf8Encode_ne_nil hne⟩
  rw [utf8Decode_encode]
  refine trimSpace_of_trimmed (trimmed_of_graphic fun b hb => ?_)
  obtain ⟨c, hc, hbyte⟩ := List.mem_flatMap.mp hb
  have hlow := unreserved_graphic (htext c hc)
  have hhigh := unreserved_ascii (htext c hc)
  rw [utf8EncodeChar_ascii hhigh, List.mem_singleton] at hbyte
  subst hbyte
  have hnat : (UInt8.ofNat c.toNat).toNat = c.toNat := by
    rw [UInt8.toNat_ofNat', Nat.mod_eq_of_lt (by omega)]
  refine ⟨UInt8.lt_iff_toNat_lt.mpr ?_, UInt8.lt_iff_toNat_lt.mpr ?_⟩
  · rw [hnat]
    exact hlow
  · rw [hnat]
    exact hhigh

end

/-! ## The calls -/

/-- A browser forgets no code and no verifier. -/
theorem kept_since_answer {E : LoginEnv} {m m' s : LoginFlow} {a : LoginFlowAct} {after : List LoginFlowAct}
    (hstep : LoginFlow.step E m a = some m') (hafter : run (LoginFlow.step E) m' after = some s) :
    m.codes ⊆ s.codes ∧ m.verifiers ⊆ s.verifiers := by
  have hkeep : ∀ k a k', (m.codes ⊆ k.codes ∧ m.verifiers ⊆ k.verifiers) → True → LoginFlow.step E k a = some k' →
      m.codes ⊆ k'.codes ∧ m.verifiers ⊆ k'.verifiers := by
    intro k a k' ⟨hcodes, hverifiers⟩ _ hk
    have hspec := LoginFlow.step_spec hk
    exact ⟨fun _ hin => hspec.codes_subset (hcodes hin), fun _ hin => hspec.verifiers_subset (hverifiers hin)⟩
  have hfirst := hkeep m a m' ⟨List.Subset.refl _, List.Subset.refl _⟩ trivial hstep
  exact run_invariant hkeep hfirst (along_of_forall (fun _ _ => trivial) _ _) hafter

/-- **A signed-in page is served as who has consented here, until the token's time is over.** In every run of the browser
    whose answers are honest, a page with a token holds one for a user who is let in, by a code issued to a verifier of this
    browser (or to none); and in any state of the server, any call of the page starts its job exactly if it is forwarded,
    within the limit on a body and allowed, and the token's time is not over, and then with the claims of that user. -/
theorem signed_in_page_served {E : LoginEnv} {W : WebApi} {as : List LoginFlowAct} {s : LoginFlow} {tab : ℕ} {b : Browser}
    {token : JsString} (hcompact : CompactTokens W.jwt) (hpair : W.jwt.publicKey E.handler.privateKey = some W.publicKey)
    (hhonest : Along (LoginFlow.step E) (HonestAnswers E W.jwt) LoginFlow.init as)
    (hrun : run (LoginFlow.step E) LoginFlow.init as = some s)
    (htexts : ∀ issued ∈ s.codes, ValidUtf8 issued.userID ∧ ValidUtf8 issued.email)
    (hpage : s.tabs tab = .shows b) (htoken : b.authToken = some token) :
    ∃ issued ∈ s.codes, ∃ codeVerifier issuedAt, (codeVerifier ∈ s.verifiers ∨ codeVerifier = []) ∧
      issued.Fits E.digest (utf8Encode codeVerifier) ∧ E.handler.LetsIn issued.userID ∧
      ∀ (env : RcEnv) (ping : Option GoError) (time : ℚ) (boundary : GoString) (browser : ServerRequest) (st : WebServer)
        (call : WebApiCall) (claims : TokenClaims) (path : GoString) (p : Params),
        (W.handle env ping time (call.request token boundary browser) st).1.reply = .rclone claims (.newJob path p) ↔
          Forwarded st browser time ∧
          (⌊time⌋ < issuedAt + E.handler.tokenTTL ∧
            claims = (jwtClaims issuedAt E.handler.tokenTTL issued.userID issued.email).decoded) ∧
          call.Fits ∧ path = str call.rcCall.method ∧ call.Allowed env.sections ∧
          ∃ rc, env.calls path = some rc ∧ addHandles rc (some (mergeMembers ∅ call.rcCall.params)) = some p := by
  obtain ⟨m, m', time, w, failure, r, hpasses, hwaiting, rfl, rfl⟩ := token_from_answer hrun hpage htoken
  obtain ⟨before, after, -, hbefore, hstep, hafter⟩ := id hpasses
  obtain ⟨req, issued, codeVerifier, response, hredeemed⟩ :=
    answer_redeems time (loginFlowInv_run hbefore) hwaiting (hhonest.passes hpasses) htoken
  -- what the browser had at the answer it still has
  obtain ⟨hcodes, hverifiers⟩ := kept_since_answer hstep hafter
  have hfits : issued.Fits E.digest (utf8Encode codeVerifier) := hredeemed.verifier.1 ▸ hredeemed.fits
  have hin : issued ∈ s.codes := hcodes hredeemed.code.1
  refine ⟨issued, hin, codeVerifier, w.now, hredeemed.verifier.2.imp_left fun hv => hverifiers hv, hfits, hredeemed.letsIn, ?_⟩
  intro env ping time boundary browser st call claims path p
  obtain rfl := hredeemed.token
  obtain ⟨htrim, hne⟩ := trimSpace_token hcompact hredeemed.signed
  obtain ⟨hsub, hemail⟩ := htexts issued hin
  rw [serviceCall_newJob, htrim, verifyToken_signed hsub hemail hredeemed.signed hpair]
  constructor
  · rintro ⟨hforwarded, ⟨-, hclaims⟩, hrest⟩
    exact ⟨hforwarded, hclaims, hrest⟩
  · rintro ⟨hforwarded, hclaims, hrest⟩
    exact ⟨hforwarded, ⟨hne, hclaims⟩, hrest⟩

/-! ### After the login of `sampleLogin_run` -/

/-- The sample's only token is three letters. -/
theorem sampleJwt_compact : CompactTokens sampleJwt := by
  intro m key c raw h
  have hsign : sampleSign m key c = .ok raw := h
  unfold sampleSign at hsign
  split at hsign
  · cases hsign
    have hall : (js "jwt").all unreserved = true := by decide +kernel
    exact ⟨js "jwt", by decide +kernel, List.cons_ne_nil _ _, fun x hx => List.all_eq_true.mp hall x hx⟩
  · cases hsign

/-- The sample's signed-in page belongs to the user who consented in it. -/
theorem signed_in_page_served_sample : ∃ issued ∈ sampleSignedIn.codes, ∃ codeVerifier,
    (codeVerifier ∈ sampleSignedIn.verifiers ∨ codeVerifier = []) ∧
    issued.Fits sampleLoginEnv.digest (utf8Encode codeVerifier) ∧ sampleLoginEnv.handler.LetsIn issued.userID := by
  have hcodes : sampleSignedIn.codes = [sampleCode] := sampleSent_codes
  have htexts : ∀ issued ∈ sampleSignedIn.codes, ValidUtf8 issued.userID ∧ ValidUtf8 issued.email := by
    intro issued hin
    rw [hcodes] at hin
    rw [List.mem_singleton.mp hin]
    exact validUtf8_u
  obtain ⟨issued, hin, codeVerifier, -, hverifier, hfits, hletsIn, -⟩ :=
    signed_in_page_served (W := sampleApi) sampleJwt_compact rfl sampleLogin_honest sampleLogin_run htexts tabs_answer
      (by with_unfolding_all rfl)
  exact ⟨issued, hin, codeVerifier, hverifier, hfits, hletsIn⟩

end RCloneCloud
