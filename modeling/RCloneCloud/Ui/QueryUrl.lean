import RCloneCloud.Handler.Query
import RCloneCloud.Ui.RequestUrl

/-!
# `Ui.QueryUrl` — the query of a url, from the page to the handler

The page writes a query as escaped pairs; the browser cuts the url at its marks and escapes what a query may not have; the
server cuts the query and undoes the escapes. What the handler reads is the pairs of the page (`parseQuery_queryOf`).

Three parties handle the text, and each may change it: the page escapes with its own set (`uriComponentSet`), the
browser strips and escapes with another (`querySet`), the server decodes. What the page writes is plain (`PlainText`),
so the browser has nothing to change, and the page's set covers the query's syntax, so the server's decoding is the
inverse.
-/

set_option autoImplicit false

namespace RCloneCloud

open Lib

/-! ## What the browser makes of a url -/

/-- The text of a url without what the parser drops of it. -/
def urlText (rest : JsString) : JsString :=
  (rest.rdropWhile fun c => c ≤ ' ').filter fun c => !(js "\t\n\r").contains c

/-- The part of the text that is the query. -/
def queryText (rest : JsString) : JsString :=
  (((urlText rest).takeWhile fun c => c ≠ '#').dropWhile fun c => c ≠ '?').drop 1

/-- The bytes escaped in the query of an http url. -/
def querySet (b : UInt8) : Bool := b ≤ 0x20 || 0x7e < b || (str "\"#<>'").contains b

/-- The query of the request, given the text of the url after its origin. -/
def requestQuery (rest : JsString) : Bytes := percentEncode querySet (utf8Encode (queryText rest))

/-- The bytes that `encodeURIComponent` escapes. -/
def uriComponentSet (b : UInt8) : Bool := !(isAlphanumeric b || (str "-_.!~*'()").contains b)

/-- The text with every byte escaped that is neither a letter nor a digit nor one of a few marks. -/
def encodeURIComponent (s : JsString) : JsString :=
  (percentEncode uriComponentSet (utf8Encode s)).map fun b => Char.ofNat b.toNat

/-- Graphic characters that neither start nor end a query. -/
def PlainText (text : JsString) : Prop := ∀ c ∈ text, ' ' < c ∧ c ≠ '#' ∧ c ≠ '?'

/-- A query of pairs, both parts escaped. -/
def queryOf (pairs : List (JsString × JsString)) : JsString :=
  ['&'].intercalate (pairs.map fun pair => encodeURIComponent pair.1 ++ '=' :: encodeURIComponent pair.2)

/-! ## What is left as it is -/

section
variable {rest : JsString} {s : Bytes}

/-- A text of visible characters has nothing to lose. -/
theorem urlText_of_graphic (h : ∀ c ∈ rest, ' ' < c) : urlText rest = rest := by
  have htrim : rest.rdropWhile (fun c => c ≤ ' ') = rest := by
    refine List.rdropWhile_eq_self_iff.mpr fun hne => ?_
    have hlast := h _ (List.getLast_mem hne)
    simpa using hlast
  have hblank : (js "\t\n\r").all (fun c => c ≤ ' ') = true := rfl
  rw [urlText, htrim, List.filter_eq_self]
  intro c hc
  rw [Bool.not_eq_true', List.contains_eq_mem, decide_eq_false_iff_not]
  intro hin
  exact absurd (of_decide_eq_true (List.all_eq_true.mp hblank c hin)) (not_le_of_gt (h c hc))

/-- Bytes of ASCII characters, as characters and back. -/
theorem utf8Encode_bytes (h : ∀ b ∈ s, b.toNat < 128) : utf8Encode (s.map fun b => Char.ofNat b.toNat) = s := by
  induction s with
  | nil => rfl
  | cons b rest ih =>
      obtain ⟨hb, hrest⟩ := List.forall_mem_cons.mp h
      have hchar : (Char.ofNat b.toNat).toNat = b.toNat := by
        rw [Char.toNat_ofNat, if_pos (.inl (by omega))]
      have hfirst : String.utf8EncodeChar (Char.ofNat b.toNat) = [b] := by
        rw [utf8EncodeChar_ascii (by omega), hchar, UInt8.ofNat_toNat]
      show String.utf8EncodeChar (Char.ofNat b.toNat) ++ utf8Encode (rest.map fun b => Char.ofNat b.toNat) = b :: rest
      rw [hfirst, ih hrest, List.singleton_append]

/-- A byte of a component is a graphic character that neither starts nor ends a query. -/
def isPlainByte (b : UInt8) : Bool := 0x20 < b && b < 0x7f && b ≠ ascii '#' && b ≠ ascii '?'

/-- An escaped text is made of plain bytes. -/
theorem plain_component (s : JsString) : ∀ b ∈ percentEncode uriComponentSet (utf8Encode s), isPlainByte b = true := by
  have hall : ∀ n < 256, uriComponentSet (UInt8.ofNat n) = false → isPlainByte (UInt8.ofNat n) = true := by decide +kernel
  have hset : ∀ b : UInt8, uriComponentSet b = false → isPlainByte b = true := by
    intro b hb
    have hlt : b.toNat < 256 := b.toNat_lt
    rw [← @UInt8.ofNat_toNat b] at hb ⊢
    exact hall _ hlt hb
  have hsign : isPlainByte percentSign = true := rfl
  have hdigit : ∀ n < 16, isPlainByte (hexDigit n) = true := by decide +kernel
  exact forall_mem_percentEncode hsign hdigit hset (utf8Encode s)

/-- Escaping can be done on characters or on bytes. -/
theorem utf8Encode_encodeURIComponent (s : JsString) :
    utf8Encode (encodeURIComponent s) = percentEncode uriComponentSet (utf8Encode s) := by
  refine utf8Encode_bytes fun b hb => ?_
  have hplain := plain_component s b hb
  simp only [isPlainByte, Bool.and_eq_true, decide_eq_true_eq] at hplain
  have hlt : b.toNat < 127 := hplain.1.1.2
  omega

/-- A character of a component. -/
theorem plain_encodeURIComponent (s : JsString) : PlainText (encodeURIComponent s) := by
  intro c hc
  obtain ⟨b, hb, rfl⟩ := List.mem_map.mp hc
  have hall : ∀ n < 256, isPlainByte (UInt8.ofNat n) = true →
      ' ' < Char.ofNat n ∧ Char.ofNat n ≠ '#' ∧ Char.ofNat n ≠ '?' := by decide +kernel
  have hplain := plain_component s b hb
  rw [← @UInt8.ofNat_toNat b] at hplain
  exact hall _ b.toNat_lt hplain

/-- Plain texts can be put together. -/
theorem PlainText.append {text more : JsString} (h : PlainText text) (hmore : PlainText more) : PlainText (text ++ more) := by
  intro c hc
  rcases List.mem_append.mp hc with hleft | hright
  · exact h c hleft
  · exact hmore c hright

/-- A condition on the separator and on the pieces is one on the joined text. -/
theorem forall_mem_intercalate {α : Type} {P : α → Prop} {sep : α} {pieces : List (List α)} (hsep : P sep)
    (h : ∀ piece ∈ pieces, ∀ a ∈ piece, P a) : ∀ a ∈ [sep].intercalate pieces, P a := by
  induction pieces with
  | nil =>
      intro a ha
      cases ha
  | cons first rest ih =>
      obtain ⟨hfirst, hrest⟩ := List.forall_mem_cons.mp h
      cases rest with
      | nil => simpa [List.intercalate] using hfirst
      | cons second rest =>
          have hsplit : [sep].intercalate (first :: second :: rest) = first ++ sep :: [sep].intercalate (second :: rest) := by
            simp [List.intercalate]
          intro a ha
          rw [hsplit, List.mem_append, List.mem_cons] at ha
          rcases ha with hleft | rfl | hright
          · exact hfirst a hleft
          · exact hsep
          · exact ih hrest a hright

/-- What writes the separator as the separator is applied piece by piece. -/
theorem flatMap_intercalate {α β : Type} {f : α → List β} {sep : α} {sep' : β} (hsep : f sep = [sep']) (pieces : List (List α)) :
    ([sep].intercalate pieces).flatMap f = [sep'].intercalate (pieces.map fun piece => piece.flatMap f) := by
  induction pieces with
  | nil => rfl
  | cons first rest ih =>
      cases rest with
      | nil => simp [List.intercalate]
      | cons second rest =>
          simp only [List.intercalate, List.intersperse, List.flatten_cons, List.flatMap_append, List.map_cons,
            List.flatMap_singleton, hsep] at ih ⊢
          rw [ih]

/-- A query of escaped pairs is plain. -/
theorem plain_queryOf (pairs : List (JsString × JsString)) : PlainText (queryOf pairs) := by
  refine forall_mem_intercalate (by decide) fun piece hpiece => ?_
  obtain ⟨pair, -, rfl⟩ := List.mem_map.mp hpiece
  have hequals : PlainText ['='] := by
    intro c hc
    rw [List.mem_singleton.mp hc]
    decide
  exact (plain_encodeURIComponent pair.1).append (hequals.append (plain_encodeURIComponent pair.2))

/-! ## The parts of a url -/

section
variable {path query : JsString}

/-- A url of a plain path and a plain query is kept as it is. -/
theorem urlText_append (hpath : PlainText path) (hquery : PlainText query) :
    urlText (path ++ '?' :: query) = path ++ '?' :: query := by
  have hmark : ' ' < '?' := by decide
  refine urlText_of_graphic fun c hc => ?_
  rcases List.mem_append.mp hc with hleft | hright
  · exact (hpath c hleft).1
  · rcases List.mem_cons.mp hright with rfl | hin
    · exact hmark
    · exact (hquery c hin).1

/-- Its path is what stands before the question mark. -/
theorem pathText_append (hpath : PlainText path) (hquery : PlainText query) : pathText (path ++ '?' :: query) = path := by
  show (urlText _).takeWhile _ = path
  have hkept : ∀ c ∈ path, (!(js "#?").contains c) = true := by
    intro c hc
    obtain ⟨-, hsign, hmark⟩ := hpath c hc
    simp [js, hsign, hmark]
  rw [urlText_append hpath hquery, List.takeWhile_append_of_pos hkept, List.takeWhile_cons_of_neg (by decide), List.append_nil]

/-- Its query is what stands behind it. -/
theorem queryText_append (hpath : PlainText path) (hquery : PlainText query) : queryText (path ++ '?' :: query) = query := by
  have hsign : ∀ c ∈ path ++ '?' :: query, decide (c ≠ '#') = true := by
    intro c hc
    rcases List.mem_append.mp hc with hleft | hright
    · exact decide_eq_true (hpath c hleft).2.1
    · rcases List.mem_cons.mp hright with rfl | hin
      · rfl
      · exact decide_eq_true (hquery c hin).2.1
  have hmark : ∀ c ∈ path, decide (c ≠ '?') = true := fun c hc => decide_eq_true (hpath c hc).2.2
  rw [queryText, urlText_append hpath hquery, List.takeWhile_eq_self_iff.mpr hsign, List.dropWhile_append_of_pos hmark,
    List.dropWhile_cons_of_neg (by decide)]
  rfl

/-- The bytes that are escaped in a component by the time the server sees it. -/
def componentSet (b : UInt8) : Bool := uriComponentSet b || querySet b

/-- **The query of the request**, as the server's query has pairs. -/
theorem requestQuery_queryOf (hpath : PlainText path) (pairs : List (JsString × JsString)) :
    requestQuery (path ++ '?' :: queryOf pairs) =
      [ascii '&'].intercalate ((pairs.map fun pair => (utf8Encode pair.1, utf8Encode pair.2)).map (joinPair componentSet)) := by
  have hdigit : ∀ n < 16, querySet (hexDigit n) = false := by decide +kernel
  have hpart : ∀ s, percentEncode querySet (utf8Encode (encodeURIComponent s)) = percentEncode componentSet (utf8Encode s) := by
    intro s
    rw [utf8Encode_encodeURIComponent]
    exact percentEncode_percentEncode rfl hdigit (utf8Encode s)
  have hequals : ∀ s t : JsString, percentEncode querySet (utf8Encode (s ++ '=' :: t)) =
      percentEncode querySet (utf8Encode s) ++ ascii '=' :: percentEncode querySet (utf8Encode t) := by
    intro s t
    have hsign : percentEncode querySet (utf8Encode ['=']) = [ascii '='] := by decide +kernel
    rw [← List.singleton_append, utf8Encode_append, utf8Encode_append, percentEncode_append, percentEncode_append, hsign,
      List.singleton_append]
  have hutf8 : String.utf8EncodeChar '&' = [ascii '&'] := rfl
  have hkept : (if querySet (ascii '&') then percentEncodeByte (ascii '&') else [ascii '&']) = [ascii '&'] := by decide +kernel
  rw [requestQuery, queryText_append hpath (plain_queryOf pairs), queryOf, utf8Encode, flatMap_intercalate hutf8, percentEncode,
    flatMap_intercalate (f := fun b => if querySet b then percentEncodeByte b else [b]) hkept, List.map_map, List.map_map, List.map_map]
  refine congrArg _ (List.map_congr_left fun pair _ => ?_)
  show percentEncode querySet (utf8Encode (encodeURIComponent pair.1 ++ '=' :: encodeURIComponent pair.2)) = _
  rw [hequals, hpart, hpart]
  rfl

/-- **The handler reads what the page wrote.** -/
theorem parseQuery_queryOf (hpath : PlainText path) (pairs : List (JsString × JsString)) :
    parseQuery (requestQuery (path ++ '?' :: queryOf pairs)) =
      pairs.foldl (fun values pair => values.add (utf8Encode pair.1) (utf8Encode pair.2)) ∅ := by
  have hset : ∀ b ∈ querySyntax, componentSet b = true := by decide +kernel
  rw [requestQuery_queryOf hpath, parseQuery_join hset, List.foldl_map]

end

end

end RCloneCloud
