import RCloneCloud.Handler.Route

/-!
# `Handler.Query` — the query of a request

`r.URL.Query()` cuts the raw query at its ampersands and each piece at its first equals sign, and undoes the escapes of
both parts. What comes back is what was escaped, as long as the escapes cover the query's own syntax (`parseQuery_join`).

`parseQuery` accepts any query: a piece with an escape that cannot be undone is dropped and the others are kept, as
`Query()` drops the error. The round trip is stated for any set of escaped bytes that covers `querySyntax`, so that it
serves the encoders of different clients.
-/

set_option autoImplicit false

namespace RCloneCloud

open Lib

/-! ## `url.ParseQuery` -/

/-- A plus sign stands for a space in a query. -/
def plusToSpace (b : UInt8) : UInt8 := if b = ascii '+' then ascii ' ' else b

/-- `url.QueryUnescape`: a plus sign is a space. -/
def queryUnescape (s : GoString) : Option GoString := percentDecode (s.map plusToSpace)

/-- `strings.Cut(s, "=")`. -/
def cutEquals (s : GoString) : GoString × GoString :=
  match index s (ascii '=') with
  | some i => (s.take i, s.drop (i + 1))
  | none => (s, [])

/-- `m[key] = append(m[key], value)`. -/
def Values.add (values : Values) (key value : GoString) : Values := values.insert key (values[key]?.getD [] ++ [value])

/-- One piece of the query; a piece that is wrong is left out. -/
def addPiece (values : Values) (piece : GoString) : Values :=
  if ascii ';' ∈ piece ∨ piece = [] then values
  else
    match queryUnescape (cutEquals piece).1, queryUnescape (cutEquals piece).2 with
    | some key, some value => values.add key value
    | _, _ => values

/-- `URL.Query`, which drops the errors. -/
def parseQuery (query : GoString) : Values := (query.splitOn (ascii '&')).foldl addPiece ∅

/-! ## Reading back what was escaped -/

/-- What the query takes for itself: its separators, the space's other way to be written, and the escape. -/
def querySyntax : GoString := str "&=+;%"

/-- A key and a value, as they are written. -/
def joinPair (set : UInt8 → Bool) (pair : GoString × GoString) : GoString :=
  percentEncode set pair.1 ++ ascii '=' :: percentEncode set pair.2

section
variable {set : UInt8 → Bool} {s key value : GoString}

/-- The escapes cover the syntax, so none of it is left. -/
theorem syntax_not_mem (hset : ∀ b ∈ querySyntax, set b = true) {b : UInt8} (hb : b ∈ str "&=+;") (s : GoString) :
    b ∉ percentEncode set s := by
  have hall : ∀ b ∈ str "&=+;", b ∈ querySyntax ∧ percentSign ≠ b ∧ ∀ n < 16, hexDigit n ≠ b := by decide +kernel
  obtain ⟨hin, hsign, hdigit⟩ := hall b hb
  have hother : ∀ c ∈ percentEncode set s, c ≠ b := by
    refine forall_mem_percentEncode hsign hdigit (fun c hc => ?_) s
    rintro rfl
    exact absurd (hset c hin) (Bool.eq_false_iff.mp hc)
  exact fun hmem => hother b hmem rfl

/-- Without plus signs nothing is put in their place. -/
theorem map_plusToSpace (h : ascii '+' ∉ s) : s.map plusToSpace = s := by
  refine (List.map_congr_left fun b hb => ?_).trans (List.map_id s)
  show (if b = ascii '+' then ascii ' ' else b) = b
  refine if_neg ?_
  rintro rfl
  exact h hb

/-- What was escaped comes back, as the percent sign and the plus sign are among what is escaped. -/
theorem queryUnescape_encode (hset : ∀ b ∈ querySyntax, set b = true) (s : GoString) :
    queryUnescape (percentEncode set s) = some s := by
  have hsign : set percentSign = true := hset percentSign (by decide)
  rw [queryUnescape, map_plusToSpace (syntax_not_mem hset (by decide) s)]
  exact percentDecode_encode fun _ => hsign

/-- The key ends at the first equals sign. -/
theorem cutEquals_append (h : ascii '=' ∉ key) : cutEquals (key ++ ascii '=' :: value) = (key, value) := by
  rw [cutEquals, index_append h]
  show (List.take _ _, List.drop _ _) = _
  rw [List.take_left, ← List.drop_drop, List.drop_left]
  rfl

/-- A pair that was escaped and joined is added as it was. -/
theorem addPiece_joinPair (hset : ∀ b ∈ querySyntax, set b = true) (values : Values) (pair : GoString × GoString) :
    addPiece values (joinPair set pair) = values.add pair.1 pair.2 := by
  have hequals := syntax_not_mem (b := ascii '=') hset (by decide)
  have hsemicolon := syntax_not_mem (b := ascii ';') hset (by decide)
  have hplain : ¬ (ascii ';' ∈ joinPair set pair ∨ joinPair set pair = []) := by
    rintro (hin | hnil)
    · rcases List.mem_append.mp hin with hkey | hrest
      · exact hsemicolon _ hkey
      · rcases List.mem_cons.mp hrest with hne | hvalue
        · exact absurd hne (by decide)
        · exact hsemicolon _ hvalue
    · exact List.cons_ne_nil _ _ (List.append_eq_nil_iff.mp hnil).2
  rw [addPiece, if_neg hplain, joinPair, cutEquals_append (hequals _), queryUnescape_encode hset, queryUnescape_encode hset]

/-- **The query is read as it was written**: every key with its values in order. -/
theorem parseQuery_join (hset : ∀ b ∈ querySyntax, set b = true) (pairs : List (GoString × GoString)) :
    parseQuery ([ascii '&'].intercalate (pairs.map (joinPair set))) =
      pairs.foldl (fun values pair => values.add pair.1 pair.2) ∅ := by
  have hampersand := syntax_not_mem (b := ascii '&') hset (by decide)
  have hpieces : ∀ piece ∈ pairs.map (joinPair set), ascii '&' ∉ piece := by
    intro piece hin
    obtain ⟨pair, -, rfl⟩ := List.mem_map.mp hin
    rw [joinPair, List.mem_append, List.mem_cons, not_or, not_or]
    exact ⟨hampersand _, by decide, hampersand _⟩
  cases pairs with
  | nil => rfl
  | cons first rest =>
      rw [parseQuery, List.splitOn_intercalate _ hpieces (List.cons_ne_nil _ _), List.foldl_map]
      simp only [addPiece_joinPair hset]

end

end RCloneCloud
