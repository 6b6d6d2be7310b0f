import RCloneCloud.Ui.FolderLink
import RCloneCloud.Lib.Percent

/-!
# `Ui.RequestUrl` — the path a browser requests for a url

The url's text after the origin is cut at the query and the fragment, cleaned of what may not stand in a url,
split into segments, walked, and escaped. All of it but the escape loses bytes or changes nothing, and a
backslash counts as a slash: `parsePath_kept`.

The only step that adds bytes is the escape, so a path whose length is kept up to it has been changed nowhere: this is
how `parsePath_kept` decides, for any text, whether what is requested is what was written. The weight of a segment
counts its slash (`segmentWeight`), which makes the lengths of paths sums over segments.
-/

set_option autoImplicit false

namespace RCloneCloud

open Lib

/-! ## The parser -/

/-- The ways to write a dot. -/
def dots : List JsString := [js ".", js "%2e", js "%2E"]

/-- What a segment of the path does; an empty one is kept. -/
def segmentMove (segment : JsString) : Move :=
  if dots.any fun d => dots.any fun e => d ++ e == segment then .up
  else if dots.contains segment then .stay
  else .down

/-- A path that ends with a dot segment ends with a slash. -/
def resolveSegments (segments : List JsString) : List JsString :=
  resolve segmentMove [] segments ++
    if segments.getLast?.any fun last => segmentMove last ≠ .down then [[]] else []

/-- The part of the text that is the path. -/
def pathText (rest : JsString) : JsString :=
  ((rest.rdropWhile fun c => c ≤ ' ').filter fun c => !(js "\t\n\r").contains c).takeWhile fun c =>
    !(js "#?").contains c

/-- A backslash counts as a slash. -/
def toSlashes (text : JsString) : JsString := text.map fun c => if c = '\\' then '/' else c

/-- The path of the parsed url, before it is escaped. -/
def parsePath (rest : JsString) : JsString :=
  rooted '/' (resolveSegments ((toSlashes (pathText rest)).splitOn '/').tail)

/-- The bytes escaped in a path; the percent sign is none of them. -/
def pathSet (b : UInt8) : Bool := b ≤ 0x1f || 0x7e < b || (str " \"#<>?^`\x7b\x7d").contains b

/-- The path of the request, given the text of the url after its origin. -/
def requestPath (rest : JsString) : Bytes := percentEncode pathSet (utf8Encode (parsePath rest))

/-! ## What the parser keeps -/

section
variable {rest : JsString} {segments : List JsString}

/-- The bytes of a segment and of the slash before it. -/
def segmentWeight (segment : JsString) : Nat := (utf8Encode segment).length + 1

/-- The length of a path is the sum of its segments' weights. -/
theorem length_rooted (segments : List JsString) :
    (utf8Encode (rooted '/' segments)).length = (segments.map segmentWeight).sum := by
  induction segments with
  | nil => rfl
  | cons segment others ih =>
      have hcons : rooted '/' (segment :: others) = ['/'] ++ (segment ++ rooted '/' others) := rfl
      have hslash : (utf8Encode ['/']).length = 1 := rfl
      rw [hcons, utf8Encode_append, utf8Encode_append, List.length_append, List.length_append, ih, hslash,
        List.map_cons, List.sum_cons, segmentWeight]
      omega

/-- A dot segment has a character. -/
theorem segmentWeight_dots {segment : JsString} (h : segmentMove segment ≠ .down) : 2 ≤ segmentWeight segment := by
  have hne : segment ≠ [] := by
    rintro rfl
    exact h rfl
  obtain ⟨c, others, rfl⟩ := List.exists_cons_of_ne_nil hne
  have hpos : 0 < c.utf8Size := c.utf8Size_pos
  rw [segmentWeight, length_utf8Encode, List.map_cons, List.sum_cons]
  omega

/-- **Walking loses bytes**, unless no segment moves up or stays. -/
theorem resolveSegments_weight (segments : List JsString) :
    ((resolveSegments segments).map segmentWeight).sum ≤ (segments.map segmentWeight).sum ∧
      ((segments.map segmentWeight).sum ≤ ((resolveSegments segments).map segmentWeight).sum →
        ∀ segment ∈ segments, segmentMove segment = Move.down) := by
  have hcost := @resolve_weight _ segmentMove [] segments segmentWeight
  have hlost : ∀ dot ∈ segments, segmentMove dot ≠ .down →
      2 ≤ ((segments.filter fun x => segmentMove x ≠ .down).map segmentWeight).sum := by
    intro dot hmem hdot
    have hin : segmentWeight dot ∈ (segments.filter fun x => segmentMove x ≠ .down).map segmentWeight :=
      List.mem_map_of_mem (List.mem_filter.mpr ⟨hmem, decide_eq_true hdot⟩)
    exact (segmentWeight_dots hdot).trans (List.le_sum_of_mem hin)
  rw [resolveSegments, List.map_append, List.sum_append]
  simp only [List.map_nil, List.sum_nil, Nat.zero_add] at hcost
  split
  · next hany =>
      -- the slash it ends with does not make up for the dot segment
      obtain ⟨last, hlast, hdots⟩ := (Option.any_eq_true _ _).mp hany
      have htwo := hlost last (List.mem_of_getLast? hlast) (of_decide_eq_true hdots)
      have hone : (([[]] : List JsString).map segmentWeight).sum = 1 := rfl
      exact ⟨by omega, fun h => by omega⟩
  · have hnone : (([] : List JsString).map segmentWeight).sum = 0 := rfl
    refine ⟨by omega, fun h segment hsegment => ?_⟩
    by_contra hdots
    have htwo := hlost segment hsegment hdots
    omega

/-- Segments that only go down are kept. -/
theorem resolveSegments_of_down (h : ∀ segment ∈ segments, segmentMove segment = .down) :
    resolveSegments segments = segments := by
  have hlast : ¬ segments.getLast?.any fun last => segmentMove last ≠ .down := by
    intro hany
    obtain ⟨last, hlast, hdots⟩ := Option.any_eq_true _ _ |>.mp hany
    exact of_decide_eq_true hdots (h last (List.mem_of_getLast? hlast))
  rw [resolveSegments, resolve_of_down h, if_neg hlast, List.nil_append, List.append_nil]

/-- Cutting and cleaning only leave characters out. -/
theorem pathText_sublist (rest : JsString) : List.Sublist (pathText rest) rest :=
  ((List.takeWhile_sublist _).trans List.filter_sublist).trans (List.rdropWhile_prefix _ _).sublist

/-- Without percent signs there are two dot segments. -/
theorem segmentMove_down {segment : JsString} (hsign : '%' ∉ segment) (hdot : segment ≠ js ".")
    (hdots : segment ≠ js "..") : segmentMove segment = .down := by
  have hsingle : ∀ d ∈ dots, d = js "." ∨ '%' ∈ d := by decide
  have hdouble : ∀ d ∈ dots, ∀ e ∈ dots, d ++ e = js ".." ∨ '%' ∈ d ++ e := by decide
  have hup : ¬ dots.any fun d => dots.any fun e => d ++ e == segment := by
    simp only [List.any_eq_true, beq_iff_eq, not_exists, not_and]
    rintro d hd e he rfl
    exact (hdouble d hd e he).elim hdots hsign
  have hstay : ¬ dots.contains segment := by
    intro hin
    exact (hsingle segment (List.contains_iff_mem.mp hin)).elim hdot hsign
  rw [segmentMove, if_neg hup, if_neg hstay]

/-- What is not cut. -/
theorem pathText_eq_self :
    pathText rest = rest ↔ (∀ c ∈ rest, c ∉ js "\t\n\r" ∧ c ∉ js "#?") ∧ ∀ c ∈ rest.getLast?, ' ' < c := by
  constructor
  · intro h
    constructor
    · intro c hc
      rw [← h] at hc
      have hcut := List.mem_takeWhile_imp hc
      have hkept := (List.mem_filter.mp ((List.takeWhile_sublist _).mem hc)).2
      exact ⟨by simpa using hkept, by simpa using hcut⟩
    · intro c hc
      -- nothing can have been dropped at the end
      have hsub : List.Sublist (pathText rest) (rest.rdropWhile fun c => c ≤ ' ') :=
        (List.takeWhile_sublist _).trans List.filter_sublist
      rw [h] at hsub
      have htrim : rest.rdropWhile (fun c => c ≤ ' ') = rest :=
        (List.rdropWhile_prefix _ _).sublist.antisymm hsub
      obtain ⟨hne, hlast⟩ := List.mem_getLast?_eq_getLast hc
      have hnot := List.rdropWhile_eq_self_iff.mp htrim hne
      rw [← hlast] at hnot
      simpa using hnot
  · rintro ⟨hplain, hend⟩
    have htrim : rest.rdropWhile (fun c => c ≤ ' ') = rest := by
      refine List.rdropWhile_eq_self_iff.mpr fun hne => ?_
      have hlast := hend _ (List.getLast?_eq_some_getLast hne)
      simpa using hlast
    rw [pathText, htrim, List.filter_eq_self.mpr, List.takeWhile_eq_self_iff.mpr]
    · intro c hc
      simpa using (hplain c hc).2
    · intro c hc
      simpa using (hplain c hc).1

/-- Turning backslashes keeps the length. -/
theorem length_toSlashes (text : JsString) : (utf8Encode (toSlashes text)).length = (utf8Encode text).length := by
  rw [length_utf8Encode, length_utf8Encode, toSlashes, List.map_map]
  refine congrArg List.sum (List.map_congr_left fun c _ => ?_)
  show (if c = '\\' then '/' else c).utf8Size = c.utf8Size
  split
  · next hc =>
      rw [hc]
      rfl
  · rfl

/-- A text without backslashes is kept, and only such a text. -/
theorem toSlashes_eq_self {text : JsString} : toSlashes text = text ↔ '\\' ∉ text := by
  constructor
  · intro h hmem
    rw [← h] at hmem
    obtain ⟨c, -, hc⟩ := List.mem_map.mp hmem
    split at hc
    · cases hc
    · next hne => exact hne hc
  · intro h
    refine (List.map_congr_left fun c hc => ?_).trans (List.map_id text)
    have hne : c ≠ '\\' := by
      rintro rfl
      exact h hc
    rw [if_neg hne]
    rfl

/-- A slash in front stays in front. -/
theorem toSlashes_cons (text : JsString) : toSlashes ('/' :: text) = '/' :: toSlashes text := rfl

/-- Nothing stands before the first slash. -/
theorem splitOn_toSlashes (text : JsString) :
    (toSlashes ('/' :: text)).splitOn '/' = [] :: (toSlashes text).splitOn '/' :=
  List.splitOn_append_cons_self_of_not_mem List.not_mem_nil (toSlashes text)

/-- A slash is one byte. -/
theorem length_utf8Encode_slash (text : JsString) :
    (utf8Encode ('/' :: text)).length = (utf8Encode text).length + 1 := by
  have hslash : (utf8Encode ['/']).length = 1 := rfl
  rw [← List.singleton_append, utf8Encode_append, List.length_append, hslash, Nat.add_comm]

/-- **A text with nothing to cut or walk** is the path, with slashes for its backslashes. -/
theorem parsePath_eq {text : JsString} (htext : pathText ('/' :: text) = '/' :: text)
    (hsegments : ∀ segment ∈ (toSlashes text).splitOn '/', segmentMove segment = .down) :
    parsePath ('/' :: text) = toSlashes ('/' :: text) := by
  rw [parsePath, htext, splitOn_toSlashes, List.tail_cons, resolveSegments_of_down hsegments, rooted_splitOn,
    toSlashes_cons]

/-- **A path that is as long as the text it comes from** is that text, with slashes for its backslashes. -/
theorem parsePath_kept {text : JsString}
    (h : (utf8Encode ('/' :: text)).length ≤ (utf8Encode (parsePath ('/' :: text))).length) :
    pathText ('/' :: text) = '/' :: text ∧
      (∀ segment ∈ (toSlashes text).splitOn '/', segmentMove segment = .down) ∧
      parsePath ('/' :: text) = toSlashes ('/' :: text) := by
  have hsub := pathText_sublist ('/' :: text)
  have hcut := length_utf8Encode_le hsub
  obtain ⟨first, others, hsplit⟩ :=
    List.exists_cons_of_ne_nil (List.splitOn_ne_nil '/' (toSlashes (pathText ('/' :: text))))
  -- all segments together are the text and one more slash
  have hwhole := congrArg (fun s => (utf8Encode s).length)
    (rooted_splitOn '/' (toSlashes (pathText ('/' :: text))))
  simp only [hsplit, length_rooted, length_utf8Encode_slash, length_toSlashes, List.map_cons, List.sum_cons]
    at hwhole
  have hfirst : 1 ≤ segmentWeight first := Nat.le_add_left 1 _
  rw [parsePath, hsplit, List.tail_cons, length_rooted] at h
  obtain ⟨hle, hkept⟩ := resolveSegments_weight others
  have htext : pathText ('/' :: text) = '/' :: text := eq_of_utf8Encode_length hsub (by omega)
  have hothers : others = (toSlashes text).splitOn '/' := by
    rw [htext, splitOn_toSlashes] at hsplit
    exact (List.cons.inj hsplit).2.symm
  have hdown := hkept (by omega)
  rw [hothers] at hdown
  exact ⟨htext, hdown, parsePath_eq htext hdown⟩

end

end RCloneCloud
