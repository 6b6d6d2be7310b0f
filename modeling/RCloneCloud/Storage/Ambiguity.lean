import RCloneCloud.Lib.Cut
import RCloneCloud.Storage.Export

/-!
# `Storage.Ambiguity` — what an exported text says about the configuration

The lines of an export are not escaped, so a value may hold the lines of further keys and a name those of
further sections. Every export of two sections or more is also the export of a single one (`foldedName`), and
every section of two keys or more has the text of one with a single key (`foldedValue`). What is left, at
most one section with at most one key, is read in one way only under the conditions of `Unambiguous`.

`OnlyExport` says that no other configuration has the same text, and `onlyExport_iff` that this is `Unambiguous`. In
one direction every condition that fails gives a second configuration with the text (`unambiguous_of_onlyExport`). The
other uses `Lib.Cut`: the closing bracket of the header and the equals sign of the line can each be found in one place
only.

`serialize_injective_of_plain` is the practical side: among configurations without line breaks in their names, keys
and values and without ` = ` in their keys, the text decides the configuration, whatever its size.
-/

set_option autoImplicit false

namespace RCloneCloud

open Lib

/-- The exported text determines the configuration: no other one has it, and it shows no section and no
    key that the store does not have. -/
structure MongoStorage.Determined (s : MongoStorage) : Prop where
  same : ∀ (t : MongoStorage) (ch ch' : RangeChoice), t.serialize ch' = s.serialize ch → t.data = s.data
  no_section : ∀ (t : MongoStorage) (ch ch' : RangeChoice), t.serialize ch' = s.serialize ch →
    ∀ sec, t.hasSection sec = true → s.hasSection sec = true
  no_key : ∀ (t : MongoStorage) (ch ch' : RangeChoice), t.serialize ch' = s.serialize ch →
    ∀ sec key, (t.getValue sec key).2 = true → (s.getValue sec key).2 = true

/-- The name of a section without keys is not the text of a section with a key, nor that of two sections. -/
structure LoneName (sec : GoString) : Prop where
  no_entry : ∀ x y z, sec ≠ x ++ str "]\n" ++ y ++ str " = " ++ z
  no_section : ∀ x y, sec = x ++ str "]\n\n[" ++ y → compare x y ≠ .lt

/-- The text of a section with one key can be cut in one place only at the end of the header, and in one
    place only between the key and the value; and it does not end as a header does. -/
structure LoneEntry (sec key value : GoString) : Prop where
  header : ¬ str "]\n" <:+: sec
  key_header : ¬ str "]\n" <:+: key
  key_equals : ¬ str " = " <:+: key ++ str " ="
  value_equals : ¬ str " = " <:+: str "= " ++ value
  value_end : ¬ str "]" <:+ value

/-- The configurations whose export is the export of no other. -/
def Unambiguous (c : Config) : Prop :=
  match c.toList with
  | [] => True
  | [(sec, kv)] =>
    match kv.toList with
    | [] => LoneName sec
    | [(key, value)] => LoneEntry sec key value
    | _ :: _ :: _ => False
  | _ :: _ :: _ => False

/-! ## The texts of several sections and of several keys -/

/-- The text of some sections, all but the last taken into the name of the last. -/
def foldedName : List (GoString × Section) → GoString → GoString
  | [], sec => sec
  | e :: rest, sec =>
    e.1 ++ str "]\n" ++ entriesText e.2.toList ++ str "\n" ++ sectionsText rest ++ str "[" ++ sec

/-- The text of some entries, all but the first taken into the value of the first. -/
def foldedValue : GoString → List (GoString × GoString) → GoString
  | v, [] => v
  | v, e :: rest => v ++ str "\n" ++ e.1 ++ str " = " ++ foldedValue e.2 rest

/-- Sections before the last one can be read as part of the last one's name. -/
theorem sectionsText_folded (init : List (GoString × Section)) (sec : GoString) (kv : Section) :
    sectionsText (init ++ [(sec, kv)])
      = headerLine (foldedName init sec) ++ entriesText kv.toList ++ str "\n" := by
  cases init with
  | nil => simp [sectionsText, foldedName]
  | cons e rest => simp [sectionsText, foldedName, headerLine]

/-- Lines behind the first one can be read as part of the first one's value. -/
theorem entriesText_folded (k v : GoString) (rest : List (GoString × GoString)) :
    entriesText ((k, v) :: rest) = entryLine k (foldedValue v rest) := by
  induction rest generalizing k v with
  | nil => simp [entriesText, foldedValue]
  | cons e rest ih =>
      have hcons : entriesText ((k, v) :: e :: rest) = entryLine k v ++ entriesText (e :: rest) := by
        simp [entriesText]
      rw [hcons, ih e.1 e.2]
      simp [foldedValue, entryLine]

/-- A name that has swallowed a section holds the end of that section's header. -/
theorem foldedName_closing {init : List (GoString × Section)} (h : init ≠ []) (sec : GoString) :
    str "]\n" <:+: foldedName init sec := by
  cases init with
  | nil => exact absurd rfl h
  | cons e rest =>
      refine ⟨e.1, entriesText e.2.toList ++ str "\n" ++ sectionsText rest ++ str "[" ++ sec, ?_⟩
      simp [foldedName]

/-- A value that has swallowed a line holds that line's equals sign. -/
theorem foldedValue_equals {rest : List (GoString × GoString)} (h : rest ≠ []) (v : GoString) :
    str " = " <:+: foldedValue v rest := by
  cases rest with
  | nil => exact absurd rfl h
  | cons e rest =>
      refine ⟨v ++ str "\n" ++ e.1, foldedValue e.2 rest, ?_⟩
      simp [foldedValue]

/-! ## Reading the text of one section -/

theorem feed_eq : str "\n" = [10] := by decide

theorem closing_eq : str "]\n" = [93, 10] := by decide

theorem closing_append : str "]\n" = str "]" ++ str "\n" := by decide

theorem gap_append : str "]\n\n[" = str "]\n" ++ str "\n" ++ str "[" := by decide

theorem equals_eq : str " = " = [32, 61, 32] := by decide

theorem equals_blank : str " = " = str " =" ++ str " " := by decide

theorem blank_equals : str " = " = str " " ++ str "= " := by decide

/-- A name is cut off at the first closing bracket that ends a line. -/
theorem closing_unique {sec key x y : GoString} (hsec : ¬ str "]\n" <:+: sec) (hkey : ¬ str "]\n" <:+: key)
    (h : x ++ str "]\n" ++ y = sec ++ str "]\n" ++ key) : x = sec ∧ y = key := by
  rw [closing_eq] at hsec hkey h
  refine cut_unique ?_ ?_ h
  · exact fun hi => hsec ((pair_infix_concat (by decide)).mp hi)
  · exact fun hi => hkey ((pair_infix_cons (by decide)).mp hi)

/-- **One reading.** A header and an entry line that have the text of an unambiguous section have its name,
    its key and its value. -/
theorem loneEntry_unique {sec key value x k v : GoString} (h : LoneEntry sec key value)
    (htext : headerLine x ++ entryLine k v = headerLine sec ++ entryLine key value) :
    x = sec ∧ k = key ∧ v = value := by
  have hbody : (x ++ str "]\n" ++ k) ++ str " = " ++ v = (sec ++ str "]\n" ++ key) ++ str " = " ++ value := by
    have hlines : str "[" ++ ((x ++ str "]\n" ++ k) ++ str " = " ++ v) ++ str "\n"
        = str "[" ++ ((sec ++ str "]\n" ++ key) ++ str " = " ++ value) ++ str "\n" := by
      simpa [headerLine, entryLine] using htext
    exact List.append_cancel_left (List.append_cancel_right hlines)
  -- no separator ends in the value, so the key of the reading does not run into it
  have hvalue : ¬ str " = " <:+: (str " = ").tail ++ value := h.value_equals
  obtain ⟨w, hw, hrest⟩ := cut_left hvalue hbody
  have hname : x ++ str "]\n" ++ (k ++ w) = sec ++ str "]\n" ++ key := by
    rw [← List.append_assoc]
    exact hw.symm
  obtain ⟨hx, hk⟩ := closing_unique h.header h.key_header hname
  have hentry : k ++ str " = " ++ v = key ++ str " = " ++ value := by
    rw [← hk, List.append_assoc k, hrest]
    simp only [List.append_assoc]
  obtain ⟨hk', hv⟩ := cut_unique h.key_equals hvalue hentry
  exact ⟨hx, hk', hv⟩

/-- What a header alone says, where a header and an entry line say the same: the value ends as a header
    does. -/
theorem value_end_of_header {sec key value x : GoString}
    (htext : headerLine x = headerLine sec ++ entryLine key value) : str "]" <:+ value := by
  have hbody : x ++ str "]" = (sec ++ str "]\n" ++ key ++ str " = ") ++ value := by
    have hlines : str "[" ++ (x ++ str "]") ++ str "\n"
        = str "[" ++ ((sec ++ str "]\n" ++ key ++ str " = ") ++ value) ++ str "\n" := by
      simpa [headerLine, entryLine, closing_append] using htext
    exact List.append_cancel_left (List.append_cancel_right hlines)
  by_cases hvalue : value = []
  · -- then the text would end with a blank
    have hlast := congrArg List.getLast? hbody
    rw [hvalue, List.append_nil, List.getLast?_append, List.getLast?_append] at hlast
    have hbracket : (str "]").getLast? = some 93 := by decide
    have hblank : (str " = ").getLast? = some 32 := by decide
    rw [hbracket, hblank] at hlast
    cases hlast
  · have hsuffix : str "]" <:+ (sec ++ str "]\n" ++ key ++ str " = ") ++ value := ⟨x, hbody⟩
    refine List.suffix_of_suffix_length_le hsuffix (List.suffix_append _ value) ?_
    exact List.length_pos_iff.mpr hvalue

/-! ## The configurations that their export determines -/

/-- An export with the text of a header and an entry line, when that can be read in one way only. -/
theorem loneEntry_determined {sec key value : GoString} (h : LoneEntry sec key value)
    {l : List (GoString × Section)}
    (htext : sectionsText l = headerLine sec ++ entryLine key value ++ str "\n") :
    ∃ kv, l = [(sec, kv)] ∧ kv.toList = [(key, value)] := by
  rcases List.eq_nil_or_concat' l with rfl | ⟨init, ⟨s, kv⟩, rfl⟩
  · have hlen := congrArg List.length htext
    simp [sectionsText, headerLine, feed_eq] at hlen
  · rw [sectionsText_folded] at htext
    have hlines := List.append_cancel_right htext
    cases hkv : kv.toList with
    | nil =>
        rw [hkv, entriesText, List.flatMap_nil, List.append_nil] at hlines
        exact absurd (value_end_of_header hlines) h.value_end
    | cons e rest =>
        obtain ⟨k, v⟩ := e
        rw [hkv, entriesText_folded] at hlines
        obtain ⟨hx, rfl, hv⟩ := loneEntry_unique h hlines
        -- a second key would put a separator into the value, a second section a header into the name
        have hrest : rest = [] := by
          by_contra hne
          refine h.value_equals ?_
          rw [← hv]
          exact (foldedValue_equals hne v).trans (List.suffix_append _ _).isInfix
        have hinit : init = [] := by
          by_contra hne
          exact h.header (hx ▸ foldedName_closing hne s)
        subst hrest hinit
        rw [foldedValue] at hv
        rw [foldedName] at hx
        exact ⟨kv, by rw [hx, List.nil_append], by rw [hkv, hv]⟩

/-- Some sections and a further name, in increasing order: the first name comes before all that follows its
    blank line. -/
theorem foldedName_lt {e : GoString × Section} {rest : List (GoString × Section)} {sec : GoString}
    {kv : Section} (h : (e :: rest ++ [(sec, kv)]).Pairwise fun a b => compare a.1 b.1 = .lt) :
    compare e.1 (foldedName rest sec) = .lt := by
  obtain ⟨hfirst, -⟩ := List.pairwise_cons.mp h
  cases rest with
  | nil => exact hfirst (sec, kv) (by simp)
  | cons e' rest =>
      simp only [foldedName, List.append_assoc]
      exact compare_append _ (hfirst e' (by simp))

/-- An export with the text of a header alone, when that can be read in one way only. -/
theorem loneName_determined {sec : GoString} (h : LoneName sec) {l : List (GoString × Section)}
    (hl : l.Pairwise fun a b => compare a.1 b.1 = .lt)
    (htext : sectionsText l = headerLine sec ++ str "\n") : ∃ kv, l = [(sec, kv)] ∧ kv.toList = [] := by
  rcases List.eq_nil_or_concat' l with rfl | ⟨init, ⟨s, kv⟩, rfl⟩
  · have hlen := congrArg List.length htext
    simp [sectionsText, headerLine, feed_eq] at hlen
  · rw [sectionsText_folded] at htext
    have hlines := List.append_cancel_right htext
    have hbracket : ∀ {x : GoString}, headerLine x = str "[" ++ (x ++ str "]") ++ str "\n" := by
      intro x
      simp [headerLine, closing_append]
    cases hkv : kv.toList with
    | cons e rest =>
        -- the value of the last key takes the closing bracket of the header
        obtain ⟨k, v⟩ := e
        rw [hkv, entriesText_folded] at hlines
        obtain ⟨z, hz⟩ := value_end_of_header hlines.symm
        refine absurd ?_ (h.no_entry (foldedName init s) k z)
        have hbody : str "[" ++ (sec ++ str "]") ++ str "\n"
            = str "[" ++ (foldedName init s ++ str "]\n" ++ k ++ str " = " ++ z ++ str "]") ++ str "\n" := by
          rw [← hbracket, ← hlines, ← hz]
          simp [headerLine, entryLine]
        exact List.append_cancel_right (List.append_cancel_left (List.append_cancel_right hbody))
    | nil =>
        rw [hkv, entriesText, List.flatMap_nil, List.append_nil, hbracket, hbracket] at hlines
        have hname : foldedName init s = sec :=
          List.append_cancel_right (List.append_cancel_left (List.append_cancel_right hlines))
        cases init with
        | nil => exact ⟨kv, by rw [← hname, foldedName, List.nil_append], hkv⟩
        | cons e rest =>
            cases he : e.2.toList with
            | cons e' rest' =>
                -- an earlier section has a key
                obtain ⟨k, v⟩ := e'
                refine absurd hname.symm ?_
                rw [foldedName, he, entriesText_folded, entryLine]
                have hno := h.no_entry e.1 k
                  (foldedValue v rest' ++ str "\n" ++ str "\n" ++ sectionsText rest ++ str "[" ++ s)
                simpa only [List.append_assoc] using hno
            | nil =>
                -- the first section has none: its header and a blank line, then the next header
                refine absurd (foldedName_lt hl) (h.no_section e.1 (foldedName rest s) ?_)
                rw [← hname, foldedName, he]
                cases rest with
                | nil => simp [entriesText, sectionsText, foldedName, gap_append]
                | cons e' rest => simp [entriesText, sectionsText, foldedName, headerLine, gap_append]

/-! ## Every other export has a second reading -/

/-- No other configuration has the export of `c`. -/
def OnlyExport (c : Config) : Prop := ∀ c' : Config, exportText c' = exportText c → c' = c

/-- A list of sections in increasing order that has the export of `c` is the listing of `c`. -/
theorem OnlyExport.toList_eq {c : Config} (h : OnlyExport c) {l : List (GoString × Section)}
    (hl : l.Pairwise fun a b => compare a.1 b.1 = .lt) (htext : sectionsText l = exportText c) :
    c.toList = l := by
  have hlist : (Std.ExtTreeMap.ofList l compare : Config).toList = l := toList_ofList hl
  rw [← h (Std.ExtTreeMap.ofList l compare) (by rw [exportText, hlist, htext]), hlist]

/-- The section with one key. -/
def oneKey (key value : GoString) : Section := (∅ : Section).insert key value

/-- A section of one key lists this key. -/
theorem oneKey_toList (key value : GoString) : (oneKey key value).toList = [(key, value)] := by
  rw [oneKey, ← Std.ExtTreeMap.ofList_singleton]
  exact toList_ofList (List.pairwise_singleton _ _)

/-- One section with one key whose text is the export of `c` is all there is in `c`. -/
theorem OnlyExport.one {c : Config} (h : OnlyExport c) (sec key value : GoString)
    (htext : headerLine sec ++ entryLine key value ++ str "\n" = exportText c) :
    c.toList = [(sec, oneKey key value)] := by
  refine h.toList_eq (List.pairwise_singleton _ _) ?_
  rw [← htext]
  simp [sectionsText, oneKey_toList, entriesText]

/-- The same for one section without keys. -/
theorem OnlyExport.bare {c : Config} (h : OnlyExport c) (sec : GoString)
    (htext : headerLine sec ++ str "\n" = exportText c) : c.toList = [(sec, ∅)] := by
  refine h.toList_eq (List.pairwise_singleton _ _) ?_
  rw [← htext]
  simp [sectionsText, entriesText]

theorem blank_append : str "]\n\n[" = str "]\n" ++ (str "\n" ++ str "[") := by decide

theorem entriesText_empty : entriesText (∅ : Section).toList = [] := rfl

/-- Where no other configuration has the text, the name does not hold what a header or a line would be read from. -/
theorem loneName_of_onlyExport {c : Config} (h : OnlyExport c) {sec : GoString} {kv : Section}
    (hc : c.toList = [(sec, kv)]) (hkv : kv.toList = []) : LoneName sec := by
  have htext : exportText c = headerLine sec ++ str "\n" := by
    simp [exportText, hc, sectionsText, hkv, entriesText]
  constructor
  · intro x y z hsec
    have hone := h.one x y (z ++ str "]")
      (by rw [htext, hsec]; simp [headerLine, entryLine, closing_append])
    rw [hc] at hone
    obtain ⟨hx, -⟩ := Prod.mk.inj (List.singleton_inj.mp hone)
    have hlen := congrArg List.length (hsec.symm.trans hx)
    simp [closing_eq] at hlen
  · intro x y hsec hlt
    have htwo : c.toList = [(x, ∅), (y, ∅)] := by
      refine h.toList_eq (by simpa using hlt) ?_
      rw [htext, hsec]
      simp [sectionsText, entriesText_empty, headerLine, blank_append]
    rw [hc] at htwo
    cases htwo

/-- Likewise for the name, the key and the value of a single line; each part of the condition rules out one other
reading. -/
theorem loneEntry_of_onlyExport {c : Config} (h : OnlyExport c) {sec key value : GoString} {kv : Section}
    (hc : c.toList = [(sec, kv)]) (hkv : kv.toList = [(key, value)]) : LoneEntry sec key value := by
  have htext : exportText c = headerLine sec ++ entryLine key value ++ str "\n" := by
    simp [exportText, hc, sectionsText, hkv, entriesText]
  -- another reading has the same name and the same key
  have hsame : ∀ s k v, headerLine s ++ entryLine k v ++ str "\n" = exportText c → s = sec ∧ k = key := by
    intro s k v hread
    have hone := h.one s k v hread
    rw [hc] at hone
    obtain ⟨hs, hone⟩ := Prod.mk.inj (List.singleton_inj.mp hone)
    rw [hone, oneKey_toList] at hkv
    exact ⟨hs.symm, (Prod.mk.inj (List.singleton_inj.mp hkv)).1⟩
  have hne : ∀ {u w : GoString}, w ≠ [] → u ≠ u ++ w := by
    intro u w hw he
    exact hw (List.self_eq_append_right.mp he)
  constructor
  · rintro ⟨x, y, hsec⟩
    obtain ⟨hx, -⟩ := hsame x (y ++ str "]\n" ++ key) value
      (by rw [htext, ← hsec]; simp [headerLine, entryLine])
    rw [← hsec, List.append_assoc] at hx
    exact hne (by simp [closing_eq]) hx
  · rintro ⟨x, y, hkey⟩
    obtain ⟨-, hy⟩ := hsame (sec ++ str "]\n" ++ x) y value
      (by rw [htext, ← hkey]; simp [headerLine, entryLine])
    have hlen := congrArg List.length (hy.trans hkey.symm)
    simp [closing_eq] at hlen
    omega
  · rintro ⟨x, y, hkey⟩
    obtain ⟨-, hx⟩ := hsame sec x (y ++ str " " ++ value)
      (by
        rw [htext]
        have : entryLine key value = (key ++ str " =") ++ str " " ++ value ++ str "\n" := by
          simp [entryLine, equals_blank]
        rw [this, ← hkey]
        simp [entryLine])
    have hlen := congrArg List.length hkey
    rw [hx] at hlen
    simp [equals_eq, show str " =" = [32, 61] from by decide] at hlen
  · rintro ⟨x, y, hvalue⟩
    obtain ⟨-, hx⟩ := hsame sec (key ++ str " " ++ x) y
      (by
        rw [htext]
        have : entryLine key value = key ++ str " " ++ (str "= " ++ value) ++ str "\n" := by
          simp [entryLine, blank_equals]
        rw [this, ← hvalue]
        simp [entryLine])
    rw [List.append_assoc] at hx
    exact hne (by simp [show str " " = [32] from by decide]) hx.symm
  · rintro ⟨x, hvalue⟩
    have hbare := h.bare (sec ++ str "]\n" ++ key ++ str " = " ++ x)
      (by rw [htext, ← hvalue]; simp [headerLine, entryLine, closing_append])
    rw [hc] at hbare
    obtain ⟨hs, -⟩ := Prod.mk.inj (List.singleton_inj.mp hbare)
    rw [List.append_assoc, List.append_assoc, List.append_assoc] at hs
    exact hne (by simp [closing_eq]) hs

/-- More than one section, or more than one key, has the folded reading besides its own. -/
theorem unambiguous_of_onlyExport {c : Config} (h : OnlyExport c) : Unambiguous c := by
  unfold Unambiguous
  split
  · trivial
  · next sec kv hc =>
      split
      · next hkv => exact loneName_of_onlyExport h hc hkv
      · next key value hkv => exact loneEntry_of_onlyExport h hc hkv
      · next e e' rest hkv =>
          -- the other keys go into the value of the first
          have hone := h.one sec e.1 (foldedValue e.2 (e' :: rest))
            (by
              rw [exportText, hc, ← entriesText_folded, ← hkv]
              simp [sectionsText])
          rw [hc] at hone
          rw [(Prod.mk.inj (List.singleton_inj.mp hone)).2, oneKey_toList] at hkv
          exact absurd hkv (by simp)
  · next e e' rest hc =>
      -- the other sections go into the name of the last
      obtain hnil | ⟨init, ⟨sec, kv⟩, hlast⟩ := List.eq_nil_or_concat' (e :: e' :: rest)
      · cases hnil
      · have hfold : c.toList = [(foldedName init sec, kv)] := by
          refine h.toList_eq (List.pairwise_singleton _ _) ?_
          rw [exportText, hc, hlast, sectionsText_folded]
          simp [sectionsText]
        rw [hc] at hfold
        cases hfold

/-- Any configuration with the same text is itself unambiguous in its size, and then its parts are the same. -/
theorem onlyExport_of_unambiguous {c : Config} (h : Unambiguous c) : OnlyExport c := by
  intro c' htext
  refine Std.ExtTreeMap.toList_inj.mp ?_
  rw [exportText, exportText] at htext
  unfold Unambiguous at h
  split at h
  · next hc =>
      rw [hc] at htext ⊢
      -- an empty text has no header
      cases hc' : c'.toList with
      | nil => rfl
      | cons e rest =>
          have hlen := congrArg List.length htext
          simp [hc', sectionsText, headerLine, closing_eq] at hlen
  · next sec kv hc =>
      rw [hc] at htext ⊢
      split at h
      · next hkv =>
          have hbare : sectionsText c'.toList = headerLine sec ++ str "\n" := by
            rw [htext]
            simp [sectionsText, hkv, entriesText]
          obtain ⟨kv', hl, hkv'⟩ := loneName_determined h Std.ExtTreeMap.ordered_keys_toList hbare
          rw [hl, Std.ExtTreeMap.toList_inj.mp (hkv'.trans hkv.symm)]
      · next key value hkv =>
          have hone : sectionsText c'.toList = headerLine sec ++ entryLine key value ++ str "\n" := by
            rw [htext]
            simp [sectionsText, hkv, entriesText]
          obtain ⟨kv', hl, hkv'⟩ := loneEntry_determined h hone
          rw [hl, Std.ExtTreeMap.toList_inj.mp (hkv'.trans hkv.symm)]
      · cases h
  · cases h

/-- **The exports that determine their configuration.** -/
theorem onlyExport_iff (c : Config) : OnlyExport c ↔ Unambiguous c :=
  ⟨unambiguous_of_onlyExport, onlyExport_of_unambiguous⟩

/-- **Which configurations their exported text determines**: none with two sections or with two keys, and of
    the others those whose names, key and value do not imitate the syntax around them. -/
theorem determined_iff (s : MongoStorage) : s.Determined ↔ Unambiguous s.data := by
  rw [← onlyExport_iff]
  constructor
  · intro h c' htext
    obtain ⟨ch⟩ : Nonempty RangeChoice := ⟨⟨Shuffle.id _, fun _ => Shuffle.id _⟩⟩
    refine h.same ⟨s.key, c'⟩ ch ch ?_
    rw [serialize_eq, serialize_eq]
    exact htext
  · intro h
    have hsame : ∀ (t : MongoStorage) (ch ch' : RangeChoice), t.serialize ch' = s.serialize ch →
        t.data = s.data := by
      intro t ch ch' htext
      rw [serialize_eq, serialize_eq] at htext
      exact h t.data htext
    refine ⟨hsame, fun t ch ch' htext sec hsec => ?_, fun t ch ch' htext sec key hkey => ?_⟩
    · rw [MongoStorage.hasSection, ← hsame t ch ch' htext]
      exact hsec
    · rw [MongoStorage.getValue, ← hsame t ch ch' htext]
      exact hkey

/-- A store with one key, whose value holds a blank line and a section. -/
def smuggledStore : MongoStorage :=
  MongoStorage.setValue ⟨sampleKey, ∅⟩ (str "s3") (str "region") (str "eu\n\n[t]\ntype = local")

/-- The store with the section that the value imitates. -/
def imitatedStore : MongoStorage :=
  (MongoStorage.setValue ⟨sampleKey, ∅⟩ (str "s3") (str "region") (str "eu")).setValue (str "t") (str "type")
    (str "local")

/-- **Two configurations with one export**, whatever the iteration orders: the text of the first shows a
    section that the first does not have. -/
theorem serialize_not_injective :
    (∀ ch ch' : RangeChoice, smuggledStore.serialize ch = imitatedStore.serialize ch') ∧
    smuggledStore.data ≠ imitatedStore.data ∧
    imitatedStore.hasSection (str "t") = true ∧ smuggledStore.hasSection (str "t") = false := by
  have himitated : imitatedStore.hasSection (str "t") = true := by decide
  have hsmuggled : smuggledStore.hasSection (str "t") = false := by decide
  refine ⟨fun ch ch' => ?_, fun hdata => ?_, himitated, hsmuggled⟩
  · rw [serialize_eq, serialize_eq]
    decide
  · rw [MongoStorage.hasSection, hdata] at hsmuggled
    rw [MongoStorage.hasSection, hsmuggled] at himitated
    cases himitated

/-! ## Configurations without line syntax -/

/-- A key and a value that stay on one line, the key not running into the separator. -/
def PlainEntry (key value : GoString) : Prop :=
  10 ∉ key ∧ 10 ∉ value ∧ ¬ str " = " <:+: key ++ str " ="

/-- No name, key or value holds a line feed, and no key a separator. -/
def PlainConfig (data : Config) : Prop :=
  ∀ (sec : GoString) (kv : Section), data[sec]? = some kv →
    10 ∉ sec ∧ ∀ key value : GoString, kv[key]? = some value → PlainEntry key value

/-- The contents of a plain entry line. -/
theorem plainEntry_line {key value : GoString} (h : PlainEntry key value) :
    10 ∉ key ++ str " = " ++ value := by
  have hequals : (10 : UInt8) ∉ str " = " := by decide
  simp only [List.mem_append, not_or]
  exact ⟨⟨h.1, hequals⟩, h.2.1⟩

/-- The lines of plain entries and the blank line after them can be read in one way only. -/
theorem entriesText_inj {l l' : List (GoString × GoString)} {r r' : GoString}
    (hl : ∀ e ∈ l, PlainEntry e.1 e.2) (hl' : ∀ e ∈ l', PlainEntry e.1 e.2)
    (h : entriesText l ++ str "\n" ++ r = entriesText l' ++ str "\n" ++ r') : l = l' ∧ r = r' := by
  have hcons : ∀ (e : GoString × GoString) (rest : List (GoString × GoString)) (r : GoString),
      entriesText (e :: rest) ++ str "\n" ++ r
        = (e.1 ++ str " = " ++ e.2) ++ [10] ++ (entriesText rest ++ str "\n" ++ r) := by
    intro e rest r
    simp [entriesText, entryLine, feed_eq]
  have hnil : ∀ r : GoString, entriesText [] ++ str "\n" ++ r = [] ++ [10] ++ r := by
    intro r
    simp [entriesText, feed_eq]
  have hne : ∀ e : GoString × GoString, e.1 ++ str " = " ++ e.2 ≠ [] := by
    intro e he
    have hlen := congrArg List.length he
    simp [equals_eq] at hlen
  induction l generalizing l' with
  | nil =>
      cases l' with
      | nil => exact ⟨rfl, List.append_cancel_left h⟩
      | cons e' rest' =>
          -- a blank line is no entry line
          rw [hnil, hcons] at h
          have hline := plainEntry_line (hl' e' List.mem_cons_self)
          exact absurd (first_unique List.not_mem_nil hline h).1.symm (hne e')
  | cons e rest ih =>
      have hline := plainEntry_line (hl e List.mem_cons_self)
      cases l' with
      | nil =>
          rw [hnil, hcons] at h
          exact absurd (first_unique hline List.not_mem_nil h).1 (hne e)
      | cons e' rest' =>
          rw [hcons, hcons] at h
          have hline' := plainEntry_line (hl' e' List.mem_cons_self)
          obtain ⟨hentry, hrest⟩ := first_unique hline hline' h
          obtain ⟨hkey, hvalue⟩ := first_cut_unique (hl e List.mem_cons_self).2.2
            (hl' e' List.mem_cons_self).2.2 hentry
          obtain ⟨htail, hr⟩ := ih (fun e he => hl e (List.mem_cons_of_mem _ he))
            (fun e he => hl' e (List.mem_cons_of_mem _ he)) hrest
          exact ⟨by rw [htail, Prod.ext hkey hvalue], hr⟩

/-- The same for the text of plain sections. -/
theorem sectionsText_inj {l l' : List (GoString × Section)}
    (hl : ∀ e ∈ l, 10 ∉ e.1 ∧ ∀ e' ∈ e.2.toList, PlainEntry e'.1 e'.2)
    (hl' : ∀ e ∈ l', 10 ∉ e.1 ∧ ∀ e' ∈ e.2.toList, PlainEntry e'.1 e'.2)
    (h : sectionsText l = sectionsText l') : l = l' := by
  have hcons : ∀ (e : GoString × Section) (rest : List (GoString × Section)),
      sectionsText (e :: rest)
        = (str "[" ++ e.1 ++ str "]") ++ [10] ++ (entriesText e.2.toList ++ str "\n" ++ sectionsText rest) := by
    intro e rest
    simp [sectionsText, headerLine, closing_append, feed_eq]
  have hheader : ∀ {sec : GoString}, 10 ∉ sec → 10 ∉ str "[" ++ sec ++ str "]" := by
    intro sec hsec
    simp only [List.mem_append, not_or]
    exact ⟨⟨by decide, hsec⟩, by decide⟩
  induction l generalizing l' with
  | nil =>
      cases l' with
      | nil => rfl
      | cons e' rest' => rw [hcons] at h; simp [sectionsText] at h
  | cons e rest ih =>
      cases l' with
      | nil => rw [hcons] at h; simp [sectionsText] at h
      | cons e' rest' =>
          rw [hcons, hcons] at h
          obtain ⟨hsec, hkv⟩ := hl e List.mem_cons_self
          obtain ⟨hsec', hkv'⟩ := hl' e' List.mem_cons_self
          -- a name without a line break ends at the first one
          obtain ⟨hname, hrest⟩ := first_unique (hheader hsec) (hheader hsec') h
          obtain ⟨hentries, htail⟩ := entriesText_inj hkv hkv' hrest
          have hname' : e.1 = e'.1 := List.append_cancel_left (List.append_cancel_right hname)
          rw [ih (fun e he => hl e (List.mem_cons_of_mem _ he))
            (fun e he => hl' e (List.mem_cons_of_mem _ he)) htail,
            Prod.ext hname' (Std.ExtTreeMap.toList_inj.mp hentries)]

/-- **Between plain configurations** the exported text determines the configuration. -/
theorem serialize_injective_of_plain {s t : MongoStorage} (hs : PlainConfig s.data) (ht : PlainConfig t.data)
    {ch ch' : RangeChoice} (h : s.serialize ch = t.serialize ch') : s.data = t.data := by
  have hplain : ∀ {c : Config}, PlainConfig c →
      ∀ e ∈ c.toList, 10 ∉ e.1 ∧ ∀ e' ∈ e.2.toList, PlainEntry e'.1 e'.2 := by
    intro c hc e he
    obtain ⟨hsec, hkv⟩ := hc e.1 e.2 (Std.ExtTreeMap.mem_toList_iff_getElem?_eq_some.mp he)
    exact ⟨hsec, fun e' he' => hkv e'.1 e'.2 (Std.ExtTreeMap.mem_toList_iff_getElem?_eq_some.mp he')⟩
  rw [serialize_eq, serialize_eq] at h
  exact Std.ExtTreeMap.toList_inj.mp (sectionsText_inj (hplain hs) (hplain ht) h)

/-- A remote, its keys set in one order and in the other. -/
def typedFirst : MongoStorage :=
  (MongoStorage.setValue ⟨sampleKey, ∅⟩ (str "s3") (str "type") (str "s3")).setValue (str "s3") (str "region") (str "eu")

/-- The same entries as in `typedFirst`, set in the other order. -/
def regionFirst : MongoStorage :=
  (MongoStorage.setValue ⟨sampleKey, ∅⟩ (str "s3") (str "region") (str "eu")).setValue (str "s3") (str "type") (str "s3")

/-- Two stores filled in different orders export alike, so they are one configuration. -/
theorem serialize_injective_of_plain_orders :
    (∀ ch ch' : RangeChoice, typedFirst.serialize ch = regionFirst.serialize ch') ∧ typedFirst.data = regionFirst.data := by
  have hplain : ∀ {c : Config}, (∀ e ∈ c.toList, 10 ∉ e.1 ∧ ∀ e' ∈ e.2.toList, PlainEntry e'.1 e'.2) → PlainConfig c := by
    intro c hc sec kv hsec
    obtain ⟨hname, hentries⟩ := hc (sec, kv) (Std.ExtTreeMap.mem_toList_iff_getElem?_eq_some.mpr hsec)
    exact ⟨hname, fun key value hkey => hentries (key, value) (Std.ExtTreeMap.mem_toList_iff_getElem?_eq_some.mpr hkey)⟩
  have htext : ∀ ch ch' : RangeChoice, typedFirst.serialize ch = regionFirst.serialize ch' := by
    intro ch ch'
    rw [serialize_eq, serialize_eq]
    decide
  obtain ⟨ch⟩ : Nonempty RangeChoice := ⟨⟨Shuffle.id _, fun _ => Shuffle.id _⟩⟩
  refine ⟨htext, serialize_injective_of_plain (hplain ?_) (hplain ?_) (htext ch ch)⟩
  · unfold PlainEntry
    decide
  · unfold PlainEntry
    decide

end RCloneCloud
