import RCloneCloud.Lib.Prog
import RCloneCloud.Storage.Basic

/-!
# `Storage.Export` — the configuration as INI text: `Serialize` and `Dump`

Both write a header line for each section and a line for each key, in sorted order, and a blank line after
each section. `Serialize` reads the cache under one lock; `Dump` reads it through the accessors. Nothing is
quoted or escaped. `exportText` is the text as a function of the configuration alone, whatever the orders
the maps were visited in.
-/

set_option autoImplicit false

namespace RCloneCloud

open Lib

/-- The orders in which an export ranges over the sections and over the keys of each. -/
structure RangeChoice where
  sections : Shuffle GoString
  keys : GoString → Shuffle GoString

/-- `fmt.Fprintf(&b, "[%s]\n", section)`. -/
def headerLine (sec : GoString) : GoString := str "[" ++ sec ++ str "]\n"

/-- `fmt.Fprintf(&b, "%s = %s\n", key, value)`. -/
def entryLine (key value : GoString) : GoString := key ++ str " = " ++ value ++ str "\n"

/-- `Serialize`; the error it returns is always nil. -/
def MongoStorage.serialize (s : MongoStorage) (ch : RangeChoice) : GoString :=
  (sortStrings (ch.sections.apply s.data.keys)).flatMap fun sec =>
    let kv := s.data[sec]?.getD ∅
    headerLine sec ++
      (sortStrings ((ch.keys sec).apply kv.keys)).flatMap (fun key => entryLine key (kv[key]?.getD [])) ++
      str "\n"

/-! ## `Dump` -/

/-- What `Dump` does outside the process. -/
inductive DumpCall where
  | writeFile (filePath text : GoString)
  | print (text : GoString)

/-- The dump command as a program over the storage's accessors. -/
abbrev DumpProg := Prog DumpCall (fun _ => Except GoError Unit) (Except GoError Unit)

/-- The text `Dump` builds; writing to a `strings.Builder` does not fail. -/
def dumpText (store : MongoStorage) (ch : RangeChoice) : GoString :=
  (sortStrings (store.getSectionList ch.sections)).flatMap fun sec =>
    headerLine sec ++
      (sortStrings ((store.getKeyList (ch.keys sec) sec).getD [])).flatMap
        (fun key => entryLine key (store.getValue sec key).1) ++
      str "\n"

/-- `Dump`. -/
def dump (store : MongoStorage) (ch : RangeChoice) (filePath : GoString) : DumpProg :=
  .call (.writeFile filePath (dumpText store ch)) fun
    | .error err => .pure (.error (.wrapf "write file: %w" [] err))
    | .ok () => .call (.print (str "✓ Config dumped to " ++ filePath ++ str " (" ++
        str (Nat.repr (store.getSectionList ch.sections).length) ++ str " remotes)\n")) fun
      | .error err => .pure (.error err)
      | .ok () => .pure (.ok ())

/-! ## The text as a function of the configuration -/

/-- The lines of the keys of a section. -/
def entriesText (l : List (GoString × GoString)) : GoString := l.flatMap fun e => entryLine e.1 e.2

/-- The lines of some sections. -/
def sectionsText (l : List (GoString × Section)) : GoString :=
  l.flatMap fun e => headerLine e.1 ++ entriesText e.2.toList ++ str "\n"

/-- The export of a configuration: its sections and their keys in increasing order. -/
def exportText (c : Config) : GoString := sectionsText c.toList

/-- The lines of a section, the keys having been visited in the order `sh` and each looked up by `look`. -/
theorem flatMap_entryLine {kv : Section} (sh : Shuffle GoString) {look : GoString → GoString}
    (h : ∀ k v, kv[k]? = some v → look k = v) :
    (sortStrings (sh.apply kv.keys)).flatMap (fun key => entryLine key (look key))
      = entriesText kv.toList := by
  rw [sortStrings_keys, List.flatMap_map, entriesText]
  refine List.flatMap_congr fun e he => ?_
  obtain ⟨k, v⟩ := e
  rw [h k v (Std.ExtTreeMap.mem_toList_iff_getElem?_eq_some.mp he)]

/-- The orders in which the maps are visited do not show in the text, as names and keys are sorted first. -/
theorem serialize_eq (s : MongoStorage) (ch : RangeChoice) : s.serialize ch = exportText s.data := by
  rw [MongoStorage.serialize, sortStrings_keys, List.flatMap_map, exportText, sectionsText]
  refine List.flatMap_congr fun e he => ?_
  obtain ⟨sec, kv⟩ := e
  have hget : s.data[sec]? = some kv := Std.ExtTreeMap.mem_toList_iff_getElem?_eq_some.mp he
  simp only [hget, Option.getD_some]
  rw [flatMap_entryLine]
  intro k v hkv
  rw [hkv, Option.getD_some]

/-- Reading key by key through the accessors gives the same lines. -/
theorem dumpText_eq (store : MongoStorage) (ch : RangeChoice) : dumpText store ch = exportText store.data := by
  rw [dumpText, MongoStorage.getSectionList, sortStrings_keys, List.flatMap_map, exportText, sectionsText]
  refine List.flatMap_congr fun e he => ?_
  obtain ⟨sec, kv⟩ := e
  have hget : store.data[sec]? = some kv := Std.ExtTreeMap.mem_toList_iff_getElem?_eq_some.mp he
  simp only [MongoStorage.getKeyList, hget, Option.getD_some]
  rw [flatMap_entryLine]
  intro k v hkv
  simp only [MongoStorage.getValue, hget, hkv]

/-- **`Dump` and `Serialize` agree.** `Dump` writes one file, once, and its contents are byte for byte what
    `Serialize` returns, whatever the orders each of them visited the maps in. -/
theorem dump_writes_serialize (s : MongoStorage) (ch ch' : RangeChoice) (filePath : GoString) :
    ∃ rest, dump s ch filePath = .call (.writeFile filePath (s.serialize ch')) rest ∧
      ∀ answer, (rest answer).Makes fun op => ∃ text, op = .print text := by
  refine ⟨_, by rw [serialize_eq, ← dumpText_eq s ch]; rfl, fun answer => ?_⟩
  cases answer with
  | error err => trivial
  | ok u =>
      refine ⟨⟨_, rfl⟩, fun answer => ?_⟩
      cases answer with
      | error err => trivial
      | ok u => trivial

end RCloneCloud
