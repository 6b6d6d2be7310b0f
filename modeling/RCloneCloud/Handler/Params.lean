import RCloneCloud.Go.Basic
import RCloneCloud.Lib.Path

/-!
# `Handler.Params` — rc parameters and their validation

`rc.Params` is a Go map, so it may also be nil. Its values come from the query and the form, as strings, or
from a JSON body, with any type. `validateRCParams` looks at six keys and passes over the values that are
not strings (`validateRCParams_ok`).

Strings of the source are byte strings here (`GoString`), since the checks cut them at single bytes. Both the nil map
and the values that are no strings matter later: a nil map cannot be written to, and a value that is passed over is
not checked.
-/

set_option autoImplicit false

namespace RCloneCloud

/-! ## Strings -/

/-- A byte of an ASCII character. -/
def ascii (c : Char) : UInt8 := c.toNat.toUInt8

/-- `strings.Index(s, string(c))`. -/
def index (s : GoString) (c : UInt8) : Option Nat := s.idxOf? c

/-- `strings.Split(s, "/")`. -/
def splitSlash (s : GoString) : List GoString := s.splitOn (ascii '/')

/-- `filepath.ToSlash` where the separator is `/`. -/
def toSlash (s : GoString) : GoString := s

/-- The index of a byte is where it stands first. -/
theorem index_some {s : GoString} {c : UInt8} {i : Nat} (h : index s c = some i) :
    s = s.take i ++ c :: s.drop (i + 1) ∧ c ∉ s.take i := by
  obtain ⟨hi, hc, hbefore⟩ := List.idxOf?_eq_some_iff.mp h
  constructor
  · rw [← hc, List.cons_getElem_drop_succ, List.take_append_drop]
  · intro hm
    obtain ⟨j, hj, he⟩ := List.mem_take_iff_getElem.mp hm
    exact hbefore j (by omega) he

/-! ## Values -/

/-- A decoded JSON value. A number is kept as it is written; an object keeps its members as they are
    written, so that a later one with the same key is the one that counts. -/
inductive Json where
  | null
  | bool (b : Bool)
  | number (text : GoString)
  | string (s : GoString)
  | array (items : List Json)
  | object (members : List (GoString × Json))

/-- A value of `rc.Params`: a decoded one, or one of the two the handler adds. -/
inductive Value where
  | json (j : Json)
  | request
  | responseWriter

/-- `raw.(string)`. -/
def Value.string? : Value → Option GoString
  | .json (.string s) => some s
  | _ => none

/-- Only a JSON string is read as a string. -/
theorem Value.string?_eq_some {v : Value} {s : GoString} :
    v.string? = some s ↔ v = .json (.string s) := by
  constructor
  · intro h
    unfold Value.string? at h
    split at h
    · cases h; rfl
    · cases h
  · rintro rfl
    rfl

/-- `rc.Params`; `none` is the nil map. -/
abbrev Params := Option (GoMap Value)

/-- `in[key]` with its presence. -/
def Params.get? (p : Params) (key : GoString) : Option Value := p.bind fun m => m[key]?

/-! ## Validation -/

/-- The keys whose values must name a configured remote. -/
def fsParamKeys : List GoString := [str "fs", str "srcFs", str "dstFs"]

/-- The keys whose values must be paths without `..`. -/
def remoteParamKeys : List GoString := [str "remote", str "srcRemote", str "dstRemote"]

/-- `validateFsParam`, given `config.FileSections()`. -/
def validateFsParam (sections : List GoString) (value : GoString) : Except GoError Unit :=
  match index value (ascii ':') with
  | none => .error (.errorf
      "invalid fs parameter %q: must reference a configured remote (e.g. \"myremote:\")" [value])
  | some colonIdx =>
    let remoteName := value.take colonIdx
    if remoteName = [] then .error (.errorf "invalid fs parameter %q: empty remote name" [value])
    else if remoteName ∈ sections then .ok ()
    else .error (.errorf "invalid fs parameter %q: remote %q is not configured" [value, remoteName])

/-- `validateRemoteParam`. -/
def validateRemoteParam (value : GoString) : Except GoError Unit :=
  let cleaned := toSlash value
  if str ".." ∈ splitSlash cleaned then
    .error (.errorf "invalid remote parameter %q: path traversal is not allowed" [value])
  else .ok ()

/-- One of the two loops of `validateRCParams`. -/
def validateKeys (validate : GoString → Except GoError Unit) (p : Params) :
    List GoString → Except GoError Unit
  | [] => .ok ()
  | key :: rest =>
    match p.get? key with
    | none => validateKeys validate p rest
    | some raw =>
      match raw.string? with
      -- a value of another type is not looked at
      | none => validateKeys validate p rest
      | some value =>
        match validate value with
        | .error err => .error err
        | .ok () => validateKeys validate p rest

/-- `validateRCParams`. -/
def validateRCParams (sections : List GoString) (p : Params) : Except GoError Unit :=
  match validateKeys (validateFsParam sections) p fsParamKeys with
  | .error err => .error err
  | .ok () => validateKeys validateRemoteParam p remoteParamKeys

/-! ## What validation establishes -/

/-- `value` is `name:rest`, and `name` is a configured section. -/
def NamesRemote (sections : List GoString) (value : GoString) : Prop :=
  ∃ name rest, value = name ++ ascii ':' :: rest ∧ ascii ':' ∉ name ∧ name ≠ [] ∧ name ∈ sections

section
variable {sections : List GoString} {p : Params} {value : GoString}

/-- What is let through names a configured remote, by the text before its first colon. -/
theorem validateFsParam_ok (h : validateFsParam sections value = .ok ()) :
    NamesRemote sections value := by
  unfold validateFsParam at h
  split at h
  · cases h
  · next colonIdx hidx =>
      obtain ⟨hsplit, hcolon⟩ := index_some hidx
      dsimp only at h
      split at h
      · cases h
      · next hne =>
          split at h
          · next hmem => exact ⟨_, _, hsplit, hcolon, hne, hmem⟩
          · cases h

/-- What is let through has no component `..`. -/
theorem validateRemoteParam_ok (h : validateRemoteParam value = .ok ()) :
    str ".." ∉ splitSlash value := by
  unfold validateRemoteParam toSlash at h
  dsimp only at h
  split at h
  · cases h
  · next hno => exact hno

/-- A loop that ends normally has checked every string among its keys, and nothing else. -/
theorem validateKeys_ok {validate : GoString → Except GoError Unit} {keys : List GoString} :
    validateKeys validate p keys = .ok () ↔
      ∀ key ∈ keys, ∀ s, p.get? key = some (.json (.string s)) → validate s = .ok () := by
  induction keys with
  | nil => simp [validateKeys]
  | cons key rest ih =>
      rw [List.forall_mem_cons, ← ih, validateKeys]
      cases hget : p.get? key with
      | none => simp
      | some raw =>
          cases hraw : raw.string? with
          | none =>
              have hno : ∀ s, raw ≠ .json (.string s) := by
                intro s hs
                rw [Value.string?_eq_some.mpr hs] at hraw
                cases hraw
              simp [hraw, hno]
          | some value =>
              obtain rfl := Value.string?_eq_some.mp hraw
              cases hv : validate value with
              | error err => simp [hraw, hv]
              | ok u => simp [hraw, hv]

/-- **What `validateRCParams` establishes**: of the six keys, those that hold a string hold a checked one. -/
theorem validateRCParams_ok :
    validateRCParams sections p = .ok () ↔
      (∀ key ∈ fsParamKeys, ∀ s, p.get? key = some (.json (.string s)) →
        validateFsParam sections s = .ok ()) ∧
      (∀ key ∈ remoteParamKeys, ∀ s, p.get? key = some (.json (.string s)) →
        validateRemoteParam s = .ok ()) := by
  rw [← validateKeys_ok, ← validateKeys_ok, validateRCParams]
  cases hfs : validateKeys (validateFsParam sections) p fsParamKeys with
  | error err => simp
  | ok u => simp

end

end RCloneCloud
