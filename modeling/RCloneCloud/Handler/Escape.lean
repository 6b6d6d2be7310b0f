import RCloneCloud.Handler.Serve

/-!
# `Handler.Escape` — requests and the root of a remote

A location is given in two parts: the text after the first colon of an fs value, and the path that goes
with it. Validation looks for `..` in the second only, so the first can lead out of the remote's root
(`fs_escapes_root`), and nothing else can (`contained_iff`).

The components of a path are the moves of `Lib.Path`: `..` goes up, an empty component and `.` stay. A path without
`..` never goes up, so all that is left to ask of a validated location is whether the text after the colon stays
inside. `contained_iff` asks exactly that, for every fs key of a POST that reaches rclone and for the path of a GET.
-/

set_option autoImplicit false

namespace RCloneCloud

open Lib

/-! ## Locations -/

/-- What a component of a path does. -/
def move (component : GoString) : Move :=
  if component = str ".." then .up
  else if component = [] ∨ component = str "." then .stay
  else .down

/-- The moves of a path. -/
def moves (path : GoString) : List Move := (splitSlash path).map move

/-- The text after the first colon of an fs value. -/
def afterColon (value : GoString) : GoString :=
  match index value (ascii ':') with
  | none => []
  | some colonIdx => value.drop (colonIdx + 1)

/-- The walk from the root of the named remote that an fs value and a remote path describe. -/
def location (fs remote : GoString) : List Move := moves (afterColon fs) ++ moves remote

/-- The fs keys with the remote keys that accompany them. -/
def locationKeys : List (GoString × GoString) := fsParamKeys.zip remoteParamKeys

/-- The string under a key, empty when there is none. -/
def Params.stringAt (p : Params) (key : GoString) : GoString := ((p.get? key).bind Value.string?).getD []

/-- Each of the checked keys that is present holds a string. -/
def AllStrings (p : Params) : Prop :=
  ∀ key ∈ fsParamKeys ++ remoteParamKeys, ∀ v, p.get? key = some v → ∃ s, v = .json (.string s)

/-! ## What validation leaves open -/

section
variable {env : RcEnv} {p : Params} {remote : GoString}

/-- A validated path never goes up. -/
theorem moves_of_validated (h : validateRemoteParam remote = .ok ()) : .up ∉ moves remote := by
  intro hm
  obtain ⟨component, hmem, hup⟩ := List.mem_map.mp hm
  have hdots : component = str ".." := by
    unfold move at hup
    split at hup
    · assumption
    · split at hup <;> cases hup
  exact validateRemoteParam_ok h (hdots ▸ hmem)

/-- A validated path behind a text adds no way out: the location stays inside when the text does. -/
theorem location_contained_iff (fs : GoString) (h : validateRemoteParam remote = .ok ()) :
    Contained (location fs remote) ↔ Contained (moves (afterColon fs)) :=
  contained_append_iff (moves_of_validated h)

/-- The remote path that accompanies an fs value has been checked, or is empty. -/
theorem stringAt_validated (h : validateRCParams env.sections p = .ok ()) {key : GoString}
    (hkey : key ∈ remoteParamKeys) : validateRemoteParam (p.stringAt key) = .ok () := by
  have hempty : validateRemoteParam [] = .ok () := by decide
  unfold Params.stringAt
  cases hget : p.get? key with
  | none => exact hempty
  | some v =>
      cases hv : v.string? with
      | none => rw [Option.bind_some, hv]; exact hempty
      | some s =>
          rw [Option.bind_some, hv]
          rw [Value.string?_eq_some.mp hv] at hget
          exact (validateRCParams_ok.mp h).2 key hkey s hget

/-- A GET reaches rclone with both parts of its path validated. -/
theorem handleGet_serves {path remotePath fsName : GoString}
    (h : handleGet env path = .serveRemote remotePath fsName) :
    fsMatch path = some (fsName, remotePath) ∧ validateFsParam env.sections fsName = .ok () ∧
    validateRemoteParam remotePath = .ok () := by
  unfold handleGet at h
  split at h
  · cases h
  · next fsName' remotePath' hmatch =>
      split at h
      · cases h
      · next hfs =>
          split at h
          · cases h
          · next hremote =>
              cases h
              exact ⟨hmatch, hfs, hremote⟩

/-- **When a request stays inside the root**: exactly when the text after the colon of each of its fs values
    does so by itself, for the parameters of a POST and for the path of a GET. -/
theorem contained_iff (env : RcEnv) (p : Params) :
    (validateRCParams env.sections p = .ok () → AllStrings p →
      ((∀ keys ∈ locationKeys, ∀ fs, p.get? keys.1 = some (.json (.string fs)) →
          Contained (location fs (p.stringAt keys.2))) ↔
        ∀ key ∈ fsParamKeys, ∀ fs, p.get? key = some (.json (.string fs)) →
          Contained (moves (afterColon fs)))) ∧
    (∀ path remotePath fsName, handleGet env path = .serveRemote remotePath fsName →
      (Contained (location fsName remotePath) ↔ Contained (moves (afterColon fsName)))) := by
  constructor
  · intro hvalid _
    constructor
    · intro h key hkey fs hfs
      -- every fs key is the first of a pair, and a contained walk has contained beginnings
      have hpaired : ∀ k ∈ fsParamKeys, ∃ keys ∈ locationKeys, keys.1 = k := by decide
      obtain ⟨keys, hkeys, rfl⟩ := hpaired key hkey
      exact (h keys hkeys fs hfs).of_append
    · intro h keys hkeys fs hfs
      obtain ⟨hfsKey, hremoteKey⟩ := List.of_mem_zip hkeys
      have hremote := stringAt_validated hvalid hremoteKey
      exact (location_contained_iff fs hremote).mpr (h keys.1 hfsKey fs hfs)
  · intro path remotePath fsName hserve
    exact location_contained_iff fsName (handleGet_serves hserve).2.2

end

/-! ### An fs value that leads out of its remote -/

/-- One configured remote. -/
def remoteEnv : RcEnv := ⟨[str "r"], fun _ => none⟩

/-- The parameters `fs=r:..` and an empty remote path. -/
def upParams : Params :=
  some (((∅ : GoMap Value).insert (str "fs") (.json (.string (str "r:..")))).insert (str "remote")
    (.json (.string [])))

/-- The sample's parameters are texts. -/
theorem upParams_strings : AllStrings upParams := by
  intro key _ v hv
  simp only [upParams, Params.get?, Option.bind_some, GoMap.getElem?_insert] at hv
  split at hv
  · cases hv
    exact ⟨_, rfl⟩
  · split at hv
    · cases hv
      exact ⟨_, rfl⟩
    · simp at hv

/-- They are accepted where `r` is configured. -/
theorem fs_escapes_root :
    ¬ ∀ (env : RcEnv) (p : Params),
      (validateRCParams env.sections p = .ok () → AllStrings p →
        ∀ keys ∈ locationKeys, ∀ fs, p.get? keys.1 = some (.json (.string fs)) →
          Contained (location fs (p.stringAt keys.2))) ∧
      (∀ path remotePath fsName, handleGet env path = .serveRemote remotePath fsName →
        Contained (location fsName remotePath)) := by
  intro hclaim
  have hup := (hclaim remoteEnv upParams).1 (by decide) upParams_strings
    (str "fs", str "remote") (by decide) (str "r:..") rfl
  revert hup
  decide

/-- The parameters that lead out of the root, and a GET of `r:a`: on both the two sides agree. -/
theorem contained_iff_up :
    ((∀ keys ∈ locationKeys, ∀ fs, upParams.get? keys.1 = some (.json (.string fs)) →
        Contained (location fs (upParams.stringAt keys.2))) ↔
      ∀ key ∈ fsParamKeys, ∀ fs, upParams.get? key = some (.json (.string fs)) →
        Contained (moves (afterColon fs))) ∧
    (Contained (location (str "r:a") (str "b/c")) ↔ Contained (moves (afterColon (str "r:a")))) :=
  ⟨(contained_iff remoteEnv upParams).1 (by decide) upParams_strings,
    (contained_iff remoteEnv upParams).2 (str "[r:a]b/c") _ _ rfl⟩

end RCloneCloud
