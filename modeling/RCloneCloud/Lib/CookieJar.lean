import Mathlib

/-!
# `Lib.CookieJar` — the cookies that the scripts of an origin see

A cookie stands under its name and its path. A script sees those whose path covers the location of its page and which
have not expired, the longer paths first. A cookie that is set takes the place of the one under the same name and path
and of no other, so under another path than its own a cookie is not removed.

`Only c` says that `c` is in the jar and is the one cookie of its name there. A cookie that is set is the only one
where all others of its name stood under its path (`only_set`); it stays so while other names are removed
(`Only.remove`), and a script that its path covers then finds its value (`Only.get?`). Values and times are
parameters; only the order of times is used.
-/

set_option autoImplicit false

namespace Lib

variable {V T : Type}

/-- What a jar keeps of a cookie: where it stands, what it holds and when it is gone. -/
structure Cookie (V T : Type) where
  name : List Char
  path : List Char
  value : V
  expires : T

/-- The path covers the location: it is the location, or a directory above it. -/
def pathMatches (path location : List Char) : Bool :=
  location = path ||
    path.isPrefixOf location && (path.getLast? = some '/' || (location.drop path.length).head? = some '/')

/-- The path of a cookie that is set without one: the directory of the location, the root if it has none. -/
def defaultPath (location : List Char) : List Char :=
  let directory := (location.rdropWhile fun c => c ≠ '/').dropLast
  if location.head? = some '/' ∧ directory ≠ [] then directory else ['/']

/-- The cookies of one origin. -/
abbrev CookieJar (V T : Type) := List (Cookie V T)

namespace CookieJar

variable {jar : CookieJar V T} {location name path : List Char} {c : Cookie V T} {v : V}

/-! ## One cookie of a name -/

/-- Taking a cookie out needs its path as well as its name. -/
def remove (jar : CookieJar V T) (name path : List Char) : CookieJar V T :=
  jar.filter fun c => !(c.name = name && c.path = path)

theorem mem_remove : c ∈ jar.remove name path ↔ c ∈ jar ∧ ¬(c.name = name ∧ c.path = path) := by
  rw [remove, List.mem_filter, Bool.not_eq_true', Bool.and_eq_false_iff, decide_eq_false_iff_not, decide_eq_false_iff_not,
    not_and_or]

/-- The one cookie of its name. -/
structure Only (jar : CookieJar V T) (c : Cookie V T) : Prop where
  mem : c ∈ jar
  unique : ∀ d ∈ jar, d.name = c.name → d = c

/-- **Under another path a cookie is not removed.** -/
theorem Only.remove (h : jar.Only c) (hpath : path ≠ c.path) : (jar.remove name path).Only c := by
  refine ⟨mem_remove.mpr ⟨h.mem, fun hsame => hpath hsame.2.symm⟩, fun d hd hname => ?_⟩
  exact h.unique d (mem_remove.mp hd).1 hname

/-! ## Setting and reading -/

section
variable [LinearOrder T] {now : T}

/-- A cookie that has expired by now only removes. -/
def set (jar : CookieJar V T) (now : T) (c : Cookie V T) : CookieJar V T :=
  if now < c.expires then jar.remove c.name c.path ++ [c] else jar.remove c.name c.path

/-- What a script reads at a location. -/
def visible (jar : CookieJar V T) (now : T) (location : List Char) : CookieJar V T :=
  (jar.filter fun c => decide (now < c.expires) && pathMatches c.path location).mergeSort fun a b =>
    decide (b.path.length ≤ a.path.length)

/-- The first cookie with the name. -/
def get? (jar : CookieJar V T) (now : T) (location name : List Char) : Option V :=
  ((jar.visible now location).find? fun c => c.name = name).map Cookie.value

/-- Setting a cookie brings in no cookie but it. -/
theorem mem_of_mem_set {d : Cookie V T} (h : d ∈ jar.set now c) : d = c ∨ d ∈ jar := by
  unfold set at h
  split at h
  · rcases List.mem_append.mp h with hold | hnew
    · exact .inr (mem_remove.mp hold).1
    · exact .inl (List.mem_singleton.mp hnew)
  · exact .inr (mem_remove.mp h).1

/-- A script sees the cookies of its own path that are still fresh. -/
theorem mem_visible : c ∈ jar.visible now location ↔ c ∈ jar ∧ now < c.expires ∧ pathMatches c.path location = true := by
  rw [visible, List.mem_mergeSort, List.mem_filter, Bool.and_eq_true, decide_eq_true_iff]

/-- What is read is in the jar. -/
theorem mem_of_get? (h : jar.get? now location name = some v) : ∃ c ∈ jar, c.name = name ∧ c.value = v := by
  obtain ⟨c, hfind, hvalue⟩ := Option.map_eq_some_iff.mp h
  have hname := List.find?_some hfind
  rw [decide_eq_true_iff] at hname
  exact ⟨c, (mem_visible.mp (List.mem_of_find?_eq_some hfind)).1, hname, hvalue⟩

/-- A cookie that is set is the only one of its name, if no other stands under another path. -/
theorem only_set (hpaths : ∀ d ∈ jar, d.name = c.name → d.path = c.path) (h : now < c.expires) : (jar.set now c).Only c := by
  rw [set, if_pos h]
  refine ⟨List.mem_append_right _ (List.mem_singleton_self c), fun d hd hname => ?_⟩
  rcases List.mem_append.mp hd with hold | hnew
  · obtain ⟨hin, hno⟩ := mem_remove.mp hold
    exact absurd ⟨hname, hpaths d hin hname⟩ hno
  · exact List.mem_singleton.mp hnew

/-- It is read wherever its path covers the location, until it expires. -/
theorem Only.get? (h : jar.Only c) (hnow : now < c.expires) (hpath : pathMatches c.path location = true) :
    jar.get? now location c.name = some c.value := by
  have hsome : ((jar.visible now location).find? fun d => d.name = c.name).isSome = true := by
    rw [List.find?_isSome]
    exact ⟨c, mem_visible.mpr ⟨h.mem, hnow, hpath⟩, decide_eq_true rfl⟩
  obtain ⟨d, hd⟩ := Option.isSome_iff_exists.mp hsome
  have hname := List.find?_some hd
  rw [decide_eq_true_iff] at hname
  obtain rfl : d = c := h.unique d (mem_visible.mp (List.mem_of_find?_eq_some hd)).1 hname
  rw [CookieJar.get?, hd]
  rfl

end

end CookieJar

end Lib
