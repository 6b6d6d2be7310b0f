import Mathlib

/-!
# `Lib.Signal` — signals, and values computed from them when they are read

A signal counts how often it has been set. A computed value is kept with the count it was computed at, and
computed anew only when it is read after the signal was set again. What else the computation reads may have
changed in between: nothing tells the computed value.

The count stands for the identity check by which a framework decides whether a computed value is out of date. A value
is `Behind` a signal when it was not computed at a later count than the signal's; then setting the signal puts it out
of date (`Behind.current_set`), while a value just computed is given again as it is (`current_keep`).
-/

set_option autoImplicit false

namespace Lib

variable {α β : Type}

/-- A value and how many times it has been set. -/
structure Signal (α : Type) where
  value : α
  version : Nat

/-- The signal with a new value; an equal value is new too. -/
def Signal.set (s : Signal α) (a : α) : Signal α := ⟨a, s.version + 1⟩

/-- The last value computed, if there is one, and the version of the signal it was computed at. -/
structure Computed (β : Type) where
  last : Option (Nat × β)

namespace Computed

/-- The value, if the signal has not been set since. -/
def current (c : Computed β) (s : Signal α) : Option β :=
  match c.last with
  | some (version, b) => if version = s.version then some b else none
  | none => none

/-- The value has just been computed. -/
def keep (s : Signal α) (b : β) : Computed β := ⟨some (s.version, b)⟩

/-- What has been computed was computed at a version the signal has had. -/
def Behind (c : Computed β) (s : Signal α) : Prop := ∀ last ∈ c.last, last.1 ≤ s.version

variable {c : Computed β} {s : Signal α}

/-- A value that was never computed is not newer than any signal. -/
theorem behind_none : Computed.Behind (β := β) ⟨none⟩ s := fun _ h => nomatch h

/-- A value just computed is not newer than the signal. -/
theorem behind_keep (s : Signal α) (b : β) : (keep s b).Behind s := by
  intro last hlast
  cases hlast
  exact Nat.le_refl _

/-- Setting the signal only raises its count. -/
theorem Behind.set (h : c.Behind s) (a : α) : c.Behind (s.set a) := fun last hlast =>
  Nat.le_succ_of_le (h last hlast)

/-- A value just computed is given again until the signal is set. -/
@[simp] theorem current_keep (s : Signal α) (b : β) : (keep s b).current s = some b := if_pos rfl

/-- Nothing is current any more once the signal is set. -/
theorem Behind.current_set (h : c.Behind s) (a : α) : c.current (s.set a) = none := by
  unfold current
  cases hlast : c.last with
  | none => rfl
  | some last =>
      have hle : last.1 ≤ s.version := h last hlast
      have hlt : last.1 < (s.set a).version := Nat.lt_succ_of_le hle
      exact if_neg (Nat.ne_of_lt hlt)

end Computed

end Lib
