import Mathlib

/-!
# `Lib.Latest` — only the latest request counts

Requests are numbered in the order they are made. At most one is subscribed to at a time, and it is the latest: a new
one takes its place, so whatever comes of an earlier request is dropped, in whatever order it comes.

`Latest` is what an operator that switches to the newest inner stream does, without the streams: a counter of the
requests begun and the one that is subscribed to. `takes k` asks whether an answer that carries the number `k` still
has a subscriber; `takes_eq_some` says that it does exactly while this request is the running one.
-/

set_option autoImplicit false

namespace Lib

/-- The request subscribed to, with its number, and how many have been made. -/
structure Latest (α : Type) where
  running : Option (ℕ × α)
  begun : ℕ
  /-- What is subscribed to is the last request made. -/
  latest : ∀ k a, running = some (k, a) → k + 1 = begun

namespace Latest

variable {α : Type}

/-- Nothing has been requested yet. -/
def empty : Latest α := ⟨none, 0, fun k a h => by cases h⟩

/-- A new request: the one before it is unsubscribed from. -/
def request (l : Latest α) (a : α) : Latest α where
  running := some (l.begun, a)
  begun := l.begun + 1
  latest := by
    intro k b h
    cases h
    rfl

/-- Nothing is subscribed to any more. -/
def stop (l : Latest α) : Latest α := ⟨none, l.begun, fun k a h => by cases h⟩

/-- Whether what comes of request `k` is let through, and the request then. -/
def takes (l : Latest α) (k : ℕ) : Option α := l.running.bind fun running => if running.1 = k then some running.2 else none

variable {l : Latest α} {k : ℕ} {a b : α}

@[simp] theorem running_request : (l.request a).running = some (l.begun, a) := rfl

@[simp] theorem begun_request : (l.request a).begun = l.begun + 1 := rfl

@[simp] theorem running_stop : l.stop.running = none := rfl

@[simp] theorem begun_stop : l.stop.begun = l.begun := rfl

/-- An answer is taken when its request is the one that runs. -/
theorem takes_eq_some : l.takes k = some a ↔ l.running = some (k, a) := by
  unfold takes
  cases l.running with
  | none =>
      constructor
      · intro h
        cases h
      · intro h
        cases h
  | some running =>
      obtain ⟨j, b⟩ := running
      show (if j = k then some b else none) = some a ↔ _
      split
      · next hj =>
          subst hj
          simp
      · next hj => simp [hj]

/-- The requests made before the latest one are not subscribed to. -/
theorem running_ne_of_lt (h : k < l.begun) : (l.request a).running ≠ some (k, b) := by
  rw [running_request]
  intro heq
  obtain ⟨hk, -⟩ := Prod.mk.inj (Option.some_inj.mp heq)
  exact Nat.lt_irrefl k (hk ▸ h)

end Latest

end Lib
