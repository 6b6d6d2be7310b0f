import Mathlib

/-!
# `Lib.Prog` — programs that call an outside service

A program is a tree: it ends with a result, or it makes one call and goes on with the answer. The
service is a parameter. Run alone, the program meets one function that answers every call (`exec`); run
next to others, its calls are taken one at a time by whoever schedules it (`call`'s continuation).

Three facts about a tree hold for every answer the service may give:
* `Makes P`: only calls satisfying `P` are made;
* `Ends P`: the result satisfies `P`;
* `Owes pays good W`: if it ends in a `good` result, some answered call has paid for every key of `W`.

The three are defined by recursion over the tree and hold under every service, so a fact about a handler is proved
once and used for the handler run alone (`exec_invariant`, `Ends.exec`) and for the handler run among others.
-/

set_option autoImplicit false

namespace Lib

/-- A program over the calls `Op`, the answer to `op` having the type `Ans op`. -/
inductive Prog (Op : Type) (Ans : Op → Type) (α : Type) where
  | pure (a : α)
  | call (op : Op) (k : Ans op → Prog Op Ans α)

namespace Prog

variable {Op : Type} {Ans : Op → Type} {α σ K : Type}

/-- Run alone against a service with state `σ`. -/
def exec (serve : (op : Op) → σ → Ans op × σ) : Prog Op Ans α → σ → α × σ
  | .pure a, s => (a, s)
  | .call op k, s => exec serve (k (serve op s).1) (serve op s).2

/-- Whatever the answers, only calls that satisfy `P` are made. -/
def Makes (P : Op → Prop) : Prog Op Ans α → Prop
  | .pure _ => True
  | .call op k => P op ∧ ∀ a, Makes P (k a)

/-- Whatever the answers, the result satisfies `P`. -/
def Ends (P : α → Prop) : Prog Op Ans α → Prop
  | .pure a => P a
  | .call _ k => ∀ a, Ends P (k a)

/-- Whatever the answers, a run that ends in a `good` result has paid for every key of `W`: `pays op a` are
    the keys that the call `op` pays for when it is answered `a`. -/
def Owes (pays : (op : Op) → Ans op → Set K) (good : α → Prop) : Prog Op Ans α → Set K → Prop
  | .pure a, W => good a → W = ∅
  | .call op k, W => ∀ a, Owes pays good (k a) (W \ pays op a)

/-- What every permitted call preserves, the whole run preserves. -/
theorem exec_invariant (serve : (op : Op) → σ → Ans op × σ) {P : Op → Prop} {I : σ → Prop}
    (hserve : ∀ op s, P op → I s → I (serve op s).2) {p : Prog Op Ans α} (hp : p.Makes P) {s : σ}
    (hs : I s) : I (p.exec serve s).2 := by
  induction p generalizing s with
  | pure a => exact hs
  | call op k ih => exact ih _ (hp.2 _) (hserve op s hp.1 hs)

/-- What holds of every result a tree can end with holds of the one that a service makes it end with. -/
theorem Ends.exec {P : α → Prop} {p : Prog Op Ans α} (hp : p.Ends P) (serve : (op : Op) → σ → Ans op × σ) (s : σ) :
    P (p.exec serve s).1 := by
  induction p generalizing s with
  | pure a => exact hp
  | call op k ih => exact ih _ (hp _) _

/-- Who owes more owes less. -/
theorem Owes.mono {pays : (op : Op) → Ans op → Set K} {good : α → Prop} {p : Prog Op Ans α}
    {W V : Set K} (hp : p.Owes pays good W) (h : V ⊆ W) : p.Owes pays good V := by
  induction p generalizing W V with
  | pure a => exact fun ha => Set.subset_eq_empty h (hp ha)
  | call op k ih => exact fun a => ih a (hp a) (Set.sdiff_subset_sdiff_left h)

end Prog

end Lib
