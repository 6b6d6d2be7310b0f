import RCloneCloud.Lib.Run

/-!
# `Lib.Feed` — a replica kept up to date by a change feed

A source map is written key by key; every write queues a note, and the replica applies the notes in
order. A note carries the value written (`put`), or only says that the key was updated, the value being
looked up at some later moment (`look`): the looked-up value may be newer than the write, and where the
key is gone by then the note comes to nothing (`skip`). So the replica passes through states the source
never had. It still converges: `Synced`, preserved by every step, says that delivering what is queued
would make the replica equal to the source, looking up every value now.
-/

set_option autoImplicit false

namespace Lib

variable {K V : Type} [DecidableEq K]

/-- What is queued for the replica. -/
inductive Note (K V : Type) where
  | put (k : K) (v : V)
  | del (k : K)
  | look (k : K)
  | skip

/-- The source, the replica, and the notes not yet delivered. -/
structure Feed (K V : Type) where
  source : K → Option V
  replica : K → Option V
  queue : List (Note K V)

/-- A write at the source, the lookup for the `n`-th queued note, or the delivery of the first one. -/
inductive FeedAct (K V : Type) where
  | put (k : K) (v : V)
  | update (k : K) (v : V)
  | del (k : K)
  | silent
  | lookup (n : Nat)
  | deliver

/-- A lookup replaces the note by the value found. -/
def Note.resolve (source : K → Option V) : Note K V → Note K V
  | .look k =>
    match source k with
    | some v => .put k v
    | none => .skip
  | note => note

/-- The effect of a note on the replica at `k`, a value still to be looked up being the current one. -/
def Note.effect (source : K → Option V) (k : K) (r : Option V) : Note K V → Option V
  | .put k' v => if k' = k then some v else r
  | .del k' => if k' = k then none else r
  | .look k' => if k' = k then (source k).or r else r
  | .skip => r

namespace Feed

/-- A write queues a note and is seen at once in the source; a delivery takes the oldest note, which may have been
looked up since. No other step is there, so nothing but writes changes the source. -/
def step (s : Feed K V) : FeedAct K V → Option (Feed K V)
  | .put k v =>
    some { s with source := Function.update s.source k (some v), queue := s.queue ++ [.put k v] }
  | .update k v =>
    some { s with source := Function.update s.source k (some v), queue := s.queue ++ [.look k] }
  | .del k => some { s with source := Function.update s.source k none, queue := s.queue ++ [.del k] }
  | .silent => some { s with queue := s.queue ++ [.skip] }
  | .lookup n => some { s with queue := s.queue.modify n (Note.resolve s.source) }
  | .deliver =>
    match s.queue with
    | [] => none
    | .look _ :: _ => none
    | .put k v :: rest => some { s with replica := Function.update s.replica k (some v), queue := rest }
    | .del k :: rest => some { s with replica := Function.update s.replica k none, queue := rest }
    | .skip :: rest => some { s with queue := rest }

/-- Where the replica ends at `k` if the queue is delivered now. -/
def settled (source : K → Option V) (k : K) (r : Option V) (queue : List (Note K V)) : Option V :=
  queue.foldl (Note.effect source k) r

/-- Delivering what is queued would make the replica equal to the source. -/
def Synced (s : Feed K V) : Prop := ∀ k, settled s.source k (s.replica k) s.queue = s.source k

/-- What settles at `k` depends on the source at `k` only. -/
theorem settled_congr {source source' : K → Option V} {k : K} (h : source k = source' k) (r : Option V)
    (queue : List (Note K V)) : settled source k r queue = settled source' k r queue := by
  unfold settled
  congr 1
  funext r note
  cases note <;> simp [Note.effect, h]

/-- What is queued last counts last. -/
theorem settled_snoc (source : K → Option V) (k : K) (r : Option V) (queue : List (Note K V))
    (note : Note K V) :
    settled source k r (queue ++ [note]) = note.effect source k (settled source k r queue) := by
  simp [settled]

/-- Looking a note up first changes nothing about what it comes to under the source as it is now. -/
theorem effect_resolve (source : K → Option V) (k : K) (r : Option V) (note : Note K V) :
    (note.resolve source).effect source k r = note.effect source k r := by
  cases note with
  | look k' =>
      unfold Note.resolve
      by_cases hk : k' = k
      · subst hk
        cases h : source k' <;> simp [Note.effect, h]
      · cases h : source k' <;> simp [Note.effect, h, hk]
  | _ => rfl

/-- A lookup made now changes nothing of what settles. -/
theorem settled_lookup (source : K → Option V) (k : K) (r : Option V) (queue : List (Note K V)) (n : Nat) :
    settled source k r (queue.modify n (Note.resolve source)) = settled source k r queue := by
  induction queue generalizing r n with
  | nil => simp
  | cons note rest ih =>
      cases n with
      | zero => simp [settled, effect_resolve]
      | succ n => exact ih (note.effect source k r) n

/-- A write of the source together with its note: what settles at the written key is what was written. -/
theorem synced_write {s : Feed K V} {k' : K} {v : Option V} {note : Note K V} (h : Synced s)
    (hnote : ∀ k r, note.effect (Function.update s.source k' v) k r = if k' = k then v else r) :
    Synced { s with source := Function.update s.source k' v, queue := s.queue ++ [note] } := by
  intro k
  show settled (Function.update s.source k' v) k (s.replica k) (s.queue ++ [note])
    = Function.update s.source k' v k
  rw [settled_snoc, hnote]
  by_cases hk : k' = k
  · rw [if_pos hk, hk, Function.update_self]
  · have hsame : Function.update s.source k' v k = s.source k := Function.update_of_ne (Ne.symm hk) _ _
    rw [if_neg hk, settled_congr hsame, hsame]
    exact h k

/-- **Every step keeps the replica in sync.** -/
theorem synced_step {s s' : Feed K V} {a : FeedAct K V} (h : Synced s) (hs : s.step a = some s') :
    Synced s' := by
  cases a with
  | put k' v =>
      cases hs
      exact synced_write h fun k r => rfl
  | update k' v =>
      cases hs
      refine synced_write h fun k r => ?_
      by_cases hk : k' = k
      · subst hk; simp [Note.effect]
      · simp [Note.effect, hk]
  | del k' =>
      cases hs
      exact synced_write h fun k r => rfl
  | silent =>
      cases hs
      intro k
      dsimp only
      rw [settled_snoc]
      exact h k
  | lookup n =>
      cases hs
      intro k
      exact (settled_lookup _ _ _ _ _).trans (h k)
  | deliver =>
      intro k
      have hk := h k
      simp only [step] at hs
      -- the first note moves from the queue into the replica: what settles is the same
      split at hs <;> cases hs <;> next hq =>
        rw [hq] at hk
        refine Eq.trans ?_ hk
        simp only [settled, List.foldl_cons, Note.effect, Function.update_apply, eq_comm (a := k)]

/-- **Convergence.** A run that starts in sync and ends with nothing queued leaves the replica equal to the
    source. -/
theorem replica_eq_source {s s' : Feed K V} {as : List (FeedAct K V)} (h : Synced s)
    (hrun : run step s as = some s') (hq : s'.queue = []) : s'.replica = s'.source := by
  have hsync : Synced s' :=
    run_invariant (G := fun _ _ => True) (fun _ _ _ hI _ hs => synced_step hI hs) h
      (along_of_forall (fun _ _ => trivial) s as) hrun
  funext k
  have hk := hsync k
  rw [hq] at hk
  exact hk

end Feed

end Lib
