import Mathlib

/-!
# `Lib.TokenBucket` — token buckets over any ordered field of times

A bucket fills at `rate` up to `burst` tokens; a request takes a whole token or is refused. All that counts
of a bucket at a time is its level then (`allow_congr`). Over a window a bucket pays for what it lets through
with the tokens it had and those that came in (`decisions_countP_le`), so no window sees more than a full bucket
and its refill (`decisions_window_le`).

Times and tokens are exact numbers of one ordered field, which leaves out the rounding of an implementation in
floating point, and the clock is the one that the requests are stamped with. The window bound is by induction on the
requests with the potential argument: what a bucket holds after a request, plus what it let through, is covered by
what it held before and what came in.
-/

set_option autoImplicit false

namespace Lib

/-- The tokens in a bucket when it was last used, and when that was. -/
structure Bucket (R : Type) where
  tokens : R
  last : R
deriving DecidableEq

namespace Bucket

variable {R : Type} [Field R] [LinearOrder R] {rate burst : R}

/-- The tokens in the bucket at time `t`. -/
def level (rate burst : R) (b : Bucket R) (t : R) : R := min burst (b.tokens + (t - b.last) * rate)

/-- A request at time `t`: whether there is a token for it, and the bucket afterwards. -/
def allow (rate burst : R) (b : Bucket R) (t : R) : Bool × Bucket R :=
  if 1 ≤ b.level rate burst t then (true, ⟨b.level rate burst t - 1, t⟩)
  else (false, ⟨b.level rate burst t, t⟩)

/-- A bucket that holds all it can. -/
def full (burst t : R) : Bucket R := ⟨burst, t⟩

/-- The answers to requests at the times of a list. -/
def decisions (rate burst : R) : Bucket R → List R → List (R × Bool)
  | _, [] => []
  | b, t :: rest => (t, (b.allow rate burst t).1) :: decisions rate burst (b.allow rate burst t).2 rest

/-- A bucket does not fill over its size. -/
theorem level_le_burst (b : Bucket R) (t : R) : b.level rate burst t ≤ burst := min_le_left _ _

/-- A bucket gains no more than the rate gives it in the time that passed. -/
theorem level_le_filled (b : Bucket R) (t : R) :
    b.level rate burst t ≤ b.tokens + (t - b.last) * rate := min_le_right _ _

/-- After long enough the bucket is full again. -/
theorem level_eq_burst {b : Bucket R} {t : R} (h : burst ≤ b.tokens + (t - b.last) * rate) :
    b.level rate burst t = burst := min_eq_left h

/-- A full bucket stays full. -/
theorem level_full (t : R) : (full burst t).level rate burst t = burst :=
  level_eq_burst (by simp [full])

/-- Buckets of the same level answer alike, and are the same bucket afterwards. -/
theorem allow_congr {b b' : Bucket R} {t : R} (h : b.level rate burst t = b'.level rate burst t) :
    b.allow rate burst t = b'.allow rate burst t := by
  rw [allow, allow, h]

/-- Every request, granted or not, brings the bucket up to its own time. -/
theorem allow_last (b : Bucket R) (t : R) : (b.allow rate burst t).2.last = t := by
  unfold allow
  split <;> rfl

/-- A request that is let through costs a token; one that is refused costs nothing. -/
theorem allow_cost (b : Bucket R) (t : R) :
    (b.allow rate burst t).2.tokens + (if (b.allow rate burst t).1 then 1 else 0)
      = b.level rate burst t := by
  unfold allow
  split
  · simp
  · simp

/-- The requests let through at times with `P`. -/
def passed (P : R → Prop) [DecidablePred P] (l : List (R × Bool)) : Nat :=
  l.countP fun d => d.2 && decide (P d.1)

omit [Field R] [LinearOrder R] in
/-- A request counts when it was let through and is among those asked about. -/
theorem passed_cons (P : R → Prop) [DecidablePred P] (t : R) (ok : Bool) (l : List (R × Bool)) :
    passed P ((t, ok) :: l) = passed P l + if ok && decide (P t) then 1 else 0 := List.countP_cons

omit [Field R] in
/-- The times only grow: after one beyond the window all are. -/
theorem not_le_of_late {t w : R} {rest : List R} (h : (t :: rest).Pairwise (· ≤ ·)) (hlate : ¬ t ≤ w) :
    ∀ t' ∈ t :: rest, ¬ t' ≤ w := by
  intro t' ht' hle
  rcases List.mem_cons.mp ht' with rfl | ht'
  · exact hlate hle
  · exact hlate (((List.pairwise_cons.mp h).1 t' ht').trans hle)

/-- Requests at times without `P` do not count. -/
theorem passed_eq_zero {P : R → Prop} [DecidablePred P] {b : Bucket R} {ts : List R}
    (h : ∀ t ∈ ts, ¬ P t) : passed P (decisions rate burst b ts) = 0 := by
  induction ts generalizing b with
  | nil => rfl
  | cons t rest ih =>
      have hrest : ∀ t' ∈ rest, ¬ P t' := fun t' ht' => h t' (List.mem_cons_of_mem _ ht')
      have ht : ¬ P t := h t List.mem_cons_self
      rw [decisions, passed_cons, ih hrest, decide_eq_false ht, Bool.and_false]
      rfl

section
variable [IsStrictOrderedRing R]

/-- With time going forward a bucket that owes nothing holds no negative amount. -/
theorem level_nonneg {b : Bucket R} {t : R} (hrate : 0 ≤ rate) (hburst : 0 ≤ burst) (hb : 0 ≤ b.tokens)
    (ht : b.last ≤ t) : 0 ≤ b.level rate burst t :=
  le_min hburst (add_nonneg hb (mul_nonneg (sub_nonneg.mpr ht) hrate))

/-- A token is taken only where there is a whole one. -/
theorem allow_tokens_nonneg {b : Bucket R} {t : R} (h : 0 ≤ b.level rate burst t) :
    0 ≤ (b.allow rate burst t).2.tokens := by
  unfold allow
  split
  · next hone => exact sub_nonneg.mpr hone
  · exact h

variable (hrate : 0 ≤ rate) (hburst : 0 ≤ burst)
include hrate hburst

/-- **What a bucket lets through until `w`** it pays for with its tokens and the refill. -/
theorem decisions_countP_le {b : Bucket R} {ts : List R} {w : R} (hb : 0 ≤ b.tokens) (hw : b.last ≤ w)
    (hts : (b.last :: ts).Pairwise (· ≤ ·)) :
    (passed (· ≤ w) (decisions rate burst b ts) : R) ≤ b.tokens + (w - b.last) * rate := by
  induction ts generalizing b with
  | nil =>
      simp only [decisions, passed, List.countP_nil, Nat.cast_zero]
      exact add_nonneg hb (mul_nonneg (sub_nonneg.mpr hw) hrate)
  | cons t rest ih =>
      obtain ⟨hlast, hrest⟩ := List.pairwise_cons.mp hts
      have ht : b.last ≤ t := hlast t List.mem_cons_self
      by_cases htw : t ≤ w
      · have hlevel : 0 ≤ b.level rate burst t := level_nonneg hrate hburst hb ht
        have hrest' : ((b.allow rate burst t).2.last :: rest).Pairwise (· ≤ ·) := by
          rwa [allow_last]
        have htail := ih (allow_tokens_nonneg hlevel) (by rwa [allow_last]) hrest'
        have hcost := @allow_cost R _ _ rate burst b t
        have hfilled := @level_le_filled R _ _ rate burst b t
        rw [allow_last] at htail
        rw [decisions, passed_cons, decide_eq_true htw, Bool.and_true]
        push_cast
        calc (passed (· ≤ w) (decisions rate burst (b.allow rate burst t).2 rest) : R)
              + (if (b.allow rate burst t).1 then 1 else 0)
            ≤ (b.allow rate burst t).2.tokens + (w - t) * rate
              + (if (b.allow rate burst t).1 then 1 else 0) := by linarith only [htail]
          _ = b.level rate burst t + (w - t) * rate := by rw [← hcost]; ring
          _ ≤ b.tokens + (t - b.last) * rate + (w - t) * rate := by gcongr
          _ = b.tokens + (w - b.last) * rate := by ring
      · -- the times only grow, so none of the rest is in the window
        rw [passed_eq_zero (not_le_of_late hrest htw), Nat.cast_zero]
        exact add_nonneg hb (mul_nonneg (sub_nonneg.mpr hw) hrate)

/-- **No window sees more** than a full bucket and what comes in during it. -/
theorem decisions_window_le {b : Bucket R} {ts : List R} {u w : R} (hb : 0 ≤ b.tokens) (huw : u ≤ w)
    (hts : (b.last :: ts).Pairwise (· ≤ ·)) :
    (passed (fun t => u ≤ t ∧ t ≤ w) (decisions rate burst b ts) : R) ≤ burst + (w - u) * rate := by
  have hnonneg : 0 ≤ burst + (w - u) * rate :=
    add_nonneg hburst (mul_nonneg (sub_nonneg.mpr huw) hrate)
  induction ts generalizing b with
  | nil =>
      simp only [decisions, passed, List.countP_nil, Nat.cast_zero]
      exact hnonneg
  | cons t rest ih =>
      obtain ⟨hlast, hrest⟩ := List.pairwise_cons.mp hts
      have ht : b.last ≤ t := hlast t List.mem_cons_self
      have hlevel : 0 ≤ b.level rate burst t := level_nonneg hrate hburst hb ht
      have htokens := allow_tokens_nonneg hlevel
      have hrest' : ((b.allow rate burst t).2.last :: rest).Pairwise (· ≤ ·) := by
        rwa [allow_last]
      by_cases hut : u ≤ t
      · by_cases htw : t ≤ w
        · -- the window has begun: from here on the bucket pays
          have hmono : passed (fun t => u ≤ t ∧ t ≤ w) (decisions rate burst (b.allow rate burst t).2 rest)
              ≤ passed (· ≤ w) (decisions rate burst (b.allow rate burst t).2 rest) := by
            refine List.countP_mono_left fun d _ hd => ?_
            simp only [Bool.and_eq_true, decide_eq_true_eq] at hd ⊢
            exact ⟨hd.1, hd.2.2⟩
          have hpassed : (passed (fun t => u ≤ t ∧ t ≤ w) (decisions rate burst (b.allow rate burst t).2 rest) : R)
              ≤ passed (· ≤ w) (decisions rate burst (b.allow rate burst t).2 rest) := Nat.cast_le.mpr hmono
          have hlast' : (b.allow rate burst t).2.last ≤ w := by rwa [allow_last]
          have htail := decisions_countP_le hrate hburst htokens hlast' hrest'
          have hcost := @allow_cost R _ _ rate burst b t
          have hcap := @level_le_burst R _ _ rate burst b t
          have hshorter : (w - t) * rate ≤ (w - u) * rate :=
            mul_le_mul_of_nonneg_right (by linarith only [hut]) hrate
          rw [allow_last] at htail
          rw [decisions, passed_cons, decide_eq_true ⟨hut, htw⟩, Bool.and_true]
          push_cast
          calc (passed (fun t => u ≤ t ∧ t ≤ w) (decisions rate burst (b.allow rate burst t).2 rest) : R)
                + (if (b.allow rate burst t).1 then 1 else 0)
              ≤ (b.allow rate burst t).2.tokens + (w - t) * rate
                + (if (b.allow rate burst t).1 then 1 else 0) := by linarith only [hpassed, htail]
            _ = b.level rate burst t + (w - t) * rate := by rw [← hcost]; ring
            _ ≤ burst + (w - u) * rate := add_le_add hcap hshorter
        -- past the window nothing counts any more
        · have hlate : ∀ t' ∈ t :: rest, ¬ (u ≤ t' ∧ t' ≤ w) :=
            fun t' ht' hin => not_le_of_late hrest htw t' ht' hin.2
          rw [passed_eq_zero hlate, Nat.cast_zero]
          exact hnonneg
      -- before the window nothing counts yet
      · have hout : ¬ (u ≤ t ∧ t ≤ w) := fun h => hut h.1
        rw [decisions, passed_cons, decide_eq_false hout, Bool.and_false]
        exact ih htokens hrest'

end

end Bucket

end Lib
