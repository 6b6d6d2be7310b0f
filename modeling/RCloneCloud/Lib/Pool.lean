import RCloneCloud.Lib.Prog
import RCloneCloud.Lib.Run

/-!
# `Lib.Pool` — any number of programs over one service, their calls interleaved

A pool holds a service state and a list of threads, each a request and what is left of the program that
serves it. A step starts a thread or takes the next call of one; what the world outside decides about a
call (`World`) is part of the action. Every call is logged with its thread, its request and its answer.

`Keeps P` is what a program promises about its next call given the calls it has made so far. `pool_invariant`
turns the promises of the programs into an invariant of the pool: it is enough to look at one permitted
call at a time, whoever makes it.

The threads are anonymous: what a program promises may depend on its own request and on its own answered calls
(`done`), never on what other threads have been told. That is what makes the invariant of the pool modular. The
service's part is `Pool.Preserved`: one permitted call keeps the invariant of the shared state and the log. The two
counting lemmas, `eq_of_nodup_filterMap` and `countP_le_one`, turn a key that no two entries share into a bound on how
many entries there are.
-/

set_option autoImplicit false

namespace Lib

/-- A call and its answer. -/
abbrev Answered (Op : Type) (Ans : Op → Type) := (op : Op) × Ans op

namespace Prog

variable {Op : Type} {Ans : Op → Type} {α : Type}

/-- Whatever the answers, every call satisfies `P` after the calls made before it. -/
def Keeps (P : List (Answered Op Ans) → Op → Prop) : List (Answered Op Ans) → Prog Op Ans α → Prop
  | _, .pure _ => True
  | done, .call op k => P done op ∧ ∀ a, Keeps P (done ++ [⟨op, a⟩]) (k a)

end Prog

variable {Op : Type} {Ans : Op → Type} {α σ Req World : Type}

/-- A logged call. -/
structure Entry (Req Op : Type) (Ans : Op → Type) where
  thread : Nat
  req : Req
  op : Op
  answer : Ans op

/-- An entry without its thread and request: the call and its answer. -/
def Entry.call (e : Entry Req Op Ans) : Answered Op Ans := ⟨e.op, e.answer⟩

/-- The calls of one thread. -/
def done (log : List (Entry Req Op Ans)) (i : Nat) : List (Answered Op Ans) :=
  (log.filter (·.thread = i)).map Entry.call

/-- A request being served. -/
structure Thread (Req Op : Type) (Ans : Op → Type) (α : Type) where
  req : Req
  prog : Prog Op Ans α

/-- The service, the threads in the order they were started, and every call answered so far. -/
structure Pool (σ Req Op : Type) (Ans : Op → Type) (α : Type) where
  shared : σ
  threads : List (Thread Req Op Ans α)
  log : List (Entry Req Op Ans)

/-- Someone outside sends a request, or thread `i` makes its next call while the world is as given. -/
inductive PoolAction (Req World : Type) where
  | start (req : Req)
  | call (i : Nat) (w : World)

/-- A pool before its first request. -/
def Pool.init (s : σ) : Pool σ Req Op Ans α := ⟨s, [], []⟩

/-- `body` serves a request, `serve` answers a call. -/
def Pool.step (body : Req → Prog Op Ans α) (serve : World → (op : Op) → σ → Ans op × σ)
    (p : Pool σ Req Op Ans α) : PoolAction Req World → Option (Pool σ Req Op Ans α)
  | .start req => some { p with threads := p.threads ++ [⟨req, body req⟩] }
  | .call i w =>
    match p.threads[i]? with
    | some ⟨req, .call op k⟩ =>
      some ⟨(serve w op p.shared).2, p.threads.set i ⟨req, k (serve w op p.shared).1⟩,
        p.log ++ [⟨i, req, op, (serve w op p.shared).1⟩]⟩
    | _ => none

/-! ## The log -/

section
variable {log : List (Entry Req Op Ans)} {e : Entry Req Op Ans} {i : Nat}

/-- The answered calls of a thread are the entries of the log that carry its number. -/
theorem mem_done {c : Answered Op Ans} :
    c ∈ done log i ↔ ∃ e ∈ log, e.thread = i ∧ c = e.call := by
  simp only [done, List.mem_map, List.mem_filter, decide_eq_true_eq]
  constructor
  · rintro ⟨e, ⟨he, hi⟩, rfl⟩
    exact ⟨e, he, hi, rfl⟩
  · rintro ⟨e, he, hi, rfl⟩
    exact ⟨e, ⟨he, hi⟩, rfl⟩

/-- A new entry of a thread is its latest call. -/
theorem done_append_self (log : List (Entry Req Op Ans)) (e : Entry Req Op Ans) :
    done (log ++ [e]) e.thread = done log e.thread ++ [e.call] := by
  simp [done]

/-- The calls of one thread are not calls of another. -/
theorem done_append_other (log : List (Entry Req Op Ans)) (h : e.thread ≠ i) :
    done (log ++ [e]) i = done log i := by
  simp [done, h]

/-- What a thread has done is read off the log in order. -/
theorem done_append (log more : List (Entry Req Op Ans)) (i : Nat) :
    done (log ++ more) i = done log i ++ done more i := by
  simp [done]

/-- What is known of an entry and the log before it, for every entry of the log. -/
def EachAfter (Q : List (Entry Req Op Ans) → Entry Req Op Ans → Prop) (log : List (Entry Req Op Ans)) :
    Prop :=
  ∀ pre e post, log = pre ++ e :: post → Q pre e

/-- An empty log has no entry to ask about. -/
theorem EachAfter.nil {Q : List (Entry Req Op Ans) → Entry Req Op Ans → Prop} :
    EachAfter Q [] := fun pre e post h => by simp at h

/-- A longer log only has to be asked about its last entry. -/
theorem EachAfter.append {Q : List (Entry Req Op Ans) → Entry Req Op Ans → Prop} (h : EachAfter Q log)
    (he : Q log e) : EachAfter Q (log ++ [e]) := by
  intro pre e' post hsplit
  rcases append_cons_eq_snoc.mp hsplit with ⟨rfl, rfl, -⟩ | ⟨rest, -, hlog⟩
  · exact he
  · exact h pre e' rest hlog

/-- Every entry had the property with respect to the log before it. -/
theorem EachAfter.mem {Q : List (Entry Req Op Ans) → Entry Req Op Ans → Prop} (h : EachAfter Q log)
    (he : e ∈ log) : ∃ pre post, log = pre ++ e :: post ∧ Q pre e := by
  obtain ⟨pre, post, hlog⟩ := List.append_of_mem he
  exact ⟨pre, post, hlog, h pre e post hlog⟩

end

/-- Entries in which one value is read, if it is read once only, are the same entry. -/
theorem eq_of_nodup_filterMap {A B : Type} {f : A → Option B} {l : List A} (h : (l.filterMap f).Nodup)
    {a b : A} {x : B} (ha : a ∈ l) (hb : b ∈ l) (hfa : f a = some x) (hfb : f b = some x) : a = b := by
  induction l with
  | nil => cases ha
  | cons c rest ih =>
      have hread : ∀ y ∈ rest, ∀ z, f y = some z → z ∈ rest.filterMap f := fun y hy z hz =>
        List.mem_filterMap.mpr ⟨y, hy, hz⟩
      cases hc : f c with
      | none =>
          rw [List.filterMap_cons_none hc] at h
          rcases List.mem_cons.mp ha with rfl | hma
          · rw [hc] at hfa; cases hfa
          · rcases List.mem_cons.mp hb with rfl | hmb
            · rw [hc] at hfb; cases hfb
            · exact ih h hma hmb
      | some y =>
          rw [List.filterMap_cons_some hc, List.nodup_cons] at h
          rcases List.mem_cons.mp ha with rfl | hma
          · rcases List.mem_cons.mp hb with rfl | hmb
            · rfl
            · rw [hfa] at hc; cases hc
              exact absurd (hread b hmb x hfb) h.1
          · rcases List.mem_cons.mp hb with rfl | hmb
            · rw [hfb] at hc; cases hc
              exact absurd (hread a hma x hfa) h.1
            · exact ih h.2 hma hmb

/-- What at most one entry of a list satisfies is counted at most once. -/
theorem countP_le_one {A : Type} {p : A → Bool} {l : List A} (hl : l.Nodup)
    (h : ∀ a ∈ l, ∀ b ∈ l, p a = true → p b = true → a = b) : l.countP p ≤ 1 := by
  rw [List.countP_eq_length_filter]
  have hnodup := hl.filter p
  cases hf : l.filter p with
  | nil => exact Nat.zero_le 1
  | cons a rest =>
      cases rest with
      | nil => exact Nat.le_refl 1
      | cons b rest =>
          have hmem : ∀ c ∈ a :: b :: rest, c ∈ l ∧ p c = true := fun c hc =>
            List.mem_filter.mp (hf ▸ hc)
          obtain ⟨ha, hpa⟩ := hmem a (by simp)
          obtain ⟨hb, hpb⟩ := hmem b (by simp)
          rw [hf, h a ha b hb hpa hpb] at hnodup
          simp at hnodup

/-! ## The invariant rule -/

section
variable {body : Req → Prog Op Ans α} {serve : World → (op : Op) → σ → Ans op × σ}
  {P : Req → List (Answered Op Ans) → Op → Prop} {I : σ → List (Entry Req Op Ans) → Prop}

variable (P I) in
/-- What a pool keeps: every thread still keeps its promise, the log names the requests of the threads,
    and the service state and the log are related. -/
structure Pool.Keeps (p : Pool σ Req Op Ans α) : Prop where
  threads : ∀ (i : Nat) (t : Thread Req Op Ans α), p.threads[i]? = some t → t.prog.Keeps (P t.req) (done p.log i)
  reqs : ∀ e ∈ p.log, ∃ t : Thread Req Op Ans α, p.threads[e.thread]? = some t ∧ t.req = e.req
  related : I p.shared p.log

/-- A request that comes in brings a program that has made no call, so its promise is the one about no calls. -/
theorem Pool.Keeps.start {p : Pool σ Req Op Ans α} (h : Pool.Keeps P I p) {req : Req}
    (hbody : (body req).Keeps (P req) []) :
    Pool.Keeps P I { p with threads := p.threads ++ [⟨req, body req⟩] } where
  threads := by
    intro i t hi
    by_cases hlt : i < p.threads.length
    · exact h.threads i t (by rwa [List.getElem?_append_left hlt] at hi)
    · -- the new thread has made no call
      rw [List.getElem?_append_right (by omega)] at hi
      obtain ⟨_, rfl⟩ := List.getElem?_eq_some_iff.mp hi
      have hnone : done p.log i = [] := by
        refine List.eq_nil_iff_forall_not_mem.mpr fun c hc => ?_
        obtain ⟨e, he, hei, -⟩ := mem_done.mp hc
        obtain ⟨t, ht, -⟩ := h.reqs e he
        have hlt' := (List.getElem?_eq_some_iff.mp ht).1
        omega
      simpa [hnone] using hbody
  reqs := by
    intro e he
    obtain ⟨t, ht, hreq⟩ := h.reqs e he
    have hlt := (List.getElem?_eq_some_iff.mp ht).1
    exact ⟨t, by rw [List.getElem?_append_left hlt]; exact ht, hreq⟩
  related := h.related

variable (serve P I) in
/-- A permitted call, whoever makes it, has to preserve the relation between the service and the log. -/
def Pool.Preserved : Prop :=
  ∀ s log i req op w, I s log → P req (done log i) op → (∀ e ∈ log, e.thread = i → e.req = req) →
    I (serve w op s).2 (log ++ [⟨i, req, op, (serve w op s).1⟩])

/-- The step lemma: the thread's promise permits its next call, and the service keeps the invariant under a permitted
call. The other threads have made the calls they had made. -/
theorem Pool.Keeps.call {p : Pool σ Req Op Ans α} (h : Pool.Keeps P I p) (hI : Pool.Preserved serve P I)
    {i : Nat} {req : Req} {op : Op} {k : Ans op → Prog Op Ans α} (w : World)
    (hi : p.threads[i]? = some ⟨req, .call op k⟩) :
    Pool.Keeps P I (⟨(serve w op p.shared).2, p.threads.set i ⟨req, k (serve w op p.shared).1⟩,
      p.log ++ [⟨i, req, op, (serve w op p.shared).1⟩]⟩ : Pool σ Req Op Ans α) := by
  have hlt : i < p.threads.length := (List.getElem?_eq_some_iff.mp hi).1
  have hreq : ∀ e ∈ p.log, e.thread = i → e.req = req := by
    intro e he hei
    obtain ⟨t, ht, htr⟩ := h.reqs e he
    rw [hei, hi] at ht
    cases ht
    exact htr.symm
  -- the thread's promise: the call is permitted, and the promise goes on with its answer
  have hkeep := h.threads i _ hi
  refine ⟨fun j t hj => ?_, fun e he => ?_, hI _ _ i req op w h.related hkeep.1 hreq⟩
  · by_cases hji : i = j
    · subst hji
      rw [List.getElem?_set_self hlt] at hj
      cases hj
      have hdone := done_append_self p.log ⟨i, req, op, (serve w op p.shared).1⟩
      show Prog.Keeps (P req) (done (p.log ++ [⟨i, req, op, (serve w op p.shared).1⟩]) i) _
      rw [hdone]
      exact hkeep.2 _
    -- another thread has made the calls it had made
    · rw [List.getElem?_set_ne hji] at hj
      show Prog.Keeps (P t.req) (done (p.log ++ [⟨i, req, op, (serve w op p.shared).1⟩]) j) t.prog
      rw [done_append_other p.log hji]
      exact h.threads j t hj
  · rcases List.mem_append.mp he with he | he
    · obtain ⟨t, ht, htr⟩ := h.reqs e he
      by_cases hie : i = e.thread
      · refine ⟨⟨req, k (serve w op p.shared).1⟩, ?_, (hreq e he hie.symm).symm⟩
        dsimp only
        rw [← hie, List.getElem?_set_self hlt]
      · exact ⟨t, by dsimp only; rw [List.getElem?_set_ne hie]; exact ht, htr⟩
    · obtain rfl := List.mem_singleton.mp he
      exact ⟨_, List.getElem?_set_self hlt, rfl⟩

/-- **The pool rule.** If every program keeps its promise, and every call a promise permits preserves the
    relation between the service and the log, then the relation holds in every pool reached. -/
theorem pool_invariant (hbody : ∀ req, (body req).Keeps (P req) []) (hI : Pool.Preserved serve P I)
    {s : σ} (h0 : I s []) {as : List (PoolAction Req World)} {p : Pool σ Req Op Ans α}
    (hrun : run (Pool.step body serve) (Pool.init s) as = some p) : Pool.Keeps P I p := by
  have hinit : Pool.Keeps P I (Pool.init s : Pool σ Req Op Ans α) :=
    ⟨fun i t h => by simp [Pool.init] at h, fun e he => by simp [Pool.init] at he, h0⟩
  refine run_invariant (G := fun _ _ => True) (fun p a p' h _ hstep => ?_) hinit
    (along_of_forall (fun _ _ => trivial) _ as) hrun
  cases a with
  | start req =>
      cases hstep
      exact h.start (hbody req)
  | call i w =>
      simp only [Pool.step] at hstep
      split at hstep
      · next req op k hi =>
          cases hstep
          exact h.call hI w hi
      · cases hstep

/-- Every logged call was permitted by what its thread had done before. -/
theorem pool_permitted (hbody : ∀ req, (body req).Keeps (P req) []) {s : σ}
    {as : List (PoolAction Req World)} {p : Pool σ Req Op Ans α}
    (hrun : run (Pool.step body serve) (Pool.init s) as = some p) :
    EachAfter (fun pre e => P e.req (done pre e.thread) e.op) p.log :=
  (pool_invariant (I := fun _ log => EachAfter (fun pre e => P e.req (done pre e.thread) e.op) log) hbody
    (fun _ _ _ _ _ _ hlog hp _ => hlog.append hp) EachAfter.nil hrun).related

end

end Lib
