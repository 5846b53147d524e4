/-
  Kasir.Txn.Batches

  Requests that are served by several calls, one after the other.

  A batch is admitted or refused as a whole.  Then its calls are made in order, each
  when the one before has been answered; an answer may end the batch.  Anything else
  may happen in between, other batches included.  Every answer of a batch is that of a
  call of its own (`Run.follows`), so a call that was answered with an error has
  committed nothing.  A batch that nobody disturbs changes the database as those of its
  calls do that succeed (`Steps.undisturbed`).
-/

import Kasir.Txn.Undisturbed
import Kasir.Txn.Serial
import Kasir.Txn.Later

namespace Txn

variable {D N L E X C R Q : Type}

/-- How batches are served: the calls of a request that is admitted, and the answers
    that end a batch. -/
structure Batcher (D X C R Q : Type) where
  admits : Q → D → Except X (List C)
  stops : Except X R → Bool

/-- A batch: the calls to make, the numbers of those made so far and the answers heard
    so far. -/
structure Batch (Q X C R : Type) where
  request : Q
  calls : List C
  made : List Nat
  answers : List (Except X R)

/-- The system with its batches. -/
structure Served (D N L E X C R Q : Type) where
  sys : Sys D N L E X C R
  batches : List (Batch Q X C R)

/-- What can happen next. -/
inductive BatchLabel (N E C Q : Type)
  | other (l : Label N E C)
  | submit (q : Q)
  | next (k : Nat)
  | hear (k : Nat)

namespace Batcher

variable (server : Batcher D X C R Q) (app : App D N L E X C R)

/-- The call a batch makes next: none before the last one is answered, and none after an
    answer that ends the batch. -/
def upcoming (b : Batch Q X C R) : Option C :=
  if b.made.length = b.answers.length ∧ b.answers.any server.stops = false then
    b.calls[b.made.length]?
  else none

/-- The answer that a batch waits for, if it is there. -/
def awaited (sys : Sys D N L E X C R) (b : Batch Q X C R) : Option (Except X R) :=
  match b.made[b.answers.length]? with
  | some i =>
      match sys.calls[i]? with
      | some (_, .done a) => some a
      | _ => none
  | none => none

/-- One step, if the label is possible.  A request that is refused changes nothing. -/
def step (s : Served D N L E X C R Q) : BatchLabel N E C Q → Option (Served D N L E X C R Q)
  | .other l => (app.step s.sys l).map fun sys => { s with sys }
  | .submit q =>
      match server.admits q s.sys.db with
      | .ok calls => some { s with batches := s.batches ++ [⟨q, calls, [], []⟩] }
      | .error _ => some s
  | .next k =>
      match s.batches[k]? with
      | some b =>
          (server.upcoming b).map fun c =>
            { sys := { s.sys with calls := s.sys.calls ++ [(c, app.enter c)] }
              batches := s.batches.set k { b with made := b.made ++ [s.sys.calls.length] } }
      | none => none
  | .hear k =>
      match s.batches[k]? with
      | some b =>
          (awaited s.sys b).map fun a =>
            { s with batches := s.batches.set k { b with answers := b.answers ++ [a] } }
      | none => none

/-- The states reached from `s0` by steps that satisfy `ok`. -/
inductive Steps (ok : Served D N L E X C R Q → BatchLabel N E C Q → Prop)
    (s0 : Served D N L E X C R Q) : Served D N L E X C R Q → Prop
  | refl : Steps ok s0 s0
  | step {s s' : Served D N L E X C R Q} {l : BatchLabel N E C Q} :
      Steps ok s0 s → ok s l → server.step app s l = some s' → Steps ok s0 s'

/-- A system in which nothing has been called and no batch been submitted. -/
def init (db : D) : Served D N L E X C R Q := { sys := Sys.init db, batches := [] }

/-- The states reached from `db` by any steps. -/
abbrev Reach (db : D) (s : Served D N L E X C R Q) : Prop :=
  server.Steps app (fun _ _ => True) (init db) s

/-- Some labels one after the other, if each is possible. -/
def replay (s : Served D N L E X C R Q) :
    List (BatchLabel N E C Q) → Option (Served D N L E X C R Q)
  | [] => some s
  | l :: ls => (server.step app s l).bind fun s' => replay s' ls

variable {server app}

/-- What labels lead to that all satisfy `ok`. -/
theorem Steps.of_replay {ok : Served D N L E X C R Q → BatchLabel N E C Q → Prop}
    {s0 s s' : Served D N L E X C R Q} {ls : List (BatchLabel N E C Q)}
    (h : server.Steps app ok s0 s) (hok : ∀ l ∈ ls, ∀ s, ok s l)
    (hr : server.replay app s ls = some s') : server.Steps app ok s0 s' := by
  induction ls generalizing s with
  | nil =>
      obtain rfl := Option.some.inj hr
      exact h
  | cons l ls ih =>
      obtain ⟨s1, hstep, hrest⟩ := Option.bind_eq_some_iff.mp hr
      exact ih (.step h (hok l (List.mem_cons_self ..) s) hstep)
        (fun k hk => hok k (List.mem_cons_of_mem _ hk)) hrest

theorem Reach.of_replay {db : D} {s s' : Served D N L E X C R Q} {ls : List (BatchLabel N E C Q)}
    (h : server.Reach app db s) (hr : server.replay app s ls = some s') :
    server.Reach app db s' := Steps.of_replay h (fun _ _ _ => trivial) hr

/-- A request that is admitted. -/
theorem step_submit {s : Served D N L E X C R Q} {q : Q} {calls : List C}
    (h : server.admits q s.sys.db = .ok calls) :
    server.step app s (.submit q) =
      some { s with batches := s.batches ++ [⟨q, calls, [], []⟩] } := by
  simp only [Batcher.step, h]

/-- Every step is one of four. -/
theorem step_cases {s s' : Served D N L E X C R Q} {l : BatchLabel N E C Q}
    (h : server.step app s l = some s') :
    (∃ l0 sys, l = .other l0 ∧ app.step s.sys l0 = some sys ∧ s' = { s with sys }) ∨
    (∃ q, l = .submit q ∧ (s' = s ∨ ∃ calls, server.admits q s.sys.db = .ok calls ∧
      s' = { s with batches := s.batches ++ [⟨q, calls, [], []⟩] })) ∨
    (∃ k b c, l = .next k ∧ s.batches[k]? = some b ∧ b.made.length = b.answers.length ∧
      b.answers.any server.stops = false ∧ b.calls[b.made.length]? = some c ∧
      app.step s.sys (.call c) = some s'.sys ∧
      s'.sys = { s.sys with calls := s.sys.calls ++ [(c, app.enter c)] } ∧
      s'.batches = s.batches.set k { b with made := b.made ++ [s.sys.calls.length] }) ∨
    (∃ k b i c a, l = .hear k ∧ s.batches[k]? = some b ∧ b.made[b.answers.length]? = some i ∧
      s.sys.calls[i]? = some (c, .done a) ∧
      s' = { s with batches := s.batches.set k { b with answers := b.answers ++ [a] } }) := by
  cases l with
  | other l0 =>
      obtain ⟨sys, hsys, rfl⟩ := Option.map_eq_some_iff.mp h
      exact Or.inl ⟨l0, sys, rfl, hsys, rfl⟩
  | submit q =>
      simp only [Batcher.step] at h
      split at h
      · rename_i calls hadmitted
        exact Or.inr (Or.inl ⟨q, rfl, Or.inr ⟨calls, hadmitted, (Option.some.inj h).symm⟩⟩)
      · exact Or.inr (Or.inl ⟨q, rfl, Or.inl (Option.some.inj h).symm⟩)
  | next k =>
      simp only [Batcher.step] at h
      split at h
      · rename_i b hb
        obtain ⟨c, hc, rfl⟩ := Option.map_eq_some_iff.mp h
        unfold upcoming at hc
        split at hc
        · rename_i hready
          exact Or.inr (Or.inr (Or.inl ⟨k, b, c, rfl, hb, hready.1, hready.2, hc, rfl, rfl, rfl⟩))
        · cases hc
      · cases h
  | hear k =>
      simp only [Batcher.step] at h
      split at h
      · rename_i b hb
        obtain ⟨a, ha, rfl⟩ := Option.map_eq_some_iff.mp h
        unfold awaited at ha
        split at ha
        · rename_i i hi
          split at ha
          · rename_i c a' hc
            obtain rfl := Option.some.inj ha
            exact Or.inr (Or.inr (Or.inr ⟨k, b, i, c, a', rfl, hb, hi, hc, rfl⟩))
          · cases ha
        · cases ha
      · cases h

-- ============================================================================
-- The system below
-- ============================================================================

variable {ok : Served D N L E X C R Q → BatchLabel N E C Q → Prop}
  {s0 s s' : Served D N L E X C R Q}

/-- What a step does to the system below: nothing, or one of its own steps. -/
theorem step_sys {l : BatchLabel N E C Q} (h : server.step app s l = some s') :
    s'.sys = s.sys ∨ ∃ l0, app.step s.sys l0 = some s'.sys := by
  obtain ⟨l0, sys, -, hsys, rfl⟩ | ⟨q, -, rfl | ⟨calls, -, rfl⟩⟩ |
    ⟨k, b, c, -, -, -, -, -, hstep, -, -⟩ | ⟨k, b, i, c, a, -, -, -, -, rfl⟩ := step_cases h
  · exact Or.inr ⟨l0, hsys⟩
  · exact Or.inl rfl
  · exact Or.inl rfl
  · exact Or.inr ⟨_, hstep⟩
  · exact Or.inl rfl

/-- The steps are steps of the system below. -/
theorem Steps.sys {ok' : Sys D N L E X C R → Label N E C → Prop} (h : server.Steps app ok s0 s)
    (hok : ∀ (s : Served D N L E X C R Q) (l : Label N E C), ok s (.other l) → ok' s.sys l)
    (hcall : ∀ (σ : Sys D N L E X C R) (c : C), ok' σ (.call c)) :
    app.Steps ok' s0.sys s.sys := by
  induction h with
  | refl => exact .refl
  | @step s s' l _ hl hstep ih =>
      obtain ⟨l0, sys, rfl, hsys, rfl⟩ | ⟨q, -, rfl | ⟨calls, -, rfl⟩⟩ |
        ⟨k, b, c, -, -, -, -, -, hcalled, -, -⟩ | ⟨k, b, i, c, a, -, -, -, -, rfl⟩ :=
        step_cases hstep
      · exact ih.step (hok _ _ hl) hsys
      · exact ih
      · exact ih
      · exact ih.step (hcall _ c) hcalled
      · exact ih

/-- Steps that keep to `J` are such steps of the system below. -/
theorem Steps.sys_into {J : D → Prop} {ok' : Sys D N L E X C R → Label N E C → Prop}
    (h : server.Steps app ok s0 s)
    (hok : ∀ (s : Served D N L E X C R Q) (l : Label N E C), ok s (.other l) →
      app.Into J s.sys l ∧ ok' s.sys l)
    (hcall : ∀ (σ : Sys D N L E X C R) (c : C), ok' σ (.call c)) (h0 : J s0.sys.db) :
    app.Steps (fun σ l => app.Into J σ l ∧ ok' σ l) s0.sys s.sys := by
  induction h with
  | refl => exact .refl
  | @step s s' l _ hl hstep ih =>
      obtain ⟨l0, sys, rfl, hsys, rfl⟩ | ⟨q, -, rfl | ⟨calls, -, rfl⟩⟩ |
        ⟨k, b, c, -, -, -, -, -, hcalled, -, -⟩ | ⟨k, b, i, c, a, -, -, -, -, rfl⟩ :=
        step_cases hstep
      · exact ih.step (hok _ _ hl) hsys
      · exact ih
      · exact ih
      · -- a call that is made leaves the state as it is
        have hnow : J s.sys.db := ih.holds (fun _ _ hl => hl.1) h0
        have hinto : app.Into J s.sys (.call c) := by
          intro σ' hσ'
          obtain rfl := Option.some.inj hσ'
          exact hnow
        exact ih.step ⟨hinto, hcall _ c⟩ hcalled
      · exact ih

/-- The states reached by some steps are reached by any. -/
theorem Steps.reach {db : D} (h : server.Steps app ok s0 s) (h0 : server.Reach app db s0) :
    server.Reach app db s := by
  induction h with
  | refl => exact h0
  | step _ _ hstep ih => exact ih.step trivial hstep

/-- A call stays the call it is, and an answer stays. -/
theorem kept_of_step {σ σ' : Sys D N L E X C R} {l : Label N E C} (h : app.step σ l = some σ')
    {i : Nat} {c : C} {cs : CallState D N L E X R} (hi : σ.calls[i]? = some (c, cs)) :
    ∃ cs', σ'.calls[i]? = some (c, cs') ∧ ∀ a, cs = .done a → cs' = .done a := by
  -- only a running call takes a step
  have hset : ∀ {j : Nat} {c' : C} {n : Nat} {tx : Tx D N L E R} (cs1 : CallState D N L E X R),
      σ.calls[j]? = some (c', .active n tx) →
      ∃ cs', (σ.calls.set j (c', cs1))[i]? = some (c, cs') ∧ ∀ a, cs = .done a → cs' = .done a := by
    intro j c' n tx cs1 hj
    rw [getElem?_set_eq hj]
    by_cases hji : i = j
    · subst hji
      obtain ⟨rfl, rfl⟩ := Prod.mk.inj (Option.some.inj (hi.symm.trans hj))
      exact ⟨cs1, if_pos rfl, fun a ha => nomatch ha⟩
    · exact ⟨cs, (if_neg hji).trans hi, fun a ha => ha⟩
  obtain ⟨c', -, rfl⟩ | ⟨j, env, c', n, tx, locks, write, next, s, v, -, hj, -, -, -, -, rfl⟩ |
    ⟨j, c', n, tx, r, -, hj, -, -, rfl⟩ | ⟨j, c', n, tx, e, -, hj, rfl⟩ := app.step_cases h
  · obtain ⟨hlt, -⟩ := List.getElem?_eq_some_iff.mp hi
    exact ⟨cs, (List.getElem?_append_left hlt).trans hi, fun a ha => ha⟩
  · exact hset _ hj
  · exact hset _ hj
  · exact hset _ hj

-- ============================================================================
-- Answers are those of own calls
-- ============================================================================

/-- The batch has made its calls in order, one at a time, and has heard their answers. -/
structure Follows (sys : Sys D N L E X C R) (b : Batch Q X C R) : Prop where
  heard : b.answers.length ≤ b.made.length
  pace : b.made.length ≤ b.answers.length + 1
  made : ∀ (j i : Nat), b.made[j]? = some i → ∃ c cs, b.calls[j]? = some c ∧ sys.calls[i]? = some (c, cs)
  answered : ∀ (j : Nat) (a : Except X R), b.answers[j]? = some a →
    ∃ (i : Nat) (c : C), b.made[j]? = some i ∧ b.calls[j]? = some c ∧ sys.calls[i]? = some (c, .done a)
  order : b.made.Pairwise (· < ·)

theorem Follows.lt {sys : Sys D N L E X C R} {b : Batch Q X C R} (h : Follows sys b) {i : Nat}
    (hi : i ∈ b.made) : i < sys.calls.length := by
  obtain ⟨j, hj⟩ := List.getElem?_of_mem hi
  obtain ⟨c, cs, -, hcalls⟩ := h.made j i hj
  obtain ⟨hlt, -⟩ := List.getElem?_eq_some_iff.mp hcalls
  exact hlt

/-- Nothing that happens elsewhere matters to it. -/
theorem Follows.kept {sys sys' : Sys D N L E X C R} {b : Batch Q X C R} (h : Follows sys b)
    (hkept : ∀ {i : Nat} {c : C} {cs : CallState D N L E X R}, sys.calls[i]? = some (c, cs) →
      ∃ cs', sys'.calls[i]? = some (c, cs') ∧ ∀ a, cs = .done a → cs' = .done a) :
    Follows sys' b where
  heard := h.heard
  pace := h.pace
  made := by
    intro j i hj
    obtain ⟨c, cs, hc, hcalls⟩ := h.made j i hj
    obtain ⟨cs', hcalls', -⟩ := hkept hcalls
    exact ⟨c, cs', hc, hcalls'⟩
  answered := by
    intro j a hj
    obtain ⟨i, c, hi, hc, hcalls⟩ := h.answered j a hj
    obtain ⟨cs', hcalls', hdone⟩ := hkept hcalls
    exact ⟨i, c, hi, hc, hdone a rfl ▸ hcalls'⟩
  order := h.order

/-- All batches follow their calls, and no two make the same. -/
structure Orderly (s : Served D N L E X C R Q) : Prop where
  follows : ∀ (k : Nat) (b : Batch Q X C R), s.batches[k]? = some b → Follows s.sys b
  apart : ∀ (k k' : Nat) (b b' : Batch Q X C R), s.batches[k]? = some b → s.batches[k']? = some b' → k ≠ k' →
    List.Disjoint b.made b'.made

theorem orderly_init (db : D) : Orderly (init db : Served D N L E X C R Q) where
  follows := fun _ _ h => nomatch h
  apart := fun _ _ _ _ h => nomatch h

theorem Orderly.sys (h : Orderly s) {sys : Sys D N L E X C R} {l : Label N E C}
    (hstep : app.step s.sys l = some sys) : Orderly { s with sys } where
  follows := fun k b hb => (h.follows k b hb).kept fun hi => kept_of_step hstep hi
  apart := h.apart

/-- One batch is replaced by what has become of it. -/
theorem Orderly.set (h : Orderly s) {k : Nat} {b b' : Batch Q X C R} (hb : s.batches[k]? = some b)
    (hfollows : Follows s.sys b')
    (hmade : ∀ i ∈ b'.made, i ∈ b.made ∨
      ∀ (k' : Nat) (b1 : Batch Q X C R), s.batches[k']? = some b1 → i ∉ b1.made) :
    Orderly { s with batches := s.batches.set k b' } where
  follows := by
    intro k' b1 hb1
    have hget : (s.batches.set k b')[k']? = some b1 := hb1
    rw [getElem?_set_eq hb] at hget
    split at hget
    · exact Option.some.inj hget ▸ hfollows
    · exact h.follows k' b1 hget
  apart := by
    have hnew : ∀ (k' : Nat) (b1 : Batch Q X C R), s.batches[k']? = some b1 → k' ≠ k →
        List.Disjoint b'.made b1.made := by
      intro k' b1 hb1 hne i hi hi1
      rcases hmade i hi with hold | hfresh
      · exact h.apart k k' b b1 hb hb1 (Ne.symm hne) hold hi1
      · exact hfresh k' b1 hb1 hi1
    intro k1 k2 b1 b2 hb1 hb2 hne
    have hget1 : (s.batches.set k b')[k1]? = some b1 := hb1
    have hget2 : (s.batches.set k b')[k2]? = some b2 := hb2
    rw [getElem?_set_eq hb] at hget1 hget2
    split at hget1
    · rename_i hk1
      obtain rfl := Option.some.inj hget1
      rw [if_neg (hk1 ▸ Ne.symm hne)] at hget2
      exact hnew k2 b2 hget2 (hk1 ▸ Ne.symm hne)
    · rename_i hk1
      split at hget2
      · obtain rfl := Option.some.inj hget2
        exact fun i hi hi' => hnew k1 b1 hget1 hk1 hi' hi
      · exact h.apart k1 k2 b1 b2 hget1 hget2 hne

/-- Every step keeps the batches in order. -/
theorem Orderly.step (h : Orderly s) {l : BatchLabel N E C Q}
    (hstep : server.step app s l = some s') : Orderly s' := by
  obtain ⟨l0, sys, -, hsys, rfl⟩ | ⟨q, -, rfl | ⟨calls, -, rfl⟩⟩ |
    ⟨k, b, c, -, hb, hready, -, hc, hcall, hsys, hbatches⟩ |
    ⟨k, b, i, c, a, -, hb, hi, hdone, rfl⟩ := step_cases hstep
  · exact h.sys hsys
  · exact h
  · -- a batch that has made no call
    have hget : ∀ {k : Nat} {b : Batch Q X C R}, (s.batches ++ [⟨q, calls, [], []⟩])[k]? = some b →
        s.batches[k]? = some b ∨ b = (⟨q, calls, [], []⟩ : Batch Q X C R) := by
      intro k b hb
      rw [List.getElem?_append] at hb
      split at hb
      · exact Or.inl hb
      · exact Or.inr (List.mem_singleton.mp (List.mem_of_getElem? hb))
    refine ⟨fun k b hb => ?_, fun k k' b b' hb hb' hne => ?_⟩
    · rcases hget hb with hb | rfl
      · exact h.follows k b hb
      · exact ⟨Nat.le_refl _, Nat.zero_le _, fun _ _ h => (nomatch h), fun _ _ h => (nomatch h),
          List.Pairwise.nil⟩
    · intro i hi hi'
      rcases hget hb with hb | rfl
      · rcases hget hb' with hb' | rfl
        · exact h.apart k k' b b' hb hb' hne hi hi'
        · cases hi'
      · cases hi
  · -- a call is made
    have hsysOk : Orderly { s with sys := s'.sys } := h.sys hcall
    have hfollows := hsysOk.follows k b hb
    have hs' : s' = { sys := s'.sys
                      batches := s.batches.set k { b with made := b.made ++ [s.sys.calls.length] } } := by
      rw [← hbatches]
    rw [hs']
    refine hsysOk.set hb ⟨?_, ?_, fun j i hj => ?_, fun j a hj => ?_, ?_⟩ fun i hi => ?_
    · show b.answers.length ≤ (b.made ++ [_]).length
      rw [List.length_append]
      omega
    · show (b.made ++ [_]).length ≤ b.answers.length + 1
      rw [List.length_append, List.length_singleton]
      omega
    · have hget : (b.made ++ [s.sys.calls.length])[j]? = some i := hj
      rw [List.getElem?_append] at hget
      split at hget
      · exact hfollows.made j i hget
      · rename_i hge
        rw [List.getElem?_singleton] at hget
        split at hget
        · rename_i hzero
          have hj' : j = b.made.length := by omega
          obtain rfl := Option.some.inj hget
          refine ⟨c, app.enter c, hj' ▸ hc, ?_⟩
          show s'.sys.calls[s.sys.calls.length]? = _
          rw [hsys, List.getElem?_append_right (Nat.le_refl _), Nat.sub_self]
          rfl
        · cases hget
    · obtain ⟨i, c', hi, hc', hcalls⟩ := hfollows.answered j a hj
      obtain ⟨hlt, -⟩ := List.getElem?_eq_some_iff.mp hi
      exact ⟨i, c', (List.getElem?_append_left hlt).trans hi, hc', hcalls⟩
    · refine List.pairwise_append.mpr ⟨hfollows.order, List.pairwise_singleton _ _,
        fun i hi j hj => ?_⟩
      rw [List.mem_singleton.mp hj]
      exact (h.follows k b hb).lt hi
    · rcases List.mem_append.mp hi with hi | hi
      · exact Or.inl hi
      · refine Or.inr fun k' b1 hb1 hi1 => ?_
        have hlt := (h.follows k' b1 hb1).lt hi1
        rw [List.mem_singleton.mp hi] at hlt
        omega
  · -- an answer is heard
    have hfollows := h.follows k b hb
    obtain ⟨c', cs, hc', hcalls⟩ := hfollows.made _ i hi
    obtain ⟨rfl, rfl⟩ := Prod.mk.inj (Option.some.inj (hcalls.symm.trans hdone))
    obtain ⟨hlt, -⟩ := List.getElem?_eq_some_iff.mp hi
    refine h.set hb ⟨?_, ?_, hfollows.made, fun j a' hj => ?_, hfollows.order⟩ fun i hi => Or.inl hi
    · show (b.answers ++ [a]).length ≤ b.made.length
      rw [List.length_append, List.length_singleton]
      omega
    · show b.made.length ≤ (b.answers ++ [a]).length + 1
      have hpace := hfollows.pace
      rw [List.length_append, List.length_singleton]
      omega
    · have hget : (b.answers ++ [a])[j]? = some a' := hj
      rw [List.getElem?_append] at hget
      split at hget
      · exact hfollows.answered j a' hget
      · rename_i hge
        rw [List.getElem?_singleton] at hget
        split at hget
        · rename_i hzero
          have hj' : j = b.answers.length := by omega
          obtain rfl := Option.some.inj hget
          exact ⟨i, c', hj' ▸ hi, hj' ▸ hc', hcalls⟩
        · cases hget

/-- **Batches follow their calls.** -/
theorem Steps.orderly (h : server.Steps app ok s0 s) (h0 : Orderly s0) : Orderly s := by
  induction h with
  | refl => exact h0
  | step _ _ hstep ih => exact ih.step hstep

theorem Reach.orderly {db : D} (h : server.Reach app db s) : Orderly s :=
  Steps.orderly h (orderly_init db)

/-- What a step makes of a batch: it keeps its request and its calls, and makes at most
    one of them; or it is new. -/
theorem batch_of_step {l : BatchLabel N E C Q} (hstep : server.step app s l = some s') {k : Nat}
    {b : Batch Q X C R} (hb : s'.batches[k]? = some b) :
    (∃ b0, s.batches[k]? = some b0 ∧ b.request = b0.request ∧ b.calls = b0.calls ∧
      ∀ i ∈ b.made, i ∈ b0.made ∨ i = s.sys.calls.length) ∨
    (s.batches.length ≤ k ∧ server.admits b.request s.sys.db = .ok b.calls ∧ b.made = []) := by
  have hsame : ∀ {b0 : Batch Q X C R}, s.batches[k]? = some b0 → b = b0 →
      ∃ b0, s.batches[k]? = some b0 ∧ b.request = b0.request ∧ b.calls = b0.calls ∧
        ∀ i ∈ b.made, i ∈ b0.made ∨ i = s.sys.calls.length := by
    rintro b0 hb0 rfl
    exact ⟨b, hb0, rfl, rfl, fun i hi => Or.inl hi⟩
  obtain ⟨l0, sys, -, -, rfl⟩ | ⟨q, -, rfl | ⟨calls, hadmitted, rfl⟩⟩ |
    ⟨k', b', c, -, hb', -, -, -, -, -, hbatches⟩ | ⟨k', b', i, c, a, -, hb', -, -, rfl⟩ :=
    step_cases hstep
  · exact Or.inl (hsame hb rfl)
  · exact Or.inl (hsame hb rfl)
  · have hget : (s.batches ++ [⟨q, calls, [], []⟩])[k]? = some b := hb
    rw [List.getElem?_append] at hget
    split at hget
    · exact Or.inl (hsame hget rfl)
    · obtain rfl := List.mem_singleton.mp (List.mem_of_getElem? hget)
      exact Or.inr ⟨by omega, hadmitted, rfl⟩
  · rw [hbatches, getElem?_set_eq hb'] at hb
    split at hb
    · rename_i hk
      obtain rfl := Option.some.inj hb
      refine Or.inl ⟨b', hk ▸ hb', rfl, rfl, fun i hi => ?_⟩
      rcases List.mem_append.mp hi with hi | hi
      · exact Or.inl hi
      · exact Or.inr (List.mem_singleton.mp hi)
    · exact Or.inl (hsame hb rfl)
  · have hget : (s.batches.set k' _)[k]? = some b := hb
    rw [getElem?_set_eq hb'] at hget
    split at hget
    · rename_i hk
      obtain rfl := Option.some.inj hget
      exact Or.inl ⟨b', hk ▸ hb', rfl, rfl, fun i hi => Or.inl hi⟩
    · exact Or.inl (hsame hget rfl)

/-- Where the calls after a step come from: they were there before, or one was made, from
    outside or by a batch. -/
theorem calls_of_step {l : BatchLabel N E C Q} (hstep : server.step app s l = some s') {i : Nat}
    {c : C} {cs : CallState D N L E X R} (hi : s'.sys.calls[i]? = some (c, cs)) :
    (∃ cs0, s.sys.calls[i]? = some (c, cs0)) ∨ l = .other (.call c) ∨
      ∃ (k : Nat) (b : Batch Q X C R), s.batches[k]? = some b ∧ c ∈ b.calls := by
  -- a step of the system below takes a call on, or makes it
  have hbelow : ∀ {l0 : Label N E C} {sys : Sys D N L E X C R}, app.step s.sys l0 = some sys →
      sys.calls[i]? = some (c, cs) →
      (∃ cs0, s.sys.calls[i]? = some (c, cs0)) ∨ l0 = .call c := by
    intro l0 sys hl0 hget
    obtain ⟨c', rfl, rfl⟩ | ⟨j, env, c', n, tx, locks, write, next, d, v, -, hj, -, -, -, -, rfl⟩ |
      ⟨j, c', n, tx, r, -, hj, -, -, rfl⟩ | ⟨j, c', n, tx, e, -, hj, rfl⟩ := app.step_cases hl0
    · have happend : (s.sys.calls ++ [(c', app.enter c')])[i]? = some (c, cs) := hget
      rw [List.getElem?_append] at happend
      split at happend
      · exact Or.inl ⟨cs, happend⟩
      · obtain ⟨rfl, -⟩ := Prod.mk.inj (List.mem_singleton.mp (List.mem_of_getElem? happend))
        exact Or.inr rfl
    all_goals
      have hset : (s.sys.calls.set j _)[i]? = some (c, cs) := hget
      rw [getElem?_set_eq hj] at hset
      split at hset
      · rename_i hij
        obtain ⟨rfl, -⟩ := Prod.mk.inj (Option.some.inj hset)
        exact Or.inl ⟨_, hij ▸ hj⟩
      · exact Or.inl ⟨cs, hset⟩
  obtain ⟨l0, sys, rfl, hsys, rfl⟩ | ⟨q, -, rfl | ⟨calls, -, rfl⟩⟩ |
    ⟨k, b, c', -, hb, -, -, hc, hmade, -, -⟩ | ⟨k, b, j, c', a, -, -, -, -, rfl⟩ := step_cases hstep
  · rcases hbelow hsys hi with hold | rfl
    · exact Or.inl hold
    · exact Or.inr (Or.inl rfl)
  · exact Or.inl ⟨cs, hi⟩
  · exact Or.inl ⟨cs, hi⟩
  · rcases hbelow hmade hi with hold | hnew
    · exact Or.inl hold
    · obtain rfl := Label.call.inj hnew
      exact Or.inr (Or.inr ⟨k, b, hb, List.mem_of_getElem? hc⟩)
  · exact Or.inl ⟨cs, hi⟩

/-- What is committed stays in the history. -/
theorem history_of_step {l : BatchLabel N E C Q} (hstep : server.step app s l = some s') :
    ∀ e ∈ s.sys.history, e ∈ s'.sys.history := by
  intro e he
  rcases step_sys hstep with heq | ⟨l0, hl0⟩
  · rw [heq]
    exact he
  · have hsteps : app.Steps (fun _ _ => True) s.sys s'.sys := .step .refl trivial hl0
    exact hsteps.history e he

/-- Every batch has been admitted with its calls. -/
theorem Reach.admitted {db : D} (h : server.Reach app db s) {k : Nat} {b : Batch Q X C R}
    (hb : s.batches[k]? = some b) : ∃ d, server.admits b.request d = .ok b.calls := by
  induction h generalizing k b with
  | refl => cases hb
  | step _ _ hstep ih =>
      rcases batch_of_step hstep hb with ⟨b0, hb0, hrequest, hcalls, -⟩ | ⟨-, hadmitted, -⟩
      · rw [hrequest, hcalls]
        exact ih hb0
      · exact ⟨_, hadmitted⟩

/-- The system below runs. -/
theorem Reach.sys {db : D} (h : server.Reach app db s) : app.Reach db s.sys :=
  (Steps.sys h (fun _ _ _ => trivial) fun _ _ => trivial).run (fun _ _ hl => hl) .init

/-- What a batch has heard from its `j`-th call: a result is that of the one commit of
    this call, and after an error there is none. -/
theorem Reach.heard {db : D} (h : server.Reach app db s) {k : Nat} {b : Batch Q X C R}
    (hb : s.batches[k]? = some b) {j : Nat} {a : Except X R} (ha : b.answers[j]? = some a) :
    ∃ i c, b.made[j]? = some i ∧ b.calls[j]? = some c ∧ s.sys.calls[i]? = some (c, .done a) ∧
      (∀ r, a = .ok r ↔ ∃ e ∈ s.sys.history, e.pid = i ∧ e.call = c ∧ e.result = r) ∧
      ∀ x, a = .error x → ∀ e ∈ s.sys.history, e.pid ≠ i := by
  obtain ⟨i, c, hi, hc, hcalls⟩ := (h.orderly.follows k b hb).answered j a ha
  have hrecorded := h.sys.recorded
  have hcommit : ∀ e ∈ s.sys.history, e.pid = i → a = .ok e.result := by
    rintro e he rfl
    have howner : s.sys.calls[e.pid]? = some (e.call, .done (.ok e.result)) :=
      hrecorded.committed e he
    obtain ⟨-, hdone⟩ := Prod.mk.inj (Option.some.inj (hcalls.symm.trans howner))
    exact CallState.done.inj hdone
  refine ⟨i, c, hi, hc, hcalls, fun r => ⟨?_, ?_⟩, ?_⟩
  · rintro rfl
    exact hrecorded.answered i c r hcalls
  · rintro ⟨e, he, hpid, -, rfl⟩
    exact hcommit e he hpid
  · rintro x rfl e he hpid
    cases hcommit e he hpid

-- ============================================================================
-- A batch that nobody disturbs
-- ============================================================================

/-- A step of the `k`-th batch, or of the call it waits for.  The database breaks the call
    off only if `F`. -/
def ownStep (F : Prop) (k : Nat) (s : Served D N L E X C R Q) : BatchLabel N E C Q → Prop
  | .next j | .hear j => j = k
  | .submit _ => False
  | .other l => ∃ b i, s.batches[k]? = some b ∧ b.made.getLast? = some i ∧ l.ownedBy F i

/-- No step of a call is left once it has been answered. -/
theorem not_ownedBy_done {σ σ' : Sys D N L E X C R} {l : Label N E C} {i : Nat} {c : C}
    {a : Except X R} {F : Prop} (hi : σ.calls[i]? = some (c, .done a))
    (hstep : app.step σ l = some σ') : ¬ l.ownedBy F i := by
  intro hl
  obtain ⟨c', rfl, -⟩ | ⟨j, env, c', n, tx, locks, write, next, s, v, rfl, hj, -⟩ |
    ⟨j, c', n, tx, r, rfl, hj, -⟩ | ⟨j, c', n, tx, e, hlabel, hj, -⟩ := app.step_cases hstep
  · exact hl
  · obtain rfl : j = i := hl
    cases hi.symm.trans hj
  · obtain rfl : j = i := hl
    cases hi.symm.trans hj
  · have hji : j = i := by
      rcases hlabel with ⟨rfl, -⟩ | rfl
      · exact hl
      · exact hl.1
    subst hji
    cases hi.symm.trans hj

variable (app) in
/-- What the batch has come to since the state was `d`: its calls have taken turns, and
    the last one may still be under way. -/
structure Serves (F : Prop) (k : Nat) (d : D) (b0 b : Batch Q X C R)
    (turns : List (App.Turn D X C R)) (s : Served D N L E X C R Q) : Prop where
  orderly : Orderly s
  batch : s.batches[k]? = some b
  request : b.request = b0.request
  calls : b.calls = b0.calls
  answers : b.answers = b0.answers ++ turns.map App.Turn.answer
  taken : ∀ (j : Nat) (t : App.Turn D X C R), turns[j]? = some t → b0.calls[b0.answers.length + j]? = some t.call
  linked : App.Linked d turns
  fair : ∀ t ∈ turns, app.Fair F t
  now : (b.made.length = b.answers.length ∧ s.sys.db = App.lastState d turns) ∨
    ∃ (i : Nat) (c : C) (cs : CallState D N L E X R), b.made.getLast? = some i ∧
      b.made.length = b.answers.length + 1 ∧ b.calls[b.answers.length]? = some c ∧
      s.sys.calls[i]? = some (c, cs) ∧ app.Progress F c (App.lastState d turns) s.sys.db cs

variable {F : Prop} {k : Nat} {d : D} {b0 b : Batch Q X C R} {turns : List (App.Turn D X C R)}

/-- What a batch waits for is the last call it has made. -/
theorem awaits_last (hpending : b.made.length = b.answers.length + 1) {i : Nat} :
    b.made[b.answers.length]? = some i ↔ b.made.getLast? = some i := by
  rw [List.getLast?_eq_getElem?, hpending]
  rfl

/-- A step of the call that is under way. -/
theorem Serves.other [Nonempty N] (h : Serves app F k d b0 b turns s) {l : Label N E C}
    {sys : Sys D N L E X C R} (hstep : app.step s.sys l = some sys)
    (hl : ownStep F k s (.other l : BatchLabel N E C Q)) :
    Serves app F k d b0 b turns { s with sys } := by
  obtain ⟨b', i, hb', hlast, howned⟩ := hl
  obtain rfl := Option.some.inj (h.batch.symm.trans hb')
  refine ⟨h.orderly.sys hstep, h.batch, h.request, h.calls, h.answers, h.taken, h.linked, h.fair, ?_⟩
  rcases h.now with ⟨hready, -⟩ | ⟨i', c, cs, hlast', hpending, hc, hcalls, hprogress⟩
  · -- the last call has been answered
    have hfollows := h.orderly.follows k b h.batch
    have hget : b.made[b.made.length - 1]? = some i := by
      rw [← List.getLast?_eq_getElem?]
      exact hlast
    obtain ⟨hlt, -⟩ := List.getElem?_eq_some_iff.mp hget
    have ha : ∃ a, b.answers[b.made.length - 1]? = some a := by
      rw [hready] at hlt ⊢
      exact ⟨_, List.getElem?_eq_getElem hlt⟩
    obtain ⟨a, ha⟩ := ha
    obtain ⟨i1, c, hi1, -, hdone⟩ := hfollows.answered _ a ha
    obtain rfl := Option.some.inj (hget.symm.trans hi1)
    exact absurd howned (not_ownedBy_done hdone hstep)
  · obtain rfl := Option.some.inj (hlast.symm.trans hlast')
    obtain ⟨cs', hset, hprogress'⟩ := hprogress.step hcalls hstep howned
    refine Or.inr ⟨i, c, cs', hlast, hpending, hc, ?_, hprogress'⟩
    show sys.calls[i]? = some (c, cs')
    rw [hset]
    exact App.getElem?_set_self' hcalls

/-- The next call is made. -/
theorem Serves.next (h : Serves app F k d b0 b turns s)
    (hstep : server.step app s (.next k) = some s') :
    ∃ b', Serves app F k d b0 b' turns s' := by
  obtain ⟨_, _, hl, -⟩ | ⟨_, hl, -⟩ |
    ⟨k', b', c, hl, hb', hready, -, hc, -, hsys, hbatches⟩ |
    ⟨_, _, _, _, _, hl, -⟩ := step_cases hstep
  · cases hl
  · cases hl
  · cases hl
    obtain rfl := Option.some.inj (h.batch.symm.trans hb')
    refine ⟨{ b with made := b.made ++ [s.sys.calls.length] }, h.orderly.step hstep, ?_, h.request,
      h.calls, h.answers, h.taken, h.linked, h.fair,
      Or.inr ⟨s.sys.calls.length, c, app.enter c, ?_, ?_, ?_, ?_, ?_⟩⟩
    · rw [hbatches]
      exact App.getElem?_set_self' h.batch
    · exact List.getLast?_concat
    · show (b.made ++ [_]).length = b.answers.length + 1
      rw [List.length_append, List.length_singleton, hready]
    · rw [← hready]
      exact hc
    · rw [hsys]
      show (s.sys.calls ++ [_])[_]? = _
      rw [List.getElem?_append_right (Nat.le_refl _), Nat.sub_self]
      rfl
    · have hdb : s'.sys.db = App.lastState d turns := by
        rcases h.now with ⟨-, hdb⟩ | ⟨_, _, _, -, hpending, -⟩
        · rw [hsys]
          exact hdb
        · omega
      rw [hdb]
      exact App.progress_enter
  · cases hl

/-- Its answer is heard: the turn is over. -/
theorem Serves.hear (h : Serves app F k d b0 b turns s)
    (hstep : server.step app s (.hear k) = some s') :
    ∃ b' t, Serves app F k d b0 b' (turns ++ [t]) s' := by
  obtain ⟨_, _, hl, -⟩ | ⟨_, hl, -⟩ | ⟨_, _, _, hl, -⟩ |
    ⟨k', b', i, c, a, hl, hb', hi, hdone, rfl⟩ := step_cases hstep
  · cases hl
  · cases hl
  · cases hl
  · cases hl
    obtain rfl := Option.some.inj (h.batch.symm.trans hb')
    rcases h.now with ⟨hready, -⟩ | ⟨i', c', cs, hlast, hpending, hc, hcalls, hprogress⟩
    · obtain ⟨hlt, -⟩ := List.getElem?_eq_some_iff.mp hi
      omega
    · obtain rfl := Option.some.inj (((awaits_last hpending).mp hi).symm.trans hlast)
      obtain ⟨rfl, rfl⟩ := Prod.mk.inj (Option.some.inj (hcalls.symm.trans hdone))
      refine ⟨_, ⟨c', a, App.lastState d turns, s.sys.db⟩, h.orderly.step hstep,
        App.getElem?_set_self' h.batch, h.request, h.calls, ?_, fun j t hj => ?_,
        App.linked_snoc.mpr ⟨h.linked, rfl⟩, fun t ht => ?_, Or.inl ⟨?_, ?_⟩⟩
      · show b.answers ++ [a] = _
        rw [h.answers, List.map_append, List.append_assoc]
        rfl
      · rw [List.getElem?_append] at hj
        split at hj
        · exact h.taken j t hj
        · rw [List.getElem?_singleton] at hj
          split at hj
          · have hlength : b.answers.length = b0.answers.length + turns.length := by
              rw [h.answers, List.length_append, List.length_map]
            obtain rfl := Option.some.inj hj
            have hj' : b0.answers.length + j = b.answers.length := by omega
            rw [hj', ← h.calls]
            exact hc
          · cases hj
      · rcases List.mem_append.mp ht with ht | ht
        · exact h.fair t ht
        · rw [List.mem_singleton.mp ht]
          exact hprogress
      · show b.made.length = (b.answers ++ [a]).length
        rw [hpending, List.length_append, List.length_singleton]
      · show s.sys.db = _
        rw [App.lastState_snoc]

/-- **A batch that nobody disturbs.**  Its calls take turns, each as it would alone in the
    state the one before has left. -/
theorem Steps.undisturbed [Nonempty N] (h : server.Steps app (ownStep F k) s0 s)
    (horderly : Orderly s0) (hb0 : s0.batches[k]? = some b0)
    (hready : b0.made.length = b0.answers.length) :
    ∃ b turns, Serves app F k s0.sys.db b0 b turns s := by
  induction h with
  | refl =>
      exact ⟨b0, [], horderly, hb0, rfl, rfl, (List.append_nil _).symm, fun _ _ hj => (nomatch hj),
        trivial, fun _ ht => (nomatch ht), Or.inl ⟨hready, rfl⟩⟩
  | @step s s' l _ hl hstep ih =>
      obtain ⟨b, turns, hserves⟩ := ih
      cases l with
      | other l0 =>
          obtain ⟨sys, hsys, rfl⟩ := Option.map_eq_some_iff.mp hstep
          exact ⟨b, turns, hserves.other hsys hl⟩
      | submit q => exact hl.elim
      | next k' =>
          obtain rfl : k' = k := hl
          obtain ⟨b', hserves'⟩ := hserves.next hstep
          exact ⟨b', turns, hserves'⟩
      | hear k' =>
          obtain rfl : k' = k := hl
          obtain ⟨b', t, hserves'⟩ := hserves.hear hstep
          exact ⟨b', turns ++ [t], hserves'⟩

end Batcher

end Txn
