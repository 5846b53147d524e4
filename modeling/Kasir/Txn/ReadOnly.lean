/-
  Kasir.Txn.ReadOnly

  Transactions that only read.

  At Repeatable Read all statements of a transaction read from one snapshot.  A body
  that only reads is therefore answered as it would be alone on that snapshot, whatever
  commits in the meantime.
-/

import Kasir.Txn.System

namespace Txn

variable {D N L E α β : Type}

namespace Checked

/-- `guard` without a database. -/
def guard (c : Bool) (e : E) : Except E Unit := if c then .ok () else .error e

/-- `require` without a database. -/
def require (o : Option α) (e : E) : Except E α :=
  match o with
  | some a => .ok a
  | none => .error e

theorem guard_ok {c : Bool} {e : E} {u : Unit} : guard c e = .ok u ↔ c = true := by
  cases c with
  | true => exact ⟨fun _ => rfl, fun _ => rfl⟩
  | false =>
      constructor
      · intro h
        cases h
      · intro h
        cases h

end Checked

namespace Prog

/-- The body takes no lock, changes nothing and looks at its snapshot only. -/
inductive Reading : Prog D N L E α → Prop
  | ret (a : α) : Reading (.ret a)
  | throw (e : E) : Reading (.throw e)
  | stmt (next : D → N → Prog D N L E α) (h : ∀ s n, Reading (next s n)) :
      Reading (.stmt (fun _ => []) (fun _ => id) fun v => next v.snap v.env)

theorem Reading.bind {p : Prog D N L E α} {f : α → Prog D N L E β} (hp : p.Reading)
    (hf : ∀ a, (f a).Reading) : (p >>= f).Reading := by
  induction hp with
  | ret a => exact hf a
  | throw e => exact .throw e
  | stmt next _ ih => exact .stmt (fun s n => next s n >>= f) ih

theorem reading_read (f : D → N → α) :
    (read fun v => f v.snap v.env : Prog D N L E α).Reading :=
  .stmt (fun s n => .ret (f s n)) fun _ _ => .ret _

theorem reading_lift (x : Except E α) : (lift x : Prog D N L E α).Reading := by
  cases x with
  | ok a => exact .ret a
  | error e => exact .throw e

theorem reading_guard (c : Bool) (e : E) : (guard c e : Prog D N L E Unit).Reading := by
  cases c with
  | true => exact .ret ()
  | false => exact .throw e

theorem reading_require (o : Option α) (e : E) : (require o e : Prog D N L E α).Reading := by
  cases o with
  | some a => exact .ret a
  | none => exact .throw e

/-- A body alone does not look at what was supplied to earlier statements. -/
theorem solo_congr {db : D} {envs envs' : Nat → N} (p : Prog D N L E α) :
    ∀ (n : Nat) (log : D → D), (∀ k, n ≤ k → envs k = envs' k) →
      p.solo db envs n log = p.solo db envs' n log := by
  induction p with
  | ret a => exact fun _ _ _ => rfl
  | throw e => exact fun _ _ _ => rfl
  | stmt locks write next ih =>
      intro n log h
      have hn : envs n = envs' n := h n (Nat.le_refl n)
      unfold solo
      rw [hn]
      exact ih _ (n + 1) _ fun k hk => h k (by omega)

/-- A body that only reads leaves the log as it was. -/
theorem Reading.solo_log {p : Prog D N L E α} (hp : p.Reading) {db : D} {envs : Nat → N} :
    ∀ (n : Nat) (log : D → D), (p.solo db envs n log).log = log := by
  induction hp with
  | ret a => exact fun _ _ => rfl
  | throw e => exact fun _ _ => rfl
  | stmt next _ ih => exact fun n log => ih _ _ (n + 1) log

/-- Its parts in a sequence read the same database. -/
theorem Reading.bind_ok {p : Prog D N L E α} (hp : p.Reading) {f : α → Prog D N L E β} {db : D}
    {envs : Nat → N} {n : Nat} {log : D → D} {b : β}
    (h : ((p >>= f).solo db envs n log).result = .ok b) :
    ∃ n' a, p.solo db envs n log = ⟨n', log, .ok a⟩ ∧ ((f a).solo db envs n' log).result = .ok b := by
  obtain ⟨n', log', a, hsolo, hrest⟩ := solo_bind_ok h
  have hlog : log' = log := by
    have hsame : (p.solo db envs n log).log = log := hp.solo_log n log
    rw [hsolo] at hsame
    exact hsame
  subst hlog
  exact ⟨n', a, hsolo, hrest⟩

/-- What a body answers whose statements are sent in these states, one after the other;
    `none` while it has more statements to send. -/
def answerIn (iso : Isolation) : Prog D N L E α → Option D → List (D × N) → Option (Except E α)
  | .ret a, _, _ => some (.ok a)
  | .throw e, _, _ => some (.error e)
  | .stmt _ _ _, _, [] => none
  | .stmt _ _ next, snap, (d, env) :: rest =>
      answerIn iso (next ⟨readPoint iso snap d, d, env⟩) (some (readPoint iso snap d)) rest

/-- It answers what it answers alone on the snapshot it has. -/
theorem Reading.answerIn_snap {p : Prog D N L E α} (hp : p.Reading) {s : D} {x : Except E α} (n : Nat)
    {reads : List (D × N)} (h : p.answerIn .repeatableRead (some s) reads = some x)
    (env0 : N) : ∃ envs, (p.solo s envs n id).result = x := by
  induction hp generalizing n reads with
  | ret a => exact ⟨fun _ => env0, Option.some.inj h⟩
  | throw e => exact ⟨fun _ => env0, Option.some.inj h⟩
  | stmt next _ ih =>
      cases reads with
      | nil => cases h
      | cons read rest =>
          obtain ⟨d, env⟩ := read
          obtain ⟨envs, hresult⟩ := ih s env (n + 1) h
          refine ⟨fun k => if k = n then env else envs k, ?_⟩
          have hcongr := @solo_congr D N L E _ s (fun k => if k = n then env else envs k) envs
            (next s env) (n + 1) id fun k hk => if_neg (by omega)
          show ((next s (if n = n then env else envs n)).solo s _ (n + 1) id).result = x
          rw [if_pos rfl, hcongr]
          exact hresult

/-- **A body that only reads** answers what it answers alone on one state: at Repeatable
    Read, on that of its first statement, whatever commits before the others. -/
theorem Reading.answerIn_eq {p : Prog D N L E α} (hp : p.Reading) {x : Except E α}
    {reads : List (D × N)} (h : p.answerIn .repeatableRead none reads = some x) (d0 : D) (env0 : N) :
    ∃ d, (d = d0 ∨ d ∈ reads.map Prod.fst) ∧ ∃ envs, (p.solo d envs 0 id).result = x := by
  cases hp with
  | ret a => exact ⟨d0, Or.inl rfl, fun _ => env0, Option.some.inj h⟩
  | throw e => exact ⟨d0, Or.inl rfl, fun _ => env0, Option.some.inj h⟩
  | stmt next hnext =>
      cases reads with
      | nil => cases h
      | cons read rest =>
          obtain ⟨d, env⟩ := read
          -- the snapshot is the state of the first statement
          have hagain : (Prog.stmt (fun _ => []) (fun _ => id) fun v => next v.snap v.env :
              Prog D N L E α).answerIn .repeatableRead (some d) ((d, env) :: rest) = some x := h
          exact ⟨d, Or.inr (List.mem_cons_self ..),
            (Reading.stmt next hnext).answerIn_snap 0 hagain env0⟩

-- ============================================================================
-- What a body that only reads answers
-- ============================================================================

/-- The body only reads, and answers `x` alone on the database, whatever its statements
    are supplied with. -/
def Answers (p : Prog D N L E α) (db : D) (x : Except E α) : Prop :=
  p.Reading ∧ ∀ envs n, (p.solo db envs n id).result = x

section Answers

variable {db : D}

theorem answers_ret (a : α) : (ret a : Prog D N L E α).Answers db (.ok a) :=
  ⟨.ret a, fun _ _ => rfl⟩

theorem answers_lift (x : Except E α) : (lift x : Prog D N L E α).Answers db x := by
  refine ⟨reading_lift x, fun envs n => ?_⟩
  cases x <;> rfl

theorem answers_read (f : D → α) :
    (read fun v => f v.snap : Prog D N L E α).Answers db (.ok (f db)) :=
  ⟨reading_read fun s _ => f s, fun _ _ => rfl⟩

theorem answers_guard (c : Bool) (e : E) :
    (guard c e : Prog D N L E Unit).Answers db (Checked.guard c e) := by
  refine ⟨reading_guard c e, fun envs n => ?_⟩
  cases c <;> rfl

theorem answers_require (o : Option α) (e : E) :
    (require o e : Prog D N L E α).Answers db (Checked.require o e) := by
  refine ⟨reading_require o e, fun envs n => ?_⟩
  cases o <;> rfl

/-- A sequence answers what its parts answer in sequence. -/
theorem Answers.bind {p : Prog D N L E α} {x : Except E α} {f : α → Prog D N L E β}
    {g : α → Except E β} (hp : p.Answers db x) (hf : ∀ a, (f a).Answers db (g a)) :
    (p >>= f).Answers db (x >>= g) := by
  refine ⟨hp.1.bind fun a => (hf a).1, fun envs n => ?_⟩
  have hlog : (p.solo db envs n id).log = id := hp.1.solo_log n id
  have hresult := hp.2 envs n
  rw [solo_bind]
  rcases hsolo : p.solo db envs n id with ⟨n', log, e | a⟩
  · rw [hsolo] at hresult
    rw [← hresult]
    rfl
  · rw [hsolo] at hresult hlog
    obtain rfl : log = id := hlog
    rw [← hresult]
    exact (hf a).2 envs n'

end Answers

end Prog

end Txn
