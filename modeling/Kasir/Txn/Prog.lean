/-
  Kasir.Txn.Prog

  Bodies of database transactions as trees of statements.

  A transaction body is a program that sends one statement at a time to the
  database and branches on what it reads.  Between two statements other
  transactions may commit, so a body cannot be a function of one database
  state.  `Prog` keeps every statement apart: a statement names the locks it
  needs, the change it makes and the rest of the body, each as a function of
  what it sees (`View`).

  A change is never applied in place.  It is kept as a function on databases
  (the transaction's log), so that a statement sees its own transaction's
  earlier changes on top of committed data and a commit applies the whole log
  at once.
-/

import Mathlib.Logic.Function.Basic
import Mathlib.Data.List.Forall2

namespace Txn

-- ============================================================================
-- Computations that may fail
-- ============================================================================

namespace Checked

variable {ε α β : Type}

/-- A computation in two parts succeeds if both parts do. -/
theorem bind_ok {x : Except ε α} {f : α → Except ε β} {b : β} :
    (x >>= f) = .ok b ↔ ∃ a, x = .ok a ∧ f a = .ok b := by
  constructor
  · intro h
    cases x with
    | error e => cases h
    | ok a => exact ⟨a, rfl, h⟩
  · rintro ⟨a, rfl, h⟩
    exact h

/-- The same where the first part is a check. -/
theorem then_ok {x : Except ε Unit} {f : Unit → Except ε β} {b : β} :
    (x >>= f) = .ok b ↔ x = .ok () ∧ f () = .ok b :=
  bind_ok.trans ⟨fun ⟨_, hx, hf⟩ => ⟨hx, hf⟩, fun ⟨hx, hf⟩ => ⟨(), hx, hf⟩⟩

/-- Every element is mapped, in order. -/
theorem mapM_ok {f : α → Except ε β} {xs : List α} {ys : List β} :
    xs.mapM f = .ok ys ↔ List.Forall₂ (fun x y => f x = .ok y) xs ys := by
  induction xs generalizing ys with
  | nil =>
      rw [List.mapM_nil, List.forall₂_nil_left_iff]
      exact ⟨fun h => (Except.ok.inj h).symm, fun h => h ▸ rfl⟩
  | cons x xs ih =>
      rw [List.mapM_cons, bind_ok, List.forall₂_cons_left_iff]
      refine exists_congr fun y => ?_
      rw [bind_ok]
      constructor
      · rintro ⟨hy, zs, hzs, hys⟩
        exact ⟨zs, hy, ih.mp hzs, (Except.ok.inj hys).symm⟩
      · rintro ⟨zs, hy, hzs, rfl⟩
        exact ⟨hy, zs, ih.mpr hzs, rfl⟩

/-- Every element passes. -/
theorem forM_ok {f : α → Except ε Unit} {xs : List α} :
    xs.forM f = .ok () ↔ ∀ x ∈ xs, f x = .ok () := by
  induction xs with
  | nil => exact ⟨fun _ _ h => (nomatch h), fun _ => rfl⟩
  | cons x xs ih =>
      change (f x >>= fun _ => xs.forM f) = .ok () ↔ _
      rw [then_ok, List.forall_mem_cons, ih]

/-- The first failure is that of an element. -/
theorem forM_error {f : α → Except ε Unit} {xs : List α} {e : ε} (h : xs.forM f = .error e) :
    ∃ x ∈ xs, f x = .error e := by
  induction xs with
  | nil => cases h
  | cons x xs ih =>
      change (f x >>= fun _ => xs.forM f) = .error e at h
      cases hx : f x with
      | error e' =>
          rw [hx] at h
          exact ⟨x, List.mem_cons_self .., hx.trans h⟩
      | ok u =>
          rw [hx] at h
          obtain ⟨y, hy, hfy⟩ := ih h
          exact ⟨y, List.mem_cons_of_mem _ hy, hfy⟩

end Checked

-- ============================================================================
-- Bodies
-- ============================================================================

/-- What one statement sees.  `snap` is the state its reads are answered from
    and `cur` the latest committed state, both with the transaction's own
    earlier changes applied; `env` is what the outside world supplies to the
    statement (a fresh identifier, the clock). -/
structure View (D N : Type) where
  snap : D
  cur : D
  env : N

/-- A transaction body: a result, an error, or a statement and what follows it. -/
inductive Prog (D N L E α : Type) : Type
  | ret (a : α)
  | throw (e : E)
  | stmt (locks : View D N → List L) (write : View D N → D → D)
      (next : View D N → Prog D N L E α)

namespace Prog

variable {D N L E α β : Type}

/-- Sequencing: the second body starts from the result of the first. -/
def bind : Prog D N L E α → (α → Prog D N L E β) → Prog D N L E β
  | ret a, f => f a
  | throw e, _ => throw e
  | stmt locks write next, f => stmt locks write fun v => bind (next v) f

instance : Monad (Prog D N L E) where
  pure := ret
  bind := bind

@[simp] theorem pure_eq (a : α) : (pure a : Prog D N L E α) = ret a := rfl

@[simp] theorem ret_bind (a : α) (f : α → Prog D N L E β) : (ret a >>= f) = f a := rfl

theorem stmt_bind (locks : View D N → List L) (write : View D N → D → D)
    (next : View D N → Prog D N L E α) (f : α → Prog D N L E β) :
    (stmt locks write next >>= f) = stmt locks write fun v => next v >>= f := rfl

theorem bind_assoc {γ : Type} (p : Prog D N L E α) (f : α → Prog D N L E β)
    (g : β → Prog D N L E γ) : (p >>= f) >>= g = p >>= fun a => f a >>= g := by
  induction p with
  | ret a => rfl
  | throw e => rfl
  | stmt locks write next ih =>
      simp only [stmt_bind]
      congr 1
      funext v
      exact ih v

-- ============================================================================
-- Statements
-- ============================================================================

/-- A statement that only reads. -/
def read (f : View D N → α) : Prog D N L E α :=
  stmt (fun _ => []) (fun _ => id) fun v => ret (f v)

/-- A statement that takes locks and reads nothing. -/
def lock (locks : View D N → List L) : Prog D N L E Unit :=
  stmt locks (fun _ => id) fun _ => ret ()

/-- A statement that changes the database and returns what `f` computes. -/
def write (w : View D N → D → D) (f : View D N → α) : Prog D N L E α :=
  stmt (fun _ => []) w fun v => ret (f v)

/-- A computation outside the database that may fail. -/
def lift : Except E α → Prog D N L E α
  | .ok a => ret a
  | .error e => throw e

@[simp] theorem lift_ok (a : α) : (lift (.ok a) : Prog D N L E α) = ret a := rfl

@[simp] theorem lift_error (e : E) : (lift (.error e) : Prog D N L E α) = throw e := rfl

/-- The body goes on only if the condition holds. -/
def guard (c : Bool) (e : E) : Prog D N L E Unit :=
  if c then ret () else throw e

@[simp] theorem guard_true (e : E) : (guard true e : Prog D N L E Unit) = ret () := rfl

/-- The body goes on with the value, if there is one. -/
def require (o : Option α) (e : E) : Prog D N L E α :=
  match o with
  | some a => ret a
  | none => throw e

@[simp] theorem require_some (a : α) (e : E) :
    (require (some a) e : Prog D N L E α) = ret a := rfl

/-- One statement for each element of a list, in order. -/
def each (f : α → Prog D N L E β) : List α → Prog D N L E (List β)
  | [] => ret []
  | a :: as => f a >>= fun b => each f as >>= fun bs => ret (b :: bs)

@[simp] theorem each_nil (f : α → Prog D N L E β) : each f [] = ret [] := rfl

theorem each_cons (f : α → Prog D N L E β) (a : α) (as : List α) :
    each f (a :: as) = f a >>= fun b => each f as >>= fun bs => ret (b :: bs) := rfl

-- ============================================================================
-- A body that runs alone
-- ============================================================================

/-- Where a body that runs alone ends: how many statements it sent, the log it
    built and its outcome. -/
structure Outcome (D E α : Type) where
  sent : Nat
  log : D → D
  result : Except E α

/-- Run a body on a database that nobody else changes.  The `n`-th statement of
    the run is supplied with `envs n`. -/
def solo (db : D) (envs : Nat → N) : Prog D N L E α → Nat → (D → D) → Outcome D E α
  | ret a, n, log => ⟨n, log, .ok a⟩
  | throw e, n, log => ⟨n, log, .error e⟩
  | stmt _ write next, n, log =>
      let v : View D N := ⟨log db, log db, envs n⟩
      solo db envs (next v) (n + 1) (write v ∘ log)

variable {db : D} {envs : Nat → N}

@[simp] theorem solo_ret (a : α) (n : Nat) (log : D → D) :
    solo db envs (ret a : Prog D N L E α) n log = ⟨n, log, .ok a⟩ := rfl

@[simp] theorem solo_throw (e : E) (n : Nat) (log : D → D) :
    solo db envs (throw e : Prog D N L E α) n log = ⟨n, log, .error e⟩ := rfl

theorem solo_bind (p : Prog D N L E α) (f : α → Prog D N L E β) (n : Nat) (log : D → D) :
    solo db envs (p >>= f) n log =
      match solo db envs p n log with
      | ⟨n', log', .ok a⟩ => solo db envs (f a) n' log'
      | ⟨n', log', .error e⟩ => ⟨n', log', .error e⟩ := by
  induction p generalizing n log with
  | ret a => rfl
  | throw e => rfl
  | stmt locks write next ih =>
      simp only [stmt_bind, solo]
      exact ih _ _ _

/-- A sequence that returns has returned from its parts. -/
theorem solo_bind_ok {p : Prog D N L E α} {f : α → Prog D N L E β} {n : Nat} {log : D → D} {b : β}
    (h : (solo db envs (p >>= f) n log).result = .ok b) :
    ∃ n' log' a, solo db envs p n log = ⟨n', log', .ok a⟩ ∧
      (solo db envs (f a) n' log').result = .ok b := by
  rw [solo_bind] at h
  cases hp : solo db envs p n log with
  | mk n' log' result =>
      rw [hp] at h
      cases result with
      | ok a => exact ⟨n', log', a, rfl, h⟩
      | error e => cases h

@[simp] theorem solo_read (f : View D N → α) (n : Nat) (log : D → D) :
    solo db envs (read f : Prog D N L E α) n log =
      ⟨n + 1, log, .ok (f ⟨log db, log db, envs n⟩)⟩ := rfl

@[simp] theorem solo_lock (locks : View D N → List L) (n : Nat) (log : D → D) :
    solo db envs (lock locks : Prog D N L E Unit) n log = ⟨n + 1, log, .ok ()⟩ := rfl

end Prog

end Txn
