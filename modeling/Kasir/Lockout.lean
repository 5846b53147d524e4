/-
  Kasir.Lockout

  A counter of failures with a lock that runs out.

  Every failure is counted; the one that reaches a threshold `m` locks the gate for a
  time `D`, and the first failure after the lock has run out starts the count anew.
  While the gate is locked no failure is let through.  So of any `m + 1` failures that
  are let through, the last one comes at least `D` after the first.
-/

import Mathlib.Algebra.Order.Monoid.Defs
import Mathlib.Order.Basic
import Mathlib.Data.List.Defs

namespace Kasir.Lockout

variable {T : Type}

/-- How many failures have been counted, and until when the gate is locked. -/
structure Gate (T : Type) where
  count : Nat
  lock : Option T

section Step

variable [LinearOrder T] [Add T]

/-- The gate is not locked at the time: a lock it has has run out. -/
def Gate.Open (g : Gate T) (t : T) : Prop := ∀ l ∈ g.lock, l ≤ t

/-- One more failure. -/
def Gate.fail (m : Nat) (D : T) (g : Gate T) (t : T) : Gate T :=
  let count := (if g.lock.any (fun l => l ≤ t) then 0 else g.count) + 1
  { count, lock := if m ≤ count then some (t + D) else none }

/-- These failures are let through, one after the other. -/
def Lets (m : Nat) (D : T) : Gate T → List T → Prop
  | _, [] => True
  | g, t :: ts => g.Open t ∧ Lets m D (g.fail m D t) ts

theorem Gate.fail_pos (m : Nat) (D : T) (g : Gate T) (t : T) : 0 < (g.fail m D t).count :=
  Nat.succ_pos _

/-- A gate that is not locked counts on. -/
theorem Gate.fail_count {m : Nat} {D : T} {g : Gate T} (hlock : g.lock = none) (t : T) :
    (g.fail m D t).count = g.count + 1 := by
  simp [Gate.fail, hlock]

theorem Gate.fail_lock {m : Nat} {D : T} {g : Gate T} {t : T} :
    (g.fail m D t).lock = if m ≤ (g.fail m D t).count then some (t + D) else none := rfl

end Step

section Bound

variable [AddCommMonoid T] [LinearOrder T] [IsOrderedAddMonoid T] {m : Nat} {D s : T}

/-- The gate is locked until `s + D` at least, or will be after `k` more failures. -/
def Gate.Due (m : Nat) (D s : T) (g : Gate T) (k : Nat) : Prop :=
  (∃ l ∈ g.lock, s + D ≤ l) ∨ (g.lock = none ∧ 0 < k ∧ m ≤ g.count + k)

/-- A failure after `s` brings the lock nearer. -/
theorem Gate.Due.step {g : Gate T} {k : Nat} {t : T} (hs : s ≤ t) (hlock : g.lock = none)
    (hcount : m ≤ g.count + (k + 1)) : (g.fail m D t).Due m D s k := by
  have hnext : (g.fail m D t).count = g.count + 1 := Gate.fail_count hlock t
  by_cases hreached : m ≤ (g.fail m D t).count
  · refine Or.inl ⟨t + D, ?_, by gcongr⟩
    rw [Gate.fail_lock, if_pos hreached]
    rfl
  · refine Or.inr ⟨?_, ?_, ?_⟩
    · rw [Gate.fail_lock, if_neg hreached]
    · omega
    · omega

/-- **The bound.**  Once the gate is due after `k` failures, the failure behind those
    comes no earlier than `s + D`.  The induction is on the failures. -/
theorem Lets.spaced {g : Gate T} {k : Nat} {ts : List T} (hlets : Lets m D g ts)
    (hsorted : ts.Pairwise (· ≤ ·)) (hs : ∀ t ∈ ts, s ≤ t) (hdue : g.Due m D s k) {u : T}
    (hu : ts[k]? = some u) : s + D ≤ u := by
  induction ts generalizing g k with
  | nil => cases hu
  | cons t ts ih =>
      obtain ⟨hopen, hlater⟩ := hlets
      obtain ⟨hfirst, hrest⟩ := List.pairwise_cons.mp hsorted
      rcases hdue with ⟨l, hl, hle⟩ | ⟨hlock, hk, hcount⟩
      · -- locked: whatever is let through comes after the lock
        have ht : s + D ≤ t := hle.trans (hopen l hl)
        rcases List.mem_cons.mp (List.mem_of_getElem? hu) with rfl | hmem
        · exact ht
        · exact ht.trans (hfirst u hmem)
      · obtain ⟨j, rfl⟩ := Nat.exists_eq_succ_of_ne_zero (by omega : k ≠ 0)
        have hdue' : (g.fail m D t).Due m D s j :=
          Gate.Due.step (hs t (List.mem_cons_self ..)) hlock hcount
        exact ih hlater hrest (fun x hx => hs x (List.mem_cons_of_mem _ hx)) hdue' hu

/-- **Of `m + 1` failures the last one comes `D` after the first.** -/
theorem Lets.window (hm : 0 < m) {g : Gate T} {ts : List T} (hlets : Lets m D g ts)
    (hsorted : ts.Pairwise (· ≤ ·)) {i : Nat} {s u : T} (hs : ts[i]? = some s)
    (hu : ts[i + m]? = some u) : s + D ≤ u := by
  induction ts generalizing g i with
  | nil => cases hs
  | cons t ts ih =>
      obtain ⟨-, hlater⟩ := hlets
      obtain ⟨hfirst, hrest⟩ := List.pairwise_cons.mp hsorted
      cases i with
      | succ i =>
          have hu' : ts[i + m]? = some u := by
            rwa [show i + 1 + m = (i + m) + 1 by omega] at hu
          exact ih hlater hrest hs hu'
      | zero =>
          obtain rfl := Option.some.inj hs
          obtain ⟨k, rfl⟩ := Nat.exists_eq_succ_of_ne_zero (by omega : m ≠ 0)
          have hu' : ts[k]? = some u := by
            rwa [Nat.zero_add] at hu
          refine hlater.spaced hrest hfirst ?_ hu'
          -- the first failure is counted, and either locks the gate or leaves `k` to go
          have hpos : 0 < (g.fail (k + 1) D t).count := Gate.fail_pos (k + 1) D g t
          by_cases hreached : k + 1 ≤ (g.fail (k + 1) D t).count
          · refine Or.inl ⟨t + D, ?_, le_refl _⟩
            rw [Gate.fail_lock, if_pos hreached]
            rfl
          · refine Or.inr ⟨?_, ?_, ?_⟩
            · rw [Gate.fail_lock, if_neg hreached]
            · omega
            · show k + 1 ≤ (g.fail (k + 1) D t).count + k
              omega

end Bound

end Kasir.Lockout
