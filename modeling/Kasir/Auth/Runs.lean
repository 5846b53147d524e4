/-
  Kasir.Auth.Runs

  Runs of authentication: every reachable state satisfies the soundness invariant
  of the transaction logic, so its history is a chain of the listed effects.
-/

import Kasir.Auth.Proof
import Kasir.Txn.Reads

namespace Kasir.Auth

open Txn Js

-- ============================================================================
-- Runs
-- ============================================================================

/-- No call but the `i`-th holds a mark that one of `ls` disturbs. -/
def undisturbed (calls : List (Call × CallState Db Env Token Exc Exc Result)) (i : Nat)
    (ls : List Token) : Bool :=
  calls.zipIdx.all fun x =>
    x.2 == i || ls.all fun l => x.1.2.held.all fun l' => !disturbs l l'

/-- The marks are respected: nobody commits a lock of a user while a right guess that
    has found the user not locked is still running. -/
def respectsMarks (σ : State) : Label Env Exc Call → Bool
  | .commit i => undisturbed σ.calls i ((σ.calls[i]?.map fun x => x.2.held).getD [])
  | _ => true

theorem disturbs_of_respectsMarks {σ : State} {i : Nat} {c : Call} {n : Nat}
    {tx : Tx Db Env Token Exc Result} (h : respectsMarks σ (.commit i) = true)
    (hi : σ.calls[i]? = some (c, .active n tx)) {j : Nat}
    {y : Call × CallState Db Env Token Exc Exc Result} (hj : σ.calls[j]? = some y) (hji : j ≠ i)
    {l l' : Token} (hl : l ∈ tx.held) (hl' : l' ∈ y.2.held) : disturbs l l' = false := by
  simp only [respectsMarks, undisturbed, hi, Option.map_some, Option.getD_some,
    CallState.held_active, List.all_eq_true, Bool.or_eq_true, beq_iff_eq, Bool.not_eq_true'] at h
  rcases h (y, j) (List.mem_zipIdx_iff_getElem?.mpr hj) with heq | hno
  · exact absurd heq hji
  · exact hno l hl l' hl'

section Runs

variable {config : Config} {crypto : Crypto} {R : Prop} {db0 : Db} {σ : State}
  {ok : State → Label Env Exc Call → Prop}

/-- The invariant of every run; the marks are respected if `R` says so. -/
abbrev AuthSound (config : Config) (crypto : Crypto) (R : Prop) (db0 : Db) (σ : State) : Prop :=
  Sound (auth config crypto) (protocol R) (Effect config crypto R) db0 σ

/-- **Soundness.**  Whatever the interleaving and the aborts, the history is a chain of
    listed effects. -/
theorem run_sound (h0 : db0.legal = true) (hok : R → ∀ σ l, ok σ l → respectsMarks σ l = true)
    (h : (auth config crypto).Run ok db0 σ) : AuthSound config crypto R db0 σ := by
  refine Run.sound (fun c _ db _ => body_commits c) Token.blocks_comm h0 ?_ h
  intro σ i c n tx hcommit hi j y hj hji l hl l' hl' hblocks hconflict
  rcases hconflict with hlock | ⟨hR, hdisturbs⟩
  · exact absurd (hlock.symm.trans hblocks) (by simp)
  · rw [disturbs_of_respectsMarks (hok hR σ _ hcommit) hi hj hji hl hl'] at hdisturbs
    cases hdisturbs

theorem reach_sound (h0 : db0.legal = true) (h : (auth config crypto).Reach db0 σ) :
    AuthSound config crypto False db0 σ :=
  run_sound h0 (fun h => h.elim) h

end Runs

-- ============================================================================
-- A shop
-- ============================================================================

/-! One user of one tenant, and calls on them, for runs that show that a guarantee
    is not vacuous or where it ends. -/

namespace Shop

def tenant : Id := "00000000-0000-4000-8000-000000000001"

def cashier : Id := "00000000-0000-4000-8000-000000000002"

def device : Id := "00000000-0000-4000-8000-000000000003"

/-- A salt of two characters, then the PIN. -/
def crypto : Crypto where
  compare pin hash := hash.toList.drop 2 == pin.toList
  hashRefreshToken token := token
  sign payload := payload.sub
  isEmail text := text.toList.contains '@'

def config : Config := {}

/-- The cashier's PIN is 123456, and the password is the PIN. -/
def db : Db where
  tenants := [{ id := tenant, isActive := true }]
  users :=
    [{ id := cashier, tenantId := tenant, outletId := none, role := .cashier, isActive := true
       email := "kasir@toko.id", passwordHash := "s1123456", pinHash := some "s1123456" }]

/-- The owner's token. -/
def owner : JwtPayload := { sub := cashier, tenantId := tenant, role := "OWNER", outletId := none }

/-- A refresh token. -/
def token (n : Nat) : String :=
  String.ofList ("0123456789012345678901234567890".toList ++ [Char.ofNat (48 + n % 10)])

/-- A guess of the PIN. -/
def guess (pin : String) (now : Time) (n : Nat) : Call :=
  .pinLogin { tenantId := tenant, userId := cashier, pin, deviceId := device } now (token n)

/-- A login with email and password. -/
def login (password : String) : Call :=
  .login { email := "kasir@toko.id", password, tenantId := tenant }

def refresh (n : Nat) (now : Time) (next : Nat) : Call :=
  .refresh { refreshToken := token n } now (token next)

def logout (n : Nat) (now : Time) : Call := .logout { refreshToken := token n } now

def setPin (pin : String) (now : Time) : Call :=
  .setPin owner cashier { pin } (String.ofList ("s2".toList ++ pin.toList)) now

/-- What the statements of the `k`-th call are supplied with. -/
def env (k : Nat) : Env := { fresh := String.ofList [Char.ofNat (65 + k)] }

/-- The statements of the `i`-th call. -/
def stmts (i count : Nat) : List (Label Env Exc Call) := List.replicate count (.stmt i (env i))

theorem legal : db.legal = true := by decide +kernel

/-- Replay a list of labels, each of which must satisfy `ok`. -/
def replay (ok : State → Label Env Exc Call → Bool) (σ : State) :
    List (Label Env Exc Call) → Option State
  | [] => some σ
  | l :: ls => if ok σ l then ((auth config crypto).step σ l).bind fun σ' => replay ok σ' ls else none

theorem run_of_replay {ok : State → Label Env Exc Call → Bool} {σ σ' : State}
    {ls : List (Label Env Exc Call)}
    (h : (auth config crypto).Run (fun σ l => ok σ l = true) db σ)
    (hr : replay ok σ ls = some σ') : (auth config crypto).Run (fun σ l => ok σ l = true) db σ' := by
  induction ls generalizing σ with
  | nil =>
      obtain rfl := Option.some.inj hr
      exact h
  | cons l ls ih =>
      unfold replay at hr
      split at hr
      · rename_i hl
        obtain ⟨σ1, hstep, hrest⟩ := Option.bind_eq_some_iff.mp hr
        exact ih (.step h hl hstep) hrest
      · cases hr

/-- The same, from a state on. -/
theorem steps_of_replay {ok : State → Label Env Exc Call → Bool} {σ0 σ σ' : State}
    {ls : List (Label Env Exc Call)}
    (h : (auth config crypto).Steps (fun σ l => ok σ l = true) σ0 σ)
    (hr : replay ok σ ls = some σ') :
    (auth config crypto).Steps (fun σ l => ok σ l = true) σ0 σ' := by
  induction ls generalizing σ with
  | nil =>
      obtain rfl := Option.some.inj hr
      exact h
  | cons l ls ih =>
      unfold replay at hr
      split at hr
      · rename_i hl
        obtain ⟨σ1, hstep, hrest⟩ := Option.bind_eq_some_iff.mp hr
        exact ih (h.step hl hstep) hrest
      · cases hr

/-- What a list of labels leads to is reached.  `p` is what is to be known of it. -/
theorem reached (ok : State → Label Env Exc Call → Bool) (labels : List (Label Env Exc Call))
    (p : State → Bool) (h : (replay ok (Sys.init db) labels).any p = true) :
    ∃ σ : State, (auth config crypto).Run (fun σ l => ok σ l = true) db σ ∧ p σ = true := by
  obtain ⟨σ, hreplay, hp⟩ := (Option.any_eq_true _ _).mp h
  exact ⟨σ, run_of_replay .init hreplay, hp⟩

/-- Two lists of labels, one after the other. -/
theorem reached_twice (ok : State → Label Env Exc Call → Bool) (labels later : List (Label Env Exc Call))
    (p : State → State → Bool)
    (h : (replay ok (Sys.init db) labels).any (fun σ0 => (replay ok σ0 later).any (p σ0)) = true) :
    ∃ σ0 σ : State, (auth config crypto).Run (fun σ l => ok σ l = true) db σ0 ∧
      (auth config crypto).Steps (fun σ l => ok σ l = true) σ0 σ ∧ p σ0 σ = true := by
  obtain ⟨σ0, hreplay, hlater⟩ := (Option.any_eq_true _ _).mp h
  obtain ⟨σ, hreplay', hp⟩ := (Option.any_eq_true _ _).mp hlater
  exact ⟨σ0, σ, run_of_replay .init hreplay, steps_of_replay .refl hreplay', hp⟩

end Shop

end Kasir.Auth
