/-
  Kasir.Auth.Pins

  What one commit may do to the PIN columns of a user: the hash, the counter of
  failures and the lock.
-/

import Kasir.Auth.Runs

namespace Kasir.Auth

open Txn Js

/-- The PIN columns. -/
def User.pin (u : User) : Option String × Nat × Option Time :=
  (u.pinHash, u.pinFailedAttempts, u.lockedUntil)

/-- The commit is an attempt to log the user in. -/
def attemptOn (userId : Id) (e : AuthCommit) : Prop :=
  ∃ dto now token, e.call = .pinLogin dto now token ∧ toLowerCase dto.userId = userId

/-- The commit sets a new PIN for the user. -/
def setsPin (userId : Id) (e : AuthCommit) : Prop :=
  ∃ user target dto pinHash now, e.call = .setPin user target dto pinHash now ∧
    toLowerCase target = userId ∧ e.result = .ok .noContent

/-- The hash an attempt compared its PIN against: its first statement reads it. -/
def comparedHash (e : AuthCommit) : Option String :=
  match e.call with
  | .pinLogin dto _ _ =>
      e.seen.head?.bind fun d =>
        (findPinUser (toLowerCase dto.userId) (toLowerCase dto.tenantId) d).bind User.pinHash
  | _ => none

/-- A device session is created. -/
def createsSession (e : AuthCommit) : Prop := ∃ r, e.result = .ok (.tokens r)

/-- What a commit makes of the row `x` of a user. -/
inductive PinStep (config : Config) (R : Prop) (e : AuthCommit) (x y : User) : Prop
  /-- the PIN columns stay as they are -/
  | same (h : y.pin = x.pin) (hno : ¬ (attemptOn x.id e ∧ createsSession e))
  /-- a right guess, compared against the current hash -/
  | login {dto now token} (hcall : e.call = .pinLogin dto now token)
      (hid : toLowerCase dto.userId = x.id) (hresult : createsSession e)
      (hcompared : comparedHash e = x.pinHash) (hunlocked : R → x.lockedAt now = false)
      (h : y.pin = x.cleared.pin)
  /-- a wrong guess, compared against the current hash -/
  | failed {dto now token} (hcall : e.call = .pinLogin dto now token)
      (hid : toLowerCase dto.userId = x.id) (hresult : ¬ createsSession e)
      (hcompared : comparedHash e = x.pinHash) (hunlocked : x.lockedAt now = false)
      (h : y.pin = (x.failed (nextFailure config x now)).pin)
  /-- a new PIN -/
  | setPin {user target dto pinHash now} (hcall : e.call = .setPin user target dto pinHash now)
      (hid : toLowerCase target = x.id) (hresult : e.result = .ok .noContent)
      (h : y.pin = (x.withPin pinHash now).pin)

section Step

variable {config : Config} {crypto : Crypto} {R : Prop} {e : AuthCommit}

theorem comparedHash_of_guess {dto : PinLoginDto} {now : Time} {token : String} {u0 : User}
    {h : String} (hcall : e.call = .pinLogin dto now token) (hguess : Guess dto now e.seen u0 h) :
    comparedHash e = some h ∧ u0.id = toLowerCase dto.userId := by
  obtain ⟨d, hd, hfound⟩ := hguess.read
  refine ⟨?_, (findPinUser_id hfound).2⟩
  simp only [comparedHash, hcall, hd, Option.bind_some, hfound, hguess.pin]

theorem activeUserWithPin_hash {userId tenantId : Id} {h : String} {u : User}
    (hu : activeUserWithPin userId tenantId h u = true) : u.pinHash = some h := by
  simp only [activeUserWithPin, Bool.and_eq_true, beq_iff_eq] at hu
  exact hu.2

theorem not_createsSession_error {x : Exc} (h : e.result = .error x) : ¬ createsSession e := by
  rintro ⟨r, hr⟩
  rw [h] at hr
  cases hr

/-- The row of another user stays. -/
theorem mem_changeUser_other {db : Db} {id : Id} {f : User → User} {x : User} (hx : x ∈ db.users)
    (hid : x.id ≠ id) : x ∈ (db.changeUser id f).users :=
  mem_changeUser.mpr ⟨x, hx, if_neg hid⟩

theorem mem_changeUser_self {db : Db} {id : Id} {f : User → User} {x : User} (hx : x ∈ db.users)
    (hid : x.id = id) : f x ∈ (db.changeUser id f).users :=
  mem_changeUser.mpr ⟨x, hx, if_pos hid⟩

/-- **Every commit is one of four steps** for the row of a user. -/
theorem pin_step (heffect : Effect config crypto R e.call e.result e.seen e.before e.after)
    (hdb : e.before.legal = true) {x : User} (hx : x ∈ e.before.users) :
    ∃ y ∈ e.after.users, y.id = x.id ∧ PinStep config R e x y := by
  generalize hc : e.call = c at heffect
  generalize hr : e.result = r at heffect
  generalize ha : e.after = b at heffect ⊢
  generalize hs : e.seen = seen at heffect
  generalize hb : e.before = a at heffect hdb hx
  -- a commit that is no attempt, or a refused one, creates no session for the user
  have hkeep : x ∈ b.users → (∀ dto now token, c = .pinLogin dto now token →
      toLowerCase dto.userId ≠ x.id ∨ ∃ z, r = .error z) →
      ∃ y ∈ b.users, y.id = x.id ∧ PinStep config R e x y := by
    intro hmem hother
    refine ⟨x, hmem, rfl, .same rfl ?_⟩
    rintro ⟨⟨dto, now, token, hcall, hid⟩, hcreates⟩
    rcases hother dto now token (hc ▸ hcall) with hne | ⟨z, hz⟩
    · exact hne hid
    · exact not_createsSession_error (hr.trans hz) hcreates
  cases heffect with
  | signedIn => exact hkeep hx fun _ _ _ heq => nomatch heq
  | @login dto now token _ _ u0 h u id guess right mem current unlocked unused =>
      obtain ⟨hcompared, hid0⟩ := comparedHash_of_guess hc (hs ▸ guess)
      by_cases hid : x.id = u0.id
      · have hxu : x = u := user_unique hdb hx mem (hid.trans (activeUserWithPin_id current).symm)
        subst hxu
        refine ⟨x.cleared, mem_changeUser_self hx hid, rfl,
          .login hc (hid0.symm.trans hid.symm) ⟨_, hr⟩ ?_ ?_ rfl⟩
        · rw [hcompared, activeUserWithPin_hash current]
        · exact fun hR => unlocked hR x hx hid
      · refine hkeep (mem_changeUser_other hx hid) fun dto' now' token' heq => Or.inl ?_
        cases heq
        exact fun h => hid (h.symm.trans hid0.symm)
  | @failed dto now token _ _ u0 h u guess wrong mem current unlocked =>
      obtain ⟨hcompared, hid0⟩ := comparedHash_of_guess hc (hs ▸ guess)
      by_cases hid : x.id = u0.id
      · have hxu : x = u := user_unique hdb hx mem (hid.trans (activeUserWithPin_id current).symm)
        subst hxu
        refine ⟨_, mem_changeUser_self hx hid, rfl,
          .failed hc (hid0.symm.trans hid.symm) (not_createsSession_error hr) ?_ unlocked rfl⟩
        rw [hcompared, activeUserWithPin_hash current]
      · exact hkeep (mem_changeUser_other hx hid) fun _ _ _ _ => Or.inr ⟨_, rfl⟩
  | loginRefused => exact hkeep hx fun _ _ _ _ => Or.inr ⟨_, rfl⟩
  | pinSet mem current =>
      rename_i user target dto pinHash now u
      by_cases hid : x.id = toLowerCase target
      · exact ⟨_, mem_changeUser_self hx hid, rfl, .setPin hc hid.symm hr rfl⟩
      · exact hkeep (mem_changeUser_other hx hid) fun _ _ _ heq => nomatch heq
  | @userActive id isActive =>
      refine ⟨_, mem_changeUser.mpr ⟨x, hx, rfl⟩, ?_, .same ?_ ?_⟩
      · split <;> rfl
      · split <;> rfl
      · rintro ⟨⟨dto, now, token, hcall, -⟩, -⟩
        rw [hc] at hcall
        cases hcall
  | rotated => exact hkeep hx fun _ _ _ heq => nomatch heq
  | expired => exact hkeep hx fun _ _ _ heq => nomatch heq
  | refreshRefused => exact hkeep hx fun _ _ _ heq => nomatch heq
  | loggedOut => exact hkeep hx fun _ _ _ heq => nomatch heq
  | loggedOutBefore => exact hkeep hx fun _ _ _ heq => nomatch heq
  | pinNotSet => exact hkeep hx fun _ _ _ heq => nomatch heq
  | userNotFound => exact hkeep hx fun _ _ _ heq => nomatch heq
  | tenantActive => exact hkeep hx fun _ _ _ heq => nomatch heq
  | tick => exact hkeep hx fun _ _ _ heq => nomatch heq

/-- An attempt that hands out tokens is one that leaves a new session of the user in
    `device_sessions`: the answer and the row coincide. -/
theorem createsSession_iff
    (heffect : Effect config crypto R e.call e.result e.seen e.before e.after) {userId : Id}
    (hattempt : attemptOn userId e) :
    createsSession e ↔
      ∃ s ∈ e.after.deviceSessions, s ∉ e.before.deviceSessions ∧ s.userId = userId := by
  obtain ⟨dto, now, token, hcall, hid⟩ := hattempt
  unfold createsSession
  rw [hcall] at heffect
  generalize e.result = r at heffect ⊢
  generalize e.seen = seen at heffect
  generalize e.before = a at heffect ⊢
  generalize e.after = b at heffect ⊢
  -- a refused attempt leaves the sessions as they are
  have hrefused : ∀ {z : Exc}, b.deviceSessions = a.deviceSessions →
      ((∃ t, (.error z : Result) = .ok (.tokens t)) ↔
        ∃ s ∈ b.deviceSessions, s ∉ a.deviceSessions ∧ s.userId = userId) := by
    intro z hstay
    constructor
    · rintro ⟨t, ht⟩
      cases ht
    · rintro ⟨s, hs, hnew, -⟩
      exact absurd (hstay ▸ hs) hnew
  cases heffect with
  | @login _ _ _ _ _ u0 h u id guess right mem current unlocked unused =>
      obtain ⟨d, -, hfound⟩ := guess.read
      refine iff_of_true ⟨_, rfl⟩ ⟨newDeviceSession config crypto u0 dto now token id, ?_, ?_, ?_⟩
      · exact List.mem_append_right _ (List.mem_singleton.mpr rfl)
      · exact fun hmem => unused _ hmem rfl
      · exact (findPinUser_id hfound).2.trans hid
  | failed => exact hrefused rfl
  | loginRefused => exact hrefused rfl

/-- Every user after a commit was there before. -/
theorem user_before (heffect : Effect config crypto R e.call e.result e.seen e.before e.after)
    {y : User} (hy : y ∈ e.after.users) : ∃ x ∈ e.before.users, x.id = y.id := by
  generalize e.call = c at heffect
  generalize e.result = r at heffect
  generalize e.seen = seen at heffect
  generalize e.before = a at heffect ⊢
  generalize e.after = b at heffect hy
  have hchange : ∀ {id : Id} {f : User → User}, (∀ u, (f u).id = u.id) →
      y ∈ (a.changeUser id f).users → ∃ x ∈ a.users, x.id = y.id := by
    intro id f hf hmem
    obtain ⟨x, hx, rfl⟩ := mem_changeUser.mp hmem
    refine ⟨x, hx, ?_⟩
    split
    · exact (hf x).symm
    · rfl
  cases heffect with
  | login => exact hchange (f := User.cleared) (fun _ => rfl) hy
  | failed => exact hchange (f := User.failed _) (fun _ => rfl) hy
  | pinSet => exact hchange (f := User.withPin _ _) (fun _ => rfl) hy
  | @userActive _ isActive => exact hchange (f := fun u => { u with isActive }) (fun _ => rfl) hy
  | _ => exact ⟨y, hy, rfl⟩

end Step

-- ============================================================================
-- Along a part of the history
-- ============================================================================

section Runs

variable {config : Config} {crypto : Crypto} {R : Prop} {db0 : Db} {σ : State}
  (h : AuthSound config crypto R db0 σ)
include h

/-- The one row of the user satisfies `p`. -/
def Db.user (db : Db) (userId : Id) (p : User → Prop) : Prop :=
  ∃ x ∈ db.users, x.id = userId ∧ p x

/-- The step of a commit of the run for the row of a user. -/
theorem step_of_mem {e : AuthCommit} (he : e ∈ σ.history) {x : User} (hx : x ∈ e.before.users) :
    ∃ y ∈ e.after.users, y.id = x.id ∧ PinStep config R e x y :=
  pin_step (h.commits e he).post (h.commits e he).invBefore hx

/-- What is true of a user's row, or of the state, and kept by the commits of a part of
    the history, is true after them. -/
theorem user_chain {pre mid post : List AuthCommit} (heq : σ.history = pre ++ mid ++ post)
    {userId : Id} (Q : List AuthCommit → Db → User → Prop) {a b : Db} (hchain : Chain a mid b)
    (h0 : a.user userId (Q [] a))
    (hstep : ∀ done e rest x y, mid = done ++ e :: rest → e ∈ σ.history →
      x ∈ e.before.users → y ∈ e.after.users → x.id = userId → y.id = userId →
      PinStep config R e x y → Q done e.before x → Q (done ++ [e]) e.after y) :
    b.user userId (Q mid b) := by
  refine hchain.induction (fun done d => d.user userId (Q done d)) h0 ?_
  intro done e rest hmid hQ
  obtain ⟨x, hx, hid, hQx⟩ := hQ
  have he : e ∈ σ.history := by
    rw [heq, hmid]
    simp
  obtain ⟨y, hy, hyid, hpin⟩ := step_of_mem h he hx
  exact ⟨y, hy, hyid.trans hid,
    hstep done e rest x y hmid he hx hy hid (hyid.trans hid) hpin hQx⟩

/-- A user who is there at some time of a part of the history was there when it
    began. -/
theorem user_there {pre mid post : List AuthCommit} (heq : σ.history = pre ++ mid ++ post)
    {userId : Id} {a b : Db} (hchain : Chain a mid b) {y : User} (hy : y ∈ b.users)
    (hid : y.id = userId) : ∃ x ∈ a.users, x.id = userId := by
  by_contra hno
  refine hchain.invariant (fun d => ¬ ∃ x ∈ d.users, x.id = userId) hno ?_ ⟨y, hy, hid⟩
  rintro e he hbefore ⟨z, hz, hzid⟩
  have hmem : e ∈ σ.history := by
    rw [heq]
    simp [he]
  obtain ⟨x, hx, hxid⟩ := user_before (h.commits e hmem).post hz
  exact hbefore ⟨x, hx, hxid.trans hzid⟩

end Runs

end Kasir.Auth
