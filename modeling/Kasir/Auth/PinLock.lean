/-
  Kasir.Auth.PinLock

  The lock of a PIN.

  A wrong guess re-reads the lock in the transaction that records it.  A right guess
  does not: it checks the lock once, before the slow comparison, and its transaction
  clears whatever lock there is by then.  So the lock holds exactly as long as no
  failure locks a user while a right guess that found the user unlocked is under way.

  A lock that ends after the year 9999 is no lock, because the client cannot read its
  end (`readBack`).
-/

import Kasir.Auth.Pins

namespace Kasir.Auth

open Txn Js

-- ============================================================================
-- The wall clock
-- ============================================================================

/-- An attempt starts now. -/
def timely (σ : State) : Label Env Exc Call → Bool
  | .call (.pinLogin _ now _) => now == σ.db.clock
  | _ => true

/-- The clock reading of an attempt. -/
def Call.startedAt : Call → Option Time
  | .pinLogin _ now _ => some now
  | _ => none

section Clock

variable {config : Config} {crypto : Crypto} {db0 : Db} {σ : State}
  {ok : State → Label Env Exc Call → Prop}

/-- The clock only moves forward. -/
theorem clock_of_step (h0 : db0.legal = true) (hrun : (auth config crypto).Run ok db0 σ)
    {σ' : State} {l : Label Env Exc Call} (hstep : (auth config crypto).step σ l = some σ') :
    σ.db.clock ≤ σ'.db.clock := by
  have h' := reach_sound h0 (hrun.reach.step trivial hstep)
  rcases (auth config crypto).step_cases hstep with ⟨c, -, rfl⟩ |
    ⟨i, env, c, n, tx, locks, write, next, s, v, -, -, -, -, -, -, rfl⟩ |
    ⟨i, c, n, tx, r, -, -, -, -, rfl⟩ | ⟨i, c, n, tx, e, -, -, rfl⟩
  · exact le_refl _
  · exact le_refl _
  · have hmem : (⟨i, c, r, tx.seen, σ.db, tx.log σ.db⟩ : AuthCommit) ∈ σ.history ++
        [⟨i, c, r, tx.seen, σ.db, tx.log σ.db⟩] := by simp
    exact (h'.commits _ hmem).evolves.clock
  · exact le_refl _

/-- No attempt is from the future. -/
theorem startedAt_le (h0 : db0.legal = true)
    (hok : ∀ σ l, ok σ l → timely σ l = true) (hrun : (auth config crypto).Run ok db0 σ) :
    (∀ cs ∈ σ.calls, ∀ now, cs.1.startedAt = some now → now ≤ σ.db.clock) ∧
    (∀ e ∈ σ.history, ∀ now, e.call.startedAt = some now → now ≤ e.before.clock) := by
  induction hrun with
  | init => exact ⟨fun _ h => (nomatch h), fun _ h => nomatch h⟩
  | @step σ σ' l hrun hl hstep ih =>
      obtain ⟨hcalls, hhistory⟩ := ih
      have hclock := clock_of_step h0 hrun hstep
      -- a call that goes on is the same call
      have hset : ∀ {i : Nat} {c : Call} {s s' : CallState Db Env Token Exc Exc Result},
          σ.calls[i]? = some (c, s) → ∀ cs ∈ σ.calls.set i (c, s'), ∀ now,
            cs.1.startedAt = some now → now ≤ σ.db.clock := by
        intro i c s s' hi cs hcs now hnow
        rcases List.mem_or_eq_of_mem_set hcs with hcs | rfl
        · exact hcalls cs hcs now hnow
        · exact hcalls _ (List.mem_of_getElem? hi) now hnow
      rcases (auth config crypto).step_cases hstep with ⟨c, rfl, rfl⟩ |
        ⟨i, env, c, n, tx, locks, write, next, s, v, -, hi, -, -, -, -, rfl⟩ |
        ⟨i, c, n, tx, r, -, hi, -, -, rfl⟩ | ⟨i, c, n, tx, e, -, hi, rfl⟩
      · refine ⟨fun cs hcs now hnow => ?_, hhistory⟩
        rcases List.mem_append.mp hcs with hcs | hcs
        · exact hcalls cs hcs now hnow
        · rw [List.mem_singleton.mp hcs] at hnow
          have htimely := hok _ _ hl
          cases c with
          | pinLogin dto t token =>
              simp only [timely, beq_iff_eq] at htimely
              obtain rfl := Option.some.inj hnow
              exact htimely.le
          | _ => cases hnow
      · exact ⟨hset hi, hhistory⟩
      · refine ⟨fun cs hcs now hnow => (hset hi cs hcs now hnow).trans hclock, fun e he now hnow => ?_⟩
        rcases List.mem_append.mp he with he | he
        · exact hhistory e he now hnow
        · rw [List.mem_singleton.mp he] at hnow ⊢
          exact hcalls _ (List.mem_of_getElem? hi) now hnow
      · exact ⟨hset hi, hhistory⟩

end Clock

-- ============================================================================
-- Locks that can be read
-- ============================================================================

/-- The lock that a failure of the attempt would set ends before the year 10000. -/
def lockReadable (config : Config) : Label Env Exc Call → Bool
  | .call (.pinLogin _ now _) => now + config.pinLockDurationMs ≤ maxReadTime
  | _ => true

/-- So does every lock there is. -/
def Db.locksReadable (db : Db) : Prop :=
  ∀ u ∈ db.users, ∀ l, u.lockedUntil = some l → l ≤ maxReadTime

theorem readLock_eq {u : User} (h : ∀ l, u.lockedUntil = some l → l ≤ maxReadTime) :
    u.readLock = u.lockedUntil := by
  unfold User.readLock
  cases hl : u.lockedUntil with
  | none => rfl
  | some l => exact readBack_eq (h l hl)

theorem not_lockedAt {x : User} {now l : Time} (h : x.lockedAt now = false)
    (hl : x.lockedUntil = some l) (hread : l ≤ maxReadTime) : l ≤ now := by
  simp only [User.lockedAt, User.readLock, hl, Option.bind_some, readBack_eq hread,
    Option.any_some, decide_eq_false_iff_not] at h
  exact not_lt.mp h

theorem lockedUntil_of_pin {x y : User} (h : y.pin = x.pin) : y.lockedUntil = x.lockedUntil :=
  congrArg (fun p => p.2.2) h

theorem nextFailure_lockedUntil (config : Config) (u : User) (now : Time) :
    (nextFailure config u now).lockedUntil =
      if config.pinMaxFailedAttempts ≤ (nextFailure config u now).failedAttempts then
        some (now + config.pinLockDurationMs) else none := rfl

section Readable

variable {config : Config} {crypto : Crypto} {R : Prop} {db0 : Db} {σ : State}

/-- A failure locks for the duration. -/
theorem lock_of_nextFailure {u : User} {now l : Time}
    (h : (nextFailure config u now).lockedUntil = some l) : l = now + config.pinLockDurationMs := by
  rw [nextFailure_lockedUntil] at h
  split at h
  · exact (Option.some.inj h).symm
  · cases h

/-- One step keeps the lock of a user readable. -/
theorem PinStep.readable {e : AuthCommit} {x y : User} (hstep : PinStep config R e x y)
    (htime : ∀ now, e.call.startedAt = some now → now + config.pinLockDurationMs ≤ maxReadTime)
    (hx : ∀ l, x.lockedUntil = some l → l ≤ maxReadTime) :
    ∀ l, y.lockedUntil = some l → l ≤ maxReadTime := by
  intro l hl
  cases hstep with
  | same h _ => exact hx l ((lockedUntil_of_pin h).symm.trans hl)
  | login _ _ _ _ _ h => cases (lockedUntil_of_pin h).symm.trans hl
  | failed hcall _ _ _ _ h =>
      rw [lock_of_nextFailure ((lockedUntil_of_pin h).symm.trans hl)]
      exact htime _ (by rw [hcall]; rfl)
  | setPin _ _ _ h => cases (lockedUntil_of_pin h).symm.trans hl

/-- The attempts of a run whose labels are readable. -/
theorem readable_of_run {ok : State → Label Env Exc Call → Prop}
    (hok : ∀ σ l, ok σ l → lockReadable config l = true)
    (h : AuthSound config crypto R db0 σ) (hrun : (auth config crypto).Run ok db0 σ) :
    ∀ e ∈ σ.history, ∀ now, e.call.startedAt = some now →
      now + config.pinLockDurationMs ≤ maxReadTime := by
  intro e he
  refine hrun.calls (fun c => ∀ now, c.startedAt = some now →
    now + config.pinLockDurationMs ≤ maxReadTime) ?_ e.pid _ (h.owner e he)
  intro σ c hc now hnow
  have hreadable := hok σ _ hc
  cases c with
  | pinLogin dto t token =>
      obtain rfl := Option.some.inj hnow
      exact of_decide_eq_true hreadable
  | _ => cases hnow

/-- **Every lock of the run can be read**, before and after each commit. -/
theorem locksReadable_commit (h : AuthSound config crypto R db0 σ)
    (htime : ∀ e ∈ σ.history, ∀ now, e.call.startedAt = some now →
      now + config.pinLockDurationMs ≤ maxReadTime)
    (h0 : db0.locksReadable) :
    ∀ e ∈ σ.history, e.before.locksReadable ∧ e.after.locksReadable := by
  refine h.chain.invariant_mem Db.locksReadable h0 ?_
  intro e he hbefore y hy
  have hok := h.commits e he
  obtain ⟨x, hx, hxid⟩ := user_before hok.post hy
  obtain ⟨z, hz, hzid, hstep⟩ := step_of_mem h he hx
  obtain rfl := user_unique hok.invAfter hz hy (hzid.trans hxid)
  exact hstep.readable (htime e he) (hbefore x hx)

end Readable

-- ============================================================================
-- What the lock promises
-- ============================================================================

/-- The commit is a failed attempt that locks the user until `l`. -/
def locksUntil (userId : Id) (l : Time) (e : AuthCommit) : Prop :=
  attemptOn userId e ∧ ¬ createsSession e ∧
  ∃ x ∈ e.before.users, x.id = userId ∧ x.lockedUntil ≠ some l ∧
  ∃ y ∈ e.after.users, y.id = userId ∧ y.lockedUntil = some l

/-- The commit clears the lock of the user. -/
def clearsLock (userId : Id) (e : AuthCommit) : Prop :=
  ∃ x ∈ e.before.users, x.id = userId ∧ x.lockedUntil ≠ none ∧
  ∃ y ∈ e.after.users, y.id = userId ∧ y.lockedUntil = none

/-- Once a failure has locked the user until `l`, no attempt creates a session or
    clears the lock before `l`, unless the PIN is reset. -/
def LockHolds (σ : State) : Prop :=
  ∀ pre f mid e post userId l, σ.history = pre ++ f :: mid ++ e :: post →
    locksUntil userId l f → (∀ g ∈ mid, ¬ setsPin userId g) → attemptOn userId e →
    createsSession e ∨ clearsLock userId e → l ≤ e.before.clock

/-- The commit records a failure of the user. -/
def recordsFailure (userId : Id) (e : AuthCommit) : Prop :=
  attemptOn userId e ∧ ¬ createsSession e ∧
  ∃ x ∈ e.before.users, x.id = userId ∧ ∃ y ∈ e.after.users, y.id = userId ∧ y.pin ≠ x.pin

/-- The commit starts the count of failures anew: a right guess, a new PIN, or the
    first failure after a lock has run out. -/
def startsAnew (userId : Id) (e : AuthCommit) : Prop :=
  (attemptOn userId e ∧ createsSession e) ∨ setsPin userId e ∨
  (recordsFailure userId e ∧ ∃ x ∈ e.before.users, x.id = userId ∧
    ∃ now, e.call.startedAt = some now ∧ x.lockedUntil.any (fun l => l ≤ now) = true)

/-- What the lock promises of a run. -/
structure PinLockLaw (config : Config) (σ : State) : Prop where
  /-- The lock holds until it runs out. -/
  holds : LockHolds σ
  /-- While the count is not started anew, at most `pinMaxFailedAttempts` failures are
      recorded. -/
  bounded : ∀ pre mid post userId, σ.history = pre ++ mid ++ post →
    (∀ e ∈ mid, ¬ startsAnew userId e) →
    ∀ fs : List AuthCommit, fs.Sublist mid → (∀ e ∈ fs, recordsFailure userId e) →
      fs.length ≤ config.pinMaxFailedAttempts
  /-- The last of them locks the user, -/
  locks : ∀ e ∈ σ.history, ∀ userId, recordsFailure userId e → ∀ y ∈ e.after.users,
    y.id = userId → config.pinMaxFailedAttempts ≤ y.pinFailedAttempts → y.lockedUntil ≠ none
  /-- and every further guess, right or wrong, is refused until the lock runs out. -/
  refused : ∀ e ∈ σ.history, ∀ userId, attemptOn userId e → ∀ x ∈ e.before.users, x.id = userId →
    ∀ l, x.lockedUntil = some l → e.before.clock < l →
      ¬ createsSession e ∧ ∃ y ∈ e.after.users, y.id = userId ∧ y.pin = x.pin

section Law

variable {config : Config} {crypto : Crypto} {db0 : Db} {σ : State} {userId : Id}
  (h : AuthSound config crypto True db0 σ)
  (htime : ∀ e ∈ σ.history, ∀ now, e.call.startedAt = some now → now ≤ e.before.clock)
  (hread : ∀ e ∈ σ.history, e.before.locksReadable ∧ e.after.locksReadable)

/-- A commit that is no reset keeps the PIN columns or finds the user unlocked. -/
theorem same_or_unlocked {e : AuthCommit} {x y : User} (hstep : PinStep config True e x y)
    (hid : x.id = userId) (hset : ¬ setsPin userId e) :
    y.pin = x.pin ∨ ∃ now, e.call.startedAt = some now ∧ x.lockedAt now = false := by
  cases hstep with
  | same h _ => exact Or.inl h
  | login hcall _ _ _ hunlocked _ => exact Or.inr ⟨_, by rw [hcall]; rfl, hunlocked trivial⟩
  | failed hcall _ _ _ hunlocked _ => exact Or.inr ⟨_, by rw [hcall]; rfl, hunlocked⟩
  | setPin hcall hid' hresult _ => exact absurd ⟨_, _, _, _, _, hcall, hid'.trans hid, hresult⟩ hset

include htime in
/-- A lock stays until it runs out. -/
theorem lock_step {e : AuthCommit} (he : e ∈ σ.history) {x y : User} {l : Time}
    (hstep : PinStep config True e x y) (hid : x.id = userId) (hset : ¬ setsPin userId e)
    (hevolves : Evolves e.before e.after) (hl : l ≤ maxReadTime)
    (hlock : x.lockedUntil = some l ∨ l ≤ e.before.clock) :
    y.lockedUntil = some l ∨ l ≤ e.after.clock := by
  rcases hlock with hlock | hlate
  · rcases same_or_unlocked hstep hid hset with hsame | ⟨now, hnow, hunlocked⟩
    · exact Or.inl ((lockedUntil_of_pin hsame).trans hlock)
    · have h1 := not_lockedAt hunlocked hlock hl
      have h2 := htime e he now hnow
      exact Or.inr ((h1.trans h2).trans hevolves.clock)
  · exact Or.inr (hlate.trans hevolves.clock)

include h htime hread in
/-- The lock holds. -/
theorem lock_holds : LockHolds σ := by
  intro pre f mid e post userId l heq hlocks hno hattempt hopens
  have hf : f ∈ σ.history := by rw [heq]; simp
  have he : e ∈ σ.history := by rw [heq]; simp
  obtain ⟨-, -, x0, -, -, -, y0, hy0, hy0id, hy0l⟩ := hlocks
  have hl : l ≤ maxReadTime := (hread f hf).2 y0 hy0 l hy0l
  -- from the failure on, the user is locked until `l`, or `l` has passed
  have hchain := h.chain
  rw [heq, List.append_assoc, List.cons_append] at hchain
  obtain ⟨hmid, -⟩ := hchain.split.2.split
  obtain ⟨x, hx, hxid, hlock⟩ := user_chain h
    (heq.trans (by simp : pre ++ f :: mid ++ e :: post = pre ++ [f] ++ mid ++ e :: post))
    (fun _ d y => y.lockedUntil = some l ∨ l ≤ d.clock) hmid ⟨y0, hy0, hy0id, Or.inl hy0l⟩
    fun done g rest x y hsplit hmem _ _ hid _ hstep hQ => by
      have hg : g ∈ mid := by rw [hsplit]; simp
      exact lock_step htime hmem hstep hid (hno g hg) (h.commits g hmem).evolves hl hQ
  rcases hlock with hlock | hlate
  · -- whoever creates a session or clears the lock has found the user unlocked
    obtain ⟨y, hy, hyid, hstep⟩ := step_of_mem h he hx
    have hset : ¬ setsPin userId e := by
      rintro ⟨_, _, _, _, _, hcall, -⟩
      obtain ⟨_, _, _, hcall', -⟩ := hattempt
      rw [hcall] at hcall'
      cases hcall'
    rcases same_or_unlocked hstep hxid hset with hsame | ⟨now, hnow, hunlocked⟩
    · exfalso
      rcases hopens with hcreates | ⟨x', hx', hx'id, -, y', hy', hy'id, hnone⟩
      · cases hstep with
        | same _ hnot => exact hnot ⟨hxid ▸ hattempt, hcreates⟩
        | login _ _ _ _ _ hpin =>
            have hkept := (lockedUntil_of_pin hsame).trans hlock
            rw [lockedUntil_of_pin hpin] at hkept
            cases hkept
        | failed _ _ hnot _ _ _ => exact hnot hcreates
        | setPin hcall hid hresult _ => exact hset ⟨_, _, _, _, _, hcall, hid.trans hxid, hresult⟩
      · have hyy : y' = y := user_unique (h.commits e he).invAfter hy' hy
          (hy'id.trans (hyid.trans hxid).symm)
        rw [hyy, lockedUntil_of_pin hsame, hlock] at hnone
        cases hnone
    · exact (not_lockedAt hunlocked hlock hl).trans (htime e he now hnow)
  · exact hlate

include h htime hread in
/-- While the lock is in force, an attempt changes nothing. -/
theorem refused_while_locked {e : AuthCommit} (he : e ∈ σ.history) (hattempt : attemptOn userId e)
    {x : User} (hx : x ∈ e.before.users) (hid : x.id = userId) {l : Time}
    (hlock : x.lockedUntil = some l) (hl : e.before.clock < l) :
    ¬ createsSession e ∧ ∃ y ∈ e.after.users, y.id = userId ∧ y.pin = x.pin := by
  obtain ⟨y, hy, hyid, hstep⟩ := step_of_mem h he hx
  -- an attempt that finds the user unlocked is from after the lock
  have hlate : ∀ now, e.call.startedAt = some now → x.lockedAt now = false → False := by
    intro now hnow hunlocked
    have h1 := not_lockedAt hunlocked hlock ((hread e he).1 x hx l hlock)
    have h2 := htime e he now hnow
    exact absurd hl (not_lt.mpr (h1.trans h2))
  cases hstep with
  | same hsame hnot =>
      exact ⟨fun hcreates => hnot ⟨hid ▸ hattempt, hcreates⟩, y, hy, hyid.trans hid, hsame⟩
  | login hcall _ _ _ hunlocked _ =>
      exact (hlate _ (by rw [hcall]; rfl) (hunlocked trivial)).elim
  | failed hcall _ _ _ hunlocked _ => exact (hlate _ (by rw [hcall]; rfl) hunlocked).elim
  | setPin hcall _ _ _ =>
      obtain ⟨_, _, _, hcall', -⟩ := hattempt
      rw [hcall] at hcall'
      cases hcall'

-- ============================================================================
-- Counting failures
-- ============================================================================

theorem nextFailure_locks {x : User} {now : Time}
    (h : config.pinMaxFailedAttempts ≤ (nextFailure config x now).failedAttempts) :
    (nextFailure config x now).lockedUntil ≠ none := by
  unfold nextFailure at h ⊢
  simp only at h ⊢
  rw [if_pos h]
  exact Option.some_ne_none _

/-- A recorded failure is a step of the counter. -/
theorem failed_of_records {e : AuthCommit} {x y : User} (hstep : PinStep config True e x y)
    (hx : x ∈ e.before.users) (hy : y ∈ e.after.users) (hxid : x.id = userId)
    (hyid : y.id = userId) (hbefore : e.before.legal = true) (hafter : e.after.legal = true)
    (hrec : recordsFailure userId e) :
    ∃ now, e.call.startedAt = some now ∧ x.lockedAt now = false ∧
      y.pin = (x.failed (nextFailure config x now)).pin := by
  obtain ⟨hattempt, hno, x', hx', hx'id, y', hy', hy'id, hne⟩ := hrec
  obtain rfl := user_unique hbefore hx' hx (hx'id.trans hxid.symm)
  obtain rfl := user_unique hafter hy' hy (hy'id.trans hyid.symm)
  cases hstep with
  | same hsame _ => exact absurd hsame hne
  | login _ _ hcreates _ _ _ => exact absurd hcreates hno
  | failed hcall _ _ _ hunlocked hpin => exact ⟨_, by rw [hcall]; rfl, hunlocked, hpin⟩
  | setPin hcall _ _ _ =>
      obtain ⟨_, _, _, hcall', -⟩ := hattempt
      rw [hcall] at hcall'
      cases hcall'

include h in
/-- The failure that reaches the threshold locks the user. -/
theorem records_locks {e : AuthCommit} (he : e ∈ σ.history) (hrec : recordsFailure userId e)
    {y : User} (hy : y ∈ e.after.users) (hyid : y.id = userId)
    (hmax : config.pinMaxFailedAttempts ≤ y.pinFailedAttempts) : y.lockedUntil ≠ none := by
  have hok := h.commits e he
  obtain ⟨x, hx, hxid⟩ := user_before hok.post hy
  obtain ⟨y', hy', hy'id, hstep⟩ := step_of_mem h he hx
  obtain rfl := user_unique hok.invAfter hy' hy (hy'id.trans hxid)
  obtain ⟨now, -, -, hpin⟩ := failed_of_records hstep hx hy (hxid.trans hyid) hyid hok.invBefore
    hok.invAfter hrec
  have hattempts : y'.pinFailedAttempts = (nextFailure config x now).failedAttempts :=
    congrArg (fun p => p.2.1) hpin
  rw [lockedUntil_of_pin hpin]
  exact nextFailure_locks (hattempts ▸ hmax)

/-- Of the failures recorded so far: they are counted, and not too many. -/
def Counted (config : Config) (userId : Id) (done : List AuthCommit) (x : User) : Prop :=
  ∀ fs : List AuthCommit, fs.Sublist done → (∀ e ∈ fs, recordsFailure userId e) → fs ≠ [] →
    fs.length ≤ x.pinFailedAttempts ∧ fs.length ≤ config.pinMaxFailedAttempts ∧
    (x.lockedUntil = none → fs.length < config.pinMaxFailedAttempts)

theorem counted_step {e : AuthCommit} {done : List AuthCommit} {x y : User}
    (hstep : PinStep config True e x y) (hx : x ∈ e.before.users) (hy : y ∈ e.after.users)
    (hxid : x.id = userId) (hyid : y.id = userId) (hbefore : e.before.legal = true)
    (hafter : e.after.legal = true) (hread : e.before.locksReadable) (hno : ¬ startsAnew userId e)
    (hQ : Counted config userId done x) : Counted config userId (done ++ [e]) y := by
  intro fs hsub hfs hne
  by_cases hrec : recordsFailure userId e
  · obtain ⟨now, hnow, hunlocked, hpin⟩ := failed_of_records hstep hx hy hxid hyid hbefore hafter hrec
    have hattempts : y.pinFailedAttempts = (nextFailure config x now).failedAttempts :=
      congrArg (fun p => p.2.1) hpin
    have hlock : y.lockedUntil = (nextFailure config x now).lockedUntil :=
      congrArg (fun p => p.2.2) hpin
    -- the user was not locked at all: a lock that has run out would start the count anew
    have hnone : x.lockedUntil = none := by
      cases hl : x.lockedUntil with
      | none => rfl
      | some l =>
          have hle := not_lockedAt hunlocked hl (hread x hx l hl)
          refine absurd (Or.inr (Or.inr ⟨hrec, x, hx, hxid, now, hnow, ?_⟩)) hno
          simpa [hl] using hle
    have hnext : (nextFailure config x now).failedAttempts = x.pinFailedAttempts + 1 := by
      simp [nextFailure, User.readLock, hnone]
    have hopen : (nextFailure config x now).lockedUntil = none →
        x.pinFailedAttempts + 1 < config.pinMaxFailedAttempts := by
      intro hl
      by_contra hge
      exact nextFailure_locks (by omega) hl
    -- the failures before this one
    obtain ⟨gs, hgs, hlen⟩ : ∃ gs : List AuthCommit, gs.Sublist done ∧ (∀ g ∈ gs, recordsFailure userId g) ∧
        fs.length ≤ gs.length + 1 := by
      obtain ⟨gs, rest, rfl, hgs, hrest⟩ := List.sublist_append_iff.mp hsub
      refine ⟨gs, hgs, fun g hg => hfs g (List.mem_append_left _ hg), ?_⟩
      have := hrest.length_le
      simp only [List.length_append, List.length_singleton] at this ⊢
      omega
    have hpos := config.pinMaxFailedAttempts_pos
    rw [hattempts, hlock, hnext]
    by_cases hgsnil : gs = []
    · subst hgsnil
      have h1 : fs.length ≤ 1 := by simpa using hlen.2
      refine ⟨by omega, by omega, fun hl => ?_⟩
      have := hopen hl
      omega
    · obtain ⟨hcount, -, hfew⟩ := hQ gs hgs hlen.1 hgsnil
      have := hfew hnone
      refine ⟨by omega, by omega, fun hl => ?_⟩
      have := hopen hl
      omega
  · -- no failure is added, and the columns stay
    have hsame : y.pin = x.pin := by
      by_contra hdiff
      refine hrec ?_
      cases hstep with
      | same hsame _ => exact absurd hsame hdiff
      | login hcall hid hcreates _ _ _ =>
          exact absurd (Or.inl ⟨⟨_, _, _, hcall, hid.trans hxid⟩, hcreates⟩) hno
      | failed hcall hid hnot _ _ _ =>
          exact ⟨⟨_, _, _, hcall, hid.trans hxid⟩, hnot, x, hx, hxid, y, hy, hyid, hdiff⟩
      | setPin hcall hid hresult _ =>
          exact absurd (Or.inr (Or.inl ⟨_, _, _, _, _, hcall, hid.trans hxid, hresult⟩)) hno
    have hsub' : fs.Sublist done := by
      obtain ⟨gs, rest, rfl, hgs, hrest⟩ := List.sublist_append_iff.mp hsub
      rcases List.sublist_singleton.mp hrest with rfl | rfl
      · simpa using hgs
      · exact absurd (hfs e (by simp)) hrec
    have hattempts : y.pinFailedAttempts = x.pinFailedAttempts := congrArg (fun p => p.2.1) hsame
    rw [hattempts, lockedUntil_of_pin hsame]
    exact hQ fs hsub' hfs hne

include h hread in
/-- Between two fresh starts at most `pinMaxFailedAttempts` failures are recorded. -/
theorem failures_bounded {pre mid post : List AuthCommit} (heq : σ.history = pre ++ mid ++ post)
    (hno : ∀ e ∈ mid, ¬ startsAnew userId e) {fs : List AuthCommit} (hsub : fs.Sublist mid)
    (hfs : ∀ e ∈ fs, recordsFailure userId e) : fs.length ≤ config.pinMaxFailedAttempts := by
  rcases fs with _ | ⟨f, rest⟩
  · exact Nat.zero_le _
  · -- the user is there from the beginning of the part
    have hf : f ∈ mid := hsub.subset (List.mem_cons_self ..)
    obtain ⟨-, -, x0, hx0, hx0id, -⟩ := hfs f (List.mem_cons_self ..)
    have hchain := h.chain
    rw [heq, List.append_assoc] at hchain
    obtain ⟨a, -, hrest⟩ := chain_append.mp hchain
    obtain ⟨b, hmid, -⟩ := chain_append.mp hrest
    obtain ⟨mid1, mid2, hsplit⟩ := List.append_of_mem hf
    have hmid' := hmid
    rw [hsplit] at hmid'
    have hbefore : σ.history = pre ++ mid1 ++ (f :: mid2 ++ post) := by
      rw [heq, hsplit]
      simp
    obtain ⟨x, hx, hxid⟩ := user_there h hbefore hmid'.split.1 hx0 hx0id
    obtain ⟨y, -, -, hcounted⟩ := user_chain h heq (fun done _ => Counted config userId done) hmid
      ⟨x, hx, hxid, fun gs hgs _ hne => absurd (List.sublist_nil.mp hgs) hne⟩
      fun done e rest x y hdone he hx hy hxid hyid hstep hQ =>
        counted_step hstep hx hy hxid hyid (h.commits e he).invBefore (h.commits e he).invAfter
          (hread e he).1 (hno e (by rw [hdone]; simp)) hQ
    exact (hcounted (f :: rest) hsub hfs (List.cons_ne_nil _ _)).2.1

end Law

theorem Shop.locksReadable : Shop.db.locksReadable := by
  intro u hu l hl
  rw [List.mem_singleton.mp hu] at hl
  cases hl

/-- What a commit shows of the lock: whether it succeeded and when, and until when the
    users are locked before and after it. -/
structure LockTrace where
  call : Call
  succeeded : Bool
  clock : Time
  before : List (Id × Option Time)
  after : List (Id × Option Time)
deriving DecidableEq

def lockTrace (e : AuthCommit) : LockTrace where
  call := e.call
  succeeded := e.result.toOption.isSome
  clock := e.before.clock
  before := e.before.users.map fun u => (u.id, u.lockedUntil)
  after := e.after.users.map fun u => (u.id, u.lockedUntil)

end Kasir.Auth
