/-
  Kasir.Auth.BruteForce

  How fast a PIN can be guessed.

  Attempts that do not overlap are a gate that counts and locks (`Lockout.Gate`): a
  guess that is compared with the PIN and found wrong has found the gate open, and is
  counted.  Attempts that overlap lose no count either, because the failure is
  computed from the row that the update then locks.
-/

import Kasir.Auth.PinLock
import Kasir.Lockout
import Mathlib.Algebra.Order.Group.Int

namespace Kasir.Auth

open Txn Js Lockout

-- ============================================================================
-- Attempts that do not overlap
-- ============================================================================

/-- An attempt to log in, with what its statements are supplied with. -/
structure Attempt where
  dto : PinLoginDto
  now : Time
  token : String
  envs : Nat → Env

def Attempt.call (a : Attempt) : Call := .pinLogin a.dto a.now a.token

/-- The guess is compared with the PIN of a user who is not locked, and is wrong. -/
def wrongGuess (crypto : Crypto) (dto : PinLoginDto) (now : Time) (db : Db) : Bool :=
  dto.valid && (findPinUser (toLowerCase dto.userId) (toLowerCase dto.tenantId) db).any fun u =>
    !u.lockedAt now && u.pinHash.any fun h => !crypto.compare dto.pin h

/-- The time of an attempt that reaches a failed comparison. -/
def failedComparison (crypto : Crypto) (t : App.Turn Db Exc Call Result) : Option Time :=
  match t.call with
  | .pinLogin dto now _ => if wrongGuess crypto dto now t.before then some now else none
  | _ => none

/-- Attempts one after the other. -/
abbrev attemptsInTurn (config : Config) (crypto : Crypto) (attempts : List Attempt) (db : Db) :
    Option (List (App.Turn Db Exc Call Result)) :=
  (auth config crypto).sequence (attempts.map fun a => (a.call, a.envs)) db

/-- Counter and lock of a user. -/
def User.gate (u : User) : Gate Time := ⟨u.pinFailedAttempts, u.lockedUntil⟩

/-- One more failure of a user who is not locked fits the column. -/
def Countable (db : Db) : Prop :=
  ∀ u ∈ db.users, u.lockedUntil = none → u.pinFailedAttempts < int4Max

section Alone

variable {config : Config} {crypto : Crypto} {db db1 : Db} {envs : Nat → Env} {n : Nat}
  {log : Db → Db}

theorem gate_failed {u : User} (hread : ∀ l, u.lockedUntil = some l → l ≤ maxReadTime)
    (now : Time) : (User.failed (nextFailure config u now) u).gate =
      u.gate.fail config.pinMaxFailedAttempts config.pinLockDurationMs now := by
  unfold User.gate User.failed Gate.fail nextFailure
  rw [readLock_eq hread]

theorem gate_open {u : User} {now : Time}
    (hread : ∀ l, u.lockedUntil = some l → l ≤ maxReadTime) :
    u.gate.Open now ↔ u.lockedAt now = false := by
  unfold Gate.Open User.gate User.lockedAt
  rw [readLock_eq hread]
  cases u.lockedUntil <;> simp

/-- The database admits a change of a user's row that keeps its id. -/
theorem legal_changeUser {id : Id} {f : User → User} (hf : ∀ u, (f u).id = u.id) :
    (db.changeUser id f).legal = db.legal := by
  have hids : (db.changeUser id f).users.map User.id = db.users.map User.id := by
    simp only [Db.changeUser, Db.modifyUsers, List.map_map]
    apply List.map_congr_left
    intro u _
    simp only [Function.comp_apply]
    split
    · exact hf u
    · rfl
  unfold Db.legal distinct
  rw [hids]
  rfl

/-- The failures of a user who is not locked can be counted on. -/
theorem Countable.next (h : Countable db) (hlocks : db.locksReadable) {u : User}
    (hu : u ∈ db.users) {now : Time} (hopen : u.lockedAt now = false) :
    (nextFailure config u now).failedAttempts ≤ int4Max := by
  cases hlock : u.lockedUntil with
  | none =>
      have hlt := h u hu hlock
      have hnext : (nextFailure config u now).failedAttempts = u.pinFailedAttempts + 1 := by
        simp [nextFailure, User.readLock, hlock]
      omega
  | some l =>
      -- the lock has run out, and the count starts anew
      have hle := not_lockedAt hopen hlock (hlocks u hu l hlock)
      have hnext : (nextFailure config u now).failedAttempts = 1 := by
        simp [nextFailure, readLock_eq (hlocks u hu), hlock, hle]
      rw [hnext]
      decide

/-- A failure that does not lock has not reached the threshold. -/
theorem nextFailure_below (hmax : config.pinMaxFailedAttempts ≤ int4Max) {u : User} {now : Time}
    (hlock : (nextFailure config u now).lockedUntil = none) :
    (nextFailure config u now).failedAttempts < int4Max := by
  by_contra hge
  exact nextFailure_locks (by omega) hlock

theorem Countable.failed (h : Countable db) (hmax : config.pinMaxFailedAttempts ≤ int4Max)
    {u : User} {now : Time} :
    Countable (db.changeUser u.id (User.failed (nextFailure config u now))) := by
  intro y hy hlock
  obtain ⟨x, hx, rfl⟩ := mem_changeUser.mp hy
  by_cases hid : x.id = u.id
  · rw [if_pos hid] at hlock ⊢
    exact nextFailure_below hmax hlock
  · rw [if_neg hid] at hlock ⊢
    exact h x hx hlock

/-- A failure leaves the locks readable. -/
theorem Db.locksReadable.failed (h : db.locksReadable) {u : User} {now : Time}
    (htime : now + config.pinLockDurationMs ≤ maxReadTime) :
    (db.changeUser u.id (User.failed (nextFailure config u now))).locksReadable := by
  intro y hy l hl
  obtain ⟨x, hx, rfl⟩ := mem_changeUser.mp hy
  by_cases hid : x.id = u.id
  · rw [if_pos hid] at hl
    rw [lock_of_nextFailure hl]
    exact htime
  · rw [if_neg hid] at hl
    exact h x hx l hl

/-- What `recordFailedPin` finds when nobody else runs. -/
theorem filter_activeUserWithPin (hdb : db.legal = true) {u : User} (hu : u ∈ db.users)
    {userId tenantId : Id} {h : String} (hp : activeUserWithPin userId tenantId h u = true) :
    db.users.filter (activeUserWithPin userId tenantId h) = [u] := by
  have hle := filter_length_le_one (legal_users hdb) (p := activeUserWithPin userId tenantId h)
    fun x hx => activeUserWithPin_id hx
  have hmem : u ∈ db.users.filter (activeUserWithPin userId tenantId h) :=
    List.mem_filter.mpr ⟨hu, hp⟩
  rcases hrows : db.users.filter (activeUserWithPin userId tenantId h) with _ | ⟨x, _ | ⟨y, rest⟩⟩
  · rw [hrows] at hmem
    cases hmem
  · rw [hrows] at hmem
    rw [List.mem_singleton.mp hmem]
  · rw [hrows] at hle
    simp at hle

/-- A failure that the columns can hold is recorded. -/
theorem solo_recordFailedPin (hdb : db.legal = true) {u : User} (hu : u ∈ db.users)
    {h : String} {failedAt : Time} (hp : activeUserWithPin u.id u.tenantId h u = true)
    (hopen : u.lockedAt failedAt = false)
    (hcount : (nextFailure config u failedAt).failedAttempts ≤ int4Max)
    (htime : failedAt + config.pinLockDurationMs ≤ maxReadTime)
    (henvs : ∀ k, (envs k).serializationFailure = false) (attempts : Nat) :
    ∃ n', (recordFailedPin config u.id u.tenantId h failedAt (attempts + 1)).solo db envs n id =
      ⟨n', Db.changeUser u.id (User.failed (nextFailure config u failedAt)),
        .ok (some (nextFailure config u failedAt))⟩ := by
  have hshown := filter_activeUserWithPin hdb hu hp
  have hunlocked : u.readLock.filter (fun l => failedAt < l) = none := by
    unfold User.lockedAt at hopen
    cases hl : u.readLock with
    | none => rfl
    | some l => simpa [hl, Option.filter] using hopen
  have hguard : ((nextFailure config u failedAt).failedAttempts ≤ int4Max &&
      (nextFailure config u failedAt).lockedUntil.all fun l => l ≤ maxTime) = true := by
    rw [Bool.and_eq_true, decide_eq_true_eq]
    refine ⟨hcount, ?_⟩
    rw [nextFailure_lockedUntil]
    split
    · have hmax : maxReadTime ≤ maxTime := by decide
      simpa using htime.trans hmax
    · rfl
  refine ⟨n + 2, ?_⟩
  unfold recordFailedPin query
  simp only [Prog.solo_bind, Prog.solo_read, id_eq, hshown, List.head?_cons, hunlocked, hguard,
    Prog.guard_true, RowTable.updateShown, Prog.solo, henvs, Bool.false_or]
  have hall : ([u].all fun r => decide (r ∈ users.rows db)) = true := by
    rw [List.all_eq_true]
    intro r hr
    rw [List.mem_singleton.mp hr]
    exact decide_eq_true hu
  simp only [hall, Bool.not_true, Bool.false_eq_true, if_false, List.length_singleton,
    List.map_singleton, ne_eq, not_true_eq_false, Function.comp_id]
  have hchange : users.change [users.lock u] (User.failed (nextFailure config u failedAt)) =
      Db.changeUser u.id (User.failed (nextFailure config u failedAt)) :=
    users_change_singleton u.id _
  rw [← hchange]
  rfl

/-- What a wrong guess shows of the user it is compared with. -/
theorem wrongGuess_iff {dto : PinLoginDto} {now : Time} :
    wrongGuess crypto dto now db = true ↔ dto.valid = true ∧ ∃ u h,
      findPinUser (toLowerCase dto.userId) (toLowerCase dto.tenantId) db = some u ∧
      u.lockedAt now = false ∧ u.pinHash = some h ∧ crypto.compare dto.pin h = false := by
  unfold wrongGuess
  cases hfound : findPinUser (toLowerCase dto.userId) (toLowerCase dto.tenantId) db with
  | none => simp
  | some u => cases hpin : u.pinHash <;> simp [hpin]

variable {a : Attempt}

/-- **A wrong guess is recorded**, if nobody else runs. -/
theorem alone_wrong (hdb : db.legal = true) (hguess : wrongGuess crypto a.dto a.now db = true)
    (henvs : ∀ k, (a.envs k).serializationFailure = false)
    (htime : a.now + config.pinLockDurationMs ≤ maxReadTime)
    (hcount : ∀ u ∈ db.users, u.lockedAt a.now = false →
      (nextFailure config u a.now).failedAttempts ≤ int4Max) :
    ∃ u ∈ db.users, u.id = toLowerCase a.dto.userId ∧ u.lockedAt a.now = false ∧
      (auth config crypto).alone a.call db a.envs =
        some (.ok (.error (failureAnswer (nextFailure config u a.now) a.now)),
          db.changeUser u.id (User.failed (nextFailure config u a.now))) := by
  obtain ⟨hvalid, u, h, hfound, hopen, hpin, hwrong⟩ := wrongGuess_iff.mp hguess
  obtain ⟨hu, hid⟩ := findPinUser_id hfound
  have hcurrent : activeUserWithPin u.id u.tenantId h u = true := by
    have hp := List.find?_some hfound
    simp only [activeUserOf, Bool.and_eq_true, beq_iff_eq] at hp
    simp [activeUserWithPin, activeUserOf, hpin, hp.1.2]
  obtain ⟨n, hrecord⟩ := solo_recordFailedPin (n := 1) hdb hu hcurrent hopen (hcount u hu hopen) htime
    henvs 2
  have hunlocked : u.readLock.filter (fun l => a.now < l) = none := by
    unfold User.lockedAt at hopen
    cases hl : u.readLock with
    | none => rfl
    | some l => simpa [hl, Option.filter] using hopen
  refine ⟨u, hu, hid, hopen, ?_⟩
  have hsolo : ((auth config crypto).body a.call).solo db a.envs 0 id =
      ⟨n, Db.changeUser u.id (User.failed (nextFailure config u a.now)),
        .ok (.error (failureAnswer (nextFailure config u a.now) a.now))⟩ := by
    show (pinLogin config crypto a.dto a.now a.token).solo db a.envs 0 id = _
    unfold pinLogin queryMarked
    simp only [Prog.solo_bind, Prog.solo, id_eq, hfound, Prog.require_some, hpin, hunlocked, hwrong,
      Bool.false_eq_true, if_false, Function.comp_id, Nat.zero_add, hrecord]
    unfold failureAnswer
    simp only [Option.bind_some]
    cases (nextFailure config u a.now).lockedUntil <;> rfl
  have hpre : (auth config crypto).precheck a.call = none := by
    show (if a.dto.valid then none else some validationPipeError) = none
    rw [if_pos hvalid]
  have hlegal : (auth config crypto).legal
      (db.changeUser u.id (User.failed (nextFailure config u a.now))) = true := by
    show (db.changeUser u.id (User.failed (nextFailure config u a.now))).legal = true
    rw [legal_changeUser (f := User.failed (nextFailure config u a.now)) fun _ => rfl]
    exact hdb
  unfold App.alone
  simp only [hpre, hsolo, hlegal, if_true]

/-- How an attempt that is no wrong guess may end: nothing is changed, or a session is
    created. -/
def Settles (db : Db) (o : Prog.Outcome Db Exc Result) : Prop :=
  (∃ e, o.result = .error e) ∨ (∃ e, o.result = .ok (.error e) ∧ o.log db = db) ∨
    ∃ r, o.result = .ok (.ok (.tokens r))

/-- The update of a right guess hits the one row of the user, or none. -/
theorem solo_createPinSession (hdb : db.legal = true) {u : User} {h : String} {dto : PinLoginDto}
    {now : Time} {token : String} :
    (∃ n' log e, (createPinSession config crypto u h dto now token).solo db envs n id =
        ⟨n', log, .error e⟩) ∨
      (∃ n' log, (createPinSession config crypto u h dto now token).solo db envs n id =
        ⟨n', log, .ok false⟩ ∧ log db = db) ∨
      ∃ n' log, (createPinSession config crypto u h dto now token).solo db envs n id =
        ⟨n', log, .ok true⟩ := by
  have hle := filter_length_le_one (legal_users hdb) (p := activeUserWithPin u.id u.tenantId h)
    fun x hx => activeUserWithPin_id hx
  unfold createPinSession query
  simp only [Prog.solo_bind, Prog.solo_read, id_eq]
  cases hcurrent : db.users.find? fun x =>
      activeUserWithPin u.id u.tenantId h x && db.tenantActive x.tenantId with
  | none => exact Or.inr (Or.inl ⟨_, _, rfl, rfl⟩)
  | some x =>
      simp only [Option.isNone_some, Bool.false_eq_true, if_false, Prog.solo_bind,
        RowTable.solo_update, id_eq]
      rcases hrows : (users.rows db).filter (activeUserWithPin u.id u.tenantId h) with
        _ | ⟨y, _ | ⟨z, rest⟩⟩
      · refine Or.inr (Or.inl ⟨_, _, rfl, ?_⟩)
        simp only [Function.comp_id, List.map_nil, users_change_nil]
        rfl
      · simp only [List.length_singleton, ne_eq, not_true_eq_false, if_false, Prog.solo_bind]
        generalize (createDeviceSession _).solo db envs _ _ = o
        obtain ⟨n', log, result⟩ := o
        cases result with
        | ok _ => exact Or.inr (Or.inr ⟨_, _, rfl⟩)
        | error e => exact Or.inl ⟨_, _, _, rfl⟩
      · have hrows' : db.users.filter (activeUserWithPin u.id u.tenantId h) = y :: z :: rest := hrows
        rw [hrows'] at hle
        simp at hle

theorem settles_rightGuess (hdb : db.legal = true) {u : User} {h : String} {dto : PinLoginDto}
    {now : Time} {token : String} :
    Settles db ((createPinSession config crypto u h dto now token >>= fun created =>
      if created then pure (.ok (.tokens (tokenResponse crypto u token)))
      else pure (.error invalidPinCredentials) : Body (Except Exc Response)).solo db envs n id) := by
  rw [Prog.solo_bind]
  rcases @solo_createPinSession config crypto db envs n hdb u h dto now token with
    ⟨n', log, e, hsolo⟩ | ⟨n', log, hsolo, hsame⟩ | ⟨n', log, hsolo⟩
  · rw [hsolo]
    exact Or.inl ⟨e, rfl⟩
  · rw [hsolo]
    exact Or.inr (Or.inl ⟨_, rfl, hsame⟩)
  · rw [hsolo]
    exact Or.inr (Or.inr ⟨_, rfl⟩)

/-- Any other attempt that is not answered with tokens changes nothing. -/
theorem alone_refused (hdb : db.legal = true) {x : Except Exc Result}
    (hrun : (auth config crypto).alone a.call db a.envs = some (x, db1))
    (hguess : wrongGuess crypto a.dto a.now db = false)
    (hno : ∀ r, x ≠ .ok (.ok (.tokens r))) : db1 = db := by
  unfold App.alone at hrun
  by_cases hvalid : a.dto.valid = true
  · have hpre : (auth config crypto).precheck a.call = none := by
      show (if a.dto.valid then none else some validationPipeError) = none
      rw [if_pos hvalid]
    have hsettles : Settles db (((auth config crypto).body a.call).solo db a.envs 0 id) := by
      show Settles db ((pinLogin config crypto a.dto a.now a.token).solo db a.envs 0 id)
      unfold pinLogin queryMarked
      simp only [Prog.solo_bind, Prog.solo, id_eq]
      cases hfound : findPinUser (toLowerCase a.dto.userId) (toLowerCase a.dto.tenantId) db with
      | none => exact Or.inl ⟨_, rfl⟩
      | some u =>
          simp only [Prog.require_some, Prog.solo_ret]
          cases hpin : u.pinHash with
          | none => exact Or.inl ⟨_, rfl⟩
          | some h =>
              simp only [Prog.require_some, Prog.solo_ret]
              cases hlock : u.readLock.filter fun l => a.now < l with
              | some l => exact Or.inl ⟨_, rfl⟩
              | none =>
                  by_cases hright : crypto.compare a.dto.pin h = true
                  · simp only [hright, if_true]
                    exact settles_rightGuess hdb
                  · -- a wrong guess is excluded
                    have hwrong : wrongGuess crypto a.dto a.now db = true :=
                      wrongGuess_iff.mpr ⟨hvalid, u, h, hfound, lockedAt_eq_false hlock, hpin,
                        Bool.not_eq_true _ ▸ hright⟩
                    rw [hwrong] at hguess
                    cases hguess
    rw [hpre] at hrun
    generalize hsolo : ((auth config crypto).body a.call).solo db a.envs 0 id = o at hrun hsettles
    obtain ⟨sent, log, result⟩ := o
    rcases hsettles with ⟨e, he⟩ | ⟨e, he, hlog⟩ | ⟨r, hr⟩
    · obtain rfl : result = .error e := he
      simp only [Option.map_eq_some_iff, Prod.mk.injEq] at hrun
      obtain ⟨_, _, _, rfl⟩ := hrun
      rfl
    · obtain rfl : result = .ok (.error e) := he
      simp only at hrun hlog
      split at hrun
      · obtain ⟨-, rfl⟩ := Prod.mk.inj (Option.some.inj hrun)
        exact hlog
      · cases hrun
    · obtain rfl : result = .ok (.ok (.tokens r)) := hr
      simp only at hrun
      split at hrun
      · obtain ⟨rfl, -⟩ := Prod.mk.inj (Option.some.inj hrun)
        exact absurd rfl (hno r)
      · cases hrun
  · have hpre : (auth config crypto).precheck a.call = some validationPipeError := by
      show (if a.dto.valid then none else some validationPipeError) = _
      rw [if_neg hvalid]
    rw [hpre] at hrun
    obtain ⟨-, rfl⟩ := Prod.mk.inj (Option.some.inj hrun)
    rfl

end Alone

-- ============================================================================
-- Spaced failures
-- ============================================================================

/-- Attempts on one user, from an earlier to a later time, with no transaction broken
    off: there is none that it could conflict with. -/
structure OneByOne (userId : Id) (attempts : List Attempt) : Prop where
  user : ∀ a ∈ attempts, toLowerCase a.dto.userId = userId
  ordered : (attempts.map Attempt.now).Pairwise (· ≤ ·)
  alone : ∀ a ∈ attempts, ∀ k, (a.envs k).serializationFailure = false

/-- No attempt succeeds. -/
def AllFail (turns : List (App.Turn Db Exc Call Result)) : Prop :=
  ∀ t ∈ turns, ∀ r, t.answer ≠ .ok (.ok (.tokens r))

section Spaced

variable {config : Config} {crypto : Crypto} {userId : Id}

theorem failedComparison_attempt (a : Attempt) (x : Except Exc Result) (before after : Db) :
    failedComparison crypto ⟨a.call, x, before, after⟩ =
      if wrongGuess crypto a.dto a.now before then some a.now else none := rfl

/-- **Attempts in turn are a gate.**  The induction is on the attempts; the gate is the
    row of the user. -/
theorem lets_failedComparisons (hmax : config.pinMaxFailedAttempts ≤ int4Max)
    {attempts : List Attempt} {db : Db} {turns : List (App.Turn Db Exc Call Result)}
    {g : Gate Time} (hdb : db.legal = true) (hcount : Countable db) (hlocks : db.locksReadable)
    (hgate : ∀ u ∈ db.users, u.id = userId → u.gate = g)
    (huser : ∀ a ∈ attempts, toLowerCase a.dto.userId = userId)
    (henvs : ∀ a ∈ attempts, ∀ k, (a.envs k).serializationFailure = false)
    (htime : ∀ a ∈ attempts, a.now + config.pinLockDurationMs ≤ maxReadTime)
    (hrun : attemptsInTurn config crypto attempts db = some turns) (hfail : AllFail turns) :
    Lets config.pinMaxFailedAttempts config.pinLockDurationMs g
      (turns.filterMap (failedComparison crypto)) := by
  induction attempts generalizing db turns g with
  | nil =>
      obtain rfl : turns = [] := by simpa [attemptsInTurn, App.sequence] using hrun.symm
      trivial
  | cons a rest ih =>
      obtain ⟨⟨x, db1⟩, halone, hrest⟩ := Option.bind_eq_some_iff.mp hrun
      obtain ⟨later, hlater, rfl⟩ := Option.map_eq_some_iff.mp hrest
      have hmem : a ∈ a :: rest := List.mem_cons_self ..
      have hgo : ∀ {g' : Gate Time}, db1.legal = true → Countable db1 → db1.locksReadable →
          (∀ u ∈ db1.users, u.id = userId → u.gate = g') →
          Lets config.pinMaxFailedAttempts config.pinLockDurationMs g'
            (later.filterMap (failedComparison crypto)) :=
        fun hdb1 hcount1 hlocks1 hgate1 => ih hdb1 hcount1 hlocks1 hgate1
          (fun b hb => huser b (List.mem_cons_of_mem _ hb))
          (fun b hb => henvs b (List.mem_cons_of_mem _ hb))
          (fun b hb => htime b (List.mem_cons_of_mem _ hb)) hlater
          fun t ht => hfail t (List.mem_cons_of_mem _ ht)
      cases hguess : wrongGuess crypto a.dto a.now db with
      | true =>
          obtain ⟨u, hu, hid, hopen, hrecorded⟩ := alone_wrong hdb hguess (henvs a hmem)
            (htime a hmem) fun u hu hopen => hcount.next hlocks hu hopen
          rw [hrecorded] at halone
          obtain ⟨-, rfl⟩ := Prod.mk.inj (Option.some.inj halone)
          have hg : u.gate = g := hgate u hu (hid.trans (huser a hmem))
          rw [List.filterMap_cons_some ((failedComparison_attempt ..).trans (if_pos hguess))]
          refine ⟨hg ▸ (gate_open (hlocks u hu)).mpr hopen,
            hgo ?_ (hcount.failed hmax) (hlocks.failed (htime a hmem)) ?_⟩
          · rw [legal_changeUser (f := User.failed (nextFailure config u a.now)) fun _ => rfl]
            exact hdb
          · intro y hy hyid
            obtain ⟨z, hz, rfl⟩ := mem_changeUser.mp hy
            by_cases hzid : z.id = u.id
            · rw [if_pos hzid, ← hg, ← gate_failed (hlocks u hu)]
              rfl
            · rw [if_neg hzid] at hyid
              exact absurd (hyid.trans (hid.trans (huser a hmem)).symm) hzid
      | false =>
          obtain rfl := alone_refused hdb halone hguess (hfail _ (List.mem_cons_self ..))
          have hnot : ¬ wrongGuess crypto a.dto a.now db1 = true := by
            rw [hguess]
            exact Bool.false_ne_true
          rw [List.filterMap_cons_none ((failedComparison_attempt ..).trans (if_neg hnot))]
          exact hgo hdb hcount hlocks hgate

theorem filterMap_sublist {α β : Type} {f g : α → Option β}
    (h : ∀ a b, f a = some b → g a = some b) (xs : List α) :
    (xs.filterMap f).Sublist (xs.filterMap g) := by
  induction xs with
  | nil => exact List.Sublist.slnil
  | cons x xs ih =>
      cases hf : f x with
      | some b =>
          rw [List.filterMap_cons_some hf, List.filterMap_cons_some (h x b hf)]
          exact ih.cons_cons b
      | none =>
          rw [List.filterMap_cons_none hf]
          cases hg : g x with
          | some b =>
              rw [List.filterMap_cons_some hg]
              exact ih.cons b
          | none =>
              rw [List.filterMap_cons_none hg]
              exact ih

/-- The times at which a comparison fails are times of the attempts, in order. -/
theorem failedComparisons_ordered {attempts : List Attempt} {db : Db}
    {turns : List (App.Turn Db Exc Call Result)}
    (hrun : attemptsInTurn config crypto attempts db = some turns)
    (hordered : (attempts.map Attempt.now).Pairwise (· ≤ ·)) :
    (turns.filterMap (failedComparison crypto)).Pairwise (· ≤ ·) := by
  have hcalls : turns.map App.Turn.call = attempts.map Attempt.call := by
    rw [App.sequence_calls hrun, List.map_map]
    rfl
  have hnow : attempts.map Attempt.now = turns.filterMap fun t => t.call.startedAt := by
    have h1 : (turns.map App.Turn.call).filterMap Call.startedAt =
        turns.filterMap fun t => t.call.startedAt := List.filterMap_map ..
    rw [← h1, hcalls, List.filterMap_map]
    exact (List.filterMap_eq_map' (f := Attempt.now)).symm ▸ rfl
  rw [hnow] at hordered
  refine hordered.sublist (filterMap_sublist ?_ turns)
  intro t now ht
  unfold failedComparison at ht
  split at ht
  · rename_i dto at_ token hcall
    split at ht
    · rw [hcall]
      exact ht
    · cases ht
  · cases ht

end Spaced

-- ============================================================================
-- Attempts that overlap
-- ============================================================================

/-- The commit records a failed guess of the user's PIN. -/
def recorded (crypto : Crypto) (userId : Id) (e : AuthCommit) : Bool :=
  match e.call with
  | .pinLogin dto _ _ => toLowerCase dto.userId == userId && recordsGuess crypto dto e.seen
  | _ => false

/-- It is the first one after a lock that has run out. -/
def resets (crypto : Crypto) (userId : Id) (e : AuthCommit) : Bool :=
  recorded crypto userId e && e.call.startedAt.any fun now =>
    e.before.users.any fun u => u.id == userId && u.lockedUntil.any fun l => l ≤ now

/-- The commits from the last reset on, the reset included. -/
def sinceReset (crypto : Crypto) (userId : Id) (es : List AuthCommit) : List AuthCommit :=
  es.foldl (fun later e => if resets crypto userId e then [e] else later ++ [e]) []

/-- No commit is a login of the user or sets the user's PIN. -/
def OnlyFailures (userId : Id) (es : List AuthCommit) : Prop :=
  ∀ e ∈ es, ¬ (attemptOn userId e ∧ createsSession e) ∧ ¬ setsPin userId e

section Overlap

variable {config : Config} {crypto : Crypto} {R : Prop} {e : AuthCommit} {x : User}

theorem sinceReset_snoc (userId : Id) (es : List AuthCommit) :
    sinceReset crypto userId (es ++ [e]) =
      if resets crypto userId e then [e] else sinceReset crypto userId es ++ [e] := by
  unfold sinceReset
  rw [List.foldl_append]
  rfl

/-- A recorded failure is a step of the counter. -/
theorem recorded_step (heffect : Effect config crypto R e.call e.result e.seen e.before e.after)
    (hdb : e.before.legal = true) (hx : x ∈ e.before.users)
    (hrec : recorded crypto x.id e = true) :
    ∃ now, e.call.startedAt = some now ∧ x.lockedAt now = false ∧
      x.failed (nextFailure config x now) ∈ e.after.users := by
  unfold recorded at hrec
  generalize hc : e.call = c at heffect hrec ⊢
  generalize e.result = r at heffect
  generalize e.seen = seen at heffect hrec
  generalize e.before = a at heffect hdb hx
  generalize e.after = b at heffect ⊢
  cases heffect with
  | @login dto now token _ _ u0 h u id guess right mem current unlocked unused =>
      -- a right guess records no failure
      simp only [Bool.and_eq_true, guess.recordsGuess_eq, right, Bool.not_true, Bool.false_eq_true,
        false_and, and_false] at hrec
  | @failed dto now token _ _ u0 h u guess wrong mem current unlocked recorded =>
      simp only [Bool.and_eq_true, beq_iff_eq] at hrec
      obtain ⟨d, -, hfound⟩ := guess.read
      have hid : x.id = u0.id := hrec.1.symm.trans (findPinUser_id hfound).2.symm
      obtain rfl := user_unique hdb hx mem (hid.trans (activeUserWithPin_id current).symm)
      exact ⟨now, rfl, unlocked, mem_changeUser_self hx hid⟩
  | @loginRefused dto now token _ _ _ unrecorded =>
      simp only [Bool.and_eq_true, unrecorded, Bool.false_eq_true, and_false] at hrec
  | _ => cases hrec

/-- An attempt that creates no session and records no failure changes nothing. -/
theorem unrecorded_step (heffect : Effect config crypto R e.call e.result e.seen e.before e.after)
    {userId : Id} (hattempt : attemptOn userId e) (hno : ¬ createsSession e)
    (hrec : recorded crypto userId e = false) : e.after = e.before := by
  obtain ⟨dto, now, token, hcall, hid⟩ := hattempt
  unfold recorded at hrec
  unfold createsSession at hno
  rw [hcall] at heffect hrec
  generalize e.result = r at heffect hno
  generalize e.seen = seen at heffect hrec
  generalize e.before = a at heffect ⊢
  generalize e.after = b at heffect ⊢
  cases heffect with
  | login => exact absurd ⟨_, rfl⟩ hno
  | failed guess wrong mem current unlocked recorded =>
      simp only [hid, beq_self_eq_true, recorded, Bool.and_true] at hrec
      cases hrec
  | loginRefused => rfl

/-- What a commit that is no success leaves of the PIN columns, if it records no failure
    of the user. -/
theorem pin_kept (heffect : Effect config crypto R e.call e.result e.seen e.before e.after)
    (hdb : e.before.legal = true) (hx : x ∈ e.before.users)
    (hlogin : ¬ (attemptOn x.id e ∧ createsSession e)) (hset : ¬ setsPin x.id e)
    (hrec : recorded crypto x.id e = false) :
    ∃ y ∈ e.after.users, y.id = x.id ∧ y.pin = x.pin := by
  by_cases hattempt : attemptOn x.id e
  · have hsame := unrecorded_step heffect hattempt (fun hcreates => hlogin ⟨hattempt, hcreates⟩) hrec
    exact ⟨x, hsame ▸ hx, rfl, rfl⟩
  · obtain ⟨y, hy, hid, hstep⟩ := pin_step heffect hdb hx
    refine ⟨y, hy, hid, ?_⟩
    cases hstep with
    | same hpin _ => exact hpin
    | login hcall hid' _ _ _ _ => exact absurd ⟨_, _, _, hcall, hid'⟩ hattempt
    | failed hcall hid' _ _ _ _ => exact absurd ⟨_, _, _, hcall, hid'⟩ hattempt
    | setPin hcall hid' hresult _ => exact absurd ⟨_, _, _, _, _, hcall, hid', hresult⟩ hset

/-- Whether a recorded failure resets the count is a matter of the one row of the user. -/
theorem resets_iff (hdb : e.before.legal = true) (hx : x ∈ e.before.users) {now : Time}
    (hnow : e.call.startedAt = some now) (hrec : recorded crypto x.id e = true) :
    resets crypto x.id e = true ↔ x.lockedUntil.any (fun l => l ≤ now) = true := by
  simp only [resets, hrec, hnow, Option.any_some, Bool.true_and, List.any_eq_true, Bool.and_eq_true,
    beq_iff_eq]
  constructor
  · rintro ⟨u, hu, hid, hlock⟩
    rwa [← user_unique hdb hu hx hid]
  · intro hlock
    exact ⟨x, hx, rfl, hlock⟩

theorem resets_of_unrecorded {userId : Id} (hrec : recorded crypto userId e = false) :
    resets crypto userId e = false := by
  rw [resets, hrec, Bool.false_and]

/-- The counter is the number of failures recorded since the last reset. -/
def CountsSince (crypto : Crypto) (userId : Id) (done : List AuthCommit) (u : User) : Prop :=
  u.pinFailedAttempts = (sinceReset crypto userId done).countP (recorded crypto userId)

/-- **One commit keeps the count.** -/
theorem counts_step (heffect : Effect config crypto R e.call e.result e.seen e.before e.after)
    (hdb : e.before.legal = true) (hlocks : e.before.locksReadable) (hx : x ∈ e.before.users)
    (hlogin : ¬ (attemptOn x.id e ∧ createsSession e)) (hset : ¬ setsPin x.id e)
    {done : List AuthCommit} (hcount : CountsSince crypto x.id done x) :
    ∃ y ∈ e.after.users, y.id = x.id ∧ CountsSince crypto x.id (done ++ [e]) y := by
  unfold CountsSince at hcount ⊢
  cases hrec : recorded crypto x.id e with
  | false =>
      obtain ⟨y, hy, hid, hpin⟩ := pin_kept heffect hdb hx hlogin hset hrec
      refine ⟨y, hy, hid, ?_⟩
      have hattempts : y.pinFailedAttempts = x.pinFailedAttempts := congrArg (fun p => p.2.1) hpin
      rw [hattempts, hcount, sinceReset_snoc, resets_of_unrecorded hrec]
      simp [hrec]
  | true =>
      obtain ⟨now, hnow, -, hy⟩ := recorded_step heffect hdb hx hrec
      refine ⟨_, hy, rfl, ?_⟩
      have hnext : (x.failed (nextFailure config x now)).pinFailedAttempts =
          (if x.lockedUntil.any (fun l => l ≤ now) then 0 else x.pinFailedAttempts) + 1 := by
        rw [← readLock_eq (hlocks x hx)]
        rfl
      rw [hnext, sinceReset_snoc]
      by_cases hreset : resets crypto x.id e = true
      · have hlock := (resets_iff hdb hx hnow hrec).mp hreset
        rw [if_pos hlock, if_pos hreset]
        simp [hrec]
      · have hlock := mt (resets_iff hdb hx hnow hrec).mpr hreset
        rw [if_neg hlock, if_neg hreset, List.countP_append, ← hcount]
        simp [hrec]

end Overlap

-- ============================================================================
-- The bound
-- ============================================================================

/-- What the lockout promises of guesses, from a reachable state on. -/
structure BruteForceLaw (config : Config) (crypto : Crypto) (db0 : Db) (σ : State) : Prop where
  /-- Of attempts that do not overlap, whose locks end before the year 10000, the `i`-th
      and the `(i + m)`-th that reach a failed comparison are a lock's duration apart. -/
  spaced : ∀ userId attempts turns, OneByOne userId attempts →
    (∀ a ∈ attempts, a.now + config.pinLockDurationMs ≤ maxReadTime) →
    attemptsInTurn config crypto attempts σ.db = some turns → AllFail turns →
    ∀ i s u, (turns.filterMap (failedComparison crypto))[i]? = some s →
      (turns.filterMap (failedComparison crypto))[i + config.pinMaxFailedAttempts]? = some u →
      s + config.pinLockDurationMs ≤ u
  /-- However attempts overlap, one that fails keeps a lock that is later than it. -/
  keepsLock : ∀ e ∈ σ.history, ∀ userId now, attemptOn userId e → ¬ createsSession e →
    e.call.startedAt = some now → ∀ x ∈ e.before.users, x.id = userId →
    ∀ l, x.lockedUntil = some l → now < l →
      ∃ y ∈ e.after.users, y.id = userId ∧ y.pinFailedAttempts = x.pinFailedAttempts ∧
        y.lockedUntil = some l
  /-- The counter, started from 0, is the number of failures recorded since the last one
      that reset it, that one included. -/
  counts : ∀ pre mid post a b userId, σ.history = pre ++ mid ++ post →
    Chain db0 pre a → Chain a mid b → OnlyFailures userId mid → ∀ x ∈ a.users, x.id = userId → x.pinFailedAttempts = 0 →
    ∀ y ∈ b.users, y.id = userId →
      y.pinFailedAttempts = (sinceReset crypto userId mid).countP (recorded crypto userId)

section Law

variable {config : Config} {crypto : Crypto} {R : Prop} {db0 : Db} {σ : State} {userId : Id}
  (h : AuthSound config crypto R db0 σ)
  (hread : ∀ e ∈ σ.history, e.before.locksReadable ∧ e.after.locksReadable)
include h

/-- No run outgrows the counter. -/
theorem countable_of_run (hmax : config.pinMaxFailedAttempts ≤ int4Max) (h0 : Countable db0) :
    Countable σ.db := by
  refine h.invariant Countable h0 ?_
  intro e he hbefore y hy hlock
  obtain ⟨x, hx, hxid⟩ := user_before he.post hy
  obtain ⟨z, hz, hzid, hstep⟩ := pin_step he.post he.invBefore hx
  obtain rfl := user_unique he.invAfter hz hy (hzid.trans hxid)
  have hpin : ∀ {v : User}, z.pin = v.pin →
      z.pinFailedAttempts = v.pinFailedAttempts ∧ v.lockedUntil = none := fun heq =>
    ⟨congrArg (fun p => p.2.1) heq, (lockedUntil_of_pin heq).symm.trans hlock⟩
  cases hstep with
  | same heq _ =>
      rw [(hpin heq).1]
      exact hbefore x hx (hpin heq).2
  | login _ _ _ _ _ heq =>
      rw [(hpin heq).1]
      show 0 < int4Max
      decide
  | failed _ _ _ _ _ heq =>
      rw [(hpin heq).1]
      exact nextFailure_below hmax (hpin heq).2
  | setPin _ _ _ heq =>
      rw [(hpin heq).1]
      show 0 < int4Max
      decide

include hread in
/-- A failed attempt leaves a later lock alone. -/
theorem later_lock_kept {e : AuthCommit} (he : e ∈ σ.history) {now l : Time}
    (hattempt : attemptOn userId e) (hno : ¬ createsSession e) (hnow : e.call.startedAt = some now)
    {x : User} (hx : x ∈ e.before.users) (hid : x.id = userId) (hlock : x.lockedUntil = some l)
    (hlater : now < l) : ∃ y ∈ e.after.users, y.id = userId ∧ y.pin = x.pin := by
  obtain ⟨y, hy, hyid, hstep⟩ := step_of_mem h he hx
  refine ⟨y, hy, hyid.trans hid, ?_⟩
  cases hstep with
  | same heq _ => exact heq
  | login _ _ hcreates _ _ _ => exact absurd hcreates hno
  | failed hcall _ _ _ hunlocked _ =>
      rw [hcall] at hnow
      obtain rfl := Option.some.inj hnow
      exact absurd hlater (not_lt.mpr
        (not_lockedAt hunlocked hlock ((hread e he).1 x hx l hlock)))
  | setPin hcall _ _ _ =>
      obtain ⟨_, _, _, hcall', -⟩ := hattempt
      rw [hcall] at hcall'
      cases hcall'

include hread in
/-- The counter loses no recorded failure. -/
theorem counts_since {pre mid post : List AuthCommit} (heq : σ.history = pre ++ mid ++ post)
    {a b : Db} (hchain : Chain a mid b) (honly : OnlyFailures userId mid) {x : User}
    (hx : x ∈ a.users) (hid : x.id = userId) (hzero : x.pinFailedAttempts = 0) :
    b.user userId (CountsSince crypto userId mid) := by
  refine hchain.induction (fun done d => d.user userId (CountsSince crypto userId done))
    ⟨x, hx, hid, hzero⟩ ?_
  intro done e rest hsplit hcounted
  obtain ⟨u, hu, huid, hcount⟩ := hcounted
  have he : e ∈ σ.history := by
    rw [heq, hsplit]
    simp
  have honly' := honly e (by rw [hsplit]; simp)
  subst huid
  exact counts_step (h.commits e he).post (h.commits e he).invBefore (hread e he).1 hu honly'.1
    honly'.2 hcount

end Law

/-- **How fast a PIN can be guessed**, where the counter can reach the threshold and
    locks end before the year 10000. -/
theorem brute_force_bound (config : Config) (crypto : Crypto)
    (hmax : config.pinMaxFailedAttempts ≤ int4Max) {db0 : Db} {σ : State}
    (h0 : db0.legal = true) (hcount : Countable db0) (hlocks : db0.locksReadable)
    (hrun : (auth config crypto).Run (fun _ l => lockReadable config l = true) db0 σ) :
    BruteForceLaw config crypto db0 σ := by
  have h := reach_sound h0 hrun.reach
  have htimes := readable_of_run (fun _ _ hok => hok) h hrun
  have hread := locksReadable_commit h htimes hlocks
  have hnow : σ.db.locksReadable :=
    h.chain.invariant Db.locksReadable hlocks fun e he _ => (hread e he).2
  constructor
  case spaced =>
    intro userId attempts turns hone htime hturns hfail i s u hs hu
    -- the row of the user, or any gate if there is none
    obtain ⟨g, hgate⟩ : ∃ g : Gate Time, ∀ x ∈ σ.db.users, x.id = userId → x.gate = g := by
      by_cases hthere : ∃ x ∈ σ.db.users, x.id = userId
      · obtain ⟨x, hx, hid⟩ := hthere
        exact ⟨x.gate, fun y hy hyid => by rw [user_unique h.inv hy hx (hyid.trans hid.symm)]⟩
      · exact ⟨⟨0, none⟩, fun x hx hid => absurd ⟨x, hx, hid⟩ hthere⟩
    have hlets := lets_failedComparisons hmax h.inv (countable_of_run h hmax hcount) hnow hgate
      hone.user hone.alone htime hturns hfail
    exact hlets.window config.pinMaxFailedAttempts_pos
      (failedComparisons_ordered hturns hone.ordered) hs hu
  case keepsLock =>
    intro e he userId now hattempt hno hnow x hx hid l hlock hlater
    obtain ⟨y, hy, hyid, hpin⟩ := later_lock_kept h hread he hattempt hno hnow hx hid hlock hlater
    exact ⟨y, hy, hyid, congrArg (fun p => p.2.1) hpin, (lockedUntil_of_pin hpin).trans hlock⟩
  case counts =>
    intro pre mid post a b userId heq hpre hchain honly x hx hid hzero y hy hyid
    obtain ⟨z, hz, hzid, hcounted⟩ := counts_since h hread heq hchain honly hx hid hzero
    have hb : b.legal = true := by
      refine (chain_append.mpr ⟨a, hpre, hchain⟩).invariant (fun d => d.legal = true) h0 ?_
      intro e he _
      exact (h.commits e (by rw [heq]; exact List.mem_append_left _ he)).invAfter
    rw [user_unique hb hy hz (hyid.trans hzid.symm)]
    exact hcounted

/-- A guess of the shop's PIN with what its statements get. -/
def Shop.attempt (pin : String) (now : Time) (n : Nat) : Attempt where
  dto := { tenantId := Shop.tenant, userId := Shop.cashier, pin, deviceId := Shop.device }
  now := now
  token := Shop.token n
  envs := fun _ => Shop.env n

/-- Two wrong guesses that overlap are both counted.  Three more lock the user; the next
    one is refused, and the one behind the lock is compared again. -/
theorem brute_force_bound_shop :
    ∃ (σ : State) (attempts : List Attempt) (turns : List (App.Turn Db Exc Call Result)),
      (auth Shop.config Shop.crypto).Run (fun _ l => lockReadable Shop.config l = true) Shop.db σ ∧
      BruteForceLaw Shop.config Shop.crypto Shop.db σ ∧ σ.history.length = 2 ∧
      OneByOne Shop.cashier attempts ∧
      attemptsInTurn Shop.config Shop.crypto attempts σ.db = some turns ∧
      turns.filterMap (failedComparison Shop.crypto) = [0, 0, 1000, 901000] := by
  let attempts := ([0, 0, 1000, 2000, 901000] : List Time).map fun t => Shop.attempt "999999" t 1
  obtain ⟨σ, hrun, hp⟩ := Shop.reached (fun _ l => lockReadable Shop.config l)
    (.call (Shop.guess "000000" 0 1) :: .call (Shop.guess "111111" 0 2) :: Shop.stmts 0 1 ++
      Shop.stmts 1 1 ++ Shop.stmts 0 2 ++ .commit 0 :: Shop.stmts 1 2 ++ [.commit 1])
    (fun σ => σ.history.length == 2 &&
      (attemptsInTurn Shop.config Shop.crypto attempts σ.db).any fun turns =>
        turns.filterMap (failedComparison Shop.crypto) == [0, 0, 1000, 901000])
    (by decide +kernel)
  rw [Bool.and_eq_true, beq_iff_eq] at hp
  obtain ⟨turns, hturns, htimes⟩ := (Option.any_eq_true _ _).mp hp.2
  refine ⟨σ, attempts, turns, hrun, brute_force_bound Shop.config Shop.crypto (by decide) Shop.legal
    ?_ Shop.locksReadable hrun, hp.1, ⟨?_, by decide, ?_⟩, hturns, by simpa using htimes⟩
  · unfold Countable
    decide +kernel
  · decide +kernel
  · intro a ha k
    obtain ⟨t, -, rfl⟩ := List.mem_map.mp ha
    rfl

/-- The turn ends without tokens. -/
def Shop.noTokens (t : App.Turn Db Exc Call Result) : Bool :=
  match t.answer with
  | .ok (.ok (.tokens _)) => false
  | _ => true

/-- A lock of 9 · 10¹⁵ ms, which the configuration accepts, ends behind the last time a
    `Date` can hold.  No failure that reaches the threshold is recorded, and the guesses
    go on. -/
theorem lock_beyond_calendar :
    ∃ (config : Config) (attempts : List Attempt) (turns : List (App.Turn Db Exc Call Result)),
      OneByOne Shop.cashier attempts ∧
      attemptsInTurn config Shop.crypto attempts Shop.db = some turns ∧ AllFail turns ∧
      ∃ s u, (turns.filterMap (failedComparison Shop.crypto))[0]? = some s ∧
        (turns.filterMap (failedComparison Shop.crypto))[0 + config.pinMaxFailedAttempts]? =
          some u ∧
        u < s + config.pinLockDurationMs := by
  -- 150,000,000,000 minutes
  let config : Config := { pinLockDurationMs := 9000000000000000 }
  have hturns : (attemptsInTurn config Shop.crypto
      (List.replicate 6 (Shop.attempt "999999" 0 1)) Shop.db).any (fun turns =>
        turns.filterMap (failedComparison Shop.crypto) == [0, 0, 0, 0, 0, 0] &&
        turns.all Shop.noTokens) = true := by
    decide +kernel
  obtain ⟨turns, hrun, hp⟩ := (Option.any_eq_true _ _).mp hturns
  rw [Bool.and_eq_true, beq_iff_eq, List.all_eq_true] at hp
  refine ⟨config, _, turns, ⟨?_, by decide, ?_⟩, hrun, ?_, 0, 0, ?_⟩
  · decide +kernel
  · intro a ha k
    rw [List.eq_of_mem_replicate ha]
    rfl
  · intro t ht r hr
    have hno := hp.2 t ht
    unfold Shop.noTokens at hno
    rw [hr] at hno
    cases hno
  · rw [hp.1]
    decide

end Kasir.Auth
