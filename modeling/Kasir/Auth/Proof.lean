/-
  Kasir.Auth.Proof

  What each call of authentication does, whatever commits between its statements.
-/

import Kasir.Auth.Ownership

namespace Kasir.Auth

open Txn Js

-- ============================================================================
-- Effects
-- ============================================================================

/-- A user after a right guess. -/
def User.cleared (u : User) : User := { u with pinFailedAttempts := 0, lockedUntil := none }

/-- A user after a wrong guess. -/
def User.failed (f : PinFailure) (u : User) : User :=
  { u with pinFailedAttempts := f.failedAttempts, lockedUntil := f.lockedUntil }

/-- A user with a new PIN. -/
def User.withPin (pinHash : String) (now : Time) (u : User) : User :=
  { u with pinHash := some pinHash, pinChangedAt := some now, pinFailedAttempts := 0
           lockedUntil := none }

/-- A session that is exchanged for its successor. -/
def DeviceSession.rotated (now : Time) (s : DeviceSession) : DeviceSession :=
  { revoke now s with rotatedAt := some now, lastUsedAt := now }

/-- A session that is found unusable. -/
def DeviceSession.expired (now : Time) (s : DeviceSession) : DeviceSession :=
  { revoke now s with lastUsedAt := now }

/-- The answer to a wrong guess. -/
def failureAnswer (f : PinFailure) (now : Time) : Exc :=
  match f.lockedUntil with
  | some l => pinLocked l now
  | none => invalidPinCredentials

/-- A guess has read `u0`, not locked, and compared its PIN against the hash `h`. -/
structure Guess (dto : PinLoginDto) (now : Time) (seen : List Db) (u0 : User) (h : String) :
    Prop where
  read : ∃ s, seen.head? = some s ∧
    findPinUser (toLowerCase dto.userId) (toLowerCase dto.tenantId) s = some u0
  pin : u0.pinHash = some h
  unlocked : u0.lockedAt now = false

/-- The PIN is compared with the hash that the first statement reads, and found wrong,
    and the last statement is the UPDATE that records the failure.  Behind the first
    statement every try reads the user again and then updates the row, and a try that
    records nothing ends with the read. -/
def recordsGuess (crypto : Crypto) (dto : PinLoginDto) (seen : List Db) : Bool :=
  let compared := seen.head?.bind fun d =>
    (findPinUser (toLowerCase dto.userId) (toLowerCase dto.tenantId) d).bind User.pinHash
  (compared.any fun h => !crypto.compare dto.pin h) && 3 ≤ seen.length && seen.length % 2 == 1

/-- The session, its user and its tenant are read one after the other. -/
def RecordRead (tokenHash : String) (record : SessionRecord) (seen : List Db) : Prop :=
  ∃ s1 s2 s3, [s1, s2, s3] <+: seen ∧ sessionOfToken tokenHash s1 = some record.session ∧
    userOfSession record.session s2 = some record.user ∧
    tenantOfSession record.session s3 = some record.tenant

/-- The first statement finds the session of the token. -/
def FindsSession (tokenHash : String) (seen : List Db) : Prop :=
  ∃ s, seen.head? = some s ∧ ∃ x ∈ s.deviceSessions, x.refreshTokenHash = tokenHash

/-- If it does, the session is REVOKED by now. -/
def RevokedSince (tokenHash : String) (seen : List Db) (a : Db) : Prop :=
  ∃ s, seen.head? = some s ∧ ∀ x ∈ s.deviceSessions, x.refreshTokenHash = tokenHash →
    ∃ y ∈ a.deviceSessions, y.origin = x.origin ∧ y.status = .revoked

/-- A session is found usable by what the transaction reads of it, and is still ACTIVE
    when it commits. -/
structure Usable (tokenHash : String) (now : Time) (seen : List Db) (record : SessionRecord)
    (x : DeviceSession) (a : Db) : Prop where
  read : RecordRead tokenHash record seen
  usable : record.usable now = true
  mem : x ∈ a.deviceSessions
  origin : x.origin = record.session.origin
  active : x.status = .active
  token : x.refreshTokenHash = tokenHash

section Effects

variable (config : Config) (crypto : Crypto) (R : Prop)

/-- What a call may do: its result, what it read from, and the committed states
    before and after. -/
inductive Effect : Call → Result → List Db → Db → Db → Prop
  | signedIn {dto seen a u} (read : ∃ s ∈ seen, findLoginUser dto s = some u)
      (active : u.isActive = true) :
      Effect (.login dto) (.ok (.accessToken (accessTokenOf crypto u))) seen a a
  | login {dto now token seen a u0 h u id} (guess : Guess dto now seen u0 h)
      (right : crypto.compare dto.pin h = true) (mem : u ∈ a.users)
      (current : activeUserWithPin u0.id u0.tenantId h u = true)
      (unlocked : R → a.unlocked u0.id now)
      (unused : ∀ s ∈ a.deviceSessions, s.refreshTokenHash ≠ crypto.hashRefreshToken token) :
      Effect (.pinLogin dto now token) (.ok (.tokens (tokenResponse crypto u0 token))) seen a
        ((a.changeUser u0.id User.cleared).addDeviceSession
          (newDeviceSession config crypto u0 dto now token id))
  | failed {dto now token seen a u0 h u} (guess : Guess dto now seen u0 h)
      (wrong : crypto.compare dto.pin h = false) (mem : u ∈ a.users)
      (current : activeUserWithPin u0.id u0.tenantId h u = true)
      (unlocked : u.lockedAt now = false) (recorded : recordsGuess crypto dto seen = true) :
      Effect (.pinLogin dto now token) (.error (failureAnswer (nextFailure config u now) now)) seen a
        (a.changeUser u0.id (User.failed (nextFailure config u now)))
  | loginRefused {dto now token e seen a} (unrecorded : recordsGuess crypto dto seen = false) :
      Effect (.pinLogin dto now token) (.error e) seen a a
  | rotated {dto now next seen a record x id}
      (usable : Usable (crypto.hashRefreshToken dto.refreshToken) now seen record x a)
      (unused : ∀ s ∈ a.deviceSessions, s.refreshTokenHash ≠ crypto.hashRefreshToken next) :
      Effect (.refresh dto now next) (.ok (.tokens (tokenResponse crypto record.user next))) seen a
        ((a.changeSession x.id (DeviceSession.rotated now)).addDeviceSession
          (rotatedSession config crypto record.session now next id))
  | expired {dto now next seen a x} (mem : x ∈ a.deviceSessions) (active : x.status = .active)
      (token : x.refreshTokenHash = crypto.hashRefreshToken dto.refreshToken)
      (found : FindsSession (crypto.hashRefreshToken dto.refreshToken) seen) :
      Effect (.refresh dto now next) (.error invalidRefreshToken) seen a
        (a.changeSession x.id (DeviceSession.expired now))
  | refreshRefused {dto now next e seen a}
      (revoked : RevokedSince (crypto.hashRefreshToken dto.refreshToken) seen a) :
      Effect (.refresh dto now next) (.error e) seen a a
  | loggedOut {dto now seen a x} (mem : x ∈ a.deviceSessions) (active : x.status = .active)
      (token : x.refreshTokenHash = crypto.hashRefreshToken dto.refreshToken)
      (found : FindsSession (crypto.hashRefreshToken dto.refreshToken) seen) :
      Effect (.logout dto now) (.ok .noContent) seen a (a.changeSession x.id (revoke now))
  | loggedOutBefore {dto now seen a}
      (revoked : RevokedSince (crypto.hashRefreshToken dto.refreshToken) seen a) :
      Effect (.logout dto now) (.ok .noContent) seen a a
  | pinSet {user target dto pinHash now seen a u} (mem : u ∈ a.users)
      (current : activeUserOf (toLowerCase target) (toLowerCase user.tenantId) u = true) :
      Effect (.setPin user target dto pinHash now) (.ok .noContent) seen a
        (a.changeUser (toLowerCase target) (User.withPin pinHash now))
  | pinNotSet {user target dto pinHash now e seen a} :
      Effect (.setPin user target dto pinHash now) (.error e) seen a a
  | userNotFound {id isActive seen a} :
      Effect (.setUserActive id isActive) (.ok .noContent) seen a a
  | userActive {id isActive seen a} :
      Effect (.setUserActive id isActive) (.ok .noContent) seen a
        (a.changeUser id fun u => { u with isActive })
  | tenantActive {id isActive seen a} :
      Effect (.setTenantActive id isActive) (.ok .noContent) seen a
        { a with tenants := a.tenants.map fun t => if t.id == id then { t with isActive } else t }
  | tick {clock seen a} :
      Effect (.tick clock) (.ok .noContent) seen a { a with clock := max a.clock clock }

end Effects

-- ============================================================================
-- Rules
-- ============================================================================

section Rules

variable {config : Config} {crypto : Crypto} {R : Prop} {α : Type}
  {st : St Db Token} {db : Db}

theorem wp_query {f : Db → α} {Q : α → St Db Token → Db → Prop} (hlog : ∀ d, st.log d = d)
    (h : ∀ st' db', Since (protocol R) id st db st' db' → (∀ d, st'.log d = d) →
      st'.seen = st.seen ++ [db'] → Q (f db') st' db') :
    wp (protocol R) .readCommitted (query f) Q st db :=
  wp_read_readCommitted fun st' db' _ hsince hseen => by
    have hq := h st' db' hsince (hsince.log_id hlog) hseen
    simpa only [hlog] using hq

theorem wp_queryMarked {f : Db → α} {marks : α → List Token} {Q : α → St Db Token → Db → Prop}
    (hlog : ∀ d, st.log d = d)
    (h : ∀ st' db', Since (protocol R) id st db st' db' → (∀ d, st'.log d = d) →
      st'.seen = st.seen ++ [db'] → marks (f db') ⊆ st'.held → Q (f db') st' db') :
    wp (protocol R) .readCommitted (queryMarked f marks) Q st db :=
  wp_stmt_readCommitted fun st' db' _ hsince hseen hlocks => by
    simp only [hlog] at hlocks ⊢
    exact h st' db' hsince (hsince.log_id hlog) hseen hlocks

theorem wp_createDeviceSession {mk : Id → DeviceSession} {Q : Unit → St Db Token → Db → Prop}
    (hash : String) (hhash : ∀ id, (mk id).refreshTokenHash = hash)
    (h : ∀ id st' db', Since (protocol R) (Db.addDeviceSession (mk id)) st db st' db' →
      st'.seen = st.seen ++ [db'] → .refreshTokenHash hash ∈ st'.held →
      (∀ s ∈ (st.log db').deviceSessions, s.refreshTokenHash ≠ hash) → Q () st' db') :
    wp (protocol R) .readCommitted (createDeviceSession mk) Q st db := by
  refine wp_stmt_readCommitted fun st' db' env hsince hseen hlocks => ?_
  simp only [hhash] at hsince hlocks ⊢
  cases hrefused : !(mk env.fresh).sendable ||
      (st.log db').deviceSessions.any fun s => s.refreshTokenHash == hash with
  | true => simp
  | false =>
      simp only [hrefused, Bool.false_eq_true, if_false] at hsince ⊢
      refine h env.fresh st' db' hsince hseen (hlocks (List.mem_singleton.mpr rfl)) ?_
      have hfree := (Bool.or_eq_false_iff.mp hrefused).2
      simpa using hfree

/-- An UPDATE of the user that satisfies a condition on its id: it changes the row or
    none. -/
theorem wp_updateUser {p : User → Bool} (userId : Id) {f : User → User}
    {Q : Nat → St Db Token → Db → Prop} (hlog : ∀ d, st.log d = d)
    (hp : ∀ u, p u = true → u.id = userId)
    (hnone : ∀ st' db', Since (protocol R) id st db st' db' → (∀ d, st'.log d = d) →
      st'.seen = st.seen ++ [db'] → (∀ u ∈ db'.users, p u = false) → Q 0 st' db')
    (hone : ∀ u st' db', Since (protocol R) (Db.changeUser userId f) st db st' db' →
      st'.seen = st.seen ++ [db'] → u ∈ db'.users → p u = true →
      .user userId ∈ st'.held → Q 1 st' db') :
    wp (protocol R) .readCommitted (users.update p (fun _ => []) f : Body Nat) Q st db := by
  refine RowTable.wp_update fun hits st' db' hhits hsince hseen hlocks _ => ?_
  rw [hlog] at hhits
  have hle : hits.length ≤ 1 := hhits ▸ filter_length_le_one (legal_users hsince.inv) hp
  rcases hits with _ | ⟨u, _ | ⟨v, rest⟩⟩
  · rw [List.map_nil, users_change_nil] at hsince
    refine hnone st' db' hsince (hsince.log_id hlog) hseen fun u hu => ?_
    have hnil := List.filter_eq_nil_iff.mp hhits.symm u hu
    simpa using hnil
  · have hmem : u ∈ db'.users.filter p := by
      have : u ∈ [u] := List.mem_singleton.mpr rfl
      rwa [hhits] at this
    obtain ⟨hu, hpu⟩ := List.mem_filter.mp hmem
    obtain rfl := hp u hpu
    have hchange : users.change [users.lock u] f = Db.changeUser u.id f :=
      users_change_singleton u.id f
    rw [List.map_cons, List.map_nil, hchange] at hsince
    exact hone u st' db' hsince hseen hu hpu (hlocks (List.mem_singleton.mpr rfl))
  · simp at hle

/-- An UPDATE of the session that satisfies a condition on its id. -/
theorem wp_updateSession {p : DeviceSession → Bool} {sessionId : Id}
    {f : DeviceSession → DeviceSession} {Q : Nat → St Db Token → Db → Prop}
    (hlog : ∀ d, st.log d = d) (hp : ∀ s, p s = true → s.id = sessionId)
    (hnone : ∀ st' db', Since (protocol R) id st db st' db' → (∀ d, st'.log d = d) →
      st'.seen = st.seen ++ [db'] → (∀ s ∈ db'.deviceSessions, p s = false) → Q 0 st' db')
    (hone : ∀ s st' db', Since (protocol R) (Db.changeSession sessionId f) st db st' db' →
      st'.seen = st.seen ++ [db'] → s ∈ db'.deviceSessions → p s = true →
      .deviceSession sessionId ∈ st'.held → Q 1 st' db') :
    wp (protocol R) .readCommitted (deviceSessions.update p (fun _ => []) f : Body Nat) Q st db := by
  refine RowTable.wp_update fun hits st' db' hhits hsince hseen hlocks _ => ?_
  rw [hlog] at hhits
  have hle : hits.length ≤ 1 := hhits ▸ filter_length_le_one (legal_deviceSessions hsince.inv) hp
  rcases hits with _ | ⟨s, _ | ⟨v, rest⟩⟩
  · rw [List.map_nil, deviceSessions_change_nil] at hsince
    refine hnone st' db' hsince (hsince.log_id hlog) hseen fun s hs => ?_
    have hnil := List.filter_eq_nil_iff.mp hhits.symm s hs
    simpa using hnil
  · have hmem : s ∈ db'.deviceSessions.filter p := by
      have : s ∈ [s] := List.mem_singleton.mpr rfl
      rwa [hhits] at this
    obtain ⟨hs, hps⟩ := List.mem_filter.mp hmem
    obtain rfl := hp s hps
    have hchange : deviceSessions.change [deviceSessions.lock s] f = Db.changeSession s.id f :=
      deviceSessions_change_singleton s.id f
    rw [List.map_cons, List.map_nil, hchange] at hsince
    exact hone s st' db' hsince hseen hs hps (hlocks (List.mem_singleton.mpr rfl))
  · simp at hle

end Rules

-- ============================================================================
-- Legitimate changes
-- ============================================================================

/-- A change that a transaction holding `held` may commit. -/
structure Allowed (R : Prop) (held : List Token) (a b : Db) : Prop where
  evolves : Evolves a b
  owns : ∀ l, same R l a b ∨ ∃ l' ∈ held, conflicts R l' l

namespace Allowed

variable {R : Prop} {held : List Token} {a b c : Db}

theorem refl : Allowed R held a a := ⟨.refl a, fun l => Or.inl (same_refl R l a)⟩

theorem trans (h1 : Allowed R held a b) (h2 : Allowed R held b c) : Allowed R held a c where
  evolves := h1.evolves.trans h2.evolves
  owns l := by
    rcases h1.owns l with hab | h
    · rcases h2.owns l with hbc | h
      · exact Or.inl (same_trans hab hbc)
      · exact Or.inr h
    · exact Or.inr h

theorem guar (h : Allowed R held a b) (hlegal : b.legal = true) : (protocol R).Guar held a b :=
  ⟨hlegal, h.evolves, h.owns⟩

theorem changeUser {id : Id} {f : User → User} (hf : ∀ u, (f u).id = u.id)
    (hlock : .user id ∈ held)
    (hmark : .locking id ∈ held ∨ ∀ u now, u.lockedAt now = false → (f u).lockedAt now = false) :
    Allowed R held a (a.changeUser id f) := by
  refine ⟨⟨SessionsEvolve.refl _, le_refl _⟩, owns_of (fun u => ?_) (fun s => ?_) (fun h => ?_)
    (fun u now => ?_)⟩
  · by_cases hu : u = id
    · exact Or.inl (hu ▸ hlock)
    · exact Or.inr (same_user_changeUser hf hu)
  · exact Or.inr fun x hx _ => hx
  · exact Or.inr fun hx => hx
  · by_cases hu : u = id
    · rcases hmark with hmark | hkeep
      · exact Or.inl (hu ▸ hmark)
      · refine Or.inr fun _ hunlocked x hx hid => ?_
        obtain ⟨y, hy, rfl⟩ := mem_changeUser.mp hx
        split at hid <;> rename_i hyid
        · rw [if_pos hyid]
          exact hkeep y now (hunlocked y hy (hyid.trans hu.symm))
        · exact absurd (hid.trans hu) hyid
    · refine Or.inr fun _ hunlocked x hx hid => ?_
      have hmem := (same_user_changeUser (R := R) hf hu x hid).mp hx
      exact hunlocked x hmem hid

theorem changeSession {id : Id} {g : DeviceSession → DeviceSession}
    (hg : ∀ s, (g s).origin = s.origin)
    (hactive : ∀ s ∈ a.deviceSessions, s.id = id → s.status = .active)
    (hlock : .deviceSession id ∈ held) : Allowed R held a (a.changeSession id g) := by
  refine ⟨⟨sessionsEvolve_changeSession hg hactive, le_refl _⟩,
    owns_of (fun u => ?_) (fun s => ?_) (fun h => ?_) (fun u now => ?_)⟩
  · exact Or.inr fun x _ => Iff.rfl
  · by_cases hs : s = id
    · exact Or.inl (hs ▸ hlock)
    · exact Or.inr (same_session_changeSession hs)
  · refine Or.inr fun hnone x hx => ?_
    obtain ⟨y, hy, rfl⟩ := mem_changeSession.mp hx
    have hhash : (if y.id = id then g y else y).refreshTokenHash = y.refreshTokenHash := by
      split
      · have horigin := hg y
        simp only [DeviceSession.origin, Prod.mk.injEq] at horigin
        exact horigin.2.2.2.2.2
      · rfl
    rw [hhash]
    exact hnone y hy
  · exact Or.inr fun _ h => h

theorem addDeviceSession {row : DeviceSession}
    (hlock : .refreshTokenHash row.refreshTokenHash ∈ held) :
    Allowed R held a (a.addDeviceSession row) := by
  refine ⟨⟨sessionsEvolve_add a row, le_refl _⟩, owns_of (fun u => ?_) (fun s => ?_)
    (fun h => ?_) (fun u now => ?_)⟩
  · exact Or.inr fun x _ => Iff.rfl
  · exact Or.inr fun x hx _ => List.mem_append_left _ hx
  · by_cases hh : h = row.refreshTokenHash
    · exact Or.inl (hh ▸ hlock)
    · exact Or.inr (same_refreshTokenHash_add hh)
  · exact Or.inr fun _ h => h

end Allowed

section Commits

variable {R : Prop} {Post : Result → List Db → Db → Db → Prop} {r : Result} {st : St Db Token}
  {db : Db}

/-- A transaction that has written `w` may commit it. -/
theorem commits_of {w : Db → Db} (hlog : ∀ d, st.log d = w d)
    (h : ∀ a, (protocol R).Rely st.held db a → Allowed R st.held a (w a) ∧ Post r st.seen a (w a)) :
    Commits (protocol R) Db.legal Post r st db := by
  intro a hrely hlegal
  rw [hlog] at hlegal ⊢
  obtain ⟨hallowed, hpost⟩ := h a hrely
  exact ⟨hallowed.guar hlegal, hpost⟩

/-- A transaction that has written nothing commits nothing. -/
theorem commits_nothing (hlog : ∀ d, st.log d = d)
    (h : ∀ a, (protocol R).Rely st.held db a → Post r st.seen a a) :
    Commits (protocol R) Db.legal Post r st db :=
  commits_of hlog fun a hrely => ⟨.refl, h a hrely⟩

end Commits

section Bodies

variable {config : Config} {crypto : Crypto} {R : Prop} {st : St Db Token} {db : Db}

-- ============================================================================
-- login
-- ============================================================================

/-- The effect of `login`. -/
theorem login_commits (dto : LoginDto) :
    wp (protocol R) .readCommitted (login crypto dto)
      (Commits (protocol R) Db.legal (Effect config crypto R (.login dto))) St.start db := by
  unfold login
  rw [wp_bind]
  refine wp_query (fun _ => rfl) fun st1 db1 _ hlog1 hseen1 => ?_
  rw [wp_bind]
  refine wp_require fun u hfound => ?_
  obtain ⟨hread, hactive⟩ := Option.filter_eq_some_iff.mp hfound
  rw [wp_bind]
  refine wp_guard fun _ => ?_
  refine commits_nothing hlog1 fun a _ => .signedIn ⟨db1, ?_, hread⟩ hactive
  rw [hseen1]
  simp

-- ============================================================================
-- pinLogin
-- ============================================================================

theorem activeUserWithPin_id {userId tenantId : Id} {h : String} {u : User}
    (hu : activeUserWithPin userId tenantId h u = true) : u.id = userId := by
  simp only [activeUserWithPin, activeUserOf, Bool.and_eq_true, beq_iff_eq] at hu
  exact hu.1.1.1

theorem lockedAt_eq_false {u : User} {now : Time}
    (h : (u.readLock.filter fun l => now < l) = none) : u.lockedAt now = false := by
  unfold User.lockedAt
  cases hl : u.readLock with
  | none => rfl
  | some l =>
      rw [hl] at h
      simpa [Option.filter] using h

/-- A recorded failure: the row it was computed from, locked. -/
structure Recording (config : Config) (userId tenantId : Id) (h : String) (failedAt : Time)
    (u : User) (held : List Token) (db : Db) : Prop where
  mem : u ∈ db.users
  current : activeUserWithPin userId tenantId h u = true
  unlocked : u.lockedAt failedAt = false
  lock : .user userId ∈ held
  mark : (nextFailure config u failedAt).lockedUntil.isSome → .locking userId ∈ held

/-- `recordFailedPin` writes nothing, or one failure computed from the committed row. -/
theorem wp_recordFailedPin {userId tenantId : Id} {h : String} {failedAt : Time}
    {Q : Option PinFailure → St Db Token → Db → Prop}
    (hquiet : ∀ f st' db', Since (protocol R) id st db st' db' → (∀ d, st'.log d = d) →
      (∃ tries, st'.seen.length = st.seen.length + (2 * tries + 1)) → Q f st' db')
    (hfail : ∀ u st' db', Since (protocol R)
        (Db.changeUser userId (User.failed (nextFailure config u failedAt))) st db st' db' →
      (∃ tries, st'.seen.length = st.seen.length + 2 * (tries + 1)) →
      Recording config userId tenantId h failedAt u st'.held db' →
      Q (some (nextFailure config u failedAt)) st' db')
    (hlog : ∀ d, st.log d = d) (hdb : db.legal = true) (attempts : Nat) :
    wp (protocol R) .readCommitted (recordFailedPin config userId tenantId h failedAt attempts)
      Q st db := by
  -- induction on the attempts left: one that breaks off has written nothing
  induction attempts generalizing st db with
  | zero => trivial
  | succ n ih =>
      unfold recordFailedPin
      rw [wp_bind]
      refine wp_query hlog fun st1 db1 hsince1 hlog1 hseen1 => ?_
      have hread : st1.seen.length = st.seen.length + 1 := by
        rw [hseen1, List.length_append, List.length_singleton]
      generalize hshown : db1.users.filter (activeUserWithPin userId tenantId h) = shown
      have hle : shown.length ≤ 1 := hshown ▸ filter_length_le_one (legal_users hsince1.inv)
        fun u hu => activeUserWithPin_id hu
      rcases shown with _ | ⟨u, _ | ⟨v, rest⟩⟩
      · exact hquiet _ st1 db1 hsince1 hlog1 ⟨0, hread⟩
      · have hmem : u ∈ db1.users.filter (activeUserWithPin userId tenantId h) := by
          rw [hshown]
          exact List.mem_singleton.mpr rfl
        obtain ⟨hu, hcurrent⟩ := List.mem_filter.mp hmem
        obtain rfl := activeUserWithPin_id hcurrent
        simp only [List.head?_cons]
        cases hlocked : u.readLock.filter fun l => failedAt < l with
        | some l => exact hquiet _ st1 db1 hsince1 hlog1 ⟨0, hread⟩
        | none =>
            simp only
            rw [wp_bind]
            refine wp_guard fun _ => ?_
            rw [wp_bind]
            have hupdated : ∀ {st2 : St Db Token} {db2 : Db}, st2.seen = st1.seen ++ [db2] →
                st2.seen.length = st.seen.length + 2 := by
              intro st2 db2 hseen2
              rw [hseen2, List.length_append, List.length_singleton, hread]
            refine RowTable.wp_updateShown (fun st2 db2 hsince2 hseen2 => ?_)
              (fun st2 db2 hshown2 hsince2 hseen2 hlocks hmarks => ?_)
            · have hsince := hsince1.trans hsince2
              have htwo := hupdated hseen2
              refine ih ?_ ?_ (hsince2.log_id hlog1) hsince2.inv
              · rintro f st' db' hsince' hlog' ⟨tries, hseen⟩
                exact hquiet f st' db' (hsince.trans hsince') hlog' ⟨tries + 1, by omega⟩
              · rintro u st' db' hsince' ⟨tries, hseen⟩ hrec
                exact hfail u st' db' (hsince.trans hsince') ⟨tries + 1, by omega⟩ hrec
            · have hchange : users.change ([u].map users.lock)
                  (User.failed (nextFailure config u failedAt)) =
                    Db.changeUser u.id (User.failed (nextFailure config u failedAt)) :=
                users_change_singleton u.id _
              have hsince2' : Since (protocol R)
                  (Db.changeUser u.id (User.failed (nextFailure config u failedAt)))
                  st1 db1 st2 db2 := hchange ▸ hsince2
              refine hfail u st2 db2 (hsince1.trans hsince2') ⟨0, hupdated hseen2⟩ ⟨?_, hcurrent,
                lockedAt_eq_false hlocked, hlocks (List.mem_singleton.mpr rfl), ?_⟩
              · have hrow := hshown2 u (List.mem_singleton.mpr rfl)
                rwa [hlog1] at hrow
              · intro hsome
                refine hmarks ?_
                simp [hsome]
      · simp at hle

/-- A session about to be committed by a right guess. -/
structure Creating (crypto : Crypto) (user : User) (h token : String) (u : User)
    (held : List Token) (db : Db) : Prop where
  mem : u ∈ db.users
  current : activeUserWithPin user.id user.tenantId h u = true
  lock : .user user.id ∈ held
  entry : .refreshTokenHash (crypto.hashRefreshToken token) ∈ held
  unused : ∀ s ∈ db.deviceSessions, s.refreshTokenHash ≠ crypto.hashRefreshToken token

theorem wp_createPinSession {user : User} {h : String} {dto : PinLoginDto} {now : Time}
    {token : String} {Q : Bool → St Db Token → Db → Prop}
    (hfalse : ∀ st' db', Since (protocol R) id st db st' db' → (∀ d, st'.log d = d) →
      Q false st' db')
    (htrue : ∀ u id st' db', Since (protocol R)
        (Db.addDeviceSession (newDeviceSession config crypto user dto now token id) ∘
          Db.changeUser user.id User.cleared) st db st' db' →
      Creating crypto user h token u st'.held db' → Q true st' db')
    (hlog : ∀ d, st.log d = d) :
    wp (protocol R) .readCommitted (createPinSession config crypto user h dto now token)
      Q st db := by
  unfold createPinSession
  rw [wp_bind]
  refine wp_query hlog fun st1 db1 hsince1 hlog1 _ => ?_
  split
  · exact hfalse st1 db1 hsince1 hlog1
  · rw [wp_bind]
    refine wp_updateUser user.id hlog1 (fun u hu => activeUserWithPin_id hu)
      (fun st2 db2 hsince2 hlog2 _ _ => ?_) (fun u st2 db2 hsince2 _ hu hp hlock => ?_)
    · exact hfalse st2 db2 (hsince1.trans hsince2) hlog2
    · simp only [ne_eq, not_true_eq_false, if_false]
      rw [wp_bind]
      refine wp_createDeviceSession (crypto.hashRefreshToken token) (fun _ => rfl)
        fun id st3 db3 hsince3 _ hentry hunused => ?_
      refine htrue u id st3 db3 ((hsince1.trans hsince2).trans hsince3)
        ⟨?_, hp, hsince3.held hlock, hentry, ?_⟩
      · exact (hsince3.same hlock u (activeUserWithPin_id hp)).mpr hu
      · intro s hs
        refine hunused s ?_
        rw [hsince2.log, hlog1]
        exact hs

theorem head?_of_prefix {α : Type} {x : α} {xs : List α} (h : [x] <+: xs) :
    xs.head? = some x := by
  obtain ⟨t, rfl⟩ := h
  rfl

theorem findPinUser_id {userId tenantId : Id} {db : Db} {u : User}
    (h : findPinUser userId tenantId db = some u) : u ∈ db.users ∧ u.id = userId := by
  have hmem := List.mem_of_find?_eq_some h
  have hp := List.find?_some h
  simp only [activeUserOf, Bool.and_eq_true, beq_iff_eq] at hp
  exact ⟨hmem, hp.1.1.1⟩

theorem Guess.recordsGuess_eq {dto : PinLoginDto} {now : Time} {seen : List Db} {u0 : User}
    {h : String} (hguess : Guess dto now seen u0 h) :
    recordsGuess crypto dto seen =
      (!crypto.compare dto.pin h && 3 ≤ seen.length && seen.length % 2 == 1) := by
  obtain ⟨d, hd, hfound⟩ := hguess.read
  simp [recordsGuess, hd, hfound, hguess.pin]

/-- The effect of `pinLogin`. -/
theorem pinLogin_commits (dto : PinLoginDto) (now : Time) (token : String) :
    wp (protocol R) .readCommitted (pinLogin config crypto dto now token)
      (Commits (protocol R) Db.legal (Effect config crypto R (.pinLogin dto now token)))
      St.start db := by
  unfold pinLogin
  rw [wp_bind]
  refine wp_queryMarked (fun _ => rfl) fun st1 db1 hsince1 hlog1 hseen1 hmarks => ?_
  rw [wp_bind]
  refine wp_require fun u0 hfound => ?_
  rw [wp_bind]
  refine wp_require fun h hpin => ?_
  have hdb1 := hsince1.inv
  obtain ⟨hu0, hu0id⟩ := findPinUser_id hfound
  split
  · trivial
  · rename_i hunlocked
    have hguess : ∀ {st' : St Db Token}, st1.seen <+: st'.seen → Guess dto now st'.seen u0 h := by
      intro st' hpre
      refine ⟨⟨db1, head?_of_prefix ?_, hfound⟩, hpin, lockedAt_eq_false hunlocked⟩
      rwa [hseen1] at hpre
    have hread : st1.seen.length = 1 := by
      rw [hseen1]
      rfl
    split
    · rename_i hright
      rw [wp_bind]
      -- the mark keeps the user unlocked, where marks are respected
      have hmark : .admitted u0.id now ∈ st1.held := by
        refine hmarks ?_
        rw [hfound]
        simp [admittedMarks, lockedAt_eq_false hunlocked, hpin, hright]
      have hunlocked1 : db1.unlocked u0.id now := by
        intro u hu hid
        rw [user_unique hdb1 hu hu0 hid]
        exact lockedAt_eq_false hunlocked
      refine wp_createPinSession (fun st2 db2 hsince2 hlog2 => ?_)
        (fun u id st2 db2 hsince2 hcreating => ?_) hlog1
      · refine commits_nothing hlog2 fun _ _ => .loginRefused ?_
        rw [(hguess hsince2.seen).recordsGuess_eq, hright]
        rfl
      · have hlog2 : ∀ d, st2.log d = (d.changeUser u0.id User.cleared).addDeviceSession
            (newDeviceSession config crypto u0 dto now token id) := by
          intro d
          rw [hsince2.log, hlog1]
          rfl
        refine commits_of hlog2 fun a hrely => ⟨?_, ?_⟩
        · have hcleared : Allowed R st2.held a (a.changeUser u0.id User.cleared) :=
            .changeUser (fun _ => rfl) hcreating.lock (Or.inr fun _ _ _ => rfl)
          exact hcleared.trans (.addDeviceSession hcreating.entry)
        · refine .login (hguess hsince2.seen) hright ?_ hcreating.current ?_ ?_
          · exact (hrely.same _ hcreating.lock u (activeUserWithPin_id hcreating.current)).mpr
              hcreating.mem
          · intro hR
            exact (hrely.same _ (hsince2.held hmark)) hR (hsince2.same hmark hR hunlocked1)
          · exact hrely.same _ hcreating.entry hcreating.unused
    · rename_i hwrong
      rw [wp_bind]
      refine wp_recordFailedPin (fun f st2 db2 hsince2 hlog2 hseen2 => ?_)
        (fun u st2 db2 hsince2 hseen2 hrec => ?_) hlog1 hdb1 3
      · obtain ⟨tries, hlength⟩ := hseen2
        have hunrecorded : recordsGuess crypto dto st2.seen = false := by
          rw [(hguess hsince2.seen).recordsGuess_eq, hlength, hread]
          simp
          omega
        cases f.bind PinFailure.lockedUntil with
        | none => exact commits_nothing hlog2 fun _ _ => .loginRefused hunrecorded
        | some l => exact commits_nothing hlog2 fun _ _ => .loginRefused hunrecorded
      · have hlog2 : ∀ d, st2.log d =
            d.changeUser u0.id (User.failed (nextFailure config u now)) := by
          intro d
          rw [hsince2.log, hlog1]
        have hanswer : Commits (protocol R) Db.legal
            (Effect config crypto R (.pinLogin dto now token))
            (.error (failureAnswer (nextFailure config u now) now)) st2 db2 := by
          refine commits_of hlog2 fun a hrely => ⟨?_, ?_⟩
          · refine .changeUser (fun _ => rfl) hrec.lock ?_
            by_cases hsome : (nextFailure config u now).lockedUntil.isSome = true
            · exact Or.inl (hrec.mark hsome)
            · refine Or.inr fun _ t _ => ?_
              rw [Bool.not_eq_true, Option.isSome_eq_false_iff, Option.isNone_iff_eq_none] at hsome
              simp [User.lockedAt, User.readLock, User.failed, hsome]
          · refine .failed (hguess hsince2.seen) ?_ ?_ hrec.current hrec.unlocked ?_
            · simpa using hwrong
            · exact (hrely.same _ hrec.lock u (activeUserWithPin_id hrec.current)).mpr hrec.mem
            · obtain ⟨tries, hlength⟩ := hseen2
              rw [(hguess hsince2.seen).recordsGuess_eq, hlength, hread]
              simp [hwrong]
              omega
        unfold failureAnswer at hanswer
        simp only [Option.bind_some]
        cases hl : (nextFailure config u now).lockedUntil with
        | none =>
            rw [hl] at hanswer
            exact hanswer
        | some l =>
            rw [hl] at hanswer
            exact hanswer

-- ============================================================================
-- refresh and logout
-- ============================================================================

theorem sessionOfToken_some {hash : String} {db : Db} {session : DeviceSession}
    (h : sessionOfToken hash db = some session) :
    session ∈ db.deviceSessions ∧ session.refreshTokenHash = hash :=
  ⟨List.mem_of_find?_eq_some h, by simpa using List.find?_some h⟩

/-- A session read earlier is still there, with what is fixed about it. -/
theorem session_later {w : Db → Db} {st' : St Db Token} {db' : Db} {s : DeviceSession}
    (hsince : Since (protocol R) w st db st' db') (hs : s ∈ db.deviceSessions) :
    ∃ y ∈ db'.deviceSessions, y.origin = s.origin ∧ (s.status = .revoked → y = s) :=
  hsince.rely.evolves.sessions s hs

/-- The reads of `findSession`; when the last one is answered, the session is still
    there. -/
theorem wp_findSession {hash : String} {Q : Option SessionRecord → St Db Token → Db → Prop}
    (hlog : ∀ d, st.log d = d)
    (hnone : ∀ d st' db', Since (protocol R) id st db st' db' → (∀ d, st'.log d = d) →
      st'.seen = st.seen ++ [d] → sessionOfToken hash d = none → Q none st' db')
    (hsome : ∀ record d y st' db', Since (protocol R) id st db st' db' → (∀ d, st'.log d = d) →
      (∃ reads, st'.seen = st.seen ++ d :: reads ∧ RecordRead hash record (d :: reads)) →
      d.legal = true → sessionOfToken hash d = some record.session →
      y ∈ db'.deviceSessions → y.origin = record.session.origin →
      (record.session.status = .revoked → y = record.session) → Q (some record) st' db') :
    wp (protocol R) .readCommitted (findSession hash) Q st db := by
  unfold findSession
  rw [wp_bind]
  refine wp_query hlog fun st1 db1 hsince1 hlog1 hseen1 => ?_
  split
  · rename_i hmissing
    exact hnone db1 st1 db1 hsince1 hlog1 hseen1 hmissing
  · rename_i session hsession
    rw [wp_bind]
    refine wp_query hlog1 fun st2 db2 hsince2 hlog2 hseen2 => ?_
    rw [wp_bind]
    refine wp_require fun user huser => ?_
    rw [wp_bind]
    refine wp_query hlog2 fun st3 db3 hsince3 hlog3 hseen3 => ?_
    rw [wp_bind]
    refine wp_require fun tenant htenant => ?_
    have hsince : Since (protocol R) id st1 db1 st3 db3 := hsince2.trans hsince3
    obtain ⟨y, hy, horigin, hsame⟩ := session_later hsince (sessionOfToken_some hsession).1
    refine hsome ⟨session, user, tenant⟩ db1 y st3 db3 (hsince1.trans hsince) hlog3
      ⟨[db2, db3], ?_, db1, db2, db3, List.prefix_rfl, hsession, huser, htenant⟩ hsince1.inv
      hsession hy horigin hsame
    rw [hseen3, hseen2, hseen1, List.append_assoc, List.append_assoc]
    rfl

theorem activeSessionOf_iff {id tenantId : Id} {hash : String} {s : DeviceSession} :
    activeSessionOf id tenantId hash s = true ↔
      s.id = id ∧ s.tenantId = tenantId ∧ s.refreshTokenHash = hash ∧ s.status = .active := by
  simp [activeSessionOf, and_assoc]

theorem origin_id {x y : DeviceSession} (h : x.origin = y.origin) : x.id = y.id :=
  congrArg Prod.fst h

theorem origin_token {x y : DeviceSession} (h : x.origin = y.origin) :
    x.refreshTokenHash = y.refreshTokenHash := by
  simp only [DeviceSession.origin, Prod.mk.injEq] at h
  exact h.2.2.2.2.2

/-- An UPDATE of an ACTIVE session that misses it has found it REVOKED. -/
theorem revoked_of_miss {session y : DeviceSession} {hash : String}
    (htoken : session.refreshTokenHash = hash) (horigin : y.origin = session.origin)
    (hmiss : activeSessionOf session.id session.tenantId hash y = false) : y.status = .revoked := by
  cases hstatus : y.status with
  | revoked => rfl
  | active =>
      have horigin' := horigin
      simp only [DeviceSession.origin, Prod.mk.injEq] at horigin'
      rw [activeSessionOf_iff.mpr ⟨horigin'.1, horigin'.2.1,
        (origin_token horigin).trans htoken, hstatus⟩] at hmiss
      cases hmiss

/-- A session that the first statement found and that is REVOKED later on. -/
theorem revokedSince_of {hash : String} {seen : List Db} {d b a : Db} {session y : DeviceSession}
    (hd : seen.head? = some d) (hlegal : d.legal = true) (hsession : session ∈ d.deviceSessions)
    (htoken : session.refreshTokenHash = hash) (hy : y ∈ b.deviceSessions)
    (horigin : y.origin = session.origin) (hrevoked : y.status = .revoked) (hevolves : Evolves b a) :
    RevokedSince hash seen a := by
  refine ⟨d, hd, fun x hx hhash => ?_⟩
  obtain rfl := token_unique hlegal hx hsession (hhash.trans htoken.symm)
  obtain ⟨z, hz, hzo, hsame⟩ := hevolves.sessions y hy
  exact ⟨z, hz, hzo.trans horigin, by rw [hsame hrevoked]; exact hrevoked⟩

/-- A change of one ACTIVE session whose row is locked. -/
theorem commits_changeSession {Post : Result → List Db → Db → Db → Prop} {r : Result}
    {g : DeviceSession → DeviceSession} {x : DeviceSession}
    (hlog : ∀ d, st.log d = d.changeSession x.id g) (hg : ∀ s, (g s).origin = s.origin)
    (hx : x ∈ db.deviceSessions) (hactive : x.status = .active)
    (hlock : .deviceSession x.id ∈ st.held)
    (h : ∀ a, x ∈ a.deviceSessions → Post r st.seen a (a.changeSession x.id g)) :
    Commits (protocol R) Db.legal Post r st db := by
  refine commits_of hlog fun a hrely => ?_
  have hxa : x ∈ a.deviceSessions := hrely.same _ hlock x hx rfl
  refine ⟨.changeSession hg (fun s hs hid => ?_) hlock, h a hxa⟩
  rw [deviceSession_unique hrely.inv hs hxa hid]
  exact hactive

/-- The effect of `refresh`. -/
theorem refresh_commits (dto : RefreshTokenDto) (now : Time) (next : String) :
    wp (protocol R) .readCommitted (refresh config crypto dto now next)
      (Commits (protocol R) Db.legal (Effect config crypto R (.refresh dto now next)))
      St.start db := by
  unfold refresh
  rw [wp_bind]
  refine wp_findSession (fun _ => rfl) (fun d st1 db1 hsince1 hlog1 hseen1 hmissing => ?_)
    (fun record d y st1 db1 hsince1 hlog1 hread hd hsession hy hyo hsame => ?_)
  · refine commits_nothing hlog1 fun _ _ => .refreshRefused ⟨d, by rw [hseen1]; rfl, ?_⟩
    intro x hx hhash
    have hno := List.find?_eq_none.mp hmissing x hx
    simp [hhash] at hno
  · dsimp only
    obtain ⟨hmem, htoken⟩ := sessionOfToken_some hsession
    -- what is read first stays at the head of what is read
    have hhead : ∀ {st' : St Db Token}, st1.seen <+: st'.seen → st'.seen.head? = some d := by
      intro st' hpre
      obtain ⟨reads, hreads, -⟩ := hread
      obtain ⟨more, hmore⟩ := hpre
      rw [← hmore, hreads]
      rfl
    -- an UPDATE that misses the session has found it REVOKED
    have hmissed : ∀ {st2 : St Db Token} {db2 a : Db}, Since (protocol R) id st1 db1 st2 db2 →
        (∀ s ∈ db2.deviceSessions, s.userId = record.session.userId →
          activeSessionOf record.session.id record.session.tenantId
            (crypto.hashRefreshToken dto.refreshToken) s = false) → Evolves db2 a →
        RevokedSince (crypto.hashRefreshToken dto.refreshToken) st2.seen a := by
      intro st2 db2 a hsince2 hmiss hevolves
      obtain ⟨z, hz, hzo, -⟩ := session_later hsince2 hy
      have hzr : z.origin = record.session.origin := hzo.trans hyo
      have huser : z.userId = record.session.userId := by
        have horigin := hzr
        simp only [DeviceSession.origin, Prod.mk.injEq] at horigin
        exact horigin.2.2.1
      exact revokedSince_of (hhead hsince2.seen) hd hmem htoken hz hzr
        (revoked_of_miss htoken hzr (hmiss z hz huser)) hevolves
    split
    · split
      · rw [wp_bind]
        refine wp_updateSession hlog1 (fun s hs => (activeSessionOf_iff.mp hs).1)
          (fun st2 db2 hsince2 hlog2 _ hnone => ?_) (fun x st2 db2 hsince2 _ hx hp hlock => ?_)
        · exact commits_nothing hlog2 fun a hrely =>
            .refreshRefused (hmissed hsince2 (fun s hs _ => hnone s hs) hrely.evolves)
        · have hseen2 := hsince2.seen
          obtain ⟨hid, -, hhash, hactive⟩ := activeSessionOf_iff.mp hp
          rw [← hid] at hsince2 hlock
          refine commits_changeSession (g := DeviceSession.expired now)
            (fun d => by rw [hsince2.log, hlog1]; rfl) (fun _ => rfl) hx hactive hlock
            fun a hxa => .expired hxa hactive hhash ⟨d, hhead hseen2, _, hmem, htoken⟩
      · rename_i hstatus
        have hrevoked : record.session.status = .revoked := by
          cases hcase : record.session.status with
          | revoked => rfl
          | active => exact absurd (beq_iff_eq.mpr hcase) hstatus
        obtain rfl := hsame hrevoked
        exact commits_nothing hlog1 fun a hrely => .refreshRefused
          (revokedSince_of (hhead List.prefix_rfl) hd hmem htoken hy rfl hrevoked hrely.evolves)
    · rename_i husable
      rw [wp_bind]
      refine wp_updateSession hlog1
        (fun s hs => (activeSessionOf_iff.mp ((Bool.and_eq_true _ _ ▸ hs)).1).1)
        (fun st2 db2 hsince2 hlog2 _ hnone => ?_) (fun x st2 db2 hsince2 _ hx hp hlock => ?_)
      · refine commits_nothing hlog2 fun a hrely =>
          .refreshRefused (hmissed hsince2 (fun s hs huser => ?_) hrely.evolves)
        have hmiss := hnone s hs
        rwa [huser, beq_self_eq_true, Bool.and_true] at hmiss
      · simp only [ne_eq, not_true_eq_false, if_false]
        rw [Bool.and_eq_true] at hp
        obtain ⟨hid, -, hhash, hactive⟩ := activeSessionOf_iff.mp hp.1
        rw [← hid] at hsince2 hlock
        -- the row that is rotated is the session that was read
        have horigin : x.origin = record.session.origin := by
          obtain ⟨z, hz, hzo, -⟩ := session_later hsince2 hy
          have hzx : z = x := deviceSession_unique hsince2.inv hz hx
            ((origin_id (hzo.trans hyo)).trans hid.symm)
          rw [← hzx]
          exact hzo.trans hyo
        rw [wp_bind]
        refine wp_createDeviceSession (crypto.hashRefreshToken next) (fun _ => rfl)
          fun id st3 db3 hsince3 _ hentry hunused => ?_
        have hlog3 : ∀ d, st3.log d = (d.changeSession x.id (DeviceSession.rotated now)).addDeviceSession
            (rotatedSession config crypto record.session now next id) := by
          intro d
          rw [hsince3.log, hsince2.log, hlog1]
          rfl
        have hlock3 : .deviceSession x.id ∈ st3.held := hsince3.held hlock
        have hx3 : x ∈ db3.deviceSessions := hsince3.same hlock x hx rfl
        have hunused3 : ∀ s ∈ db3.deviceSessions,
            s.refreshTokenHash ≠ crypto.hashRefreshToken next := by
          intro s hs
          have hmem : (if s.id = x.id then DeviceSession.rotated now s else s) ∈
              (st2.log db3).deviceSessions := by
            rw [hsince2.log, hlog1]
            exact mem_changeSession.mpr ⟨s, hs, rfl⟩
          have hne := hunused _ hmem
          split at hne
          · exact hne
          · exact hne
        refine commits_of hlog3 fun a hrely => ?_
        have hxa : x ∈ a.deviceSessions := hrely.same _ hlock3 x hx3 rfl
        have hrotated : Allowed R st3.held a (a.changeSession x.id (DeviceSession.rotated now)) := by
          refine .changeSession (fun _ => rfl) (fun s hs hid' => ?_) hlock3
          rw [deviceSession_unique hrely.inv hs hxa hid']
          exact hactive
        have hread3 : RecordRead (crypto.hashRefreshToken dto.refreshToken) record st3.seen := by
          obtain ⟨reads, hreads, s1, s2, s3, hprefix, hrows⟩ := hread
          have hseen : d :: reads <+: st3.seen := by
            have hlater := (hsince2.trans hsince3).seen
            rwa [hreads] at hlater
          exact ⟨s1, s2, s3, hprefix.trans hseen, hrows⟩
        refine ⟨hrotated.trans (.addDeviceSession hentry), .rotated ⟨hread3, ?_, hxa,
          horigin, hactive, hhash⟩ (hrely.same _ hentry hunused3)⟩
        simpa using husable

/-- The effect of `logout`. -/
theorem logout_commits (dto : RefreshTokenDto) (now : Time) :
    wp (protocol R) .readCommitted (logout crypto dto now)
      (Commits (protocol R) Db.legal (Effect config crypto R (.logout dto now)))
      St.start db := by
  unfold logout
  rw [wp_bind]
  refine wp_query (fun _ => rfl) fun st1 db1 hsince1 hlog1 hseen1 => ?_
  split
  · rename_i hnone
    refine commits_nothing hlog1 fun a _ => .loggedOutBefore ⟨db1, by rw [hseen1]; rfl, ?_⟩
    intro x hx hhash
    have hno := List.find?_eq_none.mp hnone x hx
    simp [hhash] at hno
  · rename_i session hfound
    have hsession := List.mem_of_find?_eq_some hfound
    have htoken : session.refreshTokenHash = crypto.hashRefreshToken dto.refreshToken := by
      simpa using List.find?_some hfound
    rw [wp_bind]
    refine wp_updateSession hlog1 (fun s hs => (activeSessionOf_iff.mp hs).1)
      (fun st2 db2 hsince2 hlog2 hseen2 hnone => ?_)
      (fun x st2 db2 hsince2 hseen2 hx hp hlock => ?_)
    · -- the session is not ACTIVE any more, so it is REVOKED and stays so
      obtain ⟨y, hy, horigin, -⟩ := session_later hsince2 hsession
      have hhead : st2.seen.head? = some db1 := by
        rw [hseen2, hseen1]
        rfl
      exact commits_nothing hlog2 fun a hrely => .loggedOutBefore
        (revokedSince_of hhead hsince1.inv hsession htoken hy horigin
          (revoked_of_miss htoken horigin (hnone y hy)) hrely.evolves)
    · have hhead : st2.seen.head? = some db1 := by
        rw [hseen2, hseen1]
        rfl
      obtain ⟨hid, -, hhash, hactive⟩ := activeSessionOf_iff.mp hp
      rw [← hid] at hsince2 hlock
      exact commits_changeSession (g := revoke now) (fun d => by rw [hsince2.log, hlog1])
        (fun _ => rfl) hx hactive hlock fun a hxa => .loggedOut hxa hactive hhash
          ⟨db1, hhead, _, hsession, htoken⟩

-- ============================================================================
-- setPin and the administration
-- ============================================================================

/-- A change of a user's row that keeps or clears the lock. -/
theorem commits_changeUser {Post : Result → List Db → Db → Db → Prop} {r : Result}
    {f : User → User} {id : Id} (hlog : ∀ d, st.log d = d.changeUser id f)
    (hf : ∀ u, (f u).id = u.id) (hlock : .user id ∈ st.held)
    (hmark : ∀ u now, u.lockedAt now = false → (f u).lockedAt now = false)
    (h : ∀ a, (protocol R).Rely st.held db a → Post r st.seen a (a.changeUser id f)) :
    Commits (protocol R) Db.legal Post r st db :=
  commits_of hlog fun a hrely => ⟨.changeUser hf hlock (Or.inr hmark), h a hrely⟩

/-- The effect of `setPin`. -/
theorem setPin_commits (user : JwtPayload) (target : String) (dto : SetUserPinDto)
    (pinHash : String) (now : Time) :
    wp (protocol R) .readCommitted (setPin user target pinHash now)
      (Commits (protocol R) Db.legal (Effect config crypto R (.setPin user target dto pinHash now)))
      St.start db := by
  unfold setPin
  rw [wp_bind]
  refine wp_query (fun _ => rfl) fun st1 db1 hsince1 hlog1 _ => ?_
  rw [wp_bind]
  refine wp_require fun u0 hfound => ?_
  have hid0 : u0.id = toLowerCase target := by
    have hp := List.find?_some hfound
    simp only [activeUserOf, Bool.and_eq_true, beq_iff_eq] at hp
    exact hp.1.1
  rw [hid0, wp_bind]
  refine wp_updateUser (toLowerCase target) hlog1 (fun u hu => ?_)
    (fun st2 db2 _ hlog2 _ _ => ?_) (fun u st2 db2 hsince2 _ hu hp hlock => ?_)
  · simp only [activeUserOf, Bool.and_eq_true, beq_iff_eq] at hu
    exact hu.1.1
  · exact commits_nothing hlog2 fun _ _ => .pinNotSet
  · have hid : u.id = toLowerCase target := by
      simp only [activeUserOf, Bool.and_eq_true, beq_iff_eq] at hp
      exact hp.1.1
    refine commits_changeUser (f := User.withPin pinHash now)
      (fun d => by rw [hsince2.log, hlog1]; rfl) (fun _ => rfl) hlock (fun _ _ _ => rfl)
      fun a hrely => .pinSet ?_ hp
    exact (hrely.same _ hlock u hid).mpr hu

/-- The effect of an activation or deactivation of a user. -/
theorem setUserActive_commits (id : Id) (isActive : Bool) :
    wp (protocol R) .readCommitted (Call.body config crypto (.setUserActive id isActive))
      (Commits (protocol R) Db.legal (Effect config crypto R (.setUserActive id isActive)))
      St.start db := by
  unfold Call.body
  rw [wp_bind]
  refine wp_updateUser id (fun _ => rfl) (fun u hu => beq_iff_eq.mp hu)
    (fun st1 db1 hsince1 hlog1 _ hnone => ?_) (fun u st1 db1 hsince1 _ _ _ hlock => ?_)
  · exact commits_nothing hlog1 fun _ _ => .userNotFound
  · exact commits_changeUser (f := fun u => { u with isActive }) (fun d => hsince1.log d)
      (fun _ => rfl) hlock (fun _ _ h => h) fun _ _ => .userActive

/-- A statement that writes without a lock. -/
theorem write_commits {w : Db → Db} {r : Result} {Post : Result → List Db → Db → Db → Prop}
    (hallowed : ∀ held a, Allowed R held a (w a)) (h : ∀ seen a, Post r seen a (w a)) :
    wp (protocol R) .readCommitted (Prog.write (fun _ => w) fun _ => r : Body Result)
      (Commits (protocol R) Db.legal Post) St.start db := by
  refine wp_stmt_readCommitted fun st1 db1 _ hsince1 _ _ => ?_
  exact commits_of (fun d => hsince1.log d) fun a _ => ⟨hallowed _ a, h _ a⟩

/-- **Every body is correct**: it commits its effect, or nothing. -/
theorem body_commits (c : Call) :
    wp (protocol R) .readCommitted (Call.body config crypto c)
      (Commits (protocol R) Db.legal (Effect config crypto R c)) St.start db := by
  cases c with
  | login dto => exact login_commits dto
  | pinLogin dto now token => exact pinLogin_commits dto now token
  | refresh dto now next => exact refresh_commits dto now next
  | logout dto now => exact logout_commits dto now
  | setPin user target dto pinHash now => exact setPin_commits user target dto pinHash now
  | setUserActive id isActive => exact setUserActive_commits id isActive
  | setTenantActive id isActive =>
      refine write_commits (fun held a => ⟨⟨.refl _, le_refl _⟩, fun l => Or.inl ?_⟩)
        fun _ _ => .tenantActive
      cases l <;> simp +contextual [same, Db.unlocked]
  | tick clock =>
      refine write_commits (fun held a => ⟨⟨.refl _, le_max_left _ _⟩, fun l => Or.inl ?_⟩)
        fun _ _ => .tick
      cases l <;> simp +contextual [same, Db.unlocked]

end Bodies

end Kasir.Auth
