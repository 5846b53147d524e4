/-
  Kasir.Auth.Ownership

  What the transactions of authentication may assume of each other, and what each
  call may do to the tables.
-/

import Kasir.Auth.Service
import Kasir.Txn.Soundness

namespace Kasir.Auth

open Txn Js

-- ============================================================================
-- The schema's promises
-- ============================================================================

section Legal

variable {db : Db} (h : db.legal = true)
include h

theorem legal_users : (db.users.map User.id).Nodup := by
  simp only [Db.legal, Bool.and_eq_true] at h
  exact of_decide_eq_true h.1.1.1.2

theorem legal_deviceSessions : (db.deviceSessions.map DeviceSession.id).Nodup := by
  simp only [Db.legal, Bool.and_eq_true] at h
  exact of_decide_eq_true h.1.1.2

theorem legal_refreshTokenHash : (db.deviceSessions.map DeviceSession.refreshTokenHash).Nodup := by
  simp only [Db.legal, Bool.and_eq_true] at h
  exact of_decide_eq_true h.1.2

theorem legal_revocationState {s : DeviceSession} (hs : s ∈ db.deviceSessions) :
    s.revocationState = true := by
  simp only [Db.legal, Bool.and_eq_true] at h
  have hall := List.all_eq_true.mp h.2 s hs
  exact (Bool.and_eq_true _ _ ▸ hall).1

/-- Users with the same id are the same row. -/
theorem user_unique {x y : User} (hx : x ∈ db.users) (hy : y ∈ db.users) (hid : x.id = y.id) :
    x = y :=
  List.inj_on_of_nodup_map (legal_users h) hx hy hid

theorem deviceSession_unique {x y : DeviceSession} (hx : x ∈ db.deviceSessions)
    (hy : y ∈ db.deviceSessions) (hid : x.id = y.id) : x = y :=
  List.inj_on_of_nodup_map (legal_deviceSessions h) hx hy hid

/-- A token belongs to one session. -/
theorem token_unique {x y : DeviceSession} (hx : x ∈ db.deviceSessions)
    (hy : y ∈ db.deviceSessions) (hhash : x.refreshTokenHash = y.refreshTokenHash) : x = y :=
  List.inj_on_of_nodup_map (legal_refreshTokenHash h) hx hy hhash

end Legal

/-- Rows that satisfy a condition which fixes a key are at most one. -/
theorem filter_length_le_one {α κ : Type} {key : α → κ} {rows : List α} {p : α → Bool} {k : κ}
    (hnodup : (rows.map key).Nodup) (hp : ∀ x, p x = true → key x = k) :
    (rows.filter p).length ≤ 1 := by
  rcases hrows : rows.filter p with _ | ⟨x, _ | ⟨y, rest⟩⟩
  · simp
  · simp
  · exfalso
    have hx : x ∈ rows.filter p := by rw [hrows]; simp
    have hy : y ∈ rows.filter p := by rw [hrows]; simp
    have hxy : x = y := List.inj_on_of_nodup_map hnodup (List.mem_of_mem_filter hx)
      (List.mem_of_mem_filter hy)
      ((hp x (List.mem_filter.mp hx).2).trans (hp y (List.mem_filter.mp hy).2).symm)
    have hsub : (rows.filter p).Nodup := (hnodup.of_map).filter p
    rw [hrows, hxy] at hsub
    simp at hsub

-- ============================================================================
-- Evolution
-- ============================================================================

/-- What is fixed when a session is created. -/
def DeviceSession.origin (s : DeviceSession) : Id × Id × Id × Id × Option String × String :=
  (s.id, s.tenantId, s.userId, s.deviceId, s.deviceName, s.refreshTokenHash)

/-- Sessions stay, and a REVOKED one never changes. -/
def SessionsEvolve (a b : List DeviceSession) : Prop :=
  ∀ x ∈ a, ∃ y ∈ b, y.origin = x.origin ∧ (x.status = .revoked → y = x)

theorem SessionsEvolve.refl (a : List DeviceSession) : SessionsEvolve a a :=
  fun x hx => ⟨x, hx, rfl, fun _ => rfl⟩

theorem SessionsEvolve.trans {a b c : List DeviceSession} (h1 : SessionsEvolve a b)
    (h2 : SessionsEvolve b c) : SessionsEvolve a c := by
  intro x hx
  obtain ⟨y, hy, horigin1, hrevoked1⟩ := h1 x hx
  obtain ⟨z, hz, horigin2, hrevoked2⟩ := h2 y hy
  refine ⟨z, hz, horigin2.trans horigin1, fun h => ?_⟩
  have hyx := hrevoked1 h
  rw [hrevoked2 (hyx ▸ h), hyx]

/-- How the database may change between two statements of a transaction. -/
structure Evolves (a b : Db) : Prop where
  sessions : SessionsEvolve a.deviceSessions b.deviceSessions
  clock : a.clock ≤ b.clock

theorem Evolves.refl (a : Db) : Evolves a a := ⟨.refl _, le_refl _⟩

theorem Evolves.trans {a b c : Db} (h1 : Evolves a b) (h2 : Evolves b c) : Evolves a c :=
  ⟨h1.sessions.trans h2.sessions, h1.clock.trans h2.clock⟩

/-- The user is not locked at the time. -/
def Db.unlocked (db : Db) (userId : Id) (now : Time) : Prop :=
  ∀ u ∈ db.users, u.id = userId → u.lockedAt now = false

/-- What a token protects.  The marks count where `R` says that they are respected. -/
def same (R : Prop) : Token → Db → Db → Prop
  | .user id, a, b => ∀ u : User, u.id = id → (u ∈ b.users ↔ u ∈ a.users)
  | .deviceSession id, a, b => ∀ x ∈ a.deviceSessions, x.id = id → x ∈ b.deviceSessions
  | .refreshTokenHash h, a, b =>
      (∀ x ∈ a.deviceSessions, x.refreshTokenHash ≠ h) →
        ∀ x ∈ b.deviceSessions, x.refreshTokenHash ≠ h
  | .admitted u now, a, b => R → a.unlocked u now → b.unlocked u now
  | .locking _, _, _ => True

/-- A holder of the first token changes what the second one protects. -/
def disturbs : Token → Token → Bool
  | .locking u, .admitted u' _ => u == u'
  | _, _ => false

/-- Conflicts: between locks, and with the marks if they are respected. -/
def conflicts (R : Prop) (l l' : Token) : Prop :=
  l.blocks l' = true ∨ (R ∧ disturbs l l' = true)

theorem same_refl (R : Prop) (l : Token) (db : Db) : same R l db db := by
  cases l <;> simp +contextual [same]

theorem same_trans {R : Prop} {l : Token} {a b c : Db} (h1 : same R l a b) (h2 : same R l b c) :
    same R l a c := by
  cases l with
  | user id => exact fun u hid => (h2 u hid).trans (h1 u hid)
  | deviceSession id => exact fun x hx hid => h2 x (h1 x hx hid) hid
  | refreshTokenHash h => exact fun hx => h2 (h1 hx)
  | admitted u now => exact fun hR hu => h2 hR (h1 hR hu)
  | locking u => trivial

/-- The protocol of authentication. -/
def protocol (R : Prop) : Protocol Db Token where
  Inv db := db.legal = true
  evolves := Evolves
  same := same R
  conflicts := conflicts R
  evolves_refl := Evolves.refl
  evolves_trans := Evolves.trans
  same_refl := same_refl R
  same_trans := same_trans

/-- A commit keeps its promise to the others if it holds the tokens of what it
    changes. -/
theorem owns_of {R : Prop} {a b : Db} {held : List Token}
    (huser : ∀ u, .user u ∈ held ∨ same R (.user u) a b)
    (hsession : ∀ s, .deviceSession s ∈ held ∨ same R (.deviceSession s) a b)
    (hhash : ∀ h, .refreshTokenHash h ∈ held ∨ same R (.refreshTokenHash h) a b)
    (hadmitted : ∀ u now, .locking u ∈ held ∨ same R (.admitted u now) a b) :
    ∀ l, same R l a b ∨ ∃ l' ∈ held, conflicts R l' l := by
  -- a lock conflicts with itself
  have hlock : ∀ l : Token, l.isLock = true → l ∈ held ∨ same R l a b →
      same R l a b ∨ ∃ l' ∈ held, conflicts R l' l := by
    intro l hl h
    rcases h with h | h
    · exact Or.inr ⟨l, h, Or.inl (by simp [Token.blocks, hl])⟩
    · exact Or.inl h
  intro l
  cases l with
  | user u => exact hlock _ rfl (huser u)
  | deviceSession s => exact hlock _ rfl (hsession s)
  | refreshTokenHash h => exact hlock _ rfl (hhash h)
  | admitted u now =>
      rcases hadmitted u now with h | h
      · by_cases hR : R
        · exact Or.inr ⟨_, h, Or.inr ⟨hR, by simp [disturbs]⟩⟩
        · exact Or.inl fun hR' => absurd hR' hR
      · exact Or.inl h
  | locking u => exact Or.inl trivial

-- ============================================================================
-- Changes of rows
-- ============================================================================

/-- The users, with the one of the id changed. -/
def Db.changeUser (id : Id) (f : User → User) (db : Db) : Db :=
  db.modifyUsers fun u => if u.id = id then f u else u

/-- The sessions, with the one of the id changed. -/
def Db.changeSession (id : Id) (f : DeviceSession → DeviceSession) (db : Db) : Db :=
  db.modifyDeviceSessions fun s => if s.id = id then f s else s

theorem users_change_singleton (id : Id) (f : User → User) :
    users.change [.user id] f = Db.changeUser id f := by
  funext db
  simp [RowTable.change, users, Db.changeUser]

theorem deviceSessions_change_singleton (id : Id) (f : DeviceSession → DeviceSession) :
    deviceSessions.change [.deviceSession id] f = Db.changeSession id f := by
  funext db
  simp [RowTable.change, deviceSessions, Db.changeSession]

theorem users_change_nil (f : User → User) : users.change [] f = id := by
  funext db
  simp [RowTable.change, users, Db.modifyUsers]

theorem deviceSessions_change_nil (f : DeviceSession → DeviceSession) :
    deviceSessions.change [] f = id := by
  funext db
  simp [RowTable.change, deviceSessions, Db.modifyDeviceSessions]

section Change

variable {db : Db} {id : Id} {f : User → User} {g : DeviceSession → DeviceSession}

theorem mem_changeUser {u : User} :
    u ∈ (db.changeUser id f).users ↔ ∃ x ∈ db.users, (if x.id = id then f x else x) = u :=
  List.mem_map

theorem mem_changeSession {s : DeviceSession} :
    s ∈ (db.changeSession id g).deviceSessions ↔
      ∃ x ∈ db.deviceSessions, (if x.id = id then g x else x) = s :=
  List.mem_map

variable {R : Prop}

/-- Only the row of the user changes. -/
theorem same_user_changeUser (hf : ∀ u, (f u).id = u.id) {x : Id} (hx : x ≠ id) :
    same R (.user x) db (db.changeUser id f) := by
  intro u hu
  rw [mem_changeUser]
  constructor
  · rintro ⟨y, hy, rfl⟩
    by_cases h : y.id = id
    · simp only [h, if_true, hf] at hu
      exact absurd hu.symm hx
    · simpa only [h, if_false] using hy
  · intro hmem
    exact ⟨u, hmem, if_neg (hu ▸ hx)⟩

/-- Only the row of the session changes. -/
theorem same_session_changeSession {x : Id} (hx : x ≠ id) :
    same R (.deviceSession x) db (db.changeSession id g) := by
  intro s hs hid
  exact mem_changeSession.mpr ⟨s, hs, if_neg (hid ▸ hx)⟩

/-- A change of sessions that keeps what is fixed and touches ACTIVE ones only. -/
theorem sessionsEvolve_changeSession (hg : ∀ s, (g s).origin = s.origin)
    (hactive : ∀ s ∈ db.deviceSessions, s.id = id → s.status = .active) :
    SessionsEvolve db.deviceSessions (db.changeSession id g).deviceSessions := by
  intro x hx
  refine ⟨_, mem_changeSession.mpr ⟨x, hx, rfl⟩, ?_, ?_⟩
  · split
    · exact hg x
    · rfl
  · intro hrevoked
    refine if_neg fun h => ?_
    rw [hactive x hx h] at hrevoked
    cases hrevoked

end Change

/-- A new session is added to the old ones. -/
theorem sessionsEvolve_add (db : Db) (row : DeviceSession) :
    SessionsEvolve db.deviceSessions (db.addDeviceSession row).deviceSessions :=
  fun x hx => ⟨x, List.mem_append_left _ hx, rfl, fun _ => rfl⟩

/-- A new session takes one entry of the unique index. -/
theorem same_refreshTokenHash_add {R : Prop} {db : Db} {row : DeviceSession} {h : String}
    (hne : h ≠ row.refreshTokenHash) :
    same R (.refreshTokenHash h) db (db.addDeviceSession row) := by
  intro hnone x hx
  rcases List.mem_append.mp hx with hx | hx
  · exact hnone x hx
  · rw [List.mem_singleton.mp hx]
    exact hne.symm

end Kasir.Auth
