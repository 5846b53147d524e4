/-
  Kasir.Auth.Rotation

  Refresh tokens are exchanged in a line: a token has at most one successor, and of
  all the tokens that descend from one login at most one is good.
-/

import Kasir.Auth.Runs
import Mathlib.Logic.Relation

namespace Kasir.Auth

open Txn Js Relation

-- ============================================================================
-- Exchanges
-- ============================================================================

/-- The token presented and the token issued, as digests, if the commit is a refresh
    that succeeded. -/
def exchange (crypto : Crypto) (e : AuthCommit) : Option (String × String) :=
  match e.call, e.result with
  | .refresh dto _ next, .ok (.tokens _) =>
      some (crypto.hashRefreshToken dto.refreshToken, crypto.hashRefreshToken next)
  | _, _ => none

/-- The token a PIN login issues, if the commit is one that succeeded. -/
def loginToken (crypto : Crypto) (e : AuthCommit) : Option String :=
  match e.call, e.result with
  | .pinLogin _ _ token, .ok (.tokens _) => some (crypto.hashRefreshToken token)
  | _, _ => none

/-- The first token was exchanged for the second one. -/
def Exchanged (crypto : Crypto) (history : List AuthCommit) (h h' : String) : Prop :=
  ∃ e ∈ history, exchange crypto e = some (h, h')

/-- The second token was obtained from the first one by successive refreshes. -/
abbrev Descends (crypto : Crypto) (history : List AuthCommit) : String → String → Prop :=
  ReflTransGen (Exchanged crypto history)

/-- The token of an ACTIVE session. -/
def Db.good (db : Db) (h : String) : Prop :=
  ∃ s ∈ db.deviceSessions, s.refreshTokenHash = h ∧ s.status = .active

/-- What one exchange does to the sessions. -/
structure Rotates (config : Config) (e : AuthCommit) (h h' : String) (now : Time) : Prop where
  /-- As the transaction read them, the session was usable, and the user and the tenant
      were active. -/
  usable : ∃ record, RecordRead h record e.seen ∧
    record.session.status = .active ∧ now < record.session.expiresAt ∧
    record.user.isActive = true ∧ record.tenant.isActive = true
  /-- The session becomes REVOKED, and its successor is of the same tenant, user and
      device. -/
  sessions : ∃ x ∈ e.before.deviceSessions, x.refreshTokenHash = h ∧ x.status = .active ∧
    x.rotated now ∈ e.after.deviceSessions ∧
    ∃ y ∈ e.after.deviceSessions, y.refreshTokenHash = h' ∧ y.status = .active ∧
      y.tenantId = x.tenantId ∧ y.userId = x.userId ∧ y.deviceId = x.deviceId ∧
      y.deviceName = x.deviceName ∧ y.createdAt = now ∧
      y.expiresAt = now + config.refreshTokenTtlMs
  /-- The issued token was nobody's. -/
  unused : ∀ s ∈ e.before.deviceSessions, s.refreshTokenHash ≠ h'

/-- The issued token is good. -/
theorem Rotates.good {config : Config} {e : AuthCommit} {h h' : String} {now : Time}
    (hrot : Rotates config e h h' now) : e.after.good h' := by
  obtain ⟨x, -, -, -, -, y, hy, hyt, hactive, -⟩ := hrot.sessions
  exact ⟨y, hy, hyt, hactive⟩

section Effects

variable {config : Config} {crypto : Crypto} {R : Prop} {e : AuthCommit}

/-- An exchange rotates its session. -/
theorem rotates_of_exchange (h : Effect config crypto R e.call e.result e.seen e.before e.after)
    {t t' : String} (hex : exchange crypto e = some (t, t')) :
    ∃ dto now next, e.call = .refresh dto now next ∧ t = crypto.hashRefreshToken dto.refreshToken ∧
      t' = crypto.hashRefreshToken next ∧ Rotates config e t t' now := by
  obtain ⟨pid, call, result, seen, before, after⟩ := e
  dsimp only at h
  unfold exchange at hex
  cases h with
  | @rotated dto now next _ _ record x id husable hunused =>
      simp only [Option.some.injEq, Prod.mk.injEq] at hex
      obtain ⟨rfl, rfl⟩ := hex
      obtain ⟨hread, hok, hmem, horigin, hactive, htoken⟩ := husable
      simp only [SessionRecord.usable, Bool.and_eq_true, beq_iff_eq] at hok
      obtain ⟨⟨⟨hstatus, hexpires⟩, huser⟩, htenant⟩ := hok
      refine ⟨dto, now, next, rfl, rfl, rfl,
        ⟨record, hread, hstatus, lt_of_readBack hexpires, huser, htenant⟩,
        ⟨x, hmem, htoken, hactive, ?_, rotatedSession config crypto record.session now next id,
          ?_, rfl, rfl, ?_⟩, hunused⟩
      · exact List.mem_append_left _ (mem_changeSession.mpr ⟨x, hmem, if_pos rfl⟩)
      · exact List.mem_append_right _ (List.mem_singleton.mpr rfl)
      · simp only [DeviceSession.origin, Prod.mk.injEq] at horigin
        obtain ⟨-, htenant', huser', hdevice, hname, -⟩ := horigin
        exact ⟨htenant'.symm, huser'.symm, hdevice.symm, hname.symm, rfl, rfl⟩
  | _ => cases hex

/-- A login adds a session under a token that was nobody's. -/
theorem login_adds (h : Effect config crypto R e.call e.result e.seen e.before e.after)
    {t : String} (hlogin : loginToken crypto e = some t) :
    (∀ s ∈ e.before.deviceSessions, s.refreshTokenHash ≠ t) ∧ e.after.good t := by
  obtain ⟨pid, call, result, seen, before, after⟩ := e
  dsimp only at h ⊢
  unfold loginToken at hlogin
  cases h with
  | @login dto now token _ _ u0 h u id guess right mem current unlocked unused =>
      simp only [Option.some.injEq] at hlogin
      obtain rfl := hlogin
      refine ⟨unused, newDeviceSession config crypto u0 dto now token id, ?_, rfl, rfl⟩
      exact List.mem_append_right _ (List.mem_singleton.mpr rfl)
  | _ => cases hlogin

/-- A refresh that answers with an error creates no session. -/
theorem ids_of_refused (h : Effect config crypto R e.call e.result e.seen e.before e.after)
    {dto : RefreshTokenDto} {now : Time} {next : String} {x : Exc}
    (hcall : e.call = .refresh dto now next) (hresult : e.result = .error x) :
    e.after.deviceSessions.map DeviceSession.id = e.before.deviceSessions.map DeviceSession.id := by
  obtain ⟨pid, call, result, seen, before, after⟩ := e
  dsimp only at h hcall hresult ⊢
  subst hcall hresult
  cases h with
  | expired mem active token =>
      simp only [Db.changeSession, Db.modifyDeviceSessions, List.map_map]
      refine List.map_congr_left fun s _ => ?_
      simp only [Function.comp_apply]
      split <;> rfl
  | refreshRefused => rfl

end Effects

-- ============================================================================
-- Runs
-- ============================================================================

section Runs

variable {config : Config} {crypto : Crypto} {R : Prop} {db0 : Db} {σ : State}
  (h : AuthSound config crypto R db0 σ)
include h

theorem effect_of_mem {e : AuthCommit} (he : e ∈ σ.history) :
    Effect config crypto R e.call e.result e.seen e.before e.after := (h.commits e he).post

/-- What is committed evolves to the last state. -/
theorem evolves_after {e : AuthCommit} (he : e ∈ σ.history) : Evolves e.after σ.db :=
  h.evolves_of_mem_states (mem_states.mpr (Or.inr ⟨e, he, rfl⟩))

/-- A token that was exchanged is not good any more, from the exchange on. -/
theorem not_good_of_exchanged {e : AuthCommit} (he : e ∈ σ.history) {t t' : String}
    (hex : exchange crypto e = some (t, t')) {d : Db} (hd : d.legal = true)
    (hevolves : Evolves e.after d) : ¬ d.good t := by
  obtain ⟨dto, now, next, -, -, -, hrot⟩ := rotates_of_exchange (effect_of_mem h he) hex
  obtain ⟨x, -, hx, -, hrotated, -⟩ := hrot.sessions
  rintro ⟨s, hs, hst, hactive⟩
  -- the rotated row is still there, unchanged
  obtain ⟨y, hy, horigin, hsame⟩ := hevolves.sessions _ hrotated
  obtain rfl := hsame rfl
  have hsx : s = x.rotated now := token_unique hd hs hy (hst.trans hx.symm)
  rw [hsx] at hactive
  cases hactive

/-- A token is exchanged at most once. -/
theorem exchange_once {e1 e2 : AuthCommit} (he1 : e1 ∈ σ.history) (he2 : e2 ∈ σ.history)
    {t t1 t2 : String} (h1 : exchange crypto e1 = some (t, t1))
    (h2 : exchange crypto e2 = some (t, t2)) : e1 = e2 := by
  by_contra hne
  have hgood : ∀ {e : AuthCommit} {t' : String}, e ∈ σ.history →
      exchange crypto e = some (t, t') → e.before.good t := by
    intro e t' he hex
    obtain ⟨dto, now, next, -, -, -, hrot⟩ := rotates_of_exchange (effect_of_mem h he) hex
    obtain ⟨x, hx, hxt, hactive, -⟩ := hrot.sessions
    exact ⟨x, hx, hxt, hactive⟩
  rcases h.ordered he1 he2 hne with hle | hle
  · exact not_good_of_exchanged h he1 h1 (h.commits e2 he2).invBefore hle (hgood he2 h2)
  · exact not_good_of_exchanged h he2 h2 (h.commits e1 he1).invBefore hle (hgood he1 h1)

theorem exchanged_unique {t t1 t2 : String} (h1 : Exchanged crypto σ.history t t1)
    (h2 : Exchanged crypto σ.history t t2) : t1 = t2 := by
  obtain ⟨e1, he1, hex1⟩ := h1
  obtain ⟨e2, he2, hex2⟩ := h2
  obtain rfl := exchange_once h he1 he2 hex1 hex2
  rw [hex1] at hex2
  simp only [Option.some.injEq, Prod.mk.injEq, true_and] at hex2
  exact hex2

/-- A good token has no successor. -/
theorem no_successor_of_good {t t' : String} (hgood : σ.db.good t) :
    ¬ Exchanged crypto σ.history t t' := by
  rintro ⟨e, he, hex⟩
  exact not_good_of_exchanged h he hex h.inv (evolves_after h he) hgood

/-- Of the tokens that descend from one token at most one is good. -/
theorem good_unique {t t1 t2 : String} (h1 : Descends crypto σ.history t t1)
    (h2 : Descends crypto σ.history t t2) (hgood1 : σ.db.good t1) (hgood2 : σ.db.good t2) :
    t1 = t2 := by
  have hunique : Relator.RightUnique (Exchanged crypto σ.history) := fun _ _ _ => exchanged_unique h
  -- the descendants of a token are in a line
  rcases ReflTransGen.total_of_right_unique hunique h1 h2 with hle | hle
  · rcases hle.cases_head with heq | ⟨t', hstep, -⟩
    · exact heq
    · exact absurd hstep (no_successor_of_good h hgood1)
  · rcases hle.cases_head with heq | ⟨t', hstep, -⟩
    · exact heq.symm
    · exact absurd hstep (no_successor_of_good h hgood2)

/-- A token issued by a login was not obtained by a refresh. -/
theorem login_is_root {e : AuthCommit} (he : e ∈ σ.history) {t t' : String}
    (hlogin : loginToken crypto e = some t) : ¬ Exchanged crypto σ.history t' t := by
  rintro ⟨e', he', hex⟩
  obtain ⟨hunused, s, hs, hst, -⟩ := login_adds (effect_of_mem h he) hlogin
  obtain ⟨dto, now, next, -, -, -, hrot⟩ := rotates_of_exchange (effect_of_mem h he') hex
  obtain ⟨x, -, -, -, -, y, hy, hyt, -⟩ := hrot.sessions
  have hne : e ≠ e' := by
    rintro rfl
    unfold loginToken at hlogin
    unfold exchange at hex
    split at hlogin <;> split at hex <;> simp_all
  rcases h.ordered he he' hne with hle | hle
  · obtain ⟨z, hz, horigin, -⟩ := hle.sessions s hs
    exact hrot.unused z hz ((origin_token horigin).trans hst)
  · obtain ⟨z, hz, horigin, -⟩ := hle.sessions y hy
    exact hunused z hz ((origin_token horigin).trans hyt)

end Runs

/-- Rotation of refresh tokens is linear. -/
structure RotationLaw (config : Config) (crypto : Crypto) (db0 : Db) (σ : State) : Prop where
  /-- A token is exchanged at most once. -/
  once : ∀ e1 ∈ σ.history, ∀ e2 ∈ σ.history, ∀ t t1 t2, exchange crypto e1 = some (t, t1) →
    exchange crypto e2 = some (t, t2) → e1 = e2
  /-- A login starts a chain: its token was nobody's and is no successor. -/
  root : ∀ e ∈ σ.history, ∀ t, loginToken crypto e = some t →
    (∀ s ∈ e.before.deviceSessions, s.refreshTokenHash ≠ t) ∧ e.after.good t ∧
    ∀ t', ¬ Exchanged crypto σ.history t' t
  /-- At most one session of a chain is ACTIVE. -/
  oneActive : ∀ t t1 t2, Descends crypto σ.history t t1 → Descends crypto σ.history t t2 →
    ∀ s1 ∈ σ.db.deviceSessions, ∀ s2 ∈ σ.db.deviceSessions,
      s1.refreshTokenHash = t1 → s2.refreshTokenHash = t2 →
      s1.status = .active → s2.status = .active → s1 = s2
  /-- A REVOKED session stays as it is. -/
  revoked : ∀ d ∈ states db0 σ.history, ∀ s ∈ d.deviceSessions, s.status = .revoked →
    s ∈ σ.db.deviceSessions
  /-- `revoked_at` is set iff the session is REVOKED. -/
  revokedAt : ∀ s ∈ σ.db.deviceSessions, s.revokedAt.isSome = true ↔ s.status = .revoked
  /-- A session is rotated only while it is usable, and its successor keeps tenant,
      user and device. -/
  rotates : ∀ e ∈ σ.history, ∀ t t', exchange crypto e = some (t, t') →
    ∃ dto now next, e.call = .refresh dto now next ∧ t = crypto.hashRefreshToken dto.refreshToken ∧
      t' = crypto.hashRefreshToken next ∧ Rotates config e t t' now
  /-- A refresh that returns an error issues no session. -/
  error : ∀ (i : Nat) dto now next (a : Except Exc Result),
    σ.calls[i]? = some (.refresh dto now next, .done a) → (∀ r, a ≠ .ok (.ok r)) →
    ∀ e ∈ σ.history, e.pid = i →
      e.after.deviceSessions.map DeviceSession.id = e.before.deviceSessions.map DeviceSession.id

/-- **Linear rotation.**  Whatever calls run in whatever interleaving, with whatever
    clocks, and whoever is deactivated when. -/
theorem rotation_is_linear (config : Config) (crypto : Crypto) {db0 : Db} {σ : State}
    (h0 : db0.legal = true) (hrun : (auth config crypto).Reach db0 σ) :
    RotationLaw config crypto db0 σ := by
  have h := reach_sound h0 hrun
  constructor
  case once => exact fun e1 he1 e2 he2 t t1 t2 => exchange_once h he1 he2
  case root =>
    intro e he t hlogin
    obtain ⟨hunused, hgood⟩ := login_adds (effect_of_mem h he) hlogin
    exact ⟨hunused, hgood, fun t' => login_is_root h he hlogin⟩
  case oneActive =>
    intro t t1 t2 h1 h2 s1 hs1 s2 hs2 ht1 ht2 hactive1 hactive2
    have heq := good_unique h h1 h2 ⟨s1, hs1, ht1, hactive1⟩ ⟨s2, hs2, ht2, hactive2⟩
    exact token_unique h.inv hs1 hs2 (ht1.trans (heq.trans ht2.symm))
  case revoked =>
    intro d hd s hs hrevoked
    obtain ⟨y, hy, -, hsame⟩ := (h.evolves_of_mem_states hd).sessions s hs
    exact hsame hrevoked ▸ hy
  case revokedAt =>
    intro s hs
    have hstate := legal_revocationState h.inv hs
    unfold DeviceSession.revocationState at hstate
    cases hstatus : s.status <;> cases hrev : s.revokedAt <;> simp_all
  case rotates => exact fun e he t t' hex => rotates_of_exchange (effect_of_mem h he) hex
  case error =>
    intro i dto now next a hi herror e he hpid
    have howner := h.owner e he
    rw [hpid, hi] at howner
    simp only [Option.some.injEq, Prod.mk.injEq, CallState.done.injEq] at howner
    obtain ⟨hcall, rfl⟩ := howner
    cases hresult : e.result with
    | ok r => exact absurd (by rw [hresult]) (herror r)
    | error x => exact ids_of_refused (effect_of_mem h he) hcall.symm hresult

/-- A login, an exchange of its token, and a second attempt at the exchange, which is
    refused. -/
theorem rotation_is_linear_shop :
    ∃ σ : State, (auth Shop.config Shop.crypto).Reach Shop.db σ ∧
      RotationLaw Shop.config Shop.crypto Shop.db σ ∧
      σ.history.map (loginToken Shop.crypto) = [some (Shop.token 1), none, none] ∧
      σ.history.map (exchange Shop.crypto) =
        [none, some (Shop.token 1, Shop.token 2), none] := by
  obtain ⟨σ, hrun, hp⟩ := Shop.reached (fun _ _ => true)
    (.call (Shop.guess "123456" 0 1) :: Shop.stmts 0 4 ++ .commit 0 ::
      .call (Shop.refresh 1 1000 2) :: Shop.stmts 1 5 ++ .commit 1 ::
      .call (Shop.refresh 1 2000 3) :: Shop.stmts 2 3 ++ [.commit 2])
    (fun σ => σ.history.map (loginToken Shop.crypto) = [some (Shop.token 1), none, none] ∧
      σ.history.map (exchange Shop.crypto) = [none, some (Shop.token 1, Shop.token 2), none])
    (by decide +kernel)
  simp only [Bool.decide_and, Bool.and_eq_true, decide_eq_true_eq] at hp
  exact ⟨σ, hrun.reach, rotation_is_linear Shop.config Shop.crypto Shop.legal hrun.reach, hp⟩

end Kasir.Auth
