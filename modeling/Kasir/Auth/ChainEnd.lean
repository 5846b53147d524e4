/-
  Kasir.Auth.ChainEnd

  Where reuse of a refresh token, or a logout, ends the chain of its sessions.

  A `device_sessions` row does not know its successor.  So a token that has been
  exchanged is refused when it is presented again, but its successors stay as they
  are, and a logout with it finds nothing to revoke.  A chain ends only with a call
  that presents its newest token: a logout, or a refresh that finds the session
  unusable.
-/

import Kasir.Auth.Rotation

namespace Kasir.Auth

open Txn Js Relation

-- ============================================================================
-- The end of a chain
-- ============================================================================

/-- No session of the token's chain is ACTIVE. -/
def ChainEnded (crypto : Crypto) (history : List AuthCommit) (db : Db) (t : String) : Prop :=
  ∀ t', Descends crypto history t t' → ¬ db.good t'

/-- After the commits of `past`, the commit rejects a refresh of a token that has been
    exchanged, or logs a token out that is in use. -/
def Ends (crypto : Crypto) (past : List AuthCommit) (e : AuthCommit) (t : String) : Prop :=
  (∃ dto now next x, e.call = .refresh dto now next ∧ e.result = .error x ∧
    t = crypto.hashRefreshToken dto.refreshToken ∧ ∃ t', Exchanged crypto past t t') ∨
  (∃ dto now, e.call = .logout dto now ∧ t = crypto.hashRefreshToken dto.refreshToken ∧
    FindsSession t e.seen)

/-- Reuse and logout end the chain, in this state of the system. -/
def ReuseEndsChain (crypto : Crypto) (σ : State) : Prop :=
  ∀ past e later t, σ.history = past ++ e :: later → Ends crypto past e t →
    ChainEnded crypto σ.history σ.db t

/-- The commit is a logout with the token, or a refresh that rejects it, and finds its
    session. -/
def Closes (crypto : Crypto) (e : AuthCommit) (t : String) : Prop :=
  ((∃ dto now next x, e.call = .refresh dto now next ∧ e.result = .error x ∧
      t = crypto.hashRefreshToken dto.refreshToken) ∨
    ∃ dto now, e.call = .logout dto now ∧ t = crypto.hashRefreshToken dto.refreshToken) ∧
  FindsSession t e.seen

/-- The token is the newest one of its chain, or the newest one has been logged out or
    rejected. -/
def NewestClosed (crypto : Crypto) (past : List AuthCommit) (t : String) : Prop :=
  ∀ u, Descends crypto past t u → (∀ u', ¬ Exchanged crypto past u u') →
    u = t ∨ ∃ e ∈ past, Closes crypto e u

section Steps

variable {config : Config} {crypto : Crypto} {R : Prop} {e : AuthCommit}

theorem good_changeSession {db : Db} {x : DeviceSession} {g : DeviceSession → DeviceSession}
    {t : String} (hdb : db.legal = true) (hx : x ∈ db.deviceSessions)
    (hg : ∀ s, (g s).origin = s.origin) (ht : t ≠ x.refreshTokenHash) :
    (db.changeSession x.id g).good t ↔ db.good t := by
  constructor
  · rintro ⟨s, hs, hst, hactive⟩
    obtain ⟨y, hy, rfl⟩ := mem_changeSession.mp hs
    split at hst <;> rename_i hid
    · have hyx : y = x := deviceSession_unique hdb hy hx hid
      exact absurd (hst.symm.trans ((origin_token (hg y)).trans (by rw [hyx]))) ht
    · rw [if_neg hid] at hactive
      exact ⟨y, hy, hst, hactive⟩
  · rintro ⟨s, hs, hst, hactive⟩
    have hid : s.id ≠ x.id := fun hid =>
      ht (hst.symm.trans (by rw [deviceSession_unique hdb hs hx hid]))
    exact ⟨s, mem_changeSession.mpr ⟨s, hs, if_neg hid⟩, hst, hactive⟩

/-- An ending commit exchanges nothing. -/
theorem exchange_of_ends {past : List AuthCommit} {t : String} (h : Ends crypto past e t) :
    exchange crypto e = none := by
  unfold exchange
  rcases h with ⟨dto, now, next, x, hcall, hresult, -⟩ | ⟨dto, now, hcall, -⟩
  · rw [hcall, hresult]
  · rw [hcall]

/-- It changes no other token's session. -/
theorem good_of_ends (heffect : Effect config crypto R e.call e.result e.seen e.before e.after)
    (hdb : e.before.legal = true) {past : List AuthCommit} {t : String}
    (h : Ends crypto past e t) {t' : String} (ht' : t' ≠ t) :
    e.after.good t' ↔ e.before.good t' := by
  obtain ⟨pid, call, result, seen, before, after⟩ := e
  dsimp only at heffect hdb ⊢
  rcases h with ⟨dto, now, next, x, hcall, hresult, rfl, -⟩ | ⟨dto, now, hcall, rfl, -⟩
  · dsimp only at hcall hresult
    subst hcall hresult
    cases heffect with
    | expired mem active token => exact good_changeSession hdb mem (fun _ => rfl) (token ▸ ht')
    | refreshRefused => exact Iff.rfl
  · dsimp only at hcall
    subst hcall
    cases heffect with
    | loggedOut mem active token => exact good_changeSession hdb mem (fun _ => rfl) (token ▸ ht')
    | loggedOutBefore => exact Iff.rfl

/-- A token whose session is REVOKED is not good. -/
theorem not_good_of_revoked {db : Db} (hdb : db.legal = true) {y : DeviceSession} {t : String}
    (hy : y ∈ db.deviceSessions) (hyt : y.refreshTokenHash = t) (hrevoked : y.status = .revoked) :
    ¬ db.good t := by
  rintro ⟨z, hz, hzt, hactive⟩
  rw [token_unique hdb hz hy (hzt.trans hyt.symm), hrevoked] at hactive
  cases hactive

/-- **A call that closes a token** leaves its session REVOKED. -/
theorem revoked_of_closes
    (heffect : Effect config crypto R e.call e.result e.seen e.before e.after) {t : String}
    (h : Closes crypto e t) :
    ∃ y ∈ e.after.deviceSessions, y.refreshTokenHash = t ∧ y.status = .revoked := by
  obtain ⟨pid, call, result, seen, before, after⟩ := e
  obtain ⟨hcall, hfound⟩ := h
  dsimp only at heffect hcall hfound ⊢
  -- it changes the session, or has found it REVOKED
  have hchanged : ∀ {x : DeviceSession} {g : DeviceSession → DeviceSession},
      x ∈ before.deviceSessions → x.refreshTokenHash = t → (∀ s, (g s).origin = s.origin) →
      (∀ s, (g s).status = .revoked) →
      ∃ y ∈ (before.changeSession x.id g).deviceSessions,
        y.refreshTokenHash = t ∧ y.status = .revoked := by
    intro x g hx hxt hg hrevoked
    exact ⟨g x, mem_changeSession.mpr ⟨x, hx, if_pos rfl⟩, (origin_token (hg x)).trans hxt,
      hrevoked x⟩
  have hsince : RevokedSince t seen before →
      ∃ y ∈ before.deviceSessions, y.refreshTokenHash = t ∧ y.status = .revoked := by
    rintro ⟨d, hd, hrevoked⟩
    obtain ⟨d', hd', x, hx, hxt⟩ := hfound
    obtain rfl := Option.some.inj (hd.symm.trans hd')
    obtain ⟨y, hy, horigin, hyr⟩ := hrevoked x hx hxt
    exact ⟨y, hy, (origin_token horigin).trans hxt, hyr⟩
  rcases hcall with ⟨dto, now, next, x, rfl, rfl, rfl⟩ | ⟨dto, now, rfl, rfl⟩
  · cases heffect with
    | expired mem active token => exact hchanged mem token (fun _ => rfl) fun _ => rfl
    | refreshRefused revoked => exact hsince revoked
  · cases heffect with
    | loggedOut mem active token => exact hchanged mem token (fun _ => rfl) fun _ => rfl
    | loggedOutBefore revoked => exact hsince revoked

/-- **A token is good until it is exchanged or closed.** -/
theorem lost_step (heffect : Effect config crypto R e.call e.result e.seen e.before e.after)
    (hdb : e.before.legal = true) {t : String} (hgood : e.before.good t)
    (hlost : ¬ e.after.good t) : (∃ t', exchange crypto e = some (t, t')) ∨ Closes crypto e t := by
  obtain ⟨pid, call, result, seen, before, after⟩ := e
  dsimp only at heffect hdb hgood hlost ⊢
  have hadd : ∀ {db : Db} {row : DeviceSession}, db.good t → (db.addDeviceSession row).good t :=
    fun ⟨s, hs, hst⟩ => ⟨s, List.mem_append_left _ hs, hst⟩
  -- a changed session is that of the token
  have hown : ∀ {x : DeviceSession} {g : DeviceSession → DeviceSession},
      x ∈ before.deviceSessions → (∀ s, (g s).origin = s.origin) →
      ¬ (before.changeSession x.id g).good t → t = x.refreshTokenHash := by
    intro x g hx hg hno
    by_contra hne
    exact hno ((good_changeSession hdb hx hg hne).mpr hgood)
  cases heffect with
  | login guess right mem current unlocked unused => exact absurd (hadd hgood) hlost
  | rotated usable unused =>
      have ht := hown (g := DeviceSession.rotated _) usable.mem (fun _ => rfl)
        fun h => hlost (hadd h)
      rw [ht, usable.token]
      exact Or.inl ⟨_, rfl⟩
  | expired mem active token found =>
      have ht := hown (g := DeviceSession.expired _) mem (fun _ => rfl) hlost
      rw [ht, token]
      exact Or.inr ⟨Or.inl ⟨_, _, _, _, rfl, rfl, rfl⟩, found⟩
  | loggedOut mem active token found =>
      have ht := hown (g := revoke _) mem (fun _ => rfl) hlost
      rw [ht, token]
      exact Or.inr ⟨Or.inr ⟨_, _, rfl, rfl⟩, found⟩
  | _ => exact absurd hgood hlost

/-- A token becomes good only when it is issued, and then it was nobody's. -/
theorem good_step (heffect : Effect config crypto R e.call e.result e.seen e.before e.after)
    (hdb : e.before.legal = true) {t : String}
    (hknown : ∃ s ∈ e.before.deviceSessions, s.refreshTokenHash = t)
    (hgood : e.after.good t) : e.before.good t := by
  obtain ⟨pid, call, result, seen, before, after⟩ := e
  dsimp only at heffect hdb hknown hgood ⊢
  -- a changed session was ACTIVE before, if it is now
  have hchange : ∀ {x : DeviceSession} {g : DeviceSession → DeviceSession},
      (∀ s, (g s).origin = s.origin) → (∀ s, (g s).status = .revoked) →
      (before.changeSession x.id g).good t → before.good t := by
    rintro x g hg hrevoked ⟨s, hs, hst, hactive⟩
    obtain ⟨y, hy, rfl⟩ := mem_changeSession.mp hs
    split at hst <;> rename_i hid
    · rw [if_pos hid, hrevoked] at hactive
      cases hactive
    · rw [if_neg hid] at hactive
      exact ⟨y, hy, hst, hactive⟩
  have hadd : ∀ {db : Db} {row : DeviceSession},
      (∀ s ∈ before.deviceSessions, s.refreshTokenHash ≠ row.refreshTokenHash) →
      (db.addDeviceSession row).good t → db.good t := by
    rintro db row hunused ⟨s, hs, hst, hactive⟩
    rcases List.mem_append.mp hs with hs | hs
    · exact ⟨s, hs, hst, hactive⟩
    · obtain ⟨k, hk, hkt⟩ := hknown
      rw [List.mem_singleton.mp hs] at hst
      exact absurd (hkt.trans hst.symm) (hunused k hk)
  cases heffect with
  | login guess right mem current unlocked unused => exact hadd unused hgood
  | rotated usable unused =>
      exact hchange (g := DeviceSession.rotated _) (fun _ => rfl) (fun _ => rfl) (hadd unused hgood)
  | expired mem active token =>
      exact hchange (g := DeviceSession.expired _) (fun _ => rfl) (fun _ => rfl) hgood
  | loggedOut mem active token =>
      exact hchange (g := revoke _) (fun _ => rfl) (fun _ => rfl) hgood
  | _ => exact hgood

end Steps

-- ============================================================================
-- Chains of tokens
-- ============================================================================

section Chains

variable {crypto : Crypto} {history : List AuthCommit} {e : AuthCommit}

theorem exchanged_append {xs ys : List AuthCommit} {t t' : String} :
    Exchanged crypto (xs ++ ys) t t' ↔ Exchanged crypto xs t t' ∨ Exchanged crypto ys t t' := by
  simp [Exchanged, or_and_right, exists_or]

theorem exchanged_singleton {t t' : String} :
    Exchanged crypto [e] t t' ↔ exchange crypto e = some (t, t') := by
  simp [Exchanged]

/-- A commit that exchanges no token of the chain does not extend it. -/
theorem descends_of_append {t t' : String}
    (hno : ∀ u u', Descends crypto history t u → exchange crypto e ≠ some (u, u'))
    (h : Descends crypto (history ++ [e]) t t') : Descends crypto history t t' := by
  induction h with
  | refl => exact .refl
  | tail _ hstep ih =>
      rcases exchanged_append.mp hstep with hold | hnew
      · exact ih.tail hold
      · exact absurd (exchanged_singleton.mp hnew) (hno _ _ ih)

theorem descends_mono {xs ys : List AuthCommit} {t t' : String} (h : Descends crypto xs t t') :
    Descends crypto (xs ++ ys) t t' :=
  ReflTransGen.mono (fun _ _ hstep => exchanged_append.mpr (Or.inl hstep)) _ _ h

end Chains

-- ============================================================================
-- Runs
-- ============================================================================

section Runs

variable {config : Config} {crypto : Crypto} {R : Prop} {db0 : Db} {σ : State}
  (h : AuthSound config crypto R db0 σ)
include h

/-- A chain has ended: all its sessions are there, and none is ACTIVE. -/
def Dead (crypto : Crypto) (history : List AuthCommit) (db : Db) (t : String) : Prop :=
  ∀ t', Descends crypto history t t' →
    (∃ s ∈ db.deviceSessions, s.refreshTokenHash = t') ∧ ¬ db.good t'

omit h in
/-- A commit neither extends nor revives a dead chain. -/
theorem dead_step {history : List AuthCommit} {e : AuthCommit} {t : String}
    (heffect : Effect config crypto R e.call e.result e.seen e.before e.after)
    (hdb : e.before.legal = true) (hevolves : Evolves e.before e.after)
    (hdead : Dead crypto history e.before t) : Dead crypto (history ++ [e]) e.after t := by
  intro t' ht'
  have hold : Descends crypto history t t' := by
    refine descends_of_append (fun u u' hu hex => ?_) ht'
    obtain ⟨dto, now, next, -, -, -, hrot⟩ := rotates_of_exchange heffect hex
    obtain ⟨x, hx, hxt, hactive, -⟩ := hrot.sessions
    exact (hdead u hu).2 ⟨x, hx, hxt, hactive⟩
  obtain ⟨⟨s, hs, hst⟩, hno⟩ := hdead t' hold
  refine ⟨?_, fun hgood => hno (good_step heffect hdb ⟨s, hs, hst⟩ hgood)⟩
  obtain ⟨y, hy, horigin, -⟩ := hevolves.sessions s hs
  exact ⟨y, hy, (origin_token horigin).trans hst⟩

/-- A dead chain stays dead. -/
theorem dead_later {past later : List AuthCommit} {e : AuthCommit} {t : String}
    (heq : σ.history = past ++ e :: later) (hdead : Dead crypto (past ++ [e]) e.after t) :
    Dead crypto σ.history σ.db t := by
  have hchain := h.chain
  rw [heq] at hchain
  obtain ⟨-, hlater⟩ := hchain.split
  have hgo := hlater.induction (fun mid d => Dead crypto (past ++ [e] ++ mid) d t)
    (by simpa using hdead) fun pre x post hpost hQ => by
      have hx : x ∈ σ.history := by
        rw [heq, hpost]
        simp
      have hok := h.commits x hx
      rw [← List.append_assoc]
      exact dead_step (effect_of_mem h hx) hok.invBefore hok.evolves hQ
  rw [heq]
  simpa using hgo

/-- From an earlier commit the state evolves to the one before a later commit. -/
theorem evolves_between {past later : List AuthCommit} {e e' : AuthCommit}
    (heq : σ.history = past ++ e :: later) (he' : e' ∈ past) : Evolves e'.after e.before := by
  obtain ⟨pre, mid, hsplit⟩ := List.append_of_mem he'
  have hchain := h.chain
  rw [heq] at hchain
  have hpast := hchain.split.1
  rw [hsplit] at hpast
  exact h.evolves_of_chain hpast.split.2 fun z hz => by
    rw [heq, hsplit]
    simp [hz]

/-- The sessions of a chain are there, as soon as its first one is. -/
theorem known_of_descends {past later : List AuthCommit} {e : AuthCommit}
    (heq : σ.history = past ++ e :: later) {t t' : String}
    (hknown : ∃ s ∈ e.before.deviceSessions, s.refreshTokenHash = t)
    (hdesc : Descends crypto past t t') :
    ∃ s ∈ e.before.deviceSessions, s.refreshTokenHash = t' := by
  rcases hdesc.cases_tail with rfl | ⟨u, -, e', he', hex⟩
  · exact hknown
  · have he : e' ∈ σ.history := by
      rw [heq]
      simp [he']
    obtain ⟨dto, now, next, -, -, -, hrot⟩ := rotates_of_exchange (effect_of_mem h he) hex
    obtain ⟨x, -, -, -, -, y, hy, hyt, -⟩ := hrot.sessions
    obtain ⟨z, hz, horigin, -⟩ := (evolves_between h heq he').sessions y hy
    exact ⟨z, hz, (origin_token horigin).trans hyt⟩

/-- Just before an ending commit the token's session is there. -/
theorem known_of_ends {past later : List AuthCommit} {e : AuthCommit}
    (heq : σ.history = past ++ e :: later) {t : String} (hends : Ends crypto past e t) :
    ∃ s ∈ e.before.deviceSessions, s.refreshTokenHash = t := by
  have hmem : e ∈ σ.history := by
    rw [heq]
    simp
  rcases hends with ⟨dto, now, next, x, -, -, -, t', e', he', hex⟩ | ⟨dto, now, -, -, d, hd, s, hs,
    hst⟩
  · have he : e' ∈ σ.history := by
      rw [heq]
      simp [he']
    obtain ⟨_, _, _, -, -, -, hrot⟩ := rotates_of_exchange (effect_of_mem h he) hex
    obtain ⟨x, hx, hxt, -⟩ := hrot.sessions
    have hevolves := Evolves.trans (h.commits e' he).evolves (evolves_between h heq he')
    obtain ⟨z, hz, horigin, -⟩ := hevolves.sessions x hx
    exact ⟨z, hz, (origin_token horigin).trans hxt⟩
  · have hevolves : Evolves d e.before :=
      h.rel_of_mem_seen Evolves .refl .trans (fun x hx => (h.commits x hx).evolves) hmem
        (List.mem_of_head? hd)
    obtain ⟨z, hz, horigin, -⟩ := hevolves.sessions s hs
    exact ⟨z, hz, (origin_token horigin).trans hst⟩

/-- An ending commit leaves the token's own session not ACTIVE. -/
theorem not_good_of_ends {past later : List AuthCommit} {e : AuthCommit}
    (heq : σ.history = past ++ e :: later) {t : String} (hends : Ends crypto past e t) :
    ¬ e.after.good t := by
  have hmem : e ∈ σ.history := by
    rw [heq]
    simp
  have hok := h.commits e hmem
  rcases hends with ⟨dto, now, next, x, hcall, hresult, rfl, t', e', he', hex⟩ | ⟨dto, now, hcall,
    rfl, d, hd, hknown⟩
  · have he : e' ∈ σ.history := by
      rw [heq]
      simp [he']
    exact not_good_of_exchanged h he hex hok.invAfter
      (Evolves.trans (evolves_between h heq he') hok.evolves)
  · obtain ⟨y, hy, hyt, hrevoked⟩ := revoked_of_closes (effect_of_mem h hmem)
      ⟨Or.inr ⟨dto, now, hcall, rfl⟩, d, hd, hknown⟩
    exact not_good_of_revoked hok.invAfter hy hyt hrevoked

/-- A token that was exchanged or closed before is not good. -/
theorem not_good_of_past {past later : List AuthCommit} {e e' : AuthCommit}
    (heq : σ.history = past ++ e :: later) (he' : e' ∈ past) {t : String}
    (hpast : (∃ t', exchange crypto e' = some (t, t')) ∨ Closes crypto e' t) :
    ¬ e.before.good t := by
  have hmem : e ∈ σ.history := by
    rw [heq]
    simp
  have hmem' : e' ∈ σ.history := by
    rw [heq]
    simp [he']
  have hlegal := (h.commits e hmem).invBefore
  have hevolves := evolves_between h heq he'
  rcases hpast with ⟨t', hex⟩ | hcloses
  · exact not_good_of_exchanged h hmem' hex hlegal hevolves
  · obtain ⟨y, hy, hyt, hrevoked⟩ := revoked_of_closes (effect_of_mem h hmem') hcloses
    obtain ⟨z, hz, -, hsame⟩ := hevolves.sessions y hy
    obtain rfl := hsame hrevoked
    exact not_good_of_revoked hlegal hz hyt hrevoked

/-- A token that was issued and is not good has been exchanged or closed. -/
theorem past_of_not_good {past later : List AuthCommit} {e e' : AuthCommit}
    (heq : σ.history = past ++ e :: later) (he' : e' ∈ past) {t : String}
    (hissued : e'.after.good t) (hno : ¬ e.before.good t) :
    ∃ x ∈ past, (∃ t', exchange crypto x = some (t, t')) ∨ Closes crypto x t := by
  obtain ⟨pre, mid, hsplit⟩ := List.append_of_mem he'
  have hchain := h.chain
  rw [heq] at hchain
  have hmid := hchain.split.1
  rw [hsplit] at hmid
  by_contra hnone
  -- every commit since then has kept it good
  refine hno (hmid.split.2.invariant (fun d => d.good t) hissued fun x hx hgood => ?_)
  by_contra hlost
  have hxpast : x ∈ past := by
    rw [hsplit]
    simp [hx]
  have hmem : x ∈ σ.history := by
    rw [heq]
    simp [hxpast]
  exact hnone ⟨x, hxpast, lost_step (effect_of_mem h hmem) (h.commits x hmem).invBefore hgood hlost⟩

/-- **Exactly when one commit ends the chain**: when it presents the newest token, or that
    one has been closed. -/
theorem chain_ended_iff {past later : List AuthCommit} {e : AuthCommit}
    (heq : σ.history = past ++ e :: later) {t : String} (hends : Ends crypto past e t) :
    ChainEnded crypto (past ++ [e]) e.after t ↔ NewestClosed crypto past t := by
  have hmem : e ∈ σ.history := by
    rw [heq]
    simp
  have hok := h.commits e hmem
  have hsame : ∀ t', t' ≠ t → (e.after.good t' ↔ e.before.good t') :=
    fun _ ht' => good_of_ends (effect_of_mem h hmem) hok.invBefore hends ht'
  constructor
  · intro hended u hdesc hnewest
    by_cases hne : u = t
    · exact Or.inl hne
    · right
      -- an exchange has issued it
      obtain heq' | ⟨w, -, e', he', hex⟩ := hdesc.cases_tail
      · exact absurd heq' hne
      · have hmem' : e' ∈ σ.history := by
          rw [heq]
          simp [he']
        obtain ⟨_, _, _, -, -, -, hrot⟩ := rotates_of_exchange (effect_of_mem h hmem') hex
        have hno : ¬ e.before.good u := by
          rw [← hsame u hne]
          exact hended u (descends_mono hdesc)
        obtain ⟨x, hx, hpast⟩ := past_of_not_good h heq he' hrot.good hno
        rcases hpast with ⟨u', hex'⟩ | hcloses
        · exact absurd ⟨x, hx, hex'⟩ (hnewest u')
        · exact ⟨x, hx, hcloses⟩
  · intro hclosed t' hdesc
    have hold : Descends crypto past t t' := descends_of_append
      (fun u u' _ hex => by rw [exchange_of_ends hends] at hex; cases hex) hdesc
    by_cases hne : t' = t
    · rw [hne]
      exact not_good_of_ends h heq hends
    · rw [hsame t' hne]
      by_cases hnewest : ∀ u', ¬ Exchanged crypto past t' u'
      · rcases hclosed t' hold hnewest with heq' | ⟨x, hx, hcloses⟩
        · exact absurd heq' hne
        · exact not_good_of_past h heq hx (Or.inr hcloses)
      · push Not at hnewest
        obtain ⟨u', x, hx, hex⟩ := hnewest
        exact not_good_of_past h heq hx (Or.inl ⟨u', hex⟩)

/-- A chain that one commit ends stays ended. -/
theorem chain_ended_later {past later : List AuthCommit} {e : AuthCommit}
    (heq : σ.history = past ++ e :: later) {t : String} (hends : Ends crypto past e t)
    (hclosed : NewestClosed crypto past t) : ChainEnded crypto σ.history σ.db t := by
  have hmem : e ∈ σ.history := by
    rw [heq]
    simp
  have hended := (chain_ended_iff h heq hends).mpr hclosed
  have hdead' : Dead crypto (past ++ [e]) e.after t := by
    intro t' hdesc
    refine ⟨?_, hended t' hdesc⟩
    have hold : Descends crypto past t t' := descends_of_append
      (fun u u' _ hex => by rw [exchange_of_ends hends] at hex; cases hex) hdesc
    obtain ⟨s, hs, hst⟩ := known_of_descends h heq (known_of_ends h heq hends) hold
    obtain ⟨y, hy, horigin, -⟩ := (h.commits e hmem).evolves.sessions s hs
    exact ⟨y, hy, (origin_token horigin).trans hst⟩
  exact fun t' hdesc => (dead_later h heq hdead' t' hdesc).2

end Runs

/-- Where reuse and logout end the chain. -/
structure ChainLaw (crypto : Crypto) (σ : State) : Prop where
  /-- One rejection or logout leaves no ACTIVE session in the chain iff its token is the
      newest of the chain, or the newest one has been logged out or rejected before. -/
  commit : ∀ past e later t, σ.history = past ++ e :: later → Ends crypto past e t →
    (ChainEnded crypto (past ++ [e]) e.after t ↔ NewestClosed crypto past t)
  /-- If that was so each time, the chains stay ended. -/
  run : (∀ past e later t, σ.history = past ++ e :: later → Ends crypto past e t →
      NewestClosed crypto past t) → ReuseEndsChain crypto σ

/-- **The end of a chain**, in every interleaving. -/
theorem reuse_and_logout_end_chain (config : Config) (crypto : Crypto) {db0 : Db} {σ : State}
    (h0 : db0.legal = true) (hrun : (auth config crypto).Reach db0 σ) : ChainLaw crypto σ := by
  have h := reach_sound h0 hrun
  constructor
  case commit => exact fun past e later t heq hends => chain_ended_iff h heq hends
  case run =>
    intro hall past e later t heq hends
    exact chain_ended_later h heq hends (hall past e later t heq hends)

/-- A login and a rotation; the newest token is logged out, which ends the chain, and
    then the older one is refused. -/
theorem reuse_and_logout_end_chain_shop :
    ∃ σ : State, (auth Shop.config Shop.crypto).Reach Shop.db σ ∧ ChainLaw Shop.crypto σ ∧
      σ.history.map (exchange Shop.crypto) =
        [none, some (Shop.token 1, Shop.token 2), none, none] ∧
      σ.db.deviceSessions.map DeviceSession.status = [.revoked, .revoked] := by
  obtain ⟨σ, hrun, hp⟩ := Shop.reached (fun _ _ => true)
    (.call (Shop.guess "123456" 0 1) :: Shop.stmts 0 4 ++ .commit 0 ::
      .call (Shop.refresh 1 1000 2) :: Shop.stmts 1 5 ++ .commit 1 ::
      .call (Shop.logout 2 2000) :: Shop.stmts 2 2 ++ .commit 2 ::
      .call (Shop.refresh 1 3000 3) :: Shop.stmts 3 3 ++ [.commit 3])
    (fun σ => σ.history.map (exchange Shop.crypto) =
        [none, some (Shop.token 1, Shop.token 2), none, none] ∧
      σ.db.deviceSessions.map DeviceSession.status = [.revoked, .revoked])
    (by decide +kernel)
  simp only [Bool.decide_and, Bool.and_eq_true, decide_eq_true_eq] at hp
  exact ⟨σ, hrun.reach,
    reuse_and_logout_end_chain Shop.config Shop.crypto Shop.legal hrun.reach, hp⟩

/-- A token that was exchanged is presented once more, by a refresh and by a logout:
    the refresh is refused and the logout returns, but the successor stays good. -/
theorem reuse_leaves_successor :
    ∃ σ : State, (auth Shop.config Shop.crypto).Reach Shop.db σ ∧
      σ.calls.map Prod.fst = [Shop.guess "123456" 0 1, Shop.refresh 1 1000 2,
        Shop.refresh 1 2000 3, Shop.logout 1 3000] ∧
      ¬ ReuseEndsChain Shop.crypto σ := by
  obtain ⟨σ, hrun, hp⟩ := Shop.reached (fun _ _ => true)
    (.call (Shop.guess "123456" 0 1) :: Shop.stmts 0 4 ++ .commit 0 ::
      .call (Shop.refresh 1 1000 2) :: Shop.stmts 1 5 ++ .commit 1 ::
      .call (Shop.refresh 1 2000 3) :: Shop.stmts 2 3 ++ .commit 2 ::
      .call (Shop.logout 1 3000) :: Shop.stmts 3 2 ++ [.commit 3])
    (fun σ => σ.calls.map Prod.fst = [Shop.guess "123456" 0 1, Shop.refresh 1 1000 2,
        Shop.refresh 1 2000 3, Shop.logout 1 3000] ∧
      σ.history.map (exchange Shop.crypto) =
        [none, some (Shop.token 1, Shop.token 2), none, none] ∧
      σ.history.map (fun e => (e.call, e.result.toOption.isSome)) =
        [(Shop.guess "123456" 0 1, true), (Shop.refresh 1 1000 2, true),
          (Shop.refresh 1 2000 3, false), (Shop.logout 1 3000, true)] ∧
      (σ.db.deviceSessions.any fun s =>
        s.refreshTokenHash == Shop.token 2 && s.status == .active) = true)
    (by decide +kernel)
  simp only [Bool.decide_and, Bool.and_eq_true, decide_eq_true_eq] at hp
  obtain ⟨hcalls, hexchange, hresults, hgood⟩ := hp
  refine ⟨σ, hrun.reach, hcalls, fun hlaw => ?_⟩
  obtain ⟨s, hs, hst⟩ := List.any_eq_true.mp hgood
  simp only [Bool.and_eq_true, beq_iff_eq] at hst
  -- the third commit is the refused refresh
  obtain ⟨e1, e2, e3, e4, heq⟩ : ∃ e1 e2 e3 e4, σ.history = [e1, e2, e3, e4] := by
    have hlen := congrArg List.length hexchange
    rw [List.length_map] at hlen
    exact List.length_eq_four.mp hlen
  rw [heq] at hexchange hresults
  simp only [List.map_cons, List.map_nil, List.cons.injEq, and_true] at hexchange
  simp only [List.map_cons, List.map_nil, List.cons.injEq, Prod.mk.injEq, and_true] at hresults
  have hexchanged : Exchanged Shop.crypto [e1, e2] (Shop.token 1) (Shop.token 2) :=
    ⟨e2, by simp, hexchange.2.1⟩
  have hends : Ends Shop.crypto [e1, e2] e3 (Shop.token 1) := by
    cases hresult : e3.result with
    | ok r =>
        rw [hresult] at hresults
        exact absurd hresults.2.2.1.2 (by simp [Except.toOption])
    | error x => exact Or.inl ⟨_, _, _, x, hresults.2.2.1.1, hresult, rfl, _, hexchanged⟩
  have hended := hlaw [e1, e2] e3 [e4] (Shop.token 1) (by rw [heq]; rfl) hends (Shop.token 2) ?_
  · exact hended ⟨s, hs, hst⟩
  · exact .single ⟨e2, by rw [heq]; simp, hexchange.2.1⟩

end Kasir.Auth
