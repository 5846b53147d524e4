/-
  Kasir.Auth.ActiveTokens

  No token for an inactive principal.

  Three methods issue tokens: `login`, `pinLogin` and `refresh`.  The last two read the
  user and the tenant, and refuse where one of them is inactive; `login` reads the user
  alone.  So the tokens of a run are those of active users of active tenants exactly
  as long as nobody logs in to a tenant that is inactive.
-/

import Kasir.Auth.Pins

namespace Kasir.Auth

open Txn Js

-- ============================================================================
-- Tokens and their users
-- ============================================================================

/-- The commit answers with a token. -/
def issuesToken (e : AuthCommit) : Prop :=
  (∃ token, e.result = .ok (.accessToken token)) ∨ ∃ response, e.result = .ok (.tokens response)

/-- The commit answers with a token of the user its call names: by email, by id, or by
    the session of a refresh token. -/
def IssuedTo (crypto : Crypto) (e : AuthCommit) (u : User) : Prop :=
  match e.call with
  | .login dto => e.result = .ok (.accessToken (accessTokenOf crypto u)) ∧
      u.tenantId = toLowerCase dto.tenantId ∧ u.email = dto.email
  | .pinLogin dto _ token => e.result = .ok (.tokens (tokenResponse crypto u token)) ∧
      u.id = toLowerCase dto.userId ∧ u.tenantId = toLowerCase dto.tenantId
  | .refresh dto _ next => e.result = .ok (.tokens (tokenResponse crypto u next)) ∧
      ∃ s ∈ e.seen, ∃ session, sessionOfToken (crypto.hashRefreshToken dto.refreshToken) s =
        some session ∧ u.id = session.userId ∧ u.tenantId = session.tenantId
  | _ => False

/-- The user of the tenant is active. -/
def Db.userActive (db : Db) (userId tenantId : Id) : Bool :=
  db.users.any (activeUserOf userId tenantId)

/-- User and tenant are active. -/
def Db.principalActive (db : Db) (u : User) : Bool :=
  db.userActive u.id u.tenantId && db.tenantActive u.tenantId

/-- What is promised of the tokens of a run, and of the calls made since `σ0`. -/
structure TokenLaw (crypto : Crypto) (σ0 σ : State) : Prop where
  /-- There was a moment during the call when user and tenant were active. -/
  moment : ∀ e ∈ σ.history, issuesToken e →
    ∃ u, IssuedTo crypto e u ∧ ∃ s ∈ e.seen, s.principalActive u = true
  /-- A call that starts later issues no token to who is inactive by then. -/
  afterwards : ∀ e ∈ σ.history, σ0.calls.length ≤ e.pid → issuesToken e →
    ∃ u, IssuedTo crypto e u ∧ σ0.db.principalActive u = true

/-- The call is none that activates somebody. -/
def Call.deactivates : Call → Bool
  | .setUserActive _ isActive | .setTenantActive _ isActive => !isActive
  | _ => true

/-- An administrator sets `is_active` to false only. -/
def deactivationsOnly : Label Env Exc Call → Bool
  | .call c => c.deactivates
  | _ => true

/-- A login reads the user while the tenant is active. -/
def loginsChecked (σ : State) : Label Env Exc Call → Bool
  | .stmt i _ =>
      match σ.calls[i]? with
      | some (.login dto, _) => σ.db.tenantActive (toLowerCase dto.tenantId)
      | _ => true
  | _ => true

-- ============================================================================
-- Activity fades
-- ============================================================================

/-- Who is active later was active before. -/
structure Fades (a b : Db) : Prop where
  users : ∀ userId tenantId, b.userActive userId tenantId = true →
    a.userActive userId tenantId = true
  tenants : ∀ tenantId, b.tenantActive tenantId = true → a.tenantActive tenantId = true

theorem Fades.refl (a : Db) : Fades a a := ⟨fun _ _ h => h, fun _ h => h⟩

theorem Fades.trans {a b c : Db} (h1 : Fades a b) (h2 : Fades b c) : Fades a c :=
  ⟨fun u t h => h1.users u t (h2.users u t h), fun t h => h1.tenants t (h2.tenants t h)⟩

theorem Fades.principal {a b : Db} (h : Fades a b) {u : User} (hb : b.principalActive u = true) :
    a.principalActive u = true := by
  simp only [Db.principalActive, Bool.and_eq_true] at hb ⊢
  exact ⟨h.users _ _ hb.1, h.tenants _ hb.2⟩

/-- The users that are active and the tenants are the same. -/
theorem fades_of_eq {a b : Db} (husers : b.users = a.users) (htenants : b.tenants = a.tenants) :
    Fades a b := by
  constructor
  · intro u t h
    unfold Db.userActive at h ⊢
    rwa [← husers]
  · intro t h
    unfold Db.tenantActive at h ⊢
    rwa [← htenants]

/-- A change of one user's row that activates nobody. -/
theorem fades_changeUser {a : Db} {id : Id} {f : User → User} (hid : ∀ u, (f u).id = u.id)
    (htenant : ∀ u, (f u).tenantId = u.tenantId)
    (hactive : ∀ u, (f u).isActive = true → u.isActive = true) : Fades a (a.changeUser id f) := by
  refine ⟨fun u t h => ?_, fun _ h => h⟩
  obtain ⟨y, hy, hyactive⟩ := List.any_eq_true.mp h
  obtain ⟨x, hx, rfl⟩ := mem_changeUser.mp hy
  refine List.any_eq_true.mpr ⟨x, hx, ?_⟩
  simp only [activeUserOf, Bool.and_eq_true, beq_iff_eq] at hyactive ⊢
  split at hyactive
  · rw [hid, htenant] at hyactive
    exact ⟨hyactive.1, hactive x hyactive.2⟩
  · exact hyactive

section Effects

variable {config : Config} {crypto : Crypto} {R : Prop} {c : Call} {r : Result} {seen : List Db}
  {a b : Db}

/-- Every call but an activation lets activity fade. -/
theorem Effect.fades (h : Effect config crypto R c r seen a b) (hc : c.deactivates = true) :
    Fades a b := by
  cases h with
  | @login _ _ _ _ _ u0 =>
      have huser : Fades a (a.changeUser u0.id User.cleared) :=
        fades_changeUser (fun _ => rfl) (fun _ => rfl) fun _ hu => hu
      exact huser.trans (fades_of_eq rfl rfl)
  | failed =>
      exact fades_changeUser (f := User.failed _) (fun _ => rfl) (fun _ => rfl) fun _ hu => hu
  | pinSet =>
      exact fades_changeUser (f := User.withPin _ _) (fun _ => rfl) (fun _ => rfl) fun _ hu => hu
  | @userActive id isActive =>
      have hfalse : isActive = false := by simpa [Call.deactivates] using hc
      subst hfalse
      exact fades_changeUser (f := fun u => { u with isActive := false }) (fun _ => rfl)
        (fun _ => rfl) fun _ hu => nomatch hu
  | @tenantActive id isActive =>
      have hfalse : isActive = false := by simpa [Call.deactivates] using hc
      subst hfalse
      refine ⟨fun _ _ hu => hu, fun t ht => ?_⟩
      obtain ⟨y, hy, hyt⟩ := List.any_eq_true.mp ht
      obtain ⟨x, hx, rfl⟩ := List.mem_map.mp hy
      refine List.any_eq_true.mpr ⟨x, hx, ?_⟩
      split at hyt
      · simp at hyt
      · exact hyt
  | _ => exact fades_of_eq rfl rfl

end Effects

-- ============================================================================
-- What the issuers read
-- ============================================================================

/-- What a call has read: activity fades from one read to the next and to the latest
    state, and a login has read an active tenant. -/
def ReadsFade (c : Call) (seen : List Db) (db : Db) : Prop :=
  (seen.Pairwise Fades ∧ ∀ s ∈ seen, Fades s db) ∧
    ∀ dto, c = .login dto → ∀ s ∈ seen, s.tenantActive (toLowerCase dto.tenantId) = true

section Issuers

variable {config : Config} {crypto : Crypto} {R : Prop} {e : AuthCommit} {u : User} {s : Db}

theorem userActive_of_mem (hu : u ∈ s.users) (hactive : u.isActive = true) :
    s.userActive u.id u.tenantId = true :=
  List.any_eq_true.mpr ⟨u, hu, by simp [activeUserOf, hactive]⟩

/-- An issuer has read a state in which user and tenant were active. -/
theorem principal_of_token (h : Effect config crypto R e.call e.result e.seen e.before e.after)
    (hreads : ReadsFade e.call e.seen e.before) (htoken : issuesToken e) :
    ∃ u, IssuedTo crypto e u ∧ ∃ s ∈ e.seen, s.principalActive u = true := by
  obtain ⟨pid, call, result, seen, before, after⟩ := e
  dsimp only at h hreads ⊢
  cases h with
  | @signedIn dto _ _ u read active =>
      obtain ⟨s, hs, hfound⟩ := read
      have hkeys : u.tenantId = toLowerCase dto.tenantId ∧ u.email = dto.email := by
        simpa using List.find?_some hfound
      have hactive := userActive_of_mem (List.mem_of_find?_eq_some hfound) active
      have htenant := hreads.2 dto rfl s hs
      refine ⟨u, ⟨rfl, hkeys⟩, s, hs, ?_⟩
      rw [Db.principalActive, Bool.and_eq_true, hkeys.1]
      exact ⟨hkeys.1 ▸ hactive, htenant⟩
  | @login dto now token _ _ u0 h u id guess right mem current unlocked unused =>
      obtain ⟨s, hs, hfound⟩ := guess.read
      have hp := List.find?_some hfound
      simp only [activeUserOf, Bool.and_eq_true, beq_iff_eq] at hp
      refine ⟨u0, ⟨rfl, hp.1.1⟩, s, List.mem_of_head? hs, ?_⟩
      rw [Db.principalActive, Bool.and_eq_true]
      exact ⟨userActive_of_mem (List.mem_of_find?_eq_some hfound) hp.1.2, hp.2⟩
  | @rotated dto now next _ _ record x id usable unused =>
      obtain ⟨s1, s2, s3, hprefix, hsession, huser, htenant⟩ := usable.read
      have hok := usable.usable
      simp only [SessionRecord.usable, Bool.and_eq_true] at hok
      -- the tenant is read last; it was active when the user was read, too
      have hfades : Fades s2 s3 := by
        have hpairs := hreads.1.1.sublist hprefix.sublist
        simp only [List.pairwise_cons, List.mem_cons, List.not_mem_nil, or_false,
          forall_eq_or_imp, forall_eq] at hpairs
        exact hpairs.2.1
      have hmem1 : s1 ∈ seen := hprefix.subset (by simp)
      have hmem2 : s2 ∈ seen := hprefix.subset (by simp)
      have hkeys : record.user.id = record.session.userId ∧
          record.user.tenantId = record.session.tenantId := by
        simpa using List.find?_some huser
      have htid : record.tenant.id = record.session.tenantId := by
        simpa using List.find?_some htenant
      have hactive3 : s3.tenantActive record.user.tenantId = true :=
        List.any_eq_true.mpr ⟨record.tenant, List.mem_of_find?_eq_some htenant, by
          simp [htid, hkeys.2, hok.2]⟩
      refine ⟨record.user, ⟨rfl, s1, hmem1, record.session, hsession, hkeys⟩, s2, hmem2, ?_⟩
      rw [Db.principalActive, Bool.and_eq_true]
      exact ⟨userActive_of_mem (List.mem_of_find?_eq_some huser) hok.1.2,
        hfades.tenants _ hactive3⟩
  | _ => rcases htoken with ⟨_, htoken⟩ | ⟨_, htoken⟩ <;> cases htoken

end Issuers

-- ============================================================================
-- Every run
-- ============================================================================

section Runs

variable {config : Config} {crypto : Crypto} {db0 : Db} {σ0 σ : State}

/-- The steps the law is about. -/
abbrev Guarded (σ : State) (l : Label Env Exc Call) : Prop :=
  deactivationsOnly l = true ∧ loginsChecked σ l = true

/-- Activity fades along a run. -/
theorem fades_of_steps (h0 : db0.legal = true) (hrun : (auth config crypto).Run Guarded db0 σ0)
    (hsteps : (auth config crypto).Steps Guarded σ0 σ) : Fades σ0.db σ.db := by
  have hlater := hsteps.run (fun _ _ h => h) hrun
  have hsound : AuthSound config crypto False db0 σ := reach_sound h0 hlater.reach
  have hcalls := hlater.calls (fun c => c.deactivates = true) fun _ _ hok => hok.1
  have hstart : AuthSound config crypto False db0 σ0 := reach_sound h0 hrun.reach
  refine hsound.rel_of_mem_states Fades Fades.refl Fades.trans (fun e he => ?_)
    (hsteps.mem_states hstart)
  have hmade := hcalls e.pid _ (hsound.owner e he)
  exact (hsound.commits e he).post.fades hmade

/-- What the calls of a run have read. -/
theorem readsFade (h0 : db0.legal = true) (hrun : (auth config crypto).Run Guarded db0 σ) :
    ReadsFrom ReadsFade 0 σ := by
  have hsteps : (auth config crypto).Steps Guarded (Sys.init db0) σ := hrun.steps
  refine App.Steps.reads (fun c d => ⟨⟨List.Pairwise.nil, fun _ hs => nomatch hs⟩,
    fun _ _ _ hs => nomatch hs⟩) ?_ ?_ (fun i c n tx _ hget => by simp [Sys.init] at hget)
    (fun e he => by simp [Sys.init] at he) hsteps
  · -- a statement reads the latest state
    intro σ i env c n tx hσ hok hi hK
    obtain ⟨⟨hpairs, hfades⟩, hlogin⟩ := hK
    refine ⟨⟨List.pairwise_append.mpr ⟨hpairs, List.pairwise_singleton .., fun s hs s' hs' => ?_⟩,
      fun s hs => ?_⟩, fun dto hc s hs => ?_⟩
    · rw [List.mem_singleton.mp hs']
      exact hfades s hs
    · rcases List.mem_append.mp hs with hs | hs
      · exact hfades s hs
      · rw [List.mem_singleton.mp hs]
        exact Fades.refl σ.db
    · rcases List.mem_append.mp hs with hs | hs
      · exact hlogin dto hc s hs
      · rw [List.mem_singleton.mp hs]
        have hchecked := hok.2
        subst hc
        simp only [loginsChecked, hi] at hchecked
        exact hchecked
  · -- a commit lets activity fade
    intro σ σ' l hσ hok hstep c seen hK
    have hfade : Fades σ.db σ'.db :=
      fades_of_steps h0 (hσ.run (fun _ _ h => h) .init) (.step .refl hok hstep)
    exact ⟨⟨hK.1.1, fun s hs => (hK.1.2 s hs).trans hfade⟩, hK.2⟩

/-- What the calls made since `σ0` have read: nobody who was not active by then. -/
theorem readsLater (h0 : db0.legal = true) (hrun : (auth config crypto).Run Guarded db0 σ0)
    (hsteps : (auth config crypto).Steps Guarded σ0 σ) :
    ReadsFrom (fun _ seen _ => ∀ s ∈ seen, Fades σ0.db s) σ0.calls.length σ := by
  have hsound : AuthSound config crypto False db0 σ0 := reach_sound h0 hrun.reach
  refine App.Steps.reads (fun _ _ _ hs => nomatch hs) ?_ (fun _ _ _ _ _ hK => hK) ?_ ?_ hsteps
  · intro σ i env c n tx hσ _ _ hK s hs
    rcases List.mem_append.mp hs with hs | hs
    · exact hK s hs
    · rw [List.mem_singleton.mp hs]
      exact fades_of_steps h0 hrun hσ
  · intro i c n tx hi hget
    obtain ⟨hlt, -⟩ := List.getElem?_eq_some_iff.mp hget
    omega
  · intro e he
    obtain ⟨hlt, -⟩ := List.getElem?_eq_some_iff.mp (hsound.owner e he)
    exact hlt

end Runs

/-- **No token for an inactive principal**, in every run in which nobody is activated
    and every login reads its user while the tenant is active. -/
theorem no_token_for_inactive (config : Config) (crypto : Crypto) {db0 : Db} {σ0 σ : State}
    (h0 : db0.legal = true) (hrun : (auth config crypto).Run Guarded db0 σ0)
    (hsteps : (auth config crypto).Steps Guarded σ0 σ) : TokenLaw crypto σ0 σ := by
  have hlater := hsteps.run (fun _ _ h => h) hrun
  have hsound : AuthSound config crypto False db0 σ := reach_sound h0 hlater.reach
  have hfade := readsFade h0 hlater
  constructor
  case moment =>
    intro e he htoken
    exact principal_of_token (hsound.commits e he).post (hfade.committed e he (Nat.zero_le _)) htoken
  case afterwards =>
    intro e he hpid htoken
    obtain ⟨u, hu, s, hs, hactive⟩ := principal_of_token (hsound.commits e he).post
      (hfade.committed e he (Nat.zero_le _)) htoken
    exact ⟨u, hu, ((readsLater h0 hrun hsteps).committed e he hpid s hs).principal hactive⟩

/-- The cashier logs in with the password and with the PIN, and exchanges the token;
    then the cashier is deactivated, and the next exchange is refused. -/
theorem no_token_for_inactive_shop :
    ∃ σ0 σ : State, (auth Shop.config Shop.crypto).Run Guarded Shop.db σ0 ∧
      (auth Shop.config Shop.crypto).Steps Guarded σ0 σ ∧ TokenLaw Shop.crypto σ0 σ ∧
      σ0.history.map (fun e => (e.call, e.result.toOption.isSome)) =
        [(Shop.login "123456", true), (Shop.guess "123456" 0 1, true), (Shop.refresh 1 1000 2, true),
          (.setUserActive Shop.cashier false, true)] ∧
      (σ.history.drop 4).map (fun e => (e.call, e.result.toOption.isSome)) =
        [(Shop.refresh 2 2000 3, false)] := by
  obtain ⟨σ0, σ, hrun, hsteps, hp⟩ := Shop.reached_twice
    (fun σ l => deactivationsOnly l && loginsChecked σ l)
    (.call (Shop.login "123456") :: Shop.stmts 0 1 ++ .commit 0 ::
      .call (Shop.guess "123456" 0 1) :: Shop.stmts 1 4 ++ .commit 1 ::
      .call (Shop.refresh 1 1000 2) :: Shop.stmts 2 5 ++ .commit 2 ::
      .call (.setUserActive Shop.cashier false) :: Shop.stmts 3 1 ++ [.commit 3])
    (.call (Shop.refresh 2 2000 3) :: Shop.stmts 4 4 ++ [.commit 4])
    (fun σ0 σ =>
      σ0.history.map (fun e => (e.call, e.result.toOption.isSome)) =
        [(Shop.login "123456", true), (Shop.guess "123456" 0 1, true), (Shop.refresh 1 1000 2, true),
          (.setUserActive Shop.cashier false, true)] ∧
      (σ.history.drop 4).map (fun e => (e.call, e.result.toOption.isSome)) =
        [(Shop.refresh 2 2000 3, false)])
    (by decide +kernel)
  simp only [Bool.decide_and, Bool.and_eq_true, decide_eq_true_eq] at hp
  simp only [Bool.and_eq_true] at hrun hsteps
  exact ⟨σ0, σ, hrun, hsteps,
    no_token_for_inactive Shop.config Shop.crypto Shop.legal hrun hsteps, hp⟩

/-- The tenant is deactivated; a login that starts after it is answered with a token. -/
theorem login_to_inactive_tenant :
    ∃ σ0 σ : State, (auth Shop.config Shop.crypto).Run (fun _ l => deactivationsOnly l = true)
        Shop.db σ0 ∧
      (auth Shop.config Shop.crypto).Steps (fun _ l => deactivationsOnly l = true) σ0 σ ∧
      ¬ TokenLaw Shop.crypto σ0 σ := by
  obtain ⟨σ0, σ, hrun, hsteps, hp⟩ := Shop.reached_twice (fun _ l => deactivationsOnly l)
    (.call (.setTenantActive Shop.tenant false) :: Shop.stmts 0 1 ++ [.commit 0])
    (.call (Shop.login "123456") :: Shop.stmts 1 1 ++ [.commit 1])
    (fun σ0 σ => σ0.calls.length == 1 && σ0.db.tenants.all (fun t => !t.isActive) &&
      σ.history.any fun e => e.pid == 1 &&
        e.result.toOption == some (.accessToken Shop.cashier))
    (by decide +kernel)
  simp only [Bool.and_eq_true, beq_iff_eq] at hp
  obtain ⟨⟨hlength, hinactive⟩, hany⟩ := hp
  obtain ⟨e, he, hissued⟩ := List.any_eq_true.mp hany
  simp only [Bool.and_eq_true, beq_iff_eq] at hissued
  refine ⟨σ0, σ, hrun, hsteps, fun hlaw => ?_⟩
  have htoken : issuesToken e := Or.inl ⟨Shop.cashier, by
    cases hresult : e.result with
    | ok r =>
        rw [hresult] at hissued
        exact congrArg Except.ok (Option.some.inj hissued.2)
    | error x =>
        rw [hresult] at hissued
        cases hissued.2⟩
  obtain ⟨u, -, hactive⟩ := hlaw.afterwards e he (by omega) htoken
  rw [Db.principalActive, Bool.and_eq_true] at hactive
  obtain ⟨t, ht, hta⟩ := List.any_eq_true.mp hactive.2
  have hno := List.all_eq_true.mp hinactive t ht
  simp only [Bool.and_eq_true] at hta
  rw [hta.2] at hno
  cases hno

end Kasir.Auth
