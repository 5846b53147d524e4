/-
  Kasir.Auth.PinReset

  A new PIN cuts the old one off.

  An attempt compares its PIN outside any transaction, so each statement by which it
  writes asks once more for the hash it compared against.  Where every new PIN gets a
  hash that was never there, that is enough.
-/

import Kasir.Auth.Pins

namespace Kasir.Auth

open Txn Js

-- ============================================================================
-- Fresh salts
-- ============================================================================

/-- The hash a call brings into the database. -/
def Call.newHash : Call → Option String
  | .setPin _ _ _ pinHash _ => some pinHash
  | _ => none

/-- Some user has the hash. -/
def Db.hasHash (db : Db) (h : String) : Prop := ∃ u ∈ db.users, u.pinHash = some h

instance (db : Db) (h : String) : Decidable (db.hasHash h) := by
  unfold Db.hasHash
  infer_instance

/-- A new PIN gets a hash that no user has had and no other call brings. -/
def freshSalt (db0 : Db) (σ : State) : Label Env Exc Call → Bool
  | .call c => c.newHash.all fun h =>
      decide (∀ d ∈ states db0 σ.history, ¬ d.hasHash h) &&
        σ.calls.all fun x => x.1.newHash != some h
  | _ => true

section Fresh

variable {config : Config} {crypto : Crypto} {R : Prop} {db0 : Db} {σ : State}
  {ok : State → Label Env Exc Call → Prop}

/-- A hash in the database was there before, or the call has brought it. -/
theorem hasHash_after {e : AuthCommit}
    (heffect : Effect config crypto R e.call e.result e.seen e.before e.after)
    (hbefore : e.before.legal = true) (hafter : e.after.legal = true) {h : String}
    (hhas : e.after.hasHash h) : e.before.hasHash h ∨ e.call.newHash = some h := by
  obtain ⟨y, hy, hyh⟩ := hhas
  obtain ⟨x, hx, hxid⟩ := user_before heffect hy
  obtain ⟨y', hy', hy'id, hstep⟩ := pin_step heffect hbefore hx
  obtain rfl := user_unique hafter hy' hy (hy'id.trans hxid)
  have hhash : ∀ {z : User}, y'.pin = z.pin → z.pinHash = some h := fun hpin =>
    (congrArg Prod.fst hpin).symm.trans hyh
  cases hstep with
  | same hpin _ => exact Or.inl ⟨x, hx, hhash hpin⟩
  | login _ _ _ _ _ hpin => exact Or.inl ⟨x, hx, (hhash hpin : x.cleared.pinHash = some h)⟩
  | failed _ _ _ _ _ hpin => exact Or.inl ⟨x, hx, (hhash hpin : (x.failed _).pinHash = some h)⟩
  | setPin hcall _ _ hpin =>
      refine Or.inr ?_
      rw [hcall]
      exact hhash hpin

/-- What fresh salts mean for the state of a run. -/
structure Fresh (db0 : Db) (σ : State) : Prop where
  /-- Two calls bring two hashes. -/
  distinct : ∀ (i j : Nat) x y, σ.calls[i]? = some x → σ.calls[j]? = some y → i ≠ j →
    ∀ h, x.1.newHash = some h → y.1.newHash ≠ some h
  /-- A hash is not there before its call commits. -/
  pending : ∀ (i : Nat) x h, σ.calls[i]? = some x → x.1.newHash = some h →
    (∀ e ∈ σ.history, e.pid ≠ i) → ∀ d ∈ states db0 σ.history, ¬ d.hasHash h
  /-- A hash was not there before its call committed. -/
  committed : ∀ pre e post h, σ.history = pre ++ e :: post → e.call.newHash = some h →
    ∀ d ∈ states db0 pre, ¬ d.hasHash h

theorem fresh_init : Fresh db0 (Sys.init db0) where
  distinct i j x y hi := by simp [Sys.init] at hi
  pending i x h hi := by simp [Sys.init] at hi
  committed pre e post h heq := by simp [Sys.init] at heq

/-- A call enters. -/
theorem fresh_call (hf : Fresh db0 σ) {c : Call}
    {s : CallState Db Env Token Exc Exc Result} (hfresh : freshSalt db0 σ (.call c) = true) :
    Fresh db0 { σ with calls := σ.calls ++ [(c, s)] } := by
  have hget : ∀ {i : Nat} {x : Call × CallState Db Env Token Exc Exc Result},
      (σ.calls ++ [(c, s)])[i]? = some x → σ.calls[i]? = some x ∨ (i = σ.calls.length ∧ x = (c, s)) := by
    intro i x hi
    rw [List.getElem?_append] at hi
    split at hi
    · exact Or.inl hi
    · rw [List.getElem?_singleton] at hi
      split at hi
      · exact Or.inr ⟨by omega, (Option.some.inj hi).symm⟩
      · cases hi
  have hnew : ∀ h, c.newHash = some h →
      (∀ d ∈ states db0 σ.history, ¬ d.hasHash h) ∧ ∀ x ∈ σ.calls, x.1.newHash ≠ some h := by
    intro h hc
    simpa [freshSalt, hc] using hfresh
  constructor
  case distinct =>
    intro i j x y hi hj hij h hx hy
    rcases hget hi with hi | ⟨rfl, rfl⟩ <;> rcases hget hj with hj | ⟨rfl, rfl⟩
    · exact hf.distinct i j x y hi hj hij h hx hy
    · exact (hnew h hy).2 x (List.mem_of_getElem? hi) hx
    · exact (hnew h hx).2 y (List.mem_of_getElem? hj) hy
    · exact hij rfl
  case pending =>
    intro i x h hi hx hno
    rcases hget hi with hi | ⟨rfl, rfl⟩
    · exact hf.pending i x h hi hx hno
    · exact (hnew h hx).1
  case committed => exact hf.committed

/-- A call goes on, or is answered without a commit. -/
theorem fresh_set (hf : Fresh db0 σ) {i : Nat} {c : Call}
    {s s' : CallState Db Env Token Exc Exc Result} (hi : σ.calls[i]? = some (c, s)) :
    Fresh db0 { σ with calls := σ.calls.set i (c, s') } := by
  have hget : ∀ {j : Nat} {x : Call × CallState Db Env Token Exc Exc Result},
      (σ.calls.set i (c, s'))[j]? = some x → ∃ y, σ.calls[j]? = some y ∧ y.1 = x.1 := by
    intro j x hj
    by_cases hij : i = j
    · subst hij
      rw [App.getElem?_set_self' hi] at hj
      obtain rfl := Option.some.inj hj
      exact ⟨_, hi, rfl⟩
    · rw [List.getElem?_set_ne hij] at hj
      exact ⟨x, hj, rfl⟩
  constructor
  case distinct =>
    intro j k x y hj hk hjk h hx hy
    obtain ⟨x', hj', hx'⟩ := hget hj
    obtain ⟨y', hk', hy'⟩ := hget hk
    exact hf.distinct j k x' y' hj' hk' hjk h (hx' ▸ hx) (hy' ▸ hy)
  case pending =>
    intro j x h hj hx hno
    obtain ⟨x', hj', hx'⟩ := hget hj
    exact hf.pending j x' h hj' (hx' ▸ hx) hno
  case committed => exact hf.committed

/-- A commit joins the history. -/
theorem fresh_commit (hf : Fresh db0 σ) {e : AuthCommit} {x : Call × CallState Db Env Token Exc Exc Result}
    (heffect : Effect config crypto R e.call e.result e.seen e.before e.after)
    (hbefore : e.before.legal = true) (hafter : e.after.legal = true)
    (hmem : e.before ∈ states db0 σ.history) (hi : σ.calls[e.pid]? = some x) (hx : x.1 = e.call)
    (hno : ∀ e' ∈ σ.history, e'.pid ≠ e.pid) {b : Db} :
    Fresh db0 { σ with db := b, history := σ.history ++ [e] } := by
  constructor
  case distinct => exact hf.distinct
  case pending =>
    intro j y h hj hy hpid d hd
    have hold := hf.pending j y h hj hy fun e' he' => hpid e' (List.mem_append_left _ he')
    rcases mem_states.mp hd with rfl | ⟨e', he', rfl⟩
    · exact hold _ (mem_states.mpr (Or.inl rfl))
    · rcases List.mem_append.mp he' with he' | he'
      · exact hold _ (mem_states.mpr (Or.inr ⟨e', he', rfl⟩))
      · obtain rfl := List.mem_singleton.mp he'
        intro hhas
        rcases hasHash_after heffect hbefore hafter hhas with hhas | hnew
        · exact hold _ hmem hhas
        · -- it would be the hash of another call
          have hne : e'.pid ≠ j := hpid e' (by simp)
          exact hf.distinct e'.pid j x y hi hj hne h (hx ▸ hnew) hy
  case committed =>
    intro pre f post h heq hf' d hd
    rcases List.eq_nil_or_concat post with rfl | ⟨post', g, rfl⟩
    · obtain ⟨rfl, hfe⟩ := List.append_inj' heq rfl
      obtain rfl : e = f := by simpa using hfe
      exact hf.pending e.pid x h hi (hx ▸ hf') hno d hd
    · rw [List.concat_eq_append, ← List.cons_append, ← List.append_assoc] at heq
      obtain ⟨hpre, -⟩ := List.append_inj' heq rfl
      exact hf.committed pre f post' h hpre hf' d hd

/-- Fresh salts in every state of a run. -/
theorem fresh_of_run (h0 : db0.legal = true) (hok : ∀ σ l, ok σ l → freshSalt db0 σ l = true)
    (hrun : (auth config crypto).Run ok db0 σ) : Fresh db0 σ := by
  induction hrun with
  | init => exact fresh_init
  | @step σ σ' l hrun hl hstep ih =>
      have h := reach_sound h0 hrun.reach
      have h' := reach_sound h0 (hrun.reach.step trivial hstep)
      rcases (auth config crypto).step_cases hstep with ⟨c, rfl, rfl⟩ |
        ⟨i, env, c, n, tx, locks, write, next, s, v, -, hi, -, -, -, -, rfl⟩ |
        ⟨i, c, n, tx, r, -, hi, -, -, rfl⟩ | ⟨i, c, n, tx, e, -, hi, rfl⟩
      · exact fresh_call ih (hok _ _ hl)
      · exact fresh_set ih hi
      · have hmem : (⟨i, c, r, tx.seen, σ.db, tx.log σ.db⟩ : AuthCommit) ∈ σ.history ++
            [⟨i, c, r, tx.seen, σ.db, tx.log σ.db⟩] := by simp
        have hok' := h'.commits _ hmem
        have hno : ∀ e' ∈ σ.history, e'.pid ≠ i := by
          refine h.no_commit_of_not_answered fun c' r' hans => ?_
          rw [hi] at hans
          simp at hans
        exact fresh_set (fresh_commit ih hok'.post hok'.invBefore hok'.invAfter h.chain.mem_states
          hi rfl hno) hi
      · exact fresh_set ih hi

end Fresh

-- ============================================================================
-- What a reset promises
-- ============================================================================

/-- What a new PIN promises of a run. -/
structure PinResetLaw (db0 : Db) (σ : State) : Prop where
  /-- Right after it the counter is 0 and the lock is clear. -/
  clear : ∀ f ∈ σ.history, ∀ userId, setsPin userId f →
    ∃ y ∈ f.after.users, y.id = userId ∧ y.pinHash = f.call.newHash ∧
      y.pinFailedAttempts = 0 ∧ y.lockedUntil = none
  /-- An attempt that compared against an earlier hash creates no session and changes
      no PIN column of the user. -/
  cutOff : ∀ pre f mid e post userId h, σ.history = pre ++ f :: mid ++ e :: post →
    setsPin userId f → attemptOn userId e → comparedHash e = some h →
    (∃ d ∈ states db0 pre, d.user userId fun x => x.pinHash = some h) →
    ¬ createsSession e ∧
      ∀ x ∈ e.before.users, x.id = userId → ∃ y ∈ e.after.users, y.id = userId ∧ y.pin = x.pin
  /-- Until the next reset they depend only on attempts against the new hash. -/
  onlyNew : ∀ pre f mid e post userId, σ.history = pre ++ f :: mid ++ e :: post →
    setsPin userId f → (∀ g ∈ mid ++ [e], ¬ setsPin userId g) →
    (∃ x ∈ e.before.users, x.id = userId ∧ ∃ y ∈ e.after.users, y.id = userId ∧ y.pin ≠ x.pin) →
    attemptOn userId e ∧ comparedHash e = f.call.newHash

section Law

variable {config : Config} {crypto : Crypto} {R : Prop} {db0 : Db} {σ : State} {userId : Id}
  (h : AuthSound config crypto R db0 σ)

theorem pinHash_of_pin {x y : User} (h : y.pin = x.pin) : y.pinHash = x.pinHash :=
  congrArg Prod.fst h

include h in
/-- The row of the user after a reset. -/
theorem reset_row {f : AuthCommit} (hf : f ∈ σ.history) (hset : setsPin userId f) :
    ∃ y ∈ f.after.users, y.id = userId ∧ y.pinHash = f.call.newHash ∧
      y.pinFailedAttempts = 0 ∧ y.lockedUntil = none := by
  obtain ⟨user, target, dto, pinHash, now, hcall, hid, hresult⟩ := hset
  have heffect := (h.commits f hf).post
  rw [hcall, hresult] at heffect
  generalize f.seen = seen at heffect
  generalize f.before = a at heffect
  generalize f.after = b at heffect ⊢
  cases heffect with
  | @pinSet _ _ _ _ _ _ _ u mem current =>
      have hu : u.id = toLowerCase target := by
        simp only [activeUserOf, Bool.and_eq_true, beq_iff_eq] at current
        exact current.1.1
      exact ⟨_, mem_changeUser_self mem hu, hu.trans hid, by rw [hcall]; rfl, rfl, rfl⟩

/-- A commit that is no reset keeps the hash. -/
theorem hash_step {e : AuthCommit} {x y : User} (hstep : PinStep config R e x y)
    (hid : x.id = userId) (hset : ¬ setsPin userId e) : y.pinHash = x.pinHash := by
  cases hstep with
  | same hpin _ => exact pinHash_of_pin hpin
  | login _ _ _ _ _ hpin => exact pinHash_of_pin (x := x.cleared) hpin
  | failed _ _ _ _ _ hpin => exact pinHash_of_pin (x := x.failed _) hpin
  | setPin hcall hid' hresult _ => exact absurd ⟨_, _, _, _, _, hcall, hid'.trans hid, hresult⟩ hset

include h in
/-- An attempt has an effect on the user only if it compared against the hash that is
    there when it commits. -/
theorem effective_attempt {e : AuthCommit} (he : e ∈ σ.history) {x : User}
    (hx : x ∈ e.before.users) (hid : x.id = userId) (hattempt : attemptOn userId e)
    (hne : comparedHash e ≠ x.pinHash) :
    ¬ createsSession e ∧ ∃ y ∈ e.after.users, y.id = userId ∧ y.pin = x.pin := by
  obtain ⟨y, hy, hyid, hstep⟩ := step_of_mem h he hx
  cases hstep with
  | same hpin hnot =>
      exact ⟨fun hcreates => hnot ⟨hid ▸ hattempt, hcreates⟩, y, hy, hyid.trans hid, hpin⟩
  | login _ _ _ hcompared _ _ => exact absurd hcompared hne
  | failed _ _ _ hcompared _ _ => exact absurd hcompared hne
  | setPin hcall _ _ _ =>
      obtain ⟨_, _, _, hcall', -⟩ := hattempt
      rw [hcall] at hcall'
      cases hcall'

include h in
/-- After a reset an earlier hash of the user never comes back. -/
theorem hash_gone (hfresh : Fresh db0 σ) {pre mid post : List AuthCommit} {f e : AuthCommit}
    (heq : σ.history = pre ++ f :: mid ++ e :: post) (hset : setsPin userId f) {hash : String}
    (hold : ∃ d ∈ states db0 pre, d.user userId fun x => x.pinHash = some hash) :
    ∃ x ∈ e.before.users, x.id = userId ∧ x.pinHash ≠ some hash := by
  obtain ⟨d, hd, u, hu, -, huh⟩ := hold
  have hf : f ∈ σ.history := by rw [heq]; simp
  -- no reset brings it back: its hash would not be fresh
  have hno : ∀ pre' g post', σ.history = pre' ++ g :: post' → d ∈ states db0 pre' →
      g.call.newHash ≠ some hash := fun pre' g post' hsplit hmem hg =>
    hfresh.committed pre' g post' hash hsplit hg d hmem ⟨u, hu, huh⟩
  obtain ⟨y0, hy0, hy0id, hy0h, -, -⟩ := reset_row h hf hset
  have hchain := h.chain
  rw [heq, List.append_assoc, List.cons_append] at hchain
  obtain ⟨hmid, -⟩ := hchain.split.2.split
  refine user_chain h
    (heq.trans (by simp : pre ++ f :: mid ++ e :: post = pre ++ [f] ++ mid ++ e :: post))
    (fun _ _ y => y.pinHash ≠ some hash) hmid ⟨y0, hy0, hy0id, ?_⟩ ?_
  · change y0.pinHash ≠ some hash
    rw [hy0h]
    exact hno pre f (mid ++ e :: post) (by rw [heq]; simp) hd
  · intro done g rest x y hsplit _ _ _ hxid _ hstep hQ
    cases hstep with
    | same hpin _ => exact pinHash_of_pin hpin ▸ hQ
    | login _ _ _ _ _ hpin => exact pinHash_of_pin (x := x.cleared) hpin ▸ hQ
    | failed _ _ _ _ _ hpin => exact pinHash_of_pin (x := x.failed _) hpin ▸ hQ
    | setPin hcall _ _ hpin =>
        have hg := hno (pre ++ f :: done) g (rest ++ e :: post)
          (by rw [heq, hsplit]; simp) (states_mono hd)
        rw [hcall] at hg
        intro hback
        exact hg ((congrArg Prod.fst hpin).symm.trans hback)

include h in
/-- Until the next reset the hash is the one the reset brought. -/
theorem hash_stays {pre mid post : List AuthCommit} {f e : AuthCommit}
    (heq : σ.history = pre ++ f :: mid ++ e :: post) (hset : setsPin userId f)
    (hno : ∀ g ∈ mid, ¬ setsPin userId g) :
    ∃ x ∈ e.before.users, x.id = userId ∧ x.pinHash = f.call.newHash := by
  have hf : f ∈ σ.history := by rw [heq]; simp
  obtain ⟨y0, hy0, hy0id, hy0h, -, -⟩ := reset_row h hf hset
  have hchain := h.chain
  rw [heq, List.append_assoc, List.cons_append] at hchain
  obtain ⟨hmid, -⟩ := hchain.split.2.split
  refine user_chain h
    (heq.trans (by simp : pre ++ f :: mid ++ e :: post = pre ++ [f] ++ mid ++ e :: post))
    (fun _ _ y => y.pinHash = f.call.newHash) hmid ⟨y0, hy0, hy0id, hy0h⟩ ?_
  intro done g rest x y hsplit _ _ _ hxid _ hstep hQ
  exact (hash_step hstep hxid (hno g (by rw [hsplit]; simp))).trans hQ

end Law

/-- **A new PIN cuts the old one off**, in every run whose new PINs get fresh hashes. -/
theorem pin_reset (config : Config) (crypto : Crypto) {db0 : Db} {σ : State}
    (h0 : db0.legal = true)
    (hrun : (auth config crypto).Run (fun σ l => freshSalt db0 σ l = true) db0 σ) :
    PinResetLaw db0 σ := by
  have h := reach_sound h0 hrun.reach
  have hfresh := fresh_of_run h0 (fun _ _ hok => hok) hrun
  constructor
  case clear => exact fun f hf userId hset => reset_row h hf hset
  case cutOff =>
    intro pre f mid e post userId hash heq hset hattempt hcompared hold
    have he : e ∈ σ.history := by rw [heq]; simp
    obtain ⟨x, hx, hid, hne⟩ := hash_gone h hfresh heq hset hold
    have hdiff : comparedHash e ≠ x.pinHash := fun heq => hne (heq ▸ hcompared)
    obtain ⟨hno, y, hy, hyid, hpin⟩ := effective_attempt h he hx hid hattempt hdiff
    refine ⟨hno, fun x' hx' hx'id => ⟨y, hy, hyid, ?_⟩⟩
    rw [user_unique (h.commits e he).invBefore hx' hx (hx'id.trans hid.symm)]
    exact hpin
  case onlyNew =>
    intro pre f mid e post userId heq hset hno hchanged
    have he : e ∈ σ.history := by rw [heq]; simp
    obtain ⟨x', hx', hx'id, y', hy', hy'id, hne⟩ := hchanged
    obtain ⟨x, hx, hid, hhash⟩ := hash_stays h heq hset fun g hg => hno g (by simp [hg])
    obtain rfl := user_unique (h.commits e he).invBefore hx' hx (hx'id.trans hid.symm)
    obtain ⟨y, hy, hyid, hstep⟩ := step_of_mem h he hx
    obtain rfl := user_unique (h.commits e he).invAfter hy' hy (hy'id.trans (hyid.trans hid).symm)
    cases hstep with
    | same hpin _ => exact absurd hpin hne
    | login hcall hid' _ hcompared _ _ =>
        exact ⟨⟨_, _, _, hcall, hid'.trans hid⟩, hcompared.trans hhash⟩
    | failed hcall hid' _ hcompared _ _ =>
        exact ⟨⟨_, _, _, hcall, hid'.trans hid⟩, hcompared.trans hhash⟩
    | setPin hcall hid' hresult _ =>
        exact absurd ⟨_, _, _, _, _, hcall, hid'.trans hid, hresult⟩ (hno e (by simp))

/-- A right guess reads the user, the PIN is reset, and the guess is refused. -/
theorem pin_reset_shop :
    ∃ σ : State, (auth Shop.config Shop.crypto).Run
        (fun σ l => freshSalt Shop.db σ l = true) Shop.db σ ∧
      PinResetLaw Shop.db σ ∧
      σ.history.map (fun e => (e.call, e.result.toOption)) =
        [(Shop.setPin "654321" 10, some .noContent), (Shop.guess "123456" 0 1, none)] := by
  obtain ⟨σ, hrun, hp⟩ := Shop.reached (freshSalt Shop.db)
    (.call (Shop.guess "123456" 0 1) :: Shop.stmts 0 1 ++
      .call (Shop.setPin "654321" 10) :: Shop.stmts 1 2 ++ .commit 1 ::
      Shop.stmts 0 1 ++ [.commit 0])
    (fun σ => σ.history.map (fun e => (e.call, e.result.toOption)) =
      [(Shop.setPin "654321" 10, some .noContent), (Shop.guess "123456" 0 1, none)])
    (by decide +kernel)
  simp only [decide_eq_true_eq] at hp
  exact ⟨σ, hrun, pin_reset Shop.config Shop.crypto Shop.legal hrun, hp⟩

end Kasir.Auth
