/-
  Kasir.Txn.LockOrder

  Locks that are taken in one order.

  A call waits for another one if the statement it is at needs a lock that the
  other one holds.  If every body asks for the locks of a class in one order that
  is common to all bodies, no calls wait for each other in a circle over locks of
  that class.
-/

import Kasir.Txn.Soundness
import Mathlib.Logic.Relation

namespace Txn

variable {D N L E X C R α β : Type}

-- ============================================================================
-- Waiting
-- ============================================================================

/-- The statement the `i`-th call is at needs the lock. -/
def App.Wants (app : App D N L E X C R) (σ : Sys D N L E X C R) (i : Nat) (l : L) : Prop :=
  ∃ c n tx locks write next env, σ.calls[i]? = some (c, .active n tx) ∧
    tx.prog = .stmt locks write next ∧
    l ∈ locks ⟨tx.log (readPoint (app.iso c) tx.snap σ.db), tx.log σ.db, env⟩

/-- The `i`-th call holds the lock. -/
def Sys.Holds (σ : Sys D N L E X C R) (i : Nat) (l : L) : Prop :=
  ∃ x, σ.calls[i]? = some x ∧ l ∈ x.2.held

/-- The `i`-th call waits for the `j`-th one to release a lock of the class `p`. -/
def App.Waits (app : App D N L E X C R) (p : L → Bool) (σ : Sys D N L E X C R) (i j : Nat) : Prop :=
  j ≠ i ∧ ∃ l, p l = true ∧ app.Wants σ i l ∧ σ.Holds j l

/-- The same, computed, for a statement that is supplied with `env`. -/
def App.waitsNow [DecidableEq L] (app : App D N L E X C R) (p : L → Bool)
    (σ : Sys D N L E X C R) (env : N) (i j : Nat) : Bool :=
  match σ.calls[i]?, σ.calls[j]? with
  | some (c, .active _ tx), some y =>
      match tx.prog with
      | .stmt locks _ _ =>
          (locks ⟨tx.log (readPoint (app.iso c) tx.snap σ.db), tx.log σ.db, env⟩).any fun l =>
            p l && y.2.held.contains l
      | _ => false
  | _, _ => false

theorem App.waits_of_waitsNow [DecidableEq L] {app : App D N L E X C R} {p : L → Bool}
    {σ : Sys D N L E X C R} {env : N} {i j : Nat} (hne : j ≠ i)
    (h : app.waitsNow p σ env i j = true) : app.Waits p σ i j := by
  unfold App.waitsNow at h
  split at h
  · rename_i c n tx y hi hj
    split at h
    · rename_i locks write next hp
      obtain ⟨l, hl, hlock⟩ := List.any_eq_true.mp h
      rw [Bool.and_eq_true, List.contains_iff_mem] at hlock
      exact ⟨hne, l, hlock.1, ⟨c, n, tx, locks, write, next, env, hi, hp, hl⟩, y, hj, hlock.2⟩
    · cases h
  · cases h

-- ============================================================================
-- Bodies that take their locks in order
-- ============================================================================

/-- All locks of the class that are held come before those that are asked for. -/
def InTurn (p : L → Bool) (lt : L → L → Prop) (held asked : List L) : Prop :=
  ∀ l ∈ asked, p l = true → l ∉ held → ∀ h ∈ held, p h = true → lt h l

/-- A body all of whose statements ask for locks in turn, whatever is committed
    between them, if committed states satisfy `G`.  `Q` holds of the result. -/
def Ordered (G : D → Prop) (p : L → Bool) (lt : L → L → Prop) (iso : Isolation) :
    Prog D N L E α → (α → St D L → Prop) → St D L → Prop
  | .ret a, Q, st => Q a st
  | .throw _, _, _ => True
  | .stmt locks write next, Q, st =>
      ∀ s db env, G s → G db → s = readPoint iso st.snap db →
        let v : View D N := ⟨st.log s, st.log db, env⟩
        InTurn p lt st.held (locks v) ∧
          Ordered G p lt iso (next v) Q (st.after s (write v) (locks v))

/-- A body that takes no lock of the class and keeps `G`, if what it sees satisfies
    `G`.  `Q` holds of the result. -/
def Prog.Calm (G : D → Prop) (p : L → Bool) : Prog D N L E α → (α → Prop) → Prop
  | .ret a, Q => Q a
  | .throw _, _ => True
  | .stmt locks write next, Q =>
      ∀ v : View D N, G v.snap → G v.cur →
        (∀ l ∈ locks v, p l = false) ∧ (∀ d, G d → G (write v d)) ∧ Calm G p (next v) Q

/-- The transaction's own changes keep `G`. -/
def Keeps (G : D → Prop) (st : St D L) : Prop := ∀ d, G d → G (st.log d)

section Rules

variable {G : D → Prop} {p : L → Bool} {lt : L → L → Prop} {iso : Isolation} {st : St D L}

namespace Prog

theorem calm_bind {x : Prog D N L E α} {f : α → Prog D N L E β} {Q : α → Prop} {Q' : β → Prop}
    (hx : x.Calm G p Q) (hf : ∀ a, Q a → (f a).Calm G p Q') : (x >>= f).Calm G p Q' := by
  induction x with
  | ret a => exact hf a hx
  | throw e => trivial
  | stmt locks write next ih =>
      intro v hsnap hcur
      obtain ⟨hlocks, hwrite, hnext⟩ := hx v hsnap hcur
      exact ⟨hlocks, hwrite, ih v hnext⟩

theorem calm_mono {x : Prog D N L E α} {Q Q' : α → Prop} (hx : x.Calm G p Q)
    (hQ : ∀ a, Q a → Q' a) : x.Calm G p Q' := by
  induction x with
  | ret a => exact hQ a hx
  | throw e => trivial
  | stmt locks write next ih =>
      intro v hsnap hcur
      obtain ⟨hlocks, hwrite, hnext⟩ := hx v hsnap hcur
      exact ⟨hlocks, hwrite, ih v hnext⟩

theorem calm_read {f : View D N → α} {Q : α → Prop}
    (h : ∀ v : View D N, G v.snap → G v.cur → Q (f v)) :
    (read f : Prog D N L E α).Calm G p Q :=
  fun v hsnap hcur => ⟨fun _ hl => (nomatch hl), fun _ hd => hd, h v hsnap hcur⟩

theorem calm_write {w : View D N → D → D} {f : View D N → α}
    (hw : ∀ v : View D N, G v.snap → ∀ d, G d → G (w v d)) :
    (write w f : Prog D N L E α).Calm G p fun _ => True :=
  fun v hsnap _ => ⟨fun _ hl => (nomatch hl), hw v hsnap, trivial⟩

theorem calm_guard (c : Bool) (e : E) :
    (guard c e : Prog D N L E Unit).Calm G p fun _ => c = true := by
  cases c with
  | true => exact rfl
  | false => trivial

theorem calm_require (o : Option α) (e : E) :
    (require o e : Prog D N L E α).Calm G p fun a => o = some a := by
  cases o with
  | some a => exact rfl
  | none => trivial

theorem calm_lift (x : Except E α) : (lift x : Prog D N L E α).Calm G p fun a => x = .ok a := by
  cases x with
  | ok a => exact rfl
  | error e => trivial

theorem calm_each {f : α → Prog D N L E β} (h : ∀ a, (f a).Calm G p fun _ => True) (as : List α) :
    (each f as).Calm G p fun _ => True := by
  induction as with
  | nil => trivial
  | cons a as ih => exact calm_bind (h a) fun _ _ => calm_bind ih fun _ _ => trivial

end Prog

theorem ordered_bind {x : Prog D N L E α} {f : α → Prog D N L E β} {Q : β → St D L → Prop} :
    Ordered G p lt iso (x >>= f) Q st =
      Ordered G p lt iso x (fun a st' => Ordered G p lt iso (f a) Q st') st := by
  induction x generalizing st with
  | ret a => rfl
  | throw e => rfl
  | stmt locks write next ih =>
      simp only [Prog.stmt_bind, Ordered]
      refine propext (forall_congr' fun s => forall_congr' fun db => forall_congr' fun env =>
        forall_congr' fun _ => forall_congr' fun _ => forall_congr' fun _ => ?_)
      rw [ih]

theorem ordered_mono {x : Prog D N L E α} {Q Q' : α → St D L → Prop}
    (hQ : ∀ a st', Q a st' → Q' a st') (hx : Ordered G p lt iso x Q st) :
    Ordered G p lt iso x Q' st := by
  induction x generalizing st with
  | ret a => exact hQ a st hx
  | throw e => trivial
  | stmt locks write next ih =>
      intro s db env hs hdb hpoint
      obtain ⟨hturn, hnext⟩ := hx s db env hs hdb hpoint
      exact ⟨hturn, ih _ hnext⟩

/-- A check sends no statement. -/
theorem ordered_guard {c : Bool} {e : E} {f : Unit → Prog D N L E β} {Q : β → St D L → Prop}
    (h : c = true → Ordered G p lt iso (f ()) Q st) :
    Ordered G p lt iso (Prog.guard c e >>= f) Q st := by
  cases c with
  | true => exact h rfl
  | false => trivial

theorem ordered_require {o : Option α} {e : E} {f : α → Prog D N L E β} {Q : β → St D L → Prop}
    (h : ∀ a, o = some a → Ordered G p lt iso (f a) Q st) :
    Ordered G p lt iso (Prog.require o e >>= f) Q st := by
  cases o with
  | some a => exact h a rfl
  | none => trivial

theorem ordered_lift {x : Except E α} {f : α → Prog D N L E β} {Q : β → St D L → Prop}
    (h : ∀ a, x = .ok a → Ordered G p lt iso (f a) Q st) :
    Ordered G p lt iso (Prog.lift x >>= f) Q st := by
  cases x with
  | ok a => exact h a rfl
  | error e => trivial

/-- What is known of fewer states is known if more is known of them. -/
theorem ordered_anti {G' : D → Prop} {x : Prog D N L E α} {Q : α → St D L → Prop}
    (hG : ∀ d, G' d → G d) (hx : Ordered G p lt iso x Q st) : Ordered G' p lt iso x Q st := by
  induction x generalizing st with
  | ret a => exact hx
  | throw e => trivial
  | stmt locks write next ih =>
      intro s db env hs hdb hpoint
      obtain ⟨hturn, hnext⟩ := hx s db env (hG s hs) (hG db hdb) hpoint
      exact ⟨hturn, ih _ hnext⟩

/-- The rule for loops: `I` relates the elements done so far and the transaction's
    state. -/
theorem ordered_each {f : α → Prog D N L E β} {as : List α} {Q : List β → St D L → Prop}
    (I : List α → St D L → Prop)
    (hstep : ∀ done a rest st', as = done ++ a :: rest → I done st' →
      Ordered G p lt iso (f a) (fun _ st'' => I (done ++ [a]) st'') st')
    (hinit : I [] st) (hpost : ∀ bs st', I as st' → Q bs st') :
    Ordered G p lt iso (Prog.each f as) Q st := by
  have key : ∀ (rest done : List α) (st' : St D L) (Q' : List β → St D L → Prop),
      as = done ++ rest → I done st' → (∀ bs st'', I as st'' → Q' bs st'') →
      Ordered G p lt iso (Prog.each f rest) Q' st' := by
    intro rest
    induction rest with
    | nil =>
        intro done st' Q' hdone hI hQ
        rw [List.append_nil] at hdone
        exact hQ [] st' (hdone ▸ hI)
    | cons a rest ih =>
        intro done st' Q' hdone hI hQ
        rw [Prog.each_cons, ordered_bind]
        refine ordered_mono ?_ (hstep done a rest st' hdone hI)
        intro b st'' hI'
        rw [ordered_bind]
        exact ih (done ++ [a]) st'' _ (by simpa using hdone) hI' fun bs st3 h3 => hQ _ st3 h3
  exact key as [] st Q rfl hinit hpost

/-- What a calm part leaves: the same locks of the class, and a log that keeps `G`. -/
structure CalmAfter (G : D → Prop) (p : L → Bool) (st st' : St D L) : Prop where
  held : st'.held.filter p = st.held.filter p
  keeps : Keeps G st'

/-- A calm body asks for its locks in turn. -/
theorem Prog.Calm.ordered {x : Prog D N L E α} {Q : α → Prop} (hx : x.Calm G p Q)
    (hst : Keeps G st) :
    Ordered G p lt iso x (fun a st' => Q a ∧ CalmAfter G p st st') st := by
  induction x generalizing st with
  | ret a => exact ⟨hx, rfl, hst⟩
  | throw e => trivial
  | stmt locks write next ih =>
      intro s db env hs hdb _
      obtain ⟨hlocks, hwrite, hnext⟩ := hx ⟨st.log s, st.log db, env⟩ (hst s hs) (hst db hdb)
      refine ⟨fun l hl hp => absurd hp (by rw [hlocks l hl]; exact Bool.false_ne_true), ?_⟩
      refine ordered_mono ?_ (ih _ hnext (fun d hd => hwrite _ (hst d hd)))
      rintro a st' ⟨ha, hheld, hkeeps⟩
      refine ⟨ha, ?_, hkeeps⟩
      have hnone : (locks ⟨st.log s, st.log db, env⟩).filter p = [] := by
        rw [List.filter_eq_nil_iff]
        intro l hl hp
        rw [hlocks l hl] at hp
        cases hp
      rw [hheld, St.after_held, List.filter_append, hnone, List.append_nil]

/-- A calm part and what follows it. -/
theorem Prog.Calm.andThen {x : Prog D N L E α} {f : α → Prog D N L E β} {Q : α → Prop}
    {Q' : β → St D L → Prop} (hx : x.Calm G p Q) (hst : Keeps G st)
    (hf : ∀ a st', Q a → CalmAfter G p st st' → Ordered G p lt iso (f a) Q' st') :
    Ordered G p lt iso (x >>= f) Q' st := by
  rw [ordered_bind]
  refine ordered_mono ?_ (hx.ordered hst)
  rintro a st' ⟨ha, hafter⟩
  exact hf a st' ha hafter

end Rules

-- ============================================================================
-- Runs
-- ============================================================================

section Runs

variable {app : App D N L E X C R} {p : L → Bool} {lt : L → L → Prop} {G : D → Prop}

/-- A running transaction goes on to ask for its locks in turn. -/
structure InOrder (G : D → Prop) (p : L → Bool) (lt : L → L → Prop) (iso : Isolation)
    (tx : Tx D N L E R) : Prop where
  prog : Ordered G p lt iso tx.prog (fun _ _ => True) tx.st
  snap : ∀ s, tx.snap = some s → G s

/-- The state a statement reads from. -/
theorem InOrder.readPoint {iso : Isolation} {tx : Tx D N L E R} {db : D}
    (h : InOrder G p lt iso tx) (hdb : G db) : G (Txn.readPoint iso tx.snap db) := by
  unfold Txn.readPoint
  cases hsnap : tx.snap with
  | none => cases iso <;> exact hdb
  | some s =>
      have hs := h.snap s hsnap
      cases iso <;> first | exact hdb | exact hs

/-- **Order.**  In a run whose states satisfy what the bodies need, every running
    call asks for its locks in turn. -/
theorem Run.inOrder {ok : Sys D N L E X C R → Label N E C → Prop} {db0 : D}
    {σ : Sys D N L E X C R} (fit : C → Prop) (hfit : ∀ σ c, ok σ (.call c) → fit c)
    (hdb : ∀ σ l, ok σ l → G σ.db)
    (hbody : ∀ c, fit c → Ordered G p lt (app.iso c) (app.body c) (fun _ _ => True) St.start)
    (h : app.Run ok db0 σ) : ∀ (i : Nat) (c : C) (n : Nat) (tx : Tx D N L E R),
      σ.calls[i]? = some (c, .active n tx) → InOrder G p lt (app.iso c) tx := by
  -- a call that is not in the list yet, or starts again, starts in order
  have hstart : ∀ {c : C} {cs : CallState D N L E X R} {n : Nat} {tx : Tx D N L E R}, fit c →
      (cs = app.enter c ∨ ∃ m e, cs = app.recover c m e) → cs = .active n tx →
      InOrder G p lt (app.iso c) tx := by
    intro c cs n tx hc hcs heq
    subst heq
    have htx : tx = Tx.start (app.body c) := by
      rcases hcs with hcs | ⟨m, e, hcs⟩
      · unfold App.enter at hcs
        split at hcs
        · cases hcs
        · cases hcs
          rfl
      · unfold App.recover at hcs
        split at hcs
        · cases hcs
        · cases hcs
          rfl
    subst htx
    exact ⟨hbody c hc, fun _ hs => by cases hs⟩
  induction h with
  | init =>
      intro i c n tx hi
      simp [Sys.init] at hi
  | @step σ σ' l hrun hok hstep ih =>
      have hcalls := hrun.calls fit hfit
      have hset : ∀ {j : Nat} {c : C} {cs cs' : CallState D N L E X R},
          σ.calls[j]? = some (c, cs) →
          (∀ n tx, cs' = .active n tx → InOrder G p lt (app.iso c) tx) →
          ∀ (i : Nat) (c' : C) (n : Nat) (tx : Tx D N L E R),
          (σ.calls.set j (c, cs'))[i]? = some (c', .active n tx) →
            InOrder G p lt (app.iso c') tx := by
        intro j c cs cs' hj hcs' i c' n tx hi
        rw [List.getElem?_set] at hi
        split at hi
        · split at hi
          · obtain ⟨rfl, hcs⟩ := Prod.mk.inj (Option.some.inj hi)
            exact hcs' n tx hcs
          · cases hi
        · exact ih i c' n tx hi
      obtain ⟨c, rfl, rfl⟩ | ⟨i, env, c, n, tx, locks, write, next, s, v, -, hi, hp, hs, hv, -, rfl⟩ |
        ⟨i, c, n, tx, r, -, hi, -, -, rfl⟩ | ⟨i, c, n, tx, e, -, hi, rfl⟩ := app.step_cases hstep
      · intro i c' n tx hi
        rw [List.getElem?_append] at hi
        split at hi
        · exact ih i c' n tx hi
        · rw [List.getElem?_singleton] at hi
          split at hi
          · obtain ⟨rfl, hcs⟩ := Prod.mk.inj (Option.some.inj hi)
            exact hstart (hfit σ _ hok) (Or.inl rfl) hcs
          · cases hi
      · refine hset hi ?_
        intro n' tx' htx
        cases htx
        have hold := ih i c n tx hi
        have hpoint : G s := hs ▸ hold.readPoint (hdb σ _ hok)
        have hprog := hold.prog
        rw [hp] at hprog
        subst hv
        refine ⟨(hprog s σ.db env hpoint (hdb σ _ hok) hs).2, fun s' hs' => ?_⟩
        obtain rfl := Option.some.inj hs'
        exact hpoint
      · refine hset hi ?_
        intro n' tx' htx
        cases htx
      · refine hset hi ?_
        intro n' tx' htx
        exact hstart (hcalls i _ hi) (Or.inr ⟨n, e, rfl⟩) htx

variable {σ : Sys D N L E X C R}
  (hin : ∀ (i : Nat) (c : C) (n : Nat) (tx : Tx D N L E R),
    σ.calls[i]? = some (c, .active n tx) → InOrder G p lt (app.iso c) tx)
  (hdb : G σ.db)
  (hexclusive : ∀ i j l, p l = true → σ.Holds i l → σ.Holds j l → i = j)

include hin hdb in
/-- What a call asks for comes after what it has. -/
theorem InOrder.wants {i : Nat} {l h : L} (hwants : app.Wants σ i l) (hl : p l = true)
    (hno : ¬ σ.Holds i l) (hholds : σ.Holds i h) (hh : p h = true) : lt h l := by
  obtain ⟨c, n, tx, locks, write, next, env, hi, hp, hmem⟩ := hwants
  have hold := hin i c n tx hi
  have hprog := hold.prog
  rw [hp] at hprog
  obtain ⟨hturn, -⟩ := hprog _ σ.db env (hold.readPoint hdb) hdb rfl
  obtain ⟨x, hx, hhx⟩ := hholds
  rw [hi] at hx
  obtain rfl := Option.some.inj hx
  exact hturn l hmem hl (fun hheld => hno ⟨_, hi, hheld⟩) h hhx hh

include hin hdb hexclusive in
/-- **No deadlock.**  Where every call takes the locks of the class in one strict
    order, no calls wait for each other in a circle. -/
theorem InOrder.no_deadlock (hirrefl : ∀ l, ¬ lt l l)
    (htrans : ∀ {a b c}, lt a b → lt b c → lt a c) (i : Nat) :
    ¬ Relation.TransGen (app.Waits p σ) i i := by
  -- along a chain of waiting calls the locks come in order
  have hchain : ∀ {i j : Nat}, Relation.TransGen (app.Waits p σ) i j →
      ∃ l l', p l = true ∧ p l' = true ∧ app.Wants σ i l ∧ ¬ σ.Holds i l ∧ σ.Holds j l' ∧
        (l = l' ∨ lt l l') := by
    intro i j h
    induction h with
    | @single j hij =>
        obtain ⟨hne, l, hl, hwants, hholds⟩ := hij
        exact ⟨l, l, hl, hl, hwants, fun hi => hne (hexclusive j i l hl hholds hi), hholds,
          Or.inl rfl⟩
    | @tail j k _ hjk ih =>
        obtain ⟨l, l', hl, hl', hwants, hno, hholds, hle⟩ := ih
        obtain ⟨hne, m, hm, hwants', hholds'⟩ := hjk
        have hlt : lt l' m := InOrder.wants hin hdb hwants' hm
          (fun hj => hne (hexclusive k j m hm hholds' hj)) hholds hl'
        refine ⟨l, m, hl, hm, hwants, hno, hholds', Or.inr ?_⟩
        rcases hle with rfl | hle
        · exact hlt
        · exact htrans hle hlt
  intro h
  obtain ⟨l, l', hl, hl', hwants, hno, hholds, hle⟩ := hchain h
  have hlt : lt l' l := InOrder.wants hin hdb hwants hl hno hholds hl'
  rcases hle with rfl | hle
  · exact hirrefl l hlt
  · exact hirrefl l (htrans hle hlt)

end Runs

end Txn
