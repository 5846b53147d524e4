/-
  Kasir.Txn.Projection

  One part of the database by itself.

  Many parties share the database, and each of them is to notice its own part only.
  `Within` says of a body that it stays within a part: locks, answers and errors depend
  on nothing else, what it writes to the part depends on nothing else, and whatever is
  kept elsewhere stays as it is.  It relates the body to the one that does the same on
  the part alone, which is the same body as a rule.

  Two results lift it to runs.  A commit leaves the other parts alone (`Run.commits_apart`).  And
  a run of all parties is, for one of them, a run in which nobody else takes a step on a
  database that holds nothing else (`Run.project`): the same calls get the same answers.
-/

import Kasir.Txn.Alone

namespace Txn

variable {D N L E X C R α β : Type}

-- ============================================================================
-- Bodies that stay within a part
-- ============================================================================

/-- What a statement sees of a part. -/
def View.map (part : D → D) (v : View D N) : View D N := ⟨part v.snap, part v.cur, v.env⟩

/-- Every result of a body has the property. -/
inductive Prog.Returns (Q : α → Prop) : Prog D N L E α → Prop
  | ret {a : α} (h : Q a) : Returns Q (.ret a)
  | throw (e : E) : Returns Q (.throw e)
  | stmt {locks write next} (h : ∀ v : View D N, Returns Q (next v)) :
      Returns Q (.stmt locks write next)

theorem Prog.returns_any (p : Prog D N L E α) : p.Returns fun _ => True := by
  induction p with
  | ret a => exact .ret trivial
  | throw e => exact .throw e
  | stmt locks write next ih => exact .stmt ih

theorem Prog.Returns.bind {Q : α → Prop} {M : β → Prop} {p : Prog D N L E α}
    {f : α → Prog D N L E β} (h : p.Returns Q) (hf : ∀ a, Q a → (f a).Returns M) :
    (p >>= f).Returns M := by
  induction h with
  | ret h => exact hf _ h
  | throw e => exact .throw e
  | stmt _ ih => exact .stmt ih

/-- A body stays within a part of databases with the property `J`, and `apart` relates
    the states before and after each change.  The other body does the same on the part
    alone.  The property may be given up on the way, for one that follows from it and
    suffices for the rest; `K` is what is left of it at the end. -/
inductive Prog.Within (part : D → D) (apart : D → D → Prop) (K : D → Prop) :
    (D → Prop) → Prog D N L E α → Prog D N L E α → Prop
  | ret {J} (a : α) (h : ∀ d, J d → K d) : Within part apart K J (.ret a) (.ret a)
  | throw {J} (e : E) : Within part apart K J (.throw e) (.throw e)
  | stmt {J Q locks locks' write write' next next'}
      (hlocks : ∀ v : View D N, J v.snap → J v.cur → locks' (v.map part) = locks v)
      (hwrite : ∀ v : View D N, J v.snap → J v.cur → ∀ d, J d →
        part (write v d) = write' (v.map part) (part d) ∧ apart d (write v d) ∧ Q (write v d))
      (hnext : ∀ v : View D N, J v.snap → J v.cur →
        Within part apart K Q (next v) (next' (v.map part))) :
      Within part apart K J (.stmt locks write next) (.stmt locks' write' next')

namespace Prog.Within

variable {part : D → D} {apart : D → D → Prop} {J K M : D → Prop}

/-- More may be known at the start. -/
theorem mono {p p' : Prog D N L E α} (h : Within part apart K J p p') (hJ : ∀ d, M d → J d) :
    Within part apart K M p p' := by
  cases h with
  | ret a hK => exact .ret a fun d hd => hK d (hJ d hd)
  | throw e => exact .throw e
  | stmt hlocks hwrite hnext =>
      exact .stmt (fun v hs hc => hlocks v (hJ _ hs) (hJ _ hc))
        (fun v hs hc d hd => hwrite v (hJ _ hs) (hJ _ hc) d (hJ d hd))
        fun v hs hc => hnext v (hJ _ hs) (hJ _ hc)

/-- What is related by less is related by more. -/
theorem weaken {apart' : D → D → Prop} {p p' : Prog D N L E α}
    (h : Within part apart K J p p') (hapart : ∀ d d', apart d d' → apart' d d') :
    Within part apart' K J p p' := by
  induction h with
  | ret a hK => exact .ret a hK
  | throw e => exact .throw e
  | stmt hlocks hwrite hnext ih =>
      apply Within.stmt hlocks _ ih
      intro v hs hc d hd
      obtain ⟨hpart, happart, hJ⟩ := hwrite v hs hc d hd
      exact ⟨hpart, hapart _ _ happart, hJ⟩

theorem bind {p p' : Prog D N L E α} {f f' : α → Prog D N L E β}
    (h : Within part apart K J p p') (hf : ∀ a, Within part apart M K (f a) (f' a)) :
    Within part apart M J (p >>= f) (p' >>= f') := by
  induction h with
  | ret a hK => exact (hf a).mono hK
  | throw e => exact .throw e
  | stmt hlocks hwrite hnext ih => exact .stmt hlocks hwrite ih

/-- What follows may rely on what the results have in common. -/
theorem bind_of {Q : α → Prop} {p p' : Prog D N L E α} {f f' : α → Prog D N L E β}
    (h : Within part apart K J p p') (hQ : p.Returns Q)
    (hf : ∀ a, Q a → Within part apart M K (f a) (f' a)) :
    Within part apart M J (p >>= f) (p' >>= f') := by
  induction h with
  | ret a hK =>
      cases hQ with
      | ret hQa => exact (hf a hQa).mono hK
  | throw e => exact .throw e
  | stmt hlocks hwrite _ ih =>
      cases hQ with
      | stmt hnext => exact .stmt hlocks hwrite fun v hs hc => ih v hs hc (hnext v)

/-- An answer is made of what a body returns. -/
theorem answer {p p' : Prog D N L E α} (h : Within part apart K J p p') (f : α → β) :
    Within part apart K J (p >>= fun a => .ret (f a)) (p' >>= fun a => .ret (f a)) :=
  h.bind fun a => .ret (f a) fun _ hd => hd

theorem lift (x : Except E α) : Within part apart J J (Prog.lift x : Prog D N L E α) (.lift x) := by
  cases x with
  | ok a => exact .ret a fun _ h => h
  | error e => exact .throw e

theorem guard (c : Bool) (e : E) :
    Within part apart J J (Prog.guard c e : Prog D N L E Unit) (.guard c e) := by
  cases c with
  | true => exact .ret () fun _ h => h
  | false => exact .throw e

theorem require (o : Option α) (e : E) :
    Within part apart J J (Prog.require o e : Prog D N L E α) (.require o e) := by
  cases o with
  | some a => exact .ret a fun _ h => h
  | none => exact .throw e

/-- The body goes on only where the condition holds. -/
theorem guard_bind {c : Bool} {e : E} {f f' : Unit → Prog D N L E β}
    (h : c = true → Within part apart K J (f ()) (f' ())) :
    Within part apart K J (Prog.guard c e >>= f) (.guard c e >>= f') := by
  cases c with
  | true => exact h rfl
  | false => exact .throw e

/-- The body goes on with what was computed. -/
theorem lift_bind {x : Except E α} {f f' : α → Prog D N L E β}
    (h : ∀ a, x = .ok a → Within part apart K J (f a) (f' a)) :
    Within part apart K J (Prog.lift x >>= f) (.lift x >>= f') := by
  cases x with
  | ok a => exact h a rfl
  | error e => exact .throw e

/-- What a read answers is told by the part. -/
theorem read_bind {f f' : View D N → α} {g g' : α → Prog D N L E β}
    (hapart : ∀ d, apart d d)
    (hf : ∀ v : View D N, J v.snap → J v.cur → f' (v.map part) = f v)
    (hg : ∀ v : View D N, J v.snap → J v.cur → Within part apart K J (g (f v)) (g' (f v))) :
    Within part apart K J (Prog.read f >>= g) (Prog.read f' >>= g') := by
  apply Within.stmt (Q := J)
  · intro v _ _
    rfl
  · intro v _ _ d hd
    exact ⟨rfl, hapart d, hd⟩
  · intro v hs hc
    show Within part apart K J (g (f v)) (g' (f' (v.map part)))
    rw [hf v hs hc]
    exact hg v hs hc

theorem read {f f' : View D N → α} (hapart : ∀ d, apart d d)
    (hf : ∀ v : View D N, J v.snap → J v.cur → f' (v.map part) = f v) :
    Within part apart J J (Prog.read f : Prog D N L E α) (.read f') := by
  apply Within.stmt (Q := J)
  · intro v _ _
    rfl
  · intro v _ _ d hd
    exact ⟨rfl, hapart d, hd⟩
  · intro v hs hc
    show Within part apart J J (Prog.ret (f v)) (Prog.ret (f' (v.map part)))
    rw [hf v hs hc]
    exact .ret _ fun _ h => h

/-- Locks are told by the part. -/
theorem lock {locks locks' : View D N → List L} (hapart : ∀ d, apart d d)
    (hlocks : ∀ v : View D N, J v.snap → J v.cur → locks' (v.map part) = locks v) :
    Within part apart J J (Prog.lock locks : Prog D N L E Unit) (.lock locks') :=
  .stmt hlocks (fun _ _ _ d hd => ⟨rfl, hapart d, hd⟩) fun _ _ _ => .ret () fun _ h => h

/-- A change, after which `K` is known. -/
theorem write {w w' : View D N → D → D} {f f' : View D N → α}
    (hf : ∀ v : View D N, J v.snap → J v.cur → f' (v.map part) = f v)
    (hw : ∀ v : View D N, J v.snap → J v.cur → ∀ d, J d →
      part (w v d) = w' (v.map part) (part d) ∧ apart d (w v d) ∧ K (w v d)) :
    Within part apart K J (Prog.write w f : Prog D N L E α) (.write w' f') := by
  refine Within.stmt (Q := K) ?_ hw ?_
  · intro v _ _
    rfl
  · intro v hs hc
    show Within part apart K K (Prog.ret (f v)) (Prog.ret (f' (v.map part)))
    rw [hf v hs hc]
    exact .ret _ fun _ h => h

theorem each {γ : Type} {f f' : γ → Prog D N L E β}
    (h : ∀ a, Within part apart J J (f a) (f' a)) (as : List γ) :
    Within part apart J J (Prog.each f as) (Prog.each f' as) := by
  induction as with
  | nil => exact .ret [] fun _ h => h
  | cons a as ih => exact (h a).bind fun b => ih.bind fun bs => .ret (b :: bs) fun _ h => h

/-- Alone, the body comes to the same result on the part. -/
theorem solo {d : D} {envs : Nat → N} {p p' : Prog D N L E α} (h : Within part apart K J p p')
    {n : Nat} {log log' : D → D} (hJ : J (log d)) (hlog : part (log d) = log' (part d)) :
    (p'.solo (part d) envs n log').result = (p.solo d envs n log).result ∧
      (p'.solo (part d) envs n log').log (part d) = part ((p.solo d envs n log).log d) := by
  induction h generalizing n log log' with
  | ret a _ => exact ⟨rfl, hlog.symm⟩
  | throw e => exact ⟨rfl, hlog.symm⟩
  | @stmt J Q locks locks' write write' next next' _ hwrite _ ih =>
      let v : View D N := ⟨log d, log d, envs n⟩
      have hview : (⟨log' (part d), log' (part d), envs n⟩ : View D N) = v.map part := by
        rw [← hlog]
        rfl
      obtain ⟨hpart, -, hQ⟩ := hwrite v hJ hJ (log d) hJ
      have hlog1 : part ((write v ∘ log) d) = (write' (v.map part) ∘ log') (part d) := by
        show part (write v (log d)) = write' (v.map part) (log' (part d))
        rw [hpart, hlog]
      simp only [Prog.solo, hview]
      exact ih v hJ hJ hQ hlog1

/-- What the body does alone is apart from the rest. -/
theorem solo_apart {d : D} {envs : Nat → N} {p p' : Prog D N L E α}
    (h : Within part apart K J p p') (hrefl : ∀ d, apart d d)
    (htrans : ∀ x y z, apart x y → apart y z → apart x z) {n : Nat} {log : D → D}
    (hJ : J (log d)) : apart (log d) ((p.solo d envs n log).log d) := by
  induction h generalizing n log with
  | ret a _ => exact hrefl _
  | throw e => exact hrefl _
  | @stmt J Q locks locks' write write' next next' _ hwrite _ ih =>
      let v : View D N := ⟨log d, log d, envs n⟩
      obtain ⟨-, hapart, hQ⟩ := hwrite v hJ hJ (log d) hJ
      have hQ1 : Q ((write v ∘ log) d) := hQ
      show apart (log d) ((Prog.solo d envs (next v) (n + 1) (write v ∘ log)).log d)
      exact htrans _ _ _ hapart (ih v hJ hJ hQ1)

end Prog.Within

-- ============================================================================
-- One party of a run
-- ============================================================================

/-- What a party sees of a commit. -/
def Commit.map (part : D → D) (image : C → C) (e : Commit D C R) : Commit D C R :=
  ⟨e.pid, image e.call, e.result, e.seen.map part, part e.before, part e.after⟩

/-- A call on the whole database and the same call on the part: both are answered alike,
    or what is left of the one stays within the part and is done by the other. -/
inductive Alike (part : D → D) (J : D → Prop) :
    CallState D N L E X R → CallState D N L E X R → Prop
  | done (a : Except X R) : Alike part J (.done a) (.done a)
  | active {n : Nat} {tx tx' : Tx D N L E R} {apart : D → D → Prop} {K Q : D → Prop}
      (hprog : tx.prog.Within part apart K Q tx'.prog)
      (hlog : ∀ d, J d → Q (tx.log d) ∧ part (tx.log d) = tx'.log (part d))
      (hsnap : tx'.snap = tx.snap.map part) (hsnaps : ∀ s ∈ tx.snap, J s)
      (hheld : tx'.held = tx.held) (hseen : tx'.seen = tx.seen.map part) :
      Alike part J (.active n tx) (.active n tx')

theorem Alike.held {part : D → D} {J : D → Prop} {cs cs' : CallState D N L E X R}
    (h : Alike part J cs cs') : cs'.held = cs.held := by
  cases h with
  | done a => rfl
  | active _ _ _ _ hheld _ => exact hheld

/-- The statement reads of the part what it reads of the database. -/
theorem readPoint_map {part : D → D} {iso : Isolation} {snap : Option D} {db : D} :
    readPoint iso (snap.map part) (part db) = part (readPoint iso snap db) := by
  cases iso <;> cases snap <;> rfl

theorem readPoint_of {J : D → Prop} {iso : Isolation} {snap : Option D} {db : D}
    (hsnap : ∀ s ∈ snap, J s) (hdb : J db) : J (readPoint iso snap db) := by
  cases iso with
  | readCommitted => exact hdb
  | repeatableRead | serializable =>
      cases snap with
      | none => exact hdb
      | some s => exact hsnap s rfl

/-- The calls of a party stay within its part, and the part is a database the schema
    admits.  `image` is what a call is on the part, the same call as a rule. -/
structure App.Party (app : App D N L E X C R) (part : D → D) (J : D → Prop) (mine : C → Bool)
    (image : C → C) : Prop where
  precheck : ∀ c, app.precheck (image c) = app.precheck c
  iso : ∀ c, app.iso (image c) = app.iso c
  handle : ∀ c n e, app.handle (image c) n e = app.handle c n e
  body : ∀ c, mine c = true → ∃ apart K, (app.body c).Within part apart K J (app.body (image c))
  legal : ∀ d, app.legal d = true → app.legal (part d) = true

/-- A call that runs alone changes nothing, or what its body changes. -/
theorem App.alone_db {app : App D N L E X C R} {c : C} {d d' : D} {envs : Nat → N}
    {x : Except X R} (halone : app.alone c d envs = some (x, d')) :
    d' = d ∨ (∃ r, x = .ok r) ∧ d' = ((app.body c).solo d envs 0 id).log d := by
  unfold App.alone at halone
  cases hpre : app.precheck c with
  | some e =>
      rw [hpre] at halone
      exact Or.inl (Prod.mk.inj (Option.some.inj halone)).2.symm
  | none =>
      rw [hpre] at halone
      revert halone
      generalize (app.body c).solo d envs 0 id = o
      obtain ⟨n, log, result⟩ := o
      intro halone
      cases result with
      | ok r =>
          dsimp only at halone
          split at halone
          · obtain ⟨rfl, rfl⟩ := Prod.mk.inj (Option.some.inj halone)
            exact Or.inr ⟨⟨r, rfl⟩, rfl⟩
          · cases halone
      | error e =>
          obtain ⟨y, -, heq⟩ := Option.map_eq_some_iff.mp halone
          exact Or.inl (Prod.mk.inj heq).2.symm

/-- Alone, a call of the party is answered on the part as on the whole database. -/
theorem App.Party.alone {app : App D N L E X C R} {part : D → D} {J : D → Prop} {mine : C → Bool}
    {image : C → C} (h : app.Party part J mine image) {c : C} (hc : mine c = true) {d d' : D}
    {envs : Nat → N} {x : Except X R} (hd : J d) (halone : app.alone c d envs = some (x, d')) :
    app.alone (image c) (part d) envs = some (x, part d') := by
  obtain ⟨apart, K, hbody⟩ := h.body c hc
  have hsolo : ((app.body (image c)).solo (part d) envs 0 id).result =
        ((app.body c).solo d envs 0 id).result ∧
      ((app.body (image c)).solo (part d) envs 0 id).log (part d) =
        part (((app.body c).solo d envs 0 id).log d) := hbody.solo hd rfl
  obtain ⟨hresult, hlog⟩ := hsolo
  unfold App.alone at halone ⊢
  rw [h.precheck]
  cases hpre : app.precheck c with
  | some e =>
      rw [hpre] at halone
      obtain ⟨rfl, rfl⟩ := Prod.mk.inj (Option.some.inj halone)
      rfl
  | none =>
      rw [hpre] at halone
      revert halone hresult hlog
      generalize (app.body c).solo d envs 0 id = o
      generalize (app.body (image c)).solo (part d) envs 0 id = o'
      obtain ⟨n, log, result⟩ := o
      obtain ⟨n', log', result'⟩ := o'
      dsimp only
      rintro halone rfl hlog
      cases result' with
      | ok r =>
          dsimp only at halone ⊢
          split at halone
          · rename_i hlegal
            obtain ⟨rfl, rfl⟩ := Prod.mk.inj (Option.some.inj halone)
            rw [hlog, if_pos (h.legal _ hlegal)]
          · cases halone
      | error e =>
          dsimp only at halone ⊢
          rw [h.handle]
          cases hhandle : app.handle c 0 e with
          | none =>
              rw [hhandle] at halone
              cases halone
          | some e' =>
              rw [hhandle] at halone
              obtain ⟨rfl, rfl⟩ := Prod.mk.inj (Option.some.inj halone)
              rfl

/-- A run and what one party sees of it: nobody else has taken a step. -/
structure Projected (app : App D N L E X C R) (part : D → D) (J : D → Prop) (mine : C → Bool)
    (image : C → C) (σ σ' : Sys D N L E X C R) : Prop where
  db : σ'.db = part σ.db
  known : J σ.db
  history : σ'.history = (σ.history.filter fun e => mine e.call).map (Commit.map part image)
  length : σ'.calls.length = σ.calls.length
  calls : ∀ (i : Nat) (c : C) (cs : CallState D N L E X R), σ.calls[i]? = some (c, cs) →
    ∃ cs', σ'.calls[i]? = some (image c, cs') ∧
    (mine c = true → Alike part J cs cs') ∧ (mine c = false → cs' = app.enter (image c))

namespace Projected

variable {app : App D N L E X C R} {part : D → D} {J : D → Prop} {mine : C → Bool}
  {image : C → C} {σ σ' : Sys D N L E X C R}

/-- One call of each run moves on, and they stay alike. -/
theorem calls_set (h : Projected app part J mine image σ σ') {i : Nat} {c : C}
    {cs cs' : CallState D N L E X R} (hmine : mine c = true → Alike part J cs cs')
    (hother : mine c = false → cs' = app.enter (image c)) :
    ∀ (j : Nat) (c1 : C) (cs1 : CallState D N L E X R),
      (σ.calls.set i (c, cs))[j]? = some (c1, cs1) →
      ∃ cs1', (σ'.calls.set i (image c, cs'))[j]? = some (image c1, cs1') ∧
        (mine c1 = true → Alike part J cs1 cs1') ∧
        (mine c1 = false → cs1' = app.enter (image c1)) := by
  intro j c1 cs1 hj
  rw [List.getElem?_set] at hj
  by_cases hij : i = j
  · subst hij
    rw [if_pos rfl] at hj
    split at hj
    · rename_i hlt
      obtain ⟨rfl, rfl⟩ := Prod.mk.inj (Option.some.inj hj)
      refine ⟨cs', ?_, hmine, hother⟩
      have hlt' : i < σ'.calls.length := by
        rw [h.length]
        exact hlt
      exact List.getElem?_set_self hlt'
    · cases hj
  · rw [if_neg hij] at hj
    obtain ⟨cs1', hj', hrel⟩ := h.calls j c1 cs1 hj
    refine ⟨cs1', ?_, hrel⟩
    rw [List.getElem?_set_ne hij]
    exact hj'

/-- Fewer locks are held where only one party takes steps. -/
theorem grantable (h : Projected app part J mine image σ σ') {i : Nat} {ls : List L}
    (hg : app.grantable σ.calls i ls = true) : app.grantable σ'.calls i ls = true := by
  rw [App.grantable_iff] at hg ⊢
  intro j x hj hji l hl l' hl'
  have hlt : j < σ.calls.length := by
    rw [← h.length]
    exact (List.getElem?_eq_some_iff.mp hj).1
  obtain ⟨cs', hj', hmine, hother⟩ := h.calls j σ.calls[j].1 σ.calls[j].2
    (List.getElem?_eq_getElem hlt)
  obtain rfl := Option.some.inj (hj'.symm.trans hj)
  cases hm : mine σ.calls[j].1 with
  | true =>
      have hheld : cs'.held = σ.calls[j].2.held := (hmine hm).held
      rw [show (image σ.calls[j].1, cs').2 = cs' from rfl, hheld] at hl'
      exact hg j _ (List.getElem?_eq_getElem hlt) hji l hl l' hl'
  | false =>
      -- a call that has only entered holds no lock
      have hnone : cs'.held = [] := by
        rw [hother hm]
        unfold App.enter
        split <;> rfl
      rw [show (image σ.calls[j].1, cs').2 = cs' from rfl, hnone] at hl'
      cases hl'

/-- A call starts alike. -/
theorem alike_start (hparty : app.Party part J mine image) {c : C} (hmine : mine c = true)
    (n : Nat) : Alike part J (.active n (Tx.start (app.body c)) : CallState D N L E X R)
      (.active n (Tx.start (app.body (image c)))) := by
  obtain ⟨apart, K, hbody⟩ := hparty.body c hmine
  exact .active hbody (fun d hd => ⟨hd, rfl⟩) rfl (fun _ hs => nomatch hs) rfl rfl

theorem alike_enter (hparty : app.Party part J mine image) {c : C} (hmine : mine c = true) :
    Alike part J (app.enter c) (app.enter (image c)) := by
  unfold App.enter
  rw [hparty.precheck]
  cases app.precheck c with
  | some x => exact .done _
  | none => exact alike_start hparty hmine 0

theorem alike_recover (hparty : app.Party part J mine image) {c : C} (hmine : mine c = true)
    (n : Nat) (e : E) : Alike part J (app.recover c n e) (app.recover (image c) n e) := by
  unfold App.recover
  rw [hparty.handle]
  cases app.handle c n e with
  | some x => exact .done _
  | none => exact alike_start hparty hmine (n + 1)

/-- A call enters both runs. -/
theorem call (h : Projected app part J mine image σ σ')
    (hparty : app.Party part J mine image) (c : C) :
    Projected app part J mine image { σ with calls := σ.calls ++ [(c, app.enter c)] }
      { σ' with calls := σ'.calls ++ [(image c, app.enter (image c))] } where
  db := h.db
  known := h.known
  history := h.history
  length := by
    rw [List.length_append, List.length_append, h.length]
    rfl
  calls := by
    intro i c1 cs1 hi
    rw [List.getElem?_append] at hi ⊢
    rw [h.length]
    by_cases hlt : i < σ.calls.length
    · rw [if_pos hlt] at hi ⊢
      exact h.calls i c1 cs1 hi
    · rw [if_neg hlt, List.getElem?_singleton] at hi ⊢
      split at hi
      · rename_i hlast
        rw [if_pos hlast]
        obtain ⟨rfl, rfl⟩ := Prod.mk.inj (Option.some.inj hi)
        exact ⟨app.enter (image c), rfl, alike_enter hparty, fun _ => rfl⟩
      · cases hi

/-- Nobody of the party is concerned. -/
theorem others (h : Projected app part J mine image σ σ') {i : Nat} {c : C} (hc : mine c = false)
    {cs : CallState D N L E X R} (hi : σ.calls[i]? = some (c, cs)) (cs1 : CallState D N L E X R)
    {db : D} {k : List (Commit D C R)} (hdb : part db = part σ.db) (hknown : J db)
    (hes : ∀ e ∈ k, mine e.call = false) :
    Projected app part J mine image
      { db := db, calls := σ.calls.set i (c, cs1), history := σ.history ++ k } σ' where
  db := h.db.trans hdb.symm
  known := hknown
  history := by
    have hnone : (k.filter fun e => mine e.call) = [] :=
      List.filter_eq_nil_iff.mpr fun e he => by simp [hes e he]
    rw [List.filter_append, hnone, List.append_nil]
    exact h.history
  length := by
    rw [List.length_set]
    exact h.length
  calls := by
    obtain ⟨cs', hi', -, hother⟩ := h.calls i c cs hi
    intro j c1 cs1' hj
    obtain ⟨cs2, hj', hrel⟩ := h.calls_set (i := i) (c := c)
      (fun hm => absurd (hm.symm.trans hc) (Bool.noConfusion)) (fun _ => hother hc) j c1 cs1' hj
    refine ⟨cs2, ?_, hrel⟩
    by_cases hij : i = j
    · subst hij
      rw [List.getElem?_set_self (List.getElem?_eq_some_iff.mp hi').1] at hj'
      rw [hi', ← hj']
    · rw [List.getElem?_set_ne hij] at hj'
      exact hj'

/-- The party's call moves on in both runs. -/
theorem both (h : Projected app part J mine image σ σ') {i : Nat} {c : C} (hc : mine c = true)
    {cs cs' : CallState D N L E X R} (hcs : Alike part J cs cs') {db : D}
    {k : List (Commit D C R)} (hknown : J db) (hes : ∀ e ∈ k, mine e.call = true) :
    Projected app part J mine image
      { db := db, calls := σ.calls.set i (c, cs), history := σ.history ++ k }
      { db := part db, calls := σ'.calls.set i (image c, cs')
        history := σ'.history ++ k.map (Commit.map part image) } where
  db := rfl
  known := hknown
  history := by
    rw [List.filter_append, List.filter_eq_self.mpr hes, List.map_append, h.history]
  length := by
    rw [List.length_set, List.length_set]
    exact h.length
  calls := h.calls_set (fun _ => hcs) fun hm => absurd (hm.symm.trans hc) Bool.noConfusion

/-- A statement of the party. -/
theorem stmt (h : Projected app part J mine image σ σ') (hparty : app.Party part J mine image)
    {i n : Nat} {c : C} (hc : mine c = true) {tx : Tx D N L E R} {locks write next} {s : D}
    {v : View D N} (hi : σ.calls[i]? = some (c, .active n tx))
    (hprog : tx.prog = .stmt locks write next) (hs : s = readPoint (app.iso c) tx.snap σ.db)
    {env : N} (hv : v = ⟨tx.log s, tx.log σ.db, env⟩)
    (hg : app.grantable σ.calls i (locks v) = true) :
    ∃ σ1', app.step σ' (.stmt i env) = some σ1' ∧
      Projected app part J mine image
        { σ with calls := σ.calls.set i (c, .active n
          { prog := next v, snap := some s, log := write v ∘ tx.log
            held := tx.held ++ locks v, seen := tx.seen ++ [s] }) } σ1' := by
  obtain ⟨cs', hi', hmine, -⟩ := h.calls i c _ hi
  have halike := hmine hc
  cases halike with
  | @active n tx tx' apart K Q hwithin hlog hsnap hsnaps hheld hseen =>
      rw [hprog] at hwithin
      cases hprog' : tx'.prog with
      | ret a =>
          rw [hprog'] at hwithin
          cases hwithin
      | throw e =>
          rw [hprog'] at hwithin
          cases hwithin
      | stmt locks' write' next' =>
          rw [hprog'] at hwithin
          cases hwithin with
          | @stmt _ Q' _ _ _ _ _ _ hlocks hwrite hnext =>
              have hJs : J s := hs ▸ readPoint_of hsnaps h.known
              have hpoint : readPoint (app.iso (image c)) tx'.snap σ'.db = part s := by
                rw [hparty.iso, hsnap, h.db, readPoint_map, ← hs]
              -- what the statement sees of the part
              have hview : (⟨tx'.log (part s), tx'.log σ'.db, env⟩ : View D N) = v.map part := by
                rw [hv, h.db, ← (hlog s hJs).2, ← (hlog σ.db h.known).2]
                rfl
              have hQs : Q v.snap := by
                rw [hv]
                exact (hlog s hJs).1
              have hQc : Q v.cur := by
                rw [hv]
                exact (hlog σ.db h.known).1
              have hlocks' : locks' (v.map part) = locks v := hlocks v hQs hQc
              have hgrant : app.grantable σ'.calls i (locks' (v.map part)) = true := by
                rw [hlocks']
                exact h.grantable hg
              let tx1 : Tx D N L E R :=
                { prog := next v, snap := some s, log := write v ∘ tx.log
                  held := tx.held ++ locks v, seen := tx.seen ++ [s] }
              let tx1' : Tx D N L E R :=
                { prog := next' (v.map part), snap := some (part s)
                  log := write' (v.map part) ∘ tx'.log, held := tx'.held ++ locks' (v.map part)
                  seen := tx'.seen ++ [part s] }
              have hlog1 : ∀ d, J d → Q' (tx1.log d) ∧ part (tx1.log d) = tx1'.log (part d) := by
                intro d hd
                obtain ⟨hpart, -, hQ'⟩ := hwrite v hQs hQc (tx.log d) (hlog d hd).1
                refine ⟨hQ', ?_⟩
                show part (write v (tx.log d)) = write' (v.map part) (tx'.log (part d))
                rw [hpart, (hlog d hd).2]
              have halike1 : Alike part J (.active n tx1 : CallState D N L E X R)
                  (.active n tx1') := by
                apply Alike.active (hnext v hQs hQc) hlog1 rfl
                · intro s' hs'
                  exact Option.some.inj hs' ▸ hJs
                · show tx'.held ++ locks' (v.map part) = tx.held ++ locks v
                  rw [hheld, hlocks']
                · show tx'.seen ++ [part s] = (tx.seen ++ [s]).map part
                  rw [hseen, List.map_append]
                  rfl
              have hboth := h.both (i := i) hc halike1 h.known (k := []) fun _ he => nomatch he
              rw [List.map_nil, List.append_nil, List.append_nil, ← h.db] at hboth
              refine ⟨_, ?_, hboth⟩
              simp only [App.step, hi', hprog', hpoint, hview, hgrant, if_true]
              rfl

/-- A commit of the party. -/
theorem commit (h : Projected app part J mine image σ σ') (hparty : app.Party part J mine image)
    {i n : Nat} {c : C} (hc : mine c = true) {tx : Tx D N L E R} {r : R}
    (hi : σ.calls[i]? = some (c, .active n tx)) (hprog : tx.prog = .ret r)
    (hlegal : app.legal (tx.log σ.db) = true) (hknown : J (tx.log σ.db)) :
    ∃ σ1', app.step σ' (.commit i) = some σ1' ∧
      Projected app part J mine image
        { db := tx.log σ.db, calls := σ.calls.set i (c, .done (.ok r))
          history := σ.history ++ [⟨i, c, r, tx.seen, σ.db, tx.log σ.db⟩] } σ1' := by
  obtain ⟨cs', hi', hmine, -⟩ := h.calls i c _ hi
  have halike := hmine hc
  cases halike with
  | @active n tx tx' apart K Q hwithin hlog hsnap hsnaps hheld hseen =>
      have hprog' : tx'.prog = .ret r := by
        rw [hprog] at hwithin
        generalize tx'.prog = p' at hwithin
        cases hwithin with
        | ret a _ => rfl
      have hdb : tx'.log σ'.db = part (tx.log σ.db) := by
        rw [h.db, (hlog σ.db h.known).2]
      have hlegal' : app.legal (tx'.log σ'.db) = true := by
        rw [hdb]
        exact hparty.legal _ hlegal
      have hboth := h.both (i := i) hc (.done (.ok r)) hknown
        (k := [⟨i, c, r, tx.seen, σ.db, tx.log σ.db⟩])
        fun e he => (List.mem_singleton.mp he) ▸ hc
      refine ⟨_, ?_, hboth⟩
      simp only [App.step, hi', hprog', hlegal', if_true]
      rw [hdb, h.db, hseen]
      rfl

/-- A transaction of the party ends with an error. -/
theorem error (h : Projected app part J mine image σ σ') (hparty : app.Party part J mine image)
    {i n : Nat} {c : C} (hc : mine c = true) {tx : Tx D N L E R} {e : E} {l : Label N E C}
    (hi : σ.calls[i]? = some (c, .active n tx))
    (hl : (l = .abort i ∧ tx.prog = .throw e) ∨ l = .fault i e)
    (hfault : l = .fault i e → app.fault e = true) :
    ∃ σ1', app.step σ' l = some σ1' ∧
      Projected app part J mine image
        { σ with calls := σ.calls.set i (c, app.recover c n e) } σ1' := by
  obtain ⟨cs', hi', hmine, -⟩ := h.calls i c _ hi
  have halike := hmine hc
  have hboth := h.both (i := i) hc (alike_recover hparty hc n e) h.known (k := [])
    fun _ he => nomatch he
  rw [List.map_nil, List.append_nil, List.append_nil, ← h.db] at hboth
  refine ⟨_, ?_, hboth⟩
  cases halike with
  | @active n tx tx' apart K Q hwithin hlog hsnap hsnaps hheld hseen =>
      rcases hl with ⟨rfl, hprog⟩ | rfl
      · have hprog' : tx'.prog = .throw e := by
          rw [hprog] at hwithin
          generalize tx'.prog = p' at hwithin
          cases hwithin with
          | throw e => rfl
        simp only [App.step, hi', hprog']
      · simp only [App.step, hi', hfault rfl, if_true]

/-- **One step.**  A step of the party is a step of the part; a step of anybody else is
    none, if what the others commit leaves the part alone. -/
theorem step (h : Projected app part J mine image σ σ') (hparty : app.Party part J mine image)
    {σ1 : Sys D N L E X C R} {l : Label N E C} (hstep : app.step σ l = some σ1)
    (hknown : J σ1.db)
    (hhidden : ∀ e ∈ σ1.history, mine e.call = false → part e.after = part e.before) :
    ∃ σ1', (σ1' = σ' ∨ ∃ l', app.step σ' l' = some σ1') ∧
      Projected app part J mine image σ1 σ1' := by
  obtain ⟨c, rfl, rfl⟩ | ⟨i, env, c, n, tx, locks, write, next, s, v, rfl, hi, hprog, hs, hv, hg,
      rfl⟩ | ⟨i, c, n, tx, r, rfl, hi, hprog, hlegal, rfl⟩ | ⟨i, c, n, tx, e, hl, hi, rfl⟩ :=
    app.step_cases hstep
  · exact ⟨_, Or.inr ⟨.call (image c), rfl⟩, h.call hparty c⟩
  · cases hm : mine c with
    | true =>
        obtain ⟨σ1', hstep', hrel⟩ := h.stmt hparty hm hi hprog hs hv hg
        exact ⟨σ1', Or.inr ⟨_, hstep'⟩, hrel⟩
    | false =>
        have hother := h.others hm hi (.active n
          { prog := next v, snap := some s, log := write v ∘ tx.log, held := tx.held ++ locks v
            seen := tx.seen ++ [s] }) rfl h.known (k := []) fun _ he => nomatch he
        rw [List.append_nil] at hother
        exact ⟨σ', Or.inl rfl, hother⟩
  · cases hm : mine c with
    | true =>
        obtain ⟨σ1', hstep', hrel⟩ := h.commit hparty hm hi hprog hlegal hknown
        exact ⟨σ1', Or.inr ⟨_, hstep'⟩, hrel⟩
    | false =>
        have hpart := hhidden ⟨i, c, r, tx.seen, σ.db, tx.log σ.db⟩
          (List.mem_append_right _ (List.mem_singleton_self _)) hm
        exact ⟨σ', Or.inl rfl, h.others hm hi _ hpart hknown
          fun e he => (List.mem_singleton.mp he) ▸ hm⟩
  · cases hm : mine c with
    | true =>
        have hfault : l = .fault i e → app.fault e = true := by
          rintro rfl
          simp only [App.step, hi] at hstep
          split at hstep
          · assumption
          · cases hstep
        obtain ⟨σ1', hstep', hrel⟩ := h.error hparty hm hi hl hfault
        exact ⟨σ1', Or.inr ⟨_, hstep'⟩, hrel⟩
    | false =>
        have hother := h.others hm hi (app.recover c n e) rfl h.known (k := [])
          fun _ he => nomatch he
        rw [List.append_nil] at hother
        exact ⟨σ', Or.inl rfl, hother⟩

end Projected

namespace App

variable {app : App D N L E X C R} {part : D → D} {J : D → Prop} {mine : C → Bool}
  {image : C → C} {db0 : D} {σ : Sys D N L E X C R}
  {ok : Sys D N L E X C R → Label N E C → Prop}

/-- The last committed state is the first one or that of a commit. -/
theorem Run.db_of_history (h : app.Run ok db0 σ) (P : D → Prop) (h0 : P db0)
    (hP : ∀ e ∈ σ.history, P e.after) : P σ.db := by
  induction h with
  | init => exact h0
  | @step σ σ1 l _ _ hstep ih =>
      obtain ⟨c, rfl, rfl⟩ | ⟨i, env, c, n, tx, locks, write, next, s, v, rfl, hi, -, -, -, -,
          rfl⟩ | ⟨i, c, n, tx, r, rfl, hi, -, -, rfl⟩ | ⟨i, c, n, tx, e, hl, hi, rfl⟩ :=
        app.step_cases hstep
      · exact ih hP
      · exact ih hP
      · exact hP ⟨i, c, r, tx.seen, σ.db, tx.log σ.db⟩
          (List.mem_append_right _ (List.mem_singleton_self _))
      · exact ih hP

/-- What is committed stays in the history. -/
theorem history_of_step {σ σ1 : Sys D N L E X C R} {l : Label N E C}
    (hstep : app.step σ l = some σ1) : ∀ e ∈ σ.history, e ∈ σ1.history := by
  obtain ⟨c, rfl, rfl⟩ | ⟨i, env, c, n, tx, locks, write, next, s, v, rfl, hi, -, -, -, -,
      rfl⟩ | ⟨i, c, n, tx, r, rfl, hi, -, -, rfl⟩ | ⟨i, c, n, tx, e, hl, hi, rfl⟩ :=
    app.step_cases hstep
  · exact fun _ he => he
  · exact fun _ he => he
  · exact fun _ he => List.mem_append_left _ he
  · exact fun _ he => he

/-- **A run as one party sees it** is a run on the party's part of the database, in which
    nobody else takes a step.  The induction is on the run. -/
theorem Run.project (h : app.Run ok db0 σ) (hparty : app.Party part J mine image) (h0 : J db0)
    (hknown : ∀ e ∈ σ.history, J e.after)
    (hhidden : ∀ e ∈ σ.history, mine e.call = false → part e.after = part e.before) :
    ∃ σ', app.Reach (part db0) σ' ∧ Projected app part J mine image σ σ' := by
  induction h with
  | init =>
      exact ⟨Sys.init (part db0), .init, rfl, h0, rfl, rfl, fun i c cs hi => by
        simp [Sys.init] at hi⟩
  | @step σ σ1 l hrun hl hstep ih =>
      have hkeep := history_of_step hstep
      obtain ⟨σ', hreach, hrel⟩ := ih (fun e he => hknown e (hkeep e he))
        fun e he => hhidden e (hkeep e he)
      have hdb : J σ1.db := (hrun.step hl hstep).db_of_history J h0 hknown
      obtain ⟨σ1', hnext, hrel1⟩ := hrel.step hparty hstep hdb hhidden
      rcases hnext with rfl | ⟨l', hstep'⟩
      · exact ⟨σ1', hreach, hrel1⟩
      · exact ⟨σ1', hreach.step trivial hstep', hrel1⟩

-- ============================================================================
-- What the others keep
-- ============================================================================

/-- What is left of a call stays within its part, and so has what it did so far. -/
structure Contained (J : D → Prop) (apart : D → D → Prop) (tx : Tx D N L E R) : Prop where
  log : ∃ part K Q p', tx.prog.Within part apart K Q p' ∧
    ∀ d, J d → Q (tx.log d) ∧ apart d (tx.log d)
  snap : ∀ s ∈ tx.snap, J s

section Apart

variable {A : C → D → D → Prop} {S : C → Prop}

theorem contained_start (hrefl : ∀ c d, A c d d) {c : C} {part : D → D} {K : D → Prop}
    {p' : Prog D N L E R} (hbody : (app.body c).Within part (A c) K J p') :
    Contained J (A c) (Tx.start (app.body c)) where
  log := ⟨part, K, J, p', hbody, fun d hd => ⟨hd, hrefl c d⟩⟩
  snap := fun _ hs => nomatch hs

/-- Every commit of a body that stays within a part is apart from the rest. -/
theorem Run.commits_apart (h : app.Run ok db0 σ) (hrefl : ∀ c d, A c d d)
    (htrans : ∀ c x y z, A c x y → A c y z → A c x z) (h0 : J db0)
    (hknown : ∀ e ∈ σ.history, J e.after)
    (hbody : ∀ c, S c → ∃ part K p', (app.body c).Within part (A c) K J p') :
    (∀ (i : Nat) (c : C) (n : Nat) (tx : Tx D N L E R), σ.calls[i]? = some (c, .active n tx) →
      S c → Contained J (A c) tx) ∧
    ∀ e ∈ σ.history, S e.call → A e.call e.before e.after := by
  induction h with
  | init =>
      constructor
      · intro i c n tx hi
        simp [Sys.init] at hi
      · intro e he
        simp [Sys.init] at he
  | @step σ σ1 l hrun hl hstep ih =>
      have hkeep := history_of_step hstep
      obtain ⟨hcalls, hcommits⟩ := ih fun e he => hknown e (hkeep e he)
      have hdb : J σ.db := hrun.db_of_history J h0 fun e he => hknown e (hkeep e he)
      have hstart : ∀ c n n' (tx : Tx D N L E R), S c →
          (CallState.active n tx : CallState D N L E X R) = .active n' (Tx.start (app.body c)) →
          Contained J (A c) tx := by
        intro c n n' tx hsel heq
        obtain ⟨part, K, p', hwithin⟩ := hbody c hsel
        obtain ⟨-, rfl⟩ := CallState.active.inj heq
        exact contained_start hrefl hwithin
      -- the other calls stay where they are
      have hset : ∀ {i : Nat} {c : C} {cs : CallState D N L E X R},
          (∀ n tx, cs = .active n tx → S c → Contained J (A c) tx) →
          ∀ (j : Nat) (c1 : C) (n1 : Nat) (tx1 : Tx D N L E R),
            (σ.calls.set i (c, cs))[j]? = some (c1, .active n1 tx1) → S c1 →
            Contained J (A c1) tx1 := by
        intro i c cs hnew j c1 n1 tx1 hj hsel
        rw [List.getElem?_set] at hj
        split at hj
        · split at hj
          · obtain ⟨rfl, rfl⟩ := Prod.mk.inj (Option.some.inj hj)
            exact hnew n1 tx1 rfl hsel
          · cases hj
        · exact hcalls j c1 n1 tx1 hj hsel
      obtain ⟨c, rfl, rfl⟩ | ⟨i, env, c, n, tx, locks, write, next, s, v, rfl, hi, hprog, hs, hv,
          -, rfl⟩ | ⟨i, c, n, tx, r, rfl, hi, hprog, -, rfl⟩ | ⟨i, c, n, tx, e, -, hi, rfl⟩ :=
        app.step_cases hstep
      · refine ⟨fun i c1 n1 tx1 hi hsel => ?_, hcommits⟩
        rw [List.getElem?_append] at hi
        split at hi
        · exact hcalls i c1 n1 tx1 hi hsel
        · rw [List.getElem?_singleton] at hi
          split at hi
          · obtain ⟨rfl, henter⟩ := Prod.mk.inj (Option.some.inj hi)
            unfold App.enter at henter
            split at henter
            · cases henter
            · exact hstart c n1 0 tx1 hsel henter.symm
          · cases hi
      · refine ⟨hset fun n' tx' heq hsel => ?_, hcommits⟩
        obtain ⟨rfl, rfl⟩ := CallState.active.inj heq
        obtain ⟨⟨part, K, Q, p', hwithin, hlog⟩, hsnap⟩ := hcalls i c n tx hi hsel
        have hJs : J s := hs ▸ readPoint_of hsnap hdb
        have hQs : Q v.snap := by
          rw [hv]
          exact (hlog s hJs).1
        have hQc : Q v.cur := by
          rw [hv]
          exact (hlog σ.db hdb).1
        rw [hprog] at hwithin
        cases hwithin with
        | @stmt _ Q' _ _ _ _ _ _ hlocks hwrite hnext =>
            refine ⟨⟨part, K, Q', _, hnext v hQs hQc, fun d hd => ?_⟩, fun s' hs' => ?_⟩
            · obtain ⟨-, hapart, hQ'⟩ := hwrite v hQs hQc (tx.log d) (hlog d hd).1
              exact ⟨hQ', htrans c _ _ _ (hlog d hd).2 hapart⟩
            · exact Option.some.inj hs' ▸ hJs
      · have hdone : ∀ (n' : Nat) (tx' : Tx D N L E R),
            (CallState.done (.ok r) : CallState D N L E X R) = .active n' tx' → S c →
            Contained J (A c) tx' := by
          intro n' tx' heq
          cases heq
        refine ⟨hset hdone, fun e he hsel => ?_⟩
        rcases List.mem_append.mp he with he | he
        · exact hcommits e he hsel
        · obtain rfl := List.mem_singleton.mp he
          obtain ⟨⟨part, K, Q, p', -, hlog⟩, -⟩ := hcalls i c n tx hi hsel
          exact (hlog σ.db hdb).2
      · refine ⟨hset fun n' tx' heq hsel => ?_, hcommits⟩
        unfold App.recover at heq
        split at heq
        · cases heq
        · exact hstart c n' (n + 1) tx' hsel heq.symm

end Apart

end App

end Txn
