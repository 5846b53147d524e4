/-
  Kasir.Guarantees.LastWriter

  Replacing the modifier groups of a product.

  A call deletes all assignments of the product and inserts its list, in one Read
  Committed transaction.  The DELETE does not see what another call commits while
  it waits, or after it.  Two lists then end up side by side
  (`replaced_lists_mix`).

  Where no call commits assignments of the product between the start of another
  call's DELETE and that call's end, the last call to commit wins
  (`replacing_is_last_writer_wins`), if the display orders fit their column, whose
  width the request pipe does not check.
-/

import Kasir.Runs

namespace Kasir

open Txn CatalogServices

-- ============================================================================
-- Calls that assign groups to a product
-- ============================================================================

/-- The list of a call that replaces the modifier groups of the product. -/
def replacedList (t p : Id) : Call → Option (List AssignmentDto)
  | .catalog user (.replaceModifierGroups productId dto) =>
      if t = Js.toLowerCase user.tenantId ∧ p = Js.toLowerCase productId then
        some dto.modifierGroups
      else none
  | _ => none

/-- The call changes assignments of the product. -/
def assignsTo (t p : Id) : Call → Bool
  | .catalog user op => decide (op.assigns user t p)
  | _ => false

/-- The marks of calls that are replacing the product's modifier groups. -/
def replacingMark (t p : Id) (l : Token) : Prop := l = .replacing t p

/-- A step of a run in which the modifier groups of the product are only replaced, with
    display orders that fit their column, the database breaks off none of these calls,
    and none of them commits a list while another one is between the start of its
    DELETE and its end. -/
def ReplacesApart (t p : Id) (σ : State) : Label Env Exc Call → Bool
  | .call c =>
      match replacedList t p c with
      | some dtos => dtos.all AssignmentDto.fits
      | none => !assignsTo t p c
  | .commit i =>
      match σ.calls[i]? with
      | some (_, .active _ tx) => σ.calls.zipIdx.all fun x =>
          x.2 == i || !(tx.held.contains (.replaced t p) && x.1.2.held.contains (.replacing t p))
      | _ => true
  | .fault i _ =>
      match σ.calls[i]? with
      | some (c, _) => (replacedList t p c).isNone
      | none => true
  | .stmt .. | .abort _ => true

section Calls

variable {t p : Id} {R : Token → Prop}

theorem replacedList_some {c : Call} {dtos : List AssignmentDto}
    (h : replacedList t p c = some dtos) : ∃ user productId dto,
      c = .catalog user (.replaceModifierGroups productId dto) ∧
      t = Js.toLowerCase user.tenantId ∧ p = Js.toLowerCase productId ∧
      dto.modifierGroups = dtos := by
  unfold replacedList at h
  split at h
  · split at h
    · rename_i user productId dto hown
      exact ⟨user, productId, dto, rfl, hown.1, hown.2, Option.some.inj h⟩
    · cases h
  · cases h

/-- The runs respect the marks. -/
theorem ReplacesApart.respects {σ : State} {l : Label Env Exc Call}
    (h : ReplacesApart t p σ l = true) : Respects (replacingMark t p) σ l := by
  cases l with
  | commit i =>
      intro c n tx hi j y hj hji l hl l' hl' hR
      obtain rfl : l' = .replacing t p := hR
      unfold ReplacesApart at h
      simp only [hi] at h
      have hpair := List.all_eq_true.mp h (y, j) (List.mem_zipIdx_iff_getElem?.mpr hj)
      rw [Bool.or_eq_true, beq_iff_eq, Bool.not_eq_true'] at hpair
      rcases hpair with heq | hno
      · exact absurd heq hji
      · cases hdisturbs : disturbs l (.replacing t p) with
        | false => rfl
        | true =>
            -- only the mark of this product's writers disturbs
            have hreplaced : l = .replaced t p := by
              cases l with
              | replaced t' p' =>
                  rw [disturbs, Bool.and_eq_true, beq_iff_eq, beq_iff_eq] at hdisturbs
                  rw [hdisturbs.1, hdisturbs.2]
              | _ => cases hdisturbs
            subst hreplaced
            have hboth : (tx.held.contains (.replaced t p) &&
                y.2.held.contains (.replacing t p)) = true := by
              rw [Bool.and_eq_true, List.contains_iff_mem, List.contains_iff_mem]
              exact ⟨hl, hl'⟩
            exact absurd (hno.symm.trans hboth) Bool.false_ne_true
  | call c => trivial
  | stmt i env => trivial
  | abort i => trivial
  | fault i e => trivial

/-- A call that does not replace the product's groups does not assign any to it. -/
theorem admitted_other {σ : State} {c : Call} (h : ReplacesApart t p σ (.call c) = true)
    (hnone : replacedList t p c = none) : assignsTo t p c = false := by
  unfold ReplacesApart at h
  simp only [hnone, Bool.not_eq_true'] at h
  exact h

theorem admitted_fits {σ : State} {c : Call} {dtos : List AssignmentDto}
    (h : ReplacesApart t p σ (.call c) = true) (hlist : replacedList t p c = some dtos) :
    dtos.all AssignmentDto.fits = true := by
  unfold ReplacesApart at h
  simp only [hlist] at h
  exact h

-- ============================================================================
-- What a commit does to the assignments
-- ============================================================================

/-- A call that does not assign groups to the product leaves its assignments. -/
theorem Effect.assignments {c : Call} {r : Result} {seen : List Db} {a b : Db}
    (h : Effect R c r seen a b) (hno : assignsTo t p c = false) :
    b.catalog.assignmentsOf t p = a.catalog.assignmentsOf t p := by
  cases h with
  | edited h => exact h.others t p (of_decide_eq_false hno)
  | found hc h => rfl
  | sold hc h => rfl
  | replayed horder h => rfl
  | convertedFound horder h => rfl
  | convertedSold horder h => rfl
  | held h => rfl
  | updated h => rfl
  | cancelled h => rfl
  | opened h => rfl
  | closed h => rfl
  | summarized => rfl
  | adjusted h => rfl
  | administered => rfl

/-- A call that replaces the modifier groups of the product leaves its list. -/
theorem Effect.replaces {c : Call} {r : Result} {seen : List Db} {a b : Db}
    {dtos : List AssignmentDto} (h : Effect (replacingMark t p) c r seen a b)
    (hlist : replacedList t p c = some dtos) :
    (b.catalog.assignmentsOf t p).map ProductModifierGroup.rule =
      dtos.map AssignmentDto.rule := by
  obtain ⟨user, productId, dto, rfl, rfl, rfl, rfl⟩ := replacedList_some hlist
  cases h with
  | edited h => exact h.replaced productId dto rfl rfl
  | found hc h => cases hc
  | sold hc h => cases hc

end Calls

-- ============================================================================
-- The errors of the calls
-- ============================================================================

/-- The errors a call may raise: a call that replaces the modifier groups of the
    product raises those that name why its list does not pass its validation, in a
    state with the property `J`. -/
def ReplaceErr (t p : Id) (J : Db → Prop) (c : Call) (e : Exc) : Prop :=
  ∀ dtos, replacedList t p c = some dtos → dtos.all AssignmentDto.fits = true →
    ∃ s, J s ∧ Refusal t p dtos s e

section Errors

variable {t p : Id} {J : Db → Prop} {db0 : Db} {σ0 σ : State}

theorem precheck_catalog {user : JwtPayload} {op : CatalogOp}
    (h : kasir.precheck (.catalog user op) = none) : op.valid = true := by
  change (if op.valid = true then none else some Transactions.validationPipeError) = none at h
  split at h
  · assumption
  · cases h

theorem body_raises (c : Call) (hpre : kasir.precheck c = none) (db : Db) :
    wpe ((protocol (replacingMark t p)).during J) (kasir.iso c) (ReplaceErr t p J c)
      (kasir.body c) (fun _ _ _ => True) St.start db := by
  cases hlist : replacedList t p c with
  | none =>
      refine wpe_of_any fun e dtos hsome => ?_
      rw [hlist] at hsome
      cases hsome
  | some dtos =>
      obtain ⟨user, productId, dto, rfl, rfl, rfl, rfl⟩ := replacedList_some hlist
      have hvalid := precheck_catalog hpre
      simp only [CatalogOp.valid, Bool.and_eq_true] at hvalid
      show wpe _ .readCommitted _ ((replaceModifierGroups (Js.toLowerCase user.tenantId)
        (Js.toLowerCase productId) dto >>= fun _ => Prog.ret CatalogAnswer.replaced) >>=
          fun answer => Prog.ret (Result.catalog answer)) _ _ _
      rw [wpe_bind, wpe_bind]
      refine wpe_mono (fun _ _ _ _ => trivial)
        (wpe_replaceModifierGroups rfl (fun _ => rfl) hvalid.2 ?_ ?_)
      · intro hunfit dtos' hlist' hfits
        obtain rfl := Option.some.inj (hlist.symm.trans hlist')
        exact absurd (hunfit.symm.trans hfits) Bool.false_ne_true
      · intro s e hs hrefusal dtos' hlist' _
        obtain rfl := Option.some.inj (hlist.symm.trans hlist')
        exact ⟨s, hs, hrefusal⟩

/-- The calls made from a state on fail for what their lists are in a state since. -/
theorem settled_replaces (h0 : Wf db0)
    (hrun : kasir.Run (fun σ l => ReplacesApart t p σ l = true) db0 σ0)
    (h : kasir.Steps (fun σ l => ReplacesApart t p σ l = true) σ0 σ)
    (hJ : ∀ s ∈ states σ0.db (σ.history.drop σ0.history.length), J s) :
    Settled kasir (protocol (replacingMark t p)) J (fun _ _ _ => True) (ReplaceErr t p J)
      σ0.calls.length σ := by
  refine App.Steps.settled (fun c hpre db _ => body_raises c hpre db)
    (fun hrun => run_sound h0 (fun _ _ hok => ReplacesApart.respects hok) hrun) ?_
    (fun _ _ hok => hok.1) ?_ (fun hsteps => ?_) hrun (h.into hJ)
  · intro σ i c n tx hok hi j y hj hji l hl l' hl' hblocks
    exact (ReplacesApart.respects hok).not_conflicts hi hj hji hl hl' hblocks
  · intro σ i c n tx e hok _ hi dtos hlist
    have hapart := hok.1
    unfold ReplacesApart at hapart
    simp only [hi, hlist] at hapart
    cases hapart
  · exact hsteps.holds (fun _ _ hok => hok.2) (hJ _ (List.mem_cons_self ..))

end Errors

-- ============================================================================
-- The last writer wins
-- ============================================================================

/-- The list of the last call to commit, if there is one. -/
def lastList (t p : Id) (history : List KasirCommit) : Option (List AssignmentDto) :=
  (history.filterMap fun e => replacedList t p e.call).getLast?

theorem lastList_snoc (t p : Id) (history : List KasirCommit) (e : KasirCommit) :
    lastList t p (history ++ [e]) =
      match replacedList t p e.call with
      | some dtos => some dtos
      | none => lastList t p history := by
  unfold lastList
  rw [List.filterMap_append]
  cases hlist : replacedList t p e.call with
  | none => simp [hlist]
  | some dtos => simp [hlist]

-- ============================================================================
-- A product with two modifier groups on offer
-- ============================================================================

namespace Shop

def milk : Id := uuid 0 1 0

def sugar : Id := uuid 0 1 1

/-- The shop with two modifier groups that no product has. -/
def menu : Db :=
  { db with
    catalog := { db.catalog with
      modifierGroups :=
        [{ id := milk, tenantId := tenant, name := "Milk", isActive := true },
         { id := sugar, tenantId := tenant, name := "Sugar", isActive := true }] } }

theorem menu_wf : Wf menu where
  legal := by decide +kernel
  sales := wf.sales
  held := wf.held
  origin := wf.origin

/-- No group of the shop. -/
def syrup : Id := uuid 0 1 2

/-- Just this group. -/
def justGroup (group : Id) : List AssignmentDto :=
  [{ modifierGroupId := group, required := false, selectionType := .single, displayOrder := 1 }]

/-- Coffee comes with just this group. -/
def offer (group : Id) : Call :=
  .catalog { user with role := "OWNER" }
    (.replaceModifierGroups coffee { modifierGroups := justGroup group })

/-- What comes with coffee. -/
def offered (db : Db) : List (Id × Bool × SelectionType × Int) :=
  (db.catalog.assignmentsOf tenant coffee).map ProductModifierGroup.rule

/-- All calls have been answered with a result. -/
def allDone (σ : State) : Bool :=
  σ.calls.all fun x => match x.2 with
    | .done (.ok _) => true
    | _ => false

end Shop

/-- Two calls delete what there is, which is nothing, insert their lists and commit.
    Both have succeeded, and the product has both lists. -/
theorem replaced_lists_mix :
    ∃ σ : State, kasir.Reach Shop.menu σ ∧ Shop.allDone σ = true ∧
      σ.calls.map Prod.fst = [Shop.offer Shop.milk, Shop.offer Shop.sugar] ∧
      Shop.offered σ.db = [(Shop.milk, false, .single, 1), (Shop.sugar, false, .single, 1)] := by
  obtain ⟨σ, hrun, hp⟩ := Shop.reached Shop.menu (fun _ _ => true)
    (.call (Shop.offer Shop.milk) :: .call (Shop.offer Shop.sugar) ::
      Shop.stmts 0 0 0 4 ++ Shop.stmts 1 1 0 4 ++
      Shop.stmts 0 0 4 1 ++ .commit 0 :: Shop.stmts 1 1 4 1 ++ [.commit 1])
    (fun σ => Shop.allDone σ &&
      decide (σ.calls.map Prod.fst = [Shop.offer Shop.milk, Shop.offer Shop.sugar]) &&
      decide (Shop.offered σ.db = [(Shop.milk, false, .single, 1), (Shop.sugar, false, .single, 1)]))
    (by decide +kernel)
  rw [Bool.and_eq_true, Bool.and_eq_true, decide_eq_true_eq, decide_eq_true_eq] at hp
  exact ⟨σ, hrun.reach, hp.1.1, hp.1.2, hp.2⟩

/-- **The last writer wins.**  In every run in which calls that replace the modifier
    groups of a product do not commit into each other's DELETE, the product's
    assignments are the list of the last one that committed, or what they were at
    the start; and such a call, if it was made after some state of the run, fails only
    because the request pipe refuses it or because its list does not pass its
    validation in a state since, and its error names the reason. -/
theorem replacing_is_last_writer_wins {t p : Id} {db0 : Db} {σ0 σ : State} (h0 : Wf db0)
    (hrun : kasir.Run (fun σ l => ReplacesApart t p σ l = true) db0 σ0)
    (h : kasir.Steps (fun σ l => ReplacesApart t p σ l = true) σ0 σ) :
    (σ.db.catalog.assignmentsOf t p).map ProductModifierGroup.rule =
      ((lastList t p σ.history).map fun dtos => dtos.map AssignmentDto.rule).getD
        ((db0.catalog.assignmentsOf t p).map ProductModifierGroup.rule) ∧
    ∀ (i : Nat) (c : Call) (x : Exc) (dtos : List AssignmentDto), σ0.calls.length ≤ i →
      σ.calls[i]? = some (c, .done (.error x)) → replacedList t p c = some dtos →
      kasir.precheck c = some x ∨
      ∃ s ∈ states σ0.db (σ.history.drop σ0.history.length), Refusal t p dtos s x := by
  have hall : kasir.Run (fun σ l => ReplacesApart t p σ l = true) db0 σ :=
    h.run (fun _ _ hok => hok) hrun
  have hsound : KasirSound (replacingMark t p) db0 σ :=
    run_sound h0 (fun _ _ hok => ReplacesApart.respects hok) hall
  refine ⟨?_, fun i c x dtos hn hi hlist => ?_⟩
  · refine hsound.chain.induction (fun es d =>
      (d.catalog.assignmentsOf t p).map ProductModifierGroup.rule =
        ((lastList t p es).map fun dtos => dtos.map AssignmentDto.rule).getD
          ((db0.catalog.assignmentsOf t p).map ProductModifierGroup.rule)) rfl ?_
    intro pre e post heq hbefore
    have he : e ∈ σ.history := by
      rw [heq]
      exact List.mem_append_right _ (List.mem_cons_self ..)
    have hpost := (hsound.commits e he).post
    rw [lastList_snoc]
    cases hlist : replacedList t p e.call with
    | some dtos => exact hpost.replaces hlist
    | none =>
        -- no other call assigns groups to the product
        have hcall : assignsTo t p e.call = false :=
          hall.calls (fun c => replacedList t p c = none → assignsTo t p c = false)
            (fun σ c hok hnone => admitted_other hok hnone) e.pid _ (hsound.owner e he) hlist
        simp only
        rw [hpost.assignments hcall]
        exact hbefore
  · have hfits : dtos.all AssignmentDto.fits = true :=
      hall.calls (fun c => ∀ dtos, replacedList t p c = some dtos →
          dtos.all AssignmentDto.fits = true)
        (fun σ c hok dtos hlist => admitted_fits hok hlist) i _ hi dtos hlist
    rcases (settled_replaces h0 hrun h fun _ hs => hs).failed i c x hn hi with hpre | ⟨n, e, herr, hx⟩
    · exact Or.inl hpre
    · obtain ⟨user, productId, dto, rfl, -, -, -⟩ := replacedList_some hlist
      obtain rfl := Option.some.inj (show some e = some x from hx)
      exact Or.inr (herr dtos hlist hfits)

/-- Two calls one after the other: the second one's list is what is left.  A third one
    asks for a group that the shop does not have, and is told so. -/
theorem replacing_is_last_writer_wins_shop :
    ∃ σ : State,
      kasir.Run (fun σ l => ReplacesApart Shop.tenant Shop.coffee σ l = true) Shop.menu σ ∧
      (lastList Shop.tenant Shop.coffee σ.history = some (Shop.justGroup Shop.sugar) ∧
        Shop.offered σ.db = [(Shop.sugar, false, .single, 1)]) ∧
      σ.calls[2]? = some (Shop.offer Shop.syrup, .done (.error groupsNotFound)) ∧
      ∃ s ∈ states Shop.menu σ.history,
        Refusal Shop.tenant Shop.coffee (Shop.justGroup Shop.syrup) s groupsNotFound := by
  obtain ⟨σ, hrun, hp⟩ := Shop.reached Shop.menu (ReplacesApart Shop.tenant Shop.coffee)
    (.call (Shop.offer Shop.milk) :: .call (Shop.offer Shop.sugar) ::
      .call (Shop.offer Shop.syrup) ::
      Shop.stmts 0 0 0 5 ++ .commit 0 :: Shop.stmts 1 1 0 5 ++ .commit 1 ::
      Shop.stmts 2 2 0 2 ++ [.abort 2])
    (fun σ => decide (lastList Shop.tenant Shop.coffee σ.history = some (Shop.justGroup Shop.sugar)) &&
      Shop.answered (Shop.offer Shop.syrup) (fun a => decide (a = .error groupsNotFound))
        σ.calls[2]?)
    (by decide +kernel)
  rw [Bool.and_eq_true, decide_eq_true_eq] at hp
  obtain ⟨a, ha, hcall⟩ := Shop.of_answered hp.2
  obtain rfl := of_decide_eq_true ha
  have hpre : kasir.precheck (Shop.offer Shop.syrup) = none := by decide +kernel
  obtain ⟨hlast, hrefused⟩ := replacing_is_last_writer_wins Shop.menu_wf .init hrun.steps
  refine ⟨σ, hrun, ⟨hp.1, ?_⟩, hcall, ?_⟩
  · rw [hp.1] at hlast
    have hrule : (Shop.justGroup Shop.sugar).map AssignmentDto.rule =
        [(Shop.sugar, false, .single, 1)] := by decide +kernel
    exact hlast.trans hrule
  · rcases hrefused 2 _ _ (Shop.justGroup Shop.syrup) (Nat.zero_le _) hcall (by decide +kernel) with
      hpipe | hreason
    · rw [hpre] at hpipe
      cases hpipe
    · exact hreason

end Kasir
