/-
  Kasir.Guarantees.ExactlyOnce

  Exactly one sale for a key.

  Direct sales, rows of the legacy queue and conversions of held orders look the
  key up, and insert the sale under the unique index where there is none.  So in
  every run a key has at most one transaction, and whoever is answered with a sale
  of the key is answered with that one, be it found or made.
-/

import Kasir.SaleHistory
import Mathlib.Data.Multiset.Basic

namespace Kasir

open Txn Js Transactions HeldOrders

-- ============================================================================
-- Answers
-- ============================================================================

/-- A response without the order of its lists, which the database may choose. -/
def Transactions.TransactionResponse.content (r : TransactionResponse) :
    TransactionResponse × Multiset (ItemResponse × Multiset ModifierResponse) ×
      Multiset PaymentResponse :=
  ({ r with items := [], payments := [] },
    (r.items.map fun i => ({ i with modifiers := [] }, (i.modifiers : Multiset ModifierResponse)) :
      List (ItemResponse × Multiset ModifierResponse)),
    r.payments)

/-- The key of a call that is answered with a sale, and the sale. -/
def saleAnswer : Call → Result → Option (Id × Id × TransactionResponse)
  | .create user input, .sale r =>
      some (user.normalized.tenantId, toLowerCase input.clientTransactionId, r)
  | .createLegacySync user input, .sale r =>
      some (user.normalized.tenantId, toLowerCase input.clientTransactionId, r)
  | .holdCheckout user _ input, .conversion result =>
      some (user.normalized.tenantId, toLowerCase input.clientTransactionId, result.transaction)
  | _, _ => none

theorem saleAnswer_of_saleInput {c : Call} {user : JwtPayload} {input : CheckoutDto}
    {mode : CheckoutMode} (h : saleInput c = some (user, input, mode)) (r : TransactionResponse) :
    saleAnswer c (.sale r) = some (user.normalized.tenantId,
      (coreRequest input mode).clientTransactionId, r) := by
  cases c <;> cases h <;> rfl

/-- The answer is this transaction with its stored rows. -/
def IsAnswer (sales : Sales) (t k : Id) (r : TransactionResponse) : Prop :=
  ∃ x ∈ sales.transactions, hasKey t k x = true ∧
    ∃ rank, r = (recordOf sales rank x).response noLegacyProducts

theorem Transactions.FoundSale.isAnswer {user : JwtPayload} {dto : CheckoutDto}
    {r : TransactionResponse} {db : Db} (h : FoundSale user dto r db) :
    IsAnswer db.sales user.tenantId dto.clientTransactionId r := by
  obtain ⟨rank, x, hx, hkey, -, hr⟩ := h
  exact ⟨x, hx, hkey, rank, toResponse_ok hr⟩

theorem Transactions.NewSale.isAnswer {R : Token → Prop} {tx : TransactionClient}
    {user : JwtPayload} {dto : CheckoutDto} {mode : CheckoutMode} {sale : Sale}
    {r : TransactionResponse} {seen : List Db} {db : Db}
    (h : NewSale R tx user dto mode sale r seen db) (hwf : Wf db) :
    IsAnswer (sale.rows.sales db.sales) user.tenantId dto.clientTransactionId r := by
  obtain ⟨rank, hr⟩ := h.response
  refine ⟨sale.rows.transaction, List.mem_append_right _ (List.mem_singleton.mpr rfl),
    h.built.hasKey, rank, ?_⟩
  rw [SaleRows.recordOf_own hwf h.built.linked h.fresh h.freshItems]
  exact toResponse_ok hr

/-- Whoever commits with a sale for an answer leaves it in the database. -/
theorem Effect.isAnswer {R : Token → Prop} {c : Call} {result : Result} {seen : List Db}
    {a b : Db} {t k : Id} {r : TransactionResponse} (h : Effect R c result seen a b) (hwf : Wf a)
    (hans : saleAnswer c result = some (t, k, r)) : IsAnswer b.sales t k r := by
  -- the request of a conversion has the key in lower case already
  have hkey : ∀ {user : JwtPayload} {id key : String} {input : CheckoutHeldOrderDto} {x y},
      saleAnswer (.holdCheckout user id input) (.conversion ⟨x, y⟩) = some (t, k, r) →
      key = toLowerCase input.clientTransactionId →
      user.normalized.tenantId = t ∧ toLowerCase key = k ∧ x = r := by
    rintro user id _ input x y hans rfl
    simp only [saleAnswer, Option.some.injEq, Prod.mk.injEq] at hans
    exact ⟨hans.1, (toLowerCase_toLowerCase _).trans hans.2.1, hans.2.2⟩
  cases h with
  | found hc h =>
      rw [saleAnswer_of_saleInput hc] at hans
      cases hans
      exact h.isAnswer
  | sold hc h =>
      rw [saleAnswer_of_saleInput hc] at hans
      cases hans
      exact h.isAnswer hwf
  | replayed horder h =>
      obtain ⟨rfl, rfl, rfl⟩ := hkey hans rfl
      exact h.isAnswer
  | convertedFound horder h =>
      obtain ⟨rfl, rfl, rfl⟩ := hkey hans rfl
      exact h.isAnswer
  | convertedSold horder h =>
      obtain ⟨rfl, rfl, rfl⟩ := hkey hans rfl
      exact h.isAnswer hwf
  | held h => cases hans
  | updated h => cases hans
  | cancelled h => cases hans
  | opened h => cases hans
  | closed h => cases hans
  | summarized => cases hans
  | adjusted h => cases hans
  | edited h => cases hans
  | administered => cases hans

theorem IsAnswer.later {a b : Sales} {t k : Id} {r : TransactionResponse} (h : IsAnswer a t k r)
    (hgrows : Sales.Grows a b) : IsAnswer b t k r := by
  obtain ⟨x, hx, hkey, rank, rfl⟩ := h
  exact ⟨x, hgrows.mem hx, hkey, rank, by rw [recordOf_grows hgrows hx]⟩

-- ============================================================================
-- Records are the same up to order
-- ============================================================================

/-- The change depends on the payments, not on their order. -/
theorem change_perm {x y : TransactionRecord} (legacyProducts : Id → Option LegacyProduct)
    (h : x.payments.Perm y.payments) :
    (x.response legacyProducts).change = (y.response legacyProducts).change := by
  simp only [TransactionRecord.response]
  generalize x.payments = xs at h ⊢
  generalize y.payments = ys at h ⊢
  rcases xs with _ | ⟨p, _ | ⟨q, xs⟩⟩
  · rw [List.nil_perm.mp h]
  · rw [List.perm_singleton.mp h.symm]
  · -- neither list is a singleton
    rcases ys with _ | ⟨p', _ | ⟨q', ys⟩⟩
    · exact absurd (List.perm_nil.mp h) (by simp)
    · exact absurd (List.perm_singleton.mp h) (by simp)
    · rfl

/-- The order in which the database returns the children of a transaction does not
    change what the response contains. -/
theorem content_recordOf (sales : Sales) (rank rank' : Id → Nat) (x : Transaction) :
    ((recordOf sales rank x).response noLegacyProducts).content =
      ((recordOf sales rank' x).response noLegacyProducts).content := by
  have hpay : (recordOf sales rank x).payments.Perm (recordOf sales rank' x).payments :=
    (orderBy_perm ..).trans (orderBy_perm ..).symm
  have hchange := change_perm noLegacyProducts hpay
  unfold TransactionResponse.content
  simp only [TransactionRecord.response, recordOf_transaction] at hchange ⊢
  simp only [Prod.mk.injEq, TransactionResponse.mk.injEq, true_and, and_true,
    Multiset.coe_eq_coe]
  refine ⟨hchange, ?_, hpay.map _⟩
  -- an item is the same under both ranks once its modifiers are unordered
  simp only [recordOf, List.map_map]
  have hitem : ∀ i : TransactionItem, (((orderBy rank TransactionItemModifier.createdAt
      TransactionItemModifier.id (sales.transactionItemModifiers.filter (modifierOf i))).map
        modifierResponse : List ModifierResponse) : Multiset ModifierResponse) =
      ((orderBy rank' TransactionItemModifier.createdAt TransactionItemModifier.id
        (sales.transactionItemModifiers.filter (modifierOf i))).map modifierResponse :
          List ModifierResponse) := fun i =>
    Multiset.coe_eq_coe.mpr (((orderBy_perm ..).trans (orderBy_perm ..).symm).map _)
  exact (List.Perm.map _ ((orderBy_perm ..).trans (orderBy_perm ..).symm)).trans
    (List.Perm.of_eq (List.map_congr_left fun i _ => Prod.ext rfl (hitem i)))

-- ============================================================================
-- Every run
-- ============================================================================

/-- **Exactly-once sale.**  In every run, in the state reached: a key has at most
    one transaction, and it has one payment; the rows of a sale made in the run are
    those of the one commit that made it; whoever was answered with a sale of a key
    was answered with the transaction of the key, so all of them with the same. -/
theorem exactly_once {db0 : Db} {σ : State} (h0 : Wf db0) (hsales : SalesOk db0)
    (h : kasir.Reach db0 σ) :
    SalesOk σ.db ∧
    (∀ x ∈ σ.db.sales.transactions, x ∈ db0.sales.transactions ∨
      ∃ e ∈ σ.history, ∃ user dto mode tx sale r, RecordedBy noMarks e user dto mode tx sale r ∧
        sale.rows.transaction = x ∧ sale.rows.Stored σ.db) ∧
    (∀ i c result t k r, σ.Answered i c result → saleAnswer c result = some (t, k, r) →
      IsAnswer σ.db.sales t k r) ∧
    ∀ i j c c' result result' t k r r', σ.Answered i c result → σ.Answered j c' result' →
      saleAnswer c result = some (t, k, r) → saleAnswer c' result' = some (t, k, r') →
      r.content = r'.content := by
  have hsound := reach_sound h0 h
  have hok := hsales.invariant hsound
  have hanswer : ∀ i c result t k r, σ.Answered i c result →
      saleAnswer c result = some (t, k, r) → IsAnswer σ.db.sales t k r := by
    intro i c result t k r hi hans
    obtain ⟨e, he, -, rfl, rfl⟩ := hsound.commit_of_answer hi
    have hcommit := hsound.commits e he
    have hev := hsound.evolves_of_mem_states (mem_states.mpr (Or.inr ⟨e, he, rfl⟩))
    exact (hcommit.post.isAnswer hcommit.invBefore hans).later hev.sales
  refine ⟨hok, fun x hx => ?_, hanswer, ?_⟩
  · rcases recorded_by hsound x hx with hx | ⟨e, he, user, dto, mode, tx, sale, r, hrec, rfl⟩
    · exact Or.inl hx
    · exact Or.inr ⟨e, he, user, dto, mode, tx, sale, r, hrec, rfl,
        hrec.stored hsound hsales he⟩
  · intro i j c c' result result' t k r r' hi hj hans hans'
    obtain ⟨x, hx, hkey, rank, rfl⟩ := hanswer i c result t k r hi hans
    obtain ⟨y, hy, hkey', rank', rfl⟩ := hanswer j c' result' t k r' hj hans'
    rw [hok.uniqueKey x hx y hy t k hkey hkey']
    exact content_recordOf ..

/-- Two sales. -/
def Shop.twoSold : Shop.Turns → Bool
  | [⟨_, .ok (.sale _), _, _⟩, ⟨_, .ok (.sale _), _, _⟩] => true
  | _ => false

/-- In the shop a sale is made and found again. -/
theorem exactly_once_shop :
    ∃ (σ : State) (r r' : TransactionResponse), kasir.Reach Shop.db σ ∧
      σ.Answered 0 (Shop.sale (Shop.uuid 9 9 9)) (.sale r) ∧
      σ.Answered 1 (Shop.sale (Shop.uuid 9 9 9)) (.sale r') ∧ r.content = r'.content := by
  obtain ⟨σ, turns, hrun, hp, hturns, hcalls, -⟩ := Shop.run noMarks
    ([(Shop.sale (Shop.uuid 9 9 9), Shop.envs 1), (Shop.sale (Shop.uuid 9 9 9), Shop.envs 2)])
    (fun turns _ => Shop.twoSold turns)
    (by decide +kernel)
  unfold Shop.twoSold at hp
  split at hp
  · simp only [List.map_cons, List.map_nil, List.cons.injEq, and_true] at hturns
    obtain ⟨rfl, rfl⟩ := hturns
    rename_i r _ _ r' _ _
    have hi : σ.Answered 0 (Shop.sale (Shop.uuid 9 9 9)) (.sale r) := by
      simp [Sys.Answered, hcalls]
    have hj : σ.Answered 1 (Shop.sale (Shop.uuid 9 9 9)) (.sale r') := by
      simp [Sys.Answered, hcalls]
    exact ⟨σ, r, r', hrun.reach, hi, hj, (exactly_once Shop.wf Shop.salesOk
      hrun.reach).2.2.2 0 1 _ _ _ _ _ _ r r' hi hj rfl rfl⟩
  · cases hp

end Kasir
