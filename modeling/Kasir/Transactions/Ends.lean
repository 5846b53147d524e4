/-
  Kasir.Transactions.Ends

  How a checkout ends that runs alone.

  Whatever is read before anything is written, an error blames the request, or a group
  without a name.  The writes can fail with a note that is too long for its column and
  with the stock of a product; the first product to fail decides.
-/

import Kasir.Widths
import Kasir.Runs
import Kasir.Txn.Solo

namespace Kasir

open Txn Js Transactions

-- ============================================================================
-- Errors
-- ============================================================================

/-- The error blames the request: its status is 4xx. -/
def Exc.isClientError : Exc → Bool
  | .http e =>
      match e.status with
      | .badRequest | .unauthorized | .forbidden | .notFound | .conflict => true
      | .internalServerError | .serviceUnavailable => false
  | .prisma _ => false

/-- The error of a group without a name, which no number causes. -/
def missingSnapshot : Exc :=
  .coded .internalServerError "Validated modifier group is missing snapshot data"
    "MODIFIER_SNAPSHOT_INVARIANT_VIOLATION"

/-- What `createInternal` answers to an error it does not know. -/
def unableToCreate : Exc := .plain .internalServerError "Unable to create transaction"

/-- An error that a checkout answers by blaming the request, or a group without a name. -/
def Blamed (e : Exc) : Prop :=
  ∀ x, handleCreate 0 e = some x → x.isClientError = true ∨ x = missingSnapshot

theorem blamed_http {e : HttpException} (h : (Exc.http e).isClientError = true) :
    Blamed (.http e) := by
  intro x hx
  have heq : Exc.http e = x := Option.some.inj hx
  exact Or.inl (heq ▸ h)

theorem blamed_missingSnapshot : Blamed missingSnapshot := by
  intro x hx
  have heq : missingSnapshot = x := Option.some.inj hx
  exact Or.inr heq.symm

theorem blamed_P2025 : Blamed (.prisma .P2025) := by
  intro x hx
  have heq := Option.some.inj hx
  exact Or.inl (heq ▸ rfl)

-- ============================================================================
-- Before anything is written
-- ============================================================================

/-- Lines, totals and tender of a sale that is about to be written. -/
abbrev Priced := List ValidatedItem × Totals × Option Int

/-- The part of `sell` before anything is written. -/
def priceSale (tx : TransactionClient) (user : JwtPayload) (dto : CheckoutDto) (mode : CheckoutMode)
    (actor : User) (tenant : Tenant) : Body Priced := do
  checkSession tx user dto mode
  checkParties user actor dto
  let catalog ← loadCatalog user.tenantId dto.items
  let items ← Prog.lift (validateItems catalog dto.items)
  let totals ← Prog.lift (checkoutTotals tenant (dto.discount.getD 0) items)
  let tender ← Prog.lift (checkTender dto.payment totals.total)
  pure (items, totals, tender)

/-- A checkout up to its first write: an earlier sale, or a sale to write. -/
def accept (tx : TransactionClient) (user : JwtPayload) (dto : CheckoutDto) (mode : CheckoutMode) :
    Body (TransactionRecord ⊕ Priced) := do
  let (actor, tenant) ← authorize user
  let existing ← findByKey user.tenantId dto.clientTransactionId
  match existing with
  | some existing => pure (.inl existing)
  | none => do
      let s ← priceSale tx user dto mode actor tenant
      pure (.inr s)

/-- The rest of a checkout. -/
def finish (user : JwtPayload) (dto : CheckoutDto) : TransactionRecord ⊕ Priced →
    Body TransactionResponse
  | .inl existing => do
      Prog.lift (assertSameRequest existing user dto)
      Prog.lift (toResponse existing noLegacyProducts)
  | .inr s => do
      let completed ← persist user dto s.1 s.2.1 s.2.2
      Prog.lift (toResponse completed noLegacyProducts)

theorem sell_eq (tx : TransactionClient) (user : JwtPayload) (dto : CheckoutDto)
    (mode : CheckoutMode) (actor : User) (tenant : Tenant) :
    sell tx user dto mode actor tenant =
      priceSale tx user dto mode actor tenant >>= fun s => finish user dto (.inr s) := by
  unfold sell priceSale
  simp only [Prog.bind_assoc, Prog.pure_eq, Prog.ret_bind]
  rfl

theorem checkout_eq (tx : TransactionClient) (user : JwtPayload) (dto : CheckoutDto)
    (mode : CheckoutMode) :
    checkout tx user dto mode = accept tx user dto mode >>= finish user dto := by
  unfold checkout accept
  rw [Prog.bind_assoc]
  apply congrArg (Prog.bind (authorize user))
  funext ⟨actor, tenant⟩
  dsimp only
  rw [Prog.bind_assoc]
  apply congrArg (Prog.bind (findByKey user.tenantId dto.clientTransactionId))
  funext existing
  cases existing with
  | some existing => rfl
  | none =>
      show sell _ _ _ _ _ _ = (_ >>= _) >>= _
      rw [sell_eq, Prog.bind_assoc]
      rfl

section Asks

variable {tx : TransactionClient} {user : JwtPayload} {dto : CheckoutDto} {mode : CheckoutMode}

theorem money_blamed (value : Int) : Checked.Fails Blamed (money value) := by
  unfold money
  split
  · exact Checked.fails_error (blamed_http rfl)
  · exact Checked.fails_ok value

theorem moneys_blamed (values : List Int) : Checked.Fails Blamed (moneys values) :=
  Checked.fails_forM fun v _ => (money_blamed v).bind fun _ => Checked.fails_ok ()

theorem toResponse_blamed (rec : TransactionRecord) (legacy : Id → Option LegacyProduct) :
    Checked.Fails Blamed (toResponse rec legacy) :=
  (moneys_blamed rec.amounts).bind fun _ => Checked.fails_ok _

theorem resolveOption_blamed (options : List ModifierOption) (assignments : List LoadedAssignment)
    (id : Id) : Checked.Fails Blamed (resolveOption options assignments id) := by
  unfold resolveOption
  split
  · exact Checked.fails_error (blamed_http rfl)
  · split
    · exact Checked.fails_error (blamed_http rfl)
    · split
      · exact Checked.fails_error blamed_missingSnapshot
      · exact Checked.fails_ok _

theorem checkSelections_blamed (options : List ResolvedOption) (a : LoadedAssignment) :
    Checked.Fails Blamed (checkSelections options a) := by
  unfold checkSelections
  dsimp only
  split
  · exact Checked.fails_error (blamed_http rfl)
  · split
    · exact Checked.fails_error (blamed_http rfl)
    · split
      · exact Checked.fails_error (blamed_http rfl)
      · exact Checked.fails_ok ()

theorem checkNoSelections_blamed (a : LoadedAssignment) :
    Checked.Fails Blamed (checkNoSelections a) := by
  unfold checkNoSelections
  split
  · exact Checked.fails_error (blamed_http rfl)
  · exact Checked.fails_ok ()

theorem resolveOptions_blamed (catalog : LoadedCatalog) (item : CreateTransactionItemDto) :
    Checked.Fails Blamed (resolveOptions catalog item) := by
  unfold resolveOptions
  dsimp only
  split
  · apply (Checked.fails_mapM fun id _ => resolveOption_blamed _ _ id).bind
    intro options
    apply (Checked.fails_forM fun a _ => checkSelections_blamed options a).bind
    exact fun _ => Checked.fails_ok options
  · apply (Checked.fails_forM fun a _ => checkNoSelections_blamed a).bind
    exact fun _ => Checked.fails_ok []

theorem validateItems_blamed (catalog : LoadedCatalog) (items : List CreateTransactionItemDto) :
    Checked.Fails Blamed (validateItems catalog items) := by
  apply Checked.fails_mapM
  intro item _
  unfold validateItem
  split
  · exact Checked.fails_error (blamed_http rfl)
  · exact (resolveOptions_blamed catalog item).bind fun _ => Checked.fails_ok _

theorem checkoutTotals_blamed (tenant : Tenant) (discount : Int) (items : List ValidatedItem) :
    Checked.Fails Blamed (checkoutTotals tenant discount items) := by
  have hprice : Checked.Fails Blamed (priceTotals tenant discount items) := by
    unfold priceTotals
    dsimp only
    split
    · exact Checked.fails_error (blamed_http rfl)
    · exact (moneys_blamed _).bind fun _ => Checked.fails_ok _
  apply hprice.bind
  intro totals
  split
  · exact Checked.fails_error (blamed_http rfl)
  · exact Checked.fails_ok totals

theorem checkTender_blamed (payment : CreateTransactionPaymentDto) (total : Int) :
    Checked.Fails Blamed (checkTender payment total) := by
  unfold checkTender
  split
  · split
    · exact Checked.fails_error (blamed_http rfl)
    · exact Checked.fails_ok _
  · exact Checked.fails_ok none

theorem asks_query {α : Type} {Err : Exc → Prop} (f : Db → α) : (query f).Asks Err :=
  Prog.asks_read _

theorem authorize_asks : (authorize user).Asks Blamed := by
  apply (asks_query _).bind
  intro actor
  apply (asks_query _).bind
  intro tenant
  cases actor with
  | none => exact blamed_http rfl
  | some actor =>
      cases tenant with
      | none => exact blamed_http rfl
      | some tenant => trivial

theorem checkSession_asks : (checkSession tx user dto mode).Asks Blamed := by
  cases mode with
  | legacySync => trivial
  | v1 =>
      have hfind : (findSession tx user dto.cashierSessionId).Asks Blamed :=
        fun _ => ⟨rfl, trivial⟩
      apply hfind.bind
      intro session
      apply (Prog.asks_require (blamed_http rfl)).bind
      exact fun session => Prog.asks_guard (blamed_http rfl)

theorem checkParties_asks (actor : User) : (checkParties user actor dto).Asks Blamed := by
  unfold checkParties
  apply (asks_query _).bind
  intro outlet
  apply (Prog.asks_guard (blamed_http rfl)).bind
  intro _
  cases dto.customerId with
  | none => exact Prog.asks_guard (blamed_http rfl)
  | some customerId =>
      apply (asks_query _).bind
      intro customer
      apply (Prog.asks_guard (blamed_http rfl)).bind
      exact fun _ => Prog.asks_guard (blamed_http rfl)

theorem loadCatalog_asks (tenantId : Id) (items : List CreateTransactionItemDto) :
    (loadCatalog tenantId items).Asks Blamed := by
  unfold loadCatalog
  apply (asks_query _).bind
  intro products
  apply (Prog.asks_guard (blamed_http rfl)).bind
  intro _
  apply (asks_query _).bind
  intro assignments
  dsimp only
  split
  · exact (asks_query _).bind fun _ => trivial
  · trivial

/-- The lines to write are those of the request, validated. -/
theorem priceSale_ends {db : Db} {envs : Nat → Env} {n : Nat} {log : Db → Db} (actor : User)
    (tenant : Tenant) :
    Prog.Ends db envs (priceSale tx user dto mode actor tenant) n log (fun s _ log' => log' = log ∧
      ∃ catalog, validateItems catalog dto.items = .ok s.1) Blamed := by
  rw [priceSale, Prog.ends_bind]
  apply checkSession_asks.ends.mono _ fun _ he => he
  rintro _ n1 log1 rfl
  rw [Prog.ends_bind]
  apply (checkParties_asks actor).ends.mono _ fun _ he => he
  rintro _ n2 log2 rfl
  rw [Prog.ends_bind]
  apply (loadCatalog_asks _ _).ends.mono _ fun _ he => he
  rintro catalog n3 log3 rfl
  cases hitems : validateItems catalog dto.items with
  | error e => exact validateItems_blamed _ _ e hitems
  | ok items =>
      rw [Prog.lift_ok, Prog.ret_bind, Prog.ends_bind]
      apply (Prog.asks_lift (checkoutTotals_blamed _ _ _)).ends.mono _ fun _ he => he
      rintro totals n4 log4 rfl
      rw [Prog.ends_bind]
      apply (Prog.asks_lift (checkTender_blamed _ _)).ends.mono _ fun _ he => he
      rintro tender n5 log5 rfl
      exact ⟨rfl, catalog, hitems⟩

/-- Before anything is written, nothing is answered but with blame, and a sale is
    written only where none has its key. -/
theorem accept_ends {db : Db} {envs : Nat → Env} :
    Prog.Ends db envs (accept tx user dto mode) 0 id (fun s _ log => log = id ∧
      ∀ p, s = .inr p →
        db.sales.transactions.any (hasKey user.tenantId dto.clientTransactionId) = false ∧
        ∃ catalog, validateItems catalog dto.items = .ok p.1) Blamed := by
  rw [accept, Prog.ends_bind]
  apply authorize_asks.ends.mono _ fun _ he => he
  rintro ⟨actor, tenant⟩ n log rfl
  dsimp only
  rw [Prog.ends_bind, findByKey, queryRanked, Prog.read, Prog.ends_stmt, Prog.ends_ret]
  dsimp only
  cases hfound : db.sales.transactions.find? (hasKey user.tenantId dto.clientTransactionId) with
  | some t =>
      simp only [id_eq, hfound, Option.map_some]
      refine ⟨rfl, fun p hp => ?_⟩
      cases hp
  | none =>
      have hany : db.sales.transactions.any (hasKey user.tenantId dto.clientTransactionId) =
          false := by
        rw [List.any_eq_false]
        exact List.find?_eq_none.mp hfound
      simp only [id_eq, hfound, Option.map_none]
      rw [Prog.ends_bind]
      apply (priceSale_ends actor tenant).mono _ fun _ he => he
      rintro s n' log ⟨rfl, hcatalog⟩
      refine ⟨rfl, fun p hp => ?_⟩
      obtain rfl := Sum.inr.inj hp
      exact ⟨hany, hcatalog⟩

end Asks

-- ============================================================================
-- Writing the sale
-- ============================================================================

/-- Every note fits its column. -/
def NotesFit (items : List ValidatedItem) : Prop := ∀ i ∈ items, fitsVarchar 255 i.note = true

/-- There is a row that can give the quantity. -/
def hasStock (user : JwtPayload) (outletId : Id) (db : Db) (e : Id × Int) : Bool :=
  db.stocks.productStocks.any fun s => stockRow user outletId e.1 db s && decide (s.stock ≥ e.2)

def insufficientStock (productId : Id) : Exc :=
  .http { status := .conflict, message := "Insufficient stock"
          errorCode := some "INSUFFICIENT_STOCK", detail := .productId productId }

/-- How the decrement of one product ends. -/
def takeEntry (user : JwtPayload) (outletId : Id) (db : Db) (e : Id × Int) : Except Exc Unit :=
  if int4Max < e.2 then .error (.prisma .other)
  else if hasStock user outletId db e then .ok ()
  else .error (insufficientStock e.1)

section Writes

variable {user : JwtPayload} {outletId tid : Id} {db : Db} {envs : Nat → Env} {n : Nat}
  {log : Db → Db}

/-- The two databases differ in their sales at most. -/
structure SalesOnly (a b : Db) : Prop where
  accounts : a.accounts = b.accounts
  catalog : a.catalog = b.catalog
  stocks : a.stocks = b.stocks

theorem ends_createItem (i : ValidatedItem) :
    Prog.Ends db envs (createItem user tid i) n log
      (fun _ _ log' => fitsVarchar 255 i.note = true ∧ SalesOnly (log' db) (log db))
      (fun e => fitsVarchar 255 i.note = false ∧ e = .prisma .other) := by
  unfold createItem
  rw [Prog.ends_bind]
  cases hnote : fitsVarchar 255 i.note with
  | false => exact ⟨rfl, rfl⟩
  | true => exact ⟨rfl, rfl, rfl, rfl⟩

theorem ends_createItems (items : List ValidatedItem) :
    Prog.Ends db envs (Prog.each (createItem user tid) items) n log
      (fun _ _ log' => NotesFit items ∧ SalesOnly (log' db) (log db))
      (fun e => ¬ NotesFit items ∧ e = .prisma .other) := by
  induction items generalizing n log with
  | nil => exact ⟨fun _ hi => (nomatch hi), rfl, rfl, rfl⟩
  | cons i items ih =>
      rw [Prog.each_cons, Prog.ends_bind]
      apply (ends_createItem i).mono
      · rintro row n1 log1 ⟨hnote, hsame⟩
        rw [Prog.ends_bind]
        apply ih.mono
        · rintro rows n2 log2 ⟨hnotes, hsame'⟩
          refine ⟨fun j hj => ?_, hsame'.accounts.trans hsame.accounts,
            hsame'.catalog.trans hsame.catalog, hsame'.stocks.trans hsame.stocks⟩
          rcases List.mem_cons.mp hj with rfl | hj
          · exact hnote
          · exact hnotes j hj
        · rintro e ⟨hnotes, he⟩
          exact ⟨fun hall => hnotes fun j hj => hall j (List.mem_cons_of_mem _ hj), he⟩
      · rintro e ⟨hnote, he⟩
        refine ⟨fun hall => ?_, he⟩
        rw [hall i (List.mem_cons_self ..)] at hnote
        cases hnote

/-- The stock of the products still to come is what it was at the beginning. -/
structure StillThere (user : JwtPayload) (outletId : Id) (db d : Db) (rest : List (Id × Int)) :
    Prop where
  distinct : (d.stocks.productStocks.map fun s => (s.outletId, s.productId)).Nodup
  same : ∀ e ∈ rest, hasStock user outletId d e = hasStock user outletId db e

theorem stockRow_key {p : Id} {d : Db} {s : ProductStock} (h : stockRow user outletId p d s = true) :
    s.outletId = outletId ∧ s.productId = p := by
  unfold stockRow at h
  simp only [Bool.and_eq_true, beq_iff_eq] at h
  exact h.1.1

/-- There is at most one row to take a product from. -/
theorem length_hits {d : Db} (e : Id × Int)
    (hdistinct : (d.stocks.productStocks.map fun s => (s.outletId, s.productId)).Nodup) :
    (d.stocks.productStocks.filter fun s =>
      stockRow user outletId e.1 d s && decide (s.stock ≥ e.2)).length =
      if hasStock user outletId d e then 1 else 0 := by
  by_cases hhas : hasStock user outletId d e = true
  · rw [if_pos hhas]
    obtain ⟨s, hs, hp⟩ := List.any_eq_true.mp hhas
    have hkey := stockRow_key (Bool.and_eq_true_iff.mp hp).1
    rw [filter_eq_singleton hdistinct hs hp fun r _ hr => ?_, List.length_singleton]
    have hkey' := stockRow_key (Bool.and_eq_true_iff.mp hr).1
    rw [hkey.1, hkey.2, hkey'.1, hkey'.2]
  · rw [if_neg hhas, List.length_eq_zero_iff, List.filter_eq_nil_iff]
    intro s hs hp
    exact hhas (List.any_eq_true.mpr ⟨s, hs, hp⟩)

/-- Taking one product leaves the stock of the others. -/
theorem hasStock_change {d : Db} {p : Id} {q : Int} {hits : List Token}
    (hhits : ∀ t ∈ hits, t = .stock outletId p) {e : Id × Int} (hne : e.1 ≠ p) :
    hasStock user outletId (productStocks.change hits (fun s => { s with stock := s.stock - q }) d) e =
      hasStock user outletId d e := by
  unfold hasStock
  show (List.map _ d.stocks.productStocks).any _ = _
  rw [List.any_map]
  congr 1
  funext s
  rw [Function.comp_apply]
  split
  · rename_i hlock
    have hkey := hhits _ hlock
    simp only [productStocks, Token.stock.injEq] at hkey
    have hother : s.productId ≠ e.1 := fun h => hne (h.symm.trans hkey.2)
    have hno : ∀ r : ProductStock, r.productId = s.productId → ∀ d' : Db,
        stockRow user outletId e.1 d' r = false := by
      intro r hr d'
      rw [Bool.eq_false_iff]
      exact fun h => hother (hr.symm.trans (stockRow_key h).2)
    dsimp only
    rw [hno { s with stock := s.stock - q } rfl, hno s rfl]
    rfl
  · rfl

/-- The keys of the rows stay. -/
theorem keys_change (hits : List Token) (q : Int) (d : Db) :
    (productStocks.change hits (fun s => { s with stock := s.stock + q }) d).stocks.productStocks.map
        (fun s => (s.outletId, s.productId)) =
      d.stocks.productStocks.map fun s => (s.outletId, s.productId) := by
  show (List.map _ d.stocks.productStocks).map _ = _
  rw [List.map_map]
  apply List.map_congr_left
  intro r _
  rw [Function.comp_apply]
  split
  · rfl
  · rfl

theorem ends_decrementStock {e : Id × Int} {rest : List (Id × Int)}
    (hnodup : ((e :: rest).map Prod.fst).Nodup)
    (hthere : StillThere user outletId db (log db) (e :: rest)) :
    Prog.Ends db envs (decrementStock user outletId e) n log
      (fun _ _ log' => takeEntry user outletId db e = .ok () ∧
        StillThere user outletId db (log' db) rest)
      (fun err => takeEntry user outletId db e = .error err) := by
  unfold decrementStock
  rw [Prog.ends_bind]
  by_cases hwide : int4Max < e.2
  · have htake : takeEntry user outletId db e = .error (.prisma .other) := if_pos hwide
    rw [ensure, decide_eq_false (by omega)]
    exact htake
  · rw [ensure, decide_eq_true (by omega), Prog.guard_true, Prog.ends_ret, Prog.ends_bind,
      updateMany, Prog.ends_stmt]
    have hall : ((productStocks.rows (log db)).filter fun s => stockRow user outletId e.1 (log db) s &&
        decide (s.stock ≥ e.2)).all (fun r => r ∈ productStocks.rows (log db)) = true := by
      rw [List.all_eq_true]
      exact fun r hr => decide_eq_true (List.mem_of_mem_filter hr)
    have htrue : ((productStocks.rows (log db)).filter fun s =>
        stockRow user outletId e.1 (log db) s && decide (s.stock ≥ e.2)).all (fun _ => true) = true := by
      simp
    simp only [hall, htrue, if_true]
    rw [Prog.ends_ret]
    have hlength := @length_hits user outletId (log db) e hthere.distinct
    show Prog.Ends db envs (ensure ((List.filter _ (log db).stocks.productStocks).length == 1) _) _ _ _ _
    rw [hlength, hthere.same e (List.mem_cons_self ..)]
    cases hhas : hasStock user outletId db e with
    | false =>
        show takeEntry user outletId db e = .error (insufficientStock e.1)
        unfold takeEntry
        rw [if_neg hwide, hhas]
        rfl
    | true =>
        have htake : takeEntry user outletId db e = .ok () := by
          unfold takeEntry
          rw [if_neg hwide, hhas]
          rfl
        refine ⟨htake, ?_, fun e' he' => ?_⟩
        · have hkeys := keys_change (((log db).stocks.productStocks.filter fun s =>
            stockRow user outletId e.1 (log db) s && decide (s.stock ≥ e.2)).map productStocks.lock)
            (-e.2) (log db)
          have hdistinct := hthere.distinct
          rw [← hkeys] at hdistinct
          exact hdistinct
        · have hne : e'.1 ≠ e.1 := by
            intro heq
            rw [List.map_cons, List.nodup_cons] at hnodup
            exact hnodup.1 (heq ▸ List.mem_map_of_mem he')
          rw [← hthere.same e' (List.mem_cons_of_mem _ he')]
          apply hasStock_change _ hne
          intro t ht
          obtain ⟨r, hr, rfl⟩ := List.mem_map.mp ht
          have hkey := stockRow_key (Bool.and_eq_true_iff.mp (List.mem_filter.mp hr).2).1
          show Token.stock r.outletId r.productId = _
          rw [hkey.1, hkey.2]

/-- The decrements end as the entries tell, one after the other. -/
theorem ends_decrementStocks {entries : List (Id × Int)} (hnodup : (entries.map Prod.fst).Nodup)
    (hthere : StillThere user outletId db (log db) entries) :
    Prog.Ends db envs (Prog.each (decrementStock user outletId) entries) n log
      (fun _ _ _ => entries.forM (takeEntry user outletId db) = .ok ())
      (fun e => entries.forM (takeEntry user outletId db) = .error e) := by
  induction entries generalizing n log with
  | nil => rfl
  | cons e rest ih =>
      have hrest : (rest.map Prod.fst).Nodup := by
        rw [List.map_cons, List.nodup_cons] at hnodup
        exact hnodup.2
      have hcons : (e :: rest).forM (takeEntry user outletId db) =
          (takeEntry user outletId db e >>= fun _ => rest.forM (takeEntry user outletId db)) := rfl
      rw [Prog.each_cons, Prog.ends_bind, hcons]
      apply (ends_decrementStock hnodup hthere).mono
      · rintro u n1 log1 ⟨htake, hthere1⟩
        rw [Prog.ends_bind, htake]
        exact (ih hrest hthere1).mono (fun _ _ _ hok => hok) fun _ he => he
      · intro err htake
        rw [htake]
        rfl

/-- How writing a sale ends: with a note that is too long, with the stock of some
    product, or with the sale. -/
theorem ends_persist {dto : CheckoutDto} {items : List ValidatedItem} {totals : Totals}
    {tender : Option Int} (hwf : Wf db)
    (hfree : db.sales.transactions.any (hasKey user.tenantId dto.clientTransactionId) = false) :
    Prog.Ends db envs (persist user dto items totals tender) n id (fun _ _ _ => NotesFit items ∧
        (stockByProduct items).forM (takeEntry user dto.outletId db) = .ok ())
      (fun e => (¬ NotesFit items ∧ e = .prisma .other) ∨
        (NotesFit items ∧ (stockByProduct items).forM (takeEntry user dto.outletId db) = .error e) ∨
        (NotesFit items ∧ (stockByProduct items).forM (takeEntry user dto.outletId db) = .ok () ∧
          e = .prisma .P2025)) := by
  unfold persist
  rw [Prog.ends_bind, insertUnique, Prog.ends_stmt]
  simp only [id_eq, hfree, Bool.false_eq_true, if_false]
  rw [Prog.ends_ret, Prog.ends_bind]
  apply (ends_createItems items).mono
  · rintro rows n1 log1 ⟨hnotes, hsame⟩
    have hthere : ∀ log2 : Db → Db, (log2 db).stocks = db.stocks → (log2 db).accounts = db.accounts →
        (log2 db).catalog = db.catalog →
        StillThere user dto.outletId db (log2 db) (stockByProduct items) := by
      intro log2 hstocks haccounts hcatalog
      refine ⟨?_, fun e _ => ?_⟩
      · rw [hstocks]
        exact legal_productStocks hwf.legal
      · unfold hasStock stockRow
        rw [hstocks, haccounts, hcatalog]
    rw [Prog.ends_bind]
    -- the snapshots are rows of the sale as well
    have hmany : ∀ rows' : List TransactionItemModifier,
        Prog.Ends db envs (createMany rows'.length (TransactionItemModifier.stored rows')
          Db.addTransactionItemModifiers) n1 log1
          (fun _ _ log2 => SalesOnly (log2 db) (log1 db)) fun _ => False := by
      intro rows'
      unfold createMany
      split
      · exact ⟨rfl, rfl, rfl⟩
      · exact ⟨rfl, rfl, rfl⟩
    apply (hmany _).mono _ fun e he => he.elim
    rintro u n2 log2 hsame2
    rw [Prog.ends_bind]
    have hdb := hthere log2 (hsame2.stocks.trans hsame.stocks)
      (hsame2.accounts.trans hsame.accounts) (hsame2.catalog.trans hsame.catalog)
    apply (ends_decrementStocks (nodup_stockByProduct items) hdb).mono
    · intro us n3 log3 hok
      -- the rest can only miss the sale it has written
      rw [Prog.ends_bind]
      have hmoved : Prog.Ends db envs (createMany (stockByProduct items).length
          (movementRows user dto.outletId (transactionRow user dto totals (envs n)).id
            (stockByProduct items)) Db.addStockMovements) n3 log3 (fun _ _ _ => True)
          fun _ => False := by
        unfold createMany
        split
        · trivial
        · trivial
      apply hmoved.mono _ fun e he => he.elim
      intro v n4 log4 _
      rw [Prog.ends_bind, insert, Prog.write, Prog.ends_stmt, Prog.ends_ret, Prog.ends_bind,
        completeTransaction, Prog.write, Prog.ends_stmt, Prog.ends_ret]
      dsimp only
      cases hcompleted : List.find? _ _ with
      | none => exact Or.inr (Or.inr ⟨hnotes, hok, rfl⟩)
      | some t => exact ⟨hnotes, hok⟩
    · exact fun e he => Or.inr (Or.inl ⟨hnotes, he⟩)
  · exact fun e he => Or.inl he

end Writes

-- ============================================================================
-- A checkout
-- ============================================================================

/-- The lines a request sells, if it passes every check that is made before anything is
    written and is not a repetition. -/
def linesToSell (user : JwtPayload) (dto : CheckoutDto) (mode : CheckoutMode) (db : Db)
    (envs : Nat → Env) : Option (List ValidatedItem) :=
  match (accept .readCommitted user dto mode).solo db envs 0 id with
  | ⟨_, _, .ok (.inr s)⟩ => some s.1
  | _ => none

section Checkout

variable {user : JwtPayload} {dto : CheckoutDto} {mode : CheckoutMode} {db : Db}
  {envs : Nat → Env}

/-- A request that sells nothing is answered with an earlier sale or with blame. -/
theorem checkout_of_none (h : linesToSell user dto mode db envs = none) :
    Prog.Ends db envs (checkout .readCommitted user dto mode) 0 id (fun _ _ _ => True) Blamed := by
  rw [checkout_eq, Prog.ends_bind]
  have haccept := @accept_ends .readCommitted user dto mode db envs
  unfold linesToSell at h
  unfold Prog.Ends at haccept ⊢
  generalize (accept .readCommitted user dto mode).solo db envs 0 id = outcome at h haccept ⊢
  obtain ⟨n, log, e | existing | s⟩ := outcome
  · exact haccept
  · have hsame : Checked.Fails Blamed (assertSameRequest existing user dto) := by
      unfold assertSameRequest
      split
      · exact Checked.fails_ok ()
      · exact Checked.fails_error (blamed_http rfl)
    have hasks : (finish user dto (.inl existing)).Asks Blamed :=
      (Prog.asks_lift hsame).bind fun _ => Prog.asks_lift (toResponse_blamed _ _)
    exact hasks.ends.mono (fun _ _ _ _ => trivial) fun _ he => he
  · cases h

/-- How a request that sells these lines ends. -/
theorem checkout_of_lines (hwf : Wf db) {items : List ValidatedItem}
    (h : linesToSell user dto mode db envs = some items) :
    (∃ catalog, validateItems catalog dto.items = .ok items) ∧
    Prog.Ends db envs (checkout .readCommitted user dto mode) 0 id (fun _ _ _ => NotesFit items ∧
        (stockByProduct items).forM (takeEntry user dto.outletId db) = .ok ())
      (fun e => (¬ NotesFit items ∧ e = .prisma .other) ∨
        (NotesFit items ∧ (stockByProduct items).forM (takeEntry user dto.outletId db) = .error e) ∨
        (NotesFit items ∧ (stockByProduct items).forM (takeEntry user dto.outletId db) = .ok () ∧
          Blamed e)) := by
  rw [checkout_eq, Prog.ends_bind]
  have haccept := @accept_ends .readCommitted user dto mode db envs
  unfold linesToSell at h
  unfold Prog.Ends at haccept
  rcases hsolo : (accept .readCommitted user dto mode).solo db envs 0 id with
    ⟨n, log, e | existing | s⟩ <;> rw [hsolo] at h haccept
  · cases h
  · cases h
  · obtain ⟨rfl, hs⟩ := haccept
    obtain ⟨hfree, hcatalog⟩ := hs s rfl
    obtain rfl := Option.some.inj h
    refine ⟨hcatalog, (Prog.ends_of_ok hsolo).mpr ?_⟩
    unfold finish
    rw [Prog.ends_bind]
    apply (ends_persist hwf hfree).mono
    · rintro completed n1 log1 ⟨hnotes, hok⟩
      apply (Prog.asks_lift (toResponse_blamed completed noLegacyProducts)).ends.mono
      · exact fun _ _ _ _ => ⟨hnotes, hok⟩
      · exact fun _ he => Or.inr (Or.inr ⟨hnotes, hok, he⟩)
    · rintro e (hnote | hstock | ⟨hnotes, hok, rfl⟩)
      · exact Or.inl hnote
      · exact Or.inr (Or.inl hstock)
      · exact Or.inr (Or.inr ⟨hnotes, hok, blamed_P2025⟩)

end Checkout

/-- The totals of the products, line by line, are doubles, and none that is sent to the
    database is too wide for its column. -/
structure QuantitiesFit (user : JwtPayload) (outletId : Id) (db : Db) (items : List ValidatedItem) :
    Prop where
  totals : ∀ xs, xs <+: trackedQuantities items → ∀ e ∈ tallied (· + ·) xs, IsDouble e.2
  within : NotesFit items → ∀ before e after, stockByProduct items = before ++ e :: after →
    (∀ b ∈ before, b.2 ≤ int4Max ∧ hasStock user outletId db b = true) → e.2 ≤ int4Max

section Entries

variable {user : JwtPayload} {outletId : Id} {db : Db} {e : Id × Int}

theorem takeEntry_ok : takeEntry user outletId db e = .ok () ↔
    e.2 ≤ int4Max ∧ hasStock user outletId db e = true := by
  unfold takeEntry
  by_cases hwide : int4Max < e.2
  · rw [if_pos hwide]
    exact ⟨fun h => (nomatch h), fun h => by omega⟩
  · rw [if_neg hwide]
    cases hasStock user outletId db e with
    | true => exact ⟨fun _ => ⟨by omega, rfl⟩, fun _ => rfl⟩
    | false => exact ⟨fun h => (nomatch h), fun h => (nomatch h.2)⟩

theorem takeEntry_error {x : Exc} (h : takeEntry user outletId db e = .error x) :
    (int4Max < e.2 ∧ x = .prisma .other) ∨ (e.2 ≤ int4Max ∧ x = insufficientStock e.1) := by
  unfold takeEntry at h
  by_cases hwide : int4Max < e.2
  · rw [if_pos hwide] at h
    exact Or.inl ⟨hwide, (Except.error.inj h).symm⟩
  · rw [if_neg hwide] at h
    split at h
    · cases h
    · exact Or.inr ⟨by omega, (Except.error.inj h).symm⟩

/-- Where every quantity that is sent fits, only a lack of stock is left to complain of. -/
theorem forM_takeEntry_error {entries : List (Id × Int)} {x : Exc}
    (hwithin : ∀ before e after, entries = before ++ e :: after →
      (∀ b ∈ before, b.2 ≤ int4Max ∧ hasStock user outletId db b = true) → e.2 ≤ int4Max)
    (h : entries.forM (takeEntry user outletId db) = .error x) : Blamed x := by
  obtain ⟨before, e, after, heq, hbefore, hx⟩ := Checked.forM_error_iff.mp h
  have hfits := hwithin before e after heq fun b hb => takeEntry_ok.mp (hbefore b hb)
  rcases takeEntry_error hx with ⟨hwide, -⟩ | ⟨-, rfl⟩
  · omega
  · exact blamed_http rfl

end Entries

end Kasir
