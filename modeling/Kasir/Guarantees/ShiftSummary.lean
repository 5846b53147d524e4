/-
  Kasir.Guarantees.ShiftSummary

  A shift summary against the sales of the shift, in every run.
-/

import Kasir.Guarantees.ShiftFigures
import Kasir.Transactions.Alone

namespace Kasir

open Txn Js Transactions

-- ============================================================================
-- Every run
-- ============================================================================

/-- **The shift summary reconciles**, as far as numbers are exact.  In every state of
    every run, the summary of a session agrees with its sales, if no product's quantity
    in them leaves the range in which numbers are exact; and what a summary call answers
    is the summary of a session of the tenant in one of these states. -/
theorem summary_reconciles {db0 : Db} {σ : State} (h0 : Wf db0) (hsales : SalesOk db0)
    (hbooks : BooksOk db0) (h : kasir.Reach db0 σ) :
    (∀ d ∈ states db0 σ.history, ∀ x, ExactQuantities x d → Reconciles x d (summaryAt x d)) ∧
    (∀ e ∈ σ.history, ∀ user id s, e.call = .shiftSummary user id → e.result = .summary s →
      ∃ d ∈ states db0 σ.history, ∃ x ∈ d.cashierSessions, x.id = toLowerCase id ∧
        x.tenantId = toLowerCase user.tenantId ∧
        ∃ now, s = Shifts.summaryOf (Shifts.shiftSelect d.accounts x) (summaryAt x d) now) := by
  have hsound : KasirSound noMarks db0 σ := reach_sound h0 h
  refine ⟨fun d hd x hexact => reconciles_of_books (hbooks.states hsound hsales hd) hexact, ?_⟩
  intro e he user id s hcall hresult
  have hpost := (hsound.commits e he).post
  rw [hcall, hresult] at hpost
  obtain ⟨pre, post, heq⟩ := List.append_of_mem he
  have hread := hsound.seen pre e post heq
  generalize e.seen = seen at hpost hread
  generalize e.before = before at hpost
  generalize e.after = after at hpost
  cases hpost with
  | summarized hshown =>
      obtain ⟨d, hd, x, hx, hid, htenant, hs⟩ := hshown
      exact ⟨d, heq ▸ states_mono (hread d hd), x, hx, hid, htenant, hs⟩

/-- In the shop two coffees are sold. -/
theorem summary_reconciles_shop :
    ∃ σ : State, kasir.Reach Shop.db σ ∧ ∃ x ∈ σ.db.cashierSessions,
      (summaryAt x σ.db).quantities = [(Shop.coffee, 2)] ∧ Reconciles x σ.db (summaryAt x σ.db) := by
  obtain ⟨σ, -, hrun, hp, -⟩ := Shop.run noMarks [(Shop.sale (Shop.uuid 9 9 9), Shop.envs 1)]
    (fun _ after => after.cashierSessions.any fun x =>
      decide ((summaryAt x after).quantities = [(Shop.coffee, 2)]) &&
        decide (((soldQuantities (sessionItems x after)).map Prod.snd).sum ≤ exactBound))
    (by decide +kernel)
  obtain ⟨x, hx, hp⟩ := List.any_eq_true.mp hp
  simp only [Bool.and_eq_true, decide_eq_true_eq] at hp
  have hreach : kasir.Reach Shop.db σ := hrun.mono fun _ _ _ => trivial
  have hbooks : BooksOk σ.db :=
    BooksOk.invariant (reach_sound Shop.wf hreach) Shop.salesOk Shop.books
  have hexact : ExactQuantities x σ.db := fun productId =>
    Int.le_trans (sum_amountsOf_le (soldQuantities_pos hbooks)) hp.2
  have hlaw := summary_reconciles Shop.wf Shop.salesOk Shop.books hreach
  have hlast := (reach_sound Shop.wf hreach).chain.mem_states
  exact ⟨σ, hreach, x, hx, hp.1, hlaw.1 σ.db hlast x hexact⟩

-- ============================================================================
-- More than numbers can count
-- ============================================================================

section Sold

variable {x : CashierSession} {db : Db} {rows : SaleRows}

/-- A sale is one of its session's, behind those that are there. -/
theorem sessionSales_apply : sessionSales x (rows.apply db) = sessionSales x db ++
    if Shifts.saleOf x.tenantId x.id rows.transaction then [rows.transaction] else [] := by
  show (db.sales.transactions ++ [rows.transaction]).filter _ = _
  rw [List.filter_append, List.filter_singleton, Bool.cond_eq_ite]
  rfl

/-- Its items are behind those of the others. -/
theorem sessionItems_apply (hwf : Wf db) (hlinked : rows.Linked)
    (hfresh : ∀ t ∈ db.sales.transactions, t.id ≠ rows.transaction.id)
    (hsale : Shifts.saleOf x.tenantId x.id rows.transaction = true) :
    sessionItems x (rows.apply db) = sessionItems x db ++ rows.items := by
  have hold : ∀ t ∈ sessionSales x db, itemsOf (rows.apply db).sales t = itemsOf db.sales t := by
    intro t ht
    show (db.sales.transactionItems ++ rows.items).filter (itemOf t) = _
    apply filter_append_of_none
    exact fun i hi => SaleRows.not_itemOf hlinked hfresh i hi t (mem_sessionSales ht).1
  have hnew : itemsOf (rows.apply db).sales rows.transaction = rows.items :=
    SaleRows.filter_items_own hwf hlinked hfresh
  unfold sessionItems
  rw [sessionSales_apply, if_pos hsale, List.flatMap_append, List.flatMap_cons, List.flatMap_nil,
    List.append_nil, hnew]
  congr 1
  rw [List.flatMap_def, List.flatMap_def, List.map_congr_left hold]

/-- Of equal quantities the summary shows the sum as numbers. -/
theorem summary_of_equal {productId : Id} {q : Int} {n : Nat}
    (h : Js.amountsOf productId (soldQuantities (sessionItems x db)) = List.replicate (n + 1) q) :
    ∃ p ∈ (summaryAt x db).products, p.productId = productId ∧
      p.quantity = (List.replicate n q).foldl addNumber q := by
  obtain ⟨htallies, hperm⟩ := tallies_of_perm (summaryItems_perm x db)
  have hamounts := amountsOf_perm productId hperm
  rw [h] at hamounts
  have hread := List.perm_replicate.mp hamounts.symm
  have hmem : (productId, q) ∈ soldQuantities (((Shifts.summarySales x.tenantId x.id db).flatMap
      Shifts.SummarySale.items).map Prod.fst) := by
    apply mem_amountsOf.mp
    rw [hread, List.replicate_succ]
    exact List.mem_cons_self ..
  have hkey := (htallies.keys productId).mpr (List.mem_map_of_mem hmem)
  obtain ⟨e, he, hproduct⟩ := List.mem_map.mp hkey
  obtain ⟨a, as, has, hfold⟩ := htallies.amounts e he
  rw [hproduct, hread, List.replicate_succ] at has
  obtain ⟨p, hp, rfl⟩ := List.mem_map.mp he
  refine ⟨p, hp, hproduct, ?_⟩
  rw [← (List.cons.inj has).1, ← (List.cons.inj has).2] at hfold
  exact hfold

end Sold

namespace Shop

/-- The session of the shop. -/
def openSession : CashierSession where
  id := session
  tenantId := tenant
  outletId := outlet
  userId := cashier
  openingCash := none
  closingCash := none
  expectedCash := none
  difference := none
  status := .open
  openedAt := 0
  closedAt := none

/-- An identifier for each number. -/
def serial (k : Nat) : Id :=
  String.ofList ("00000000-0000-4000-9000-".toList ++ Nat.toDigits 10 (100000000000 + k))

theorem serial_injective : Function.Injective serial := by
  intro j k h
  have hchars := List.append_cancel_left (String.ofList_injective h)
  have hdigits := Json.toDigits_injective hchars
  omega

/-- The shop with nothing that is tracked. -/
def stall : Db :=
  { db with catalog := { products := db.catalog.products.map fun p => { p with trackStock := false } } }

theorem stall_wf : Wf stall where
  legal := by decide +kernel
  sales := by constructor <;> exact fun _ h => nomatch h
  held := by constructor <;> exact fun _ h => nomatch h
  origin := fun _ h => nomatch h

/-- A coffee, and as much free water on each of `k` lines as a line can be. -/
def waterDto (j k : Nat) : CheckoutDto :=
  { clientTransactionId := serial j, outletId := outlet, cashierSessionId := some session
    items := { productId := coffee, quantity := 1 } ::
      List.replicate k { productId := water, quantity := int4Max }
    payment := { method := .qris } }

def waterCall (j k : Nat) : Call := .create user (waterDto j k)

/-- What the statements of the `j`-th sale are supplied with. -/
def waterEnvs (j n : Nat) : Env := ⟨fun _ => serial (10000 * (j + 1) + n), n, fun _ => 0⟩

/-- A line of a product at its price. -/
def lineOf (p : Product) (quantity : Int) : ValidatedItem :=
  { product := p, options := [], effectivePrice := p.price, quantity, note := none }

/-- Its lines, validated: of each product how many lines, and how much on each. -/
def waterItems (k : Nat) : List ValidatedItem :=
  (stall.catalog.products.zip [(1, 1), (k, int4Max)]).flatMap fun x =>
    List.replicate x.2.1 (lineOf x.1 x.2.2)

def waterTotals : Totals := { subtotal := 1000, discount := 0, tax := 100, total := 1100 }

def waterRows (j k : Nat) : SaleRows :=
  plainRows user (coreRequest (waterDto j k) .v1) (waterEnvs j) 7 (waterItems k) waterTotals none

/-- The line of coffee and a line of water, as the request is checked. -/
def coffeeLine : CreateTransactionItemDto :=
  ({ productId := coffee, quantity := 1 } : CreateTransactionItemDto).transformed

def waterLine : CreateTransactionItemDto :=
  ({ productId := water, quantity := int4Max } : CreateTransactionItemDto).transformed

/-- What the sales have in common is evaluated: the names are in lower case, and each
    line and the total pass their checks. -/
structure Evaluated : Prop where
  own : user.normalized = user
  ids : isUUID user.sub = true ∧ isUUID user.tenantId = true ∧ isUUID session = true
  counter : isUUID outlet = true
  names : toLowerCase session = session ∧ toLowerCase user.tenantId = tenant ∧
    toLowerCase user.sub = cashier ∧ toLowerCase outlet = outlet
  lines : coffeeLine.valid = true ∧ waterLine.valid = true
  products : coffeeLine.normalized.productId = coffee ∧ waterLine.normalized.productId = water
  apart : (!water == coffee) = true
  shelf : (selectProducts tenant [coffee, water] stall).length = 2
  validated : [coffeeLine, waterLine].map (fun line => validateItem
      { products := selectProducts tenant [coffee, water] stall, assignments := [], options := [] }
      line.normalized) =
    (stall.catalog.products.zip [1, int4Max]).map fun x => .ok (lineOf x.1 x.2)
  totals : stall.accounts.tenants.map (fun t => checkoutTotals t 0 (waterItems 1)) =
    [.ok waterTotals]
  actor : (stall.accounts.users.find? fun u =>
    u.id == user.sub && u.tenantId == user.tenantId && u.isActive).isSome = true
  shift : (stall.cashierSessions.find? (ownOpenSession user (some session))).any
    (fun x => x.outletId == outlet) = true
  place : (stall.accounts.outlets.find? fun o =>
    o.id == outlet && o.tenantId == user.tenantId && o.isActive).isSome = true

theorem evaluated : Evaluated := by
  constructor <;> decide +kernel

theorem mem_digits {c : Char} (h : c.isDigit = true) :
    c ∈ ['0', '1', '2', '3', '4', '5', '6', '7', '8', '9'] := by
  obtain ⟨hmin, hmax⟩ := Char.isDigit_iff_toNat.mp h
  have hmin' : 48 ≤ c.toNat := hmin
  have hmax' : c.toNat ≤ 57 := hmax
  have hall : ∀ m, 48 ≤ m → m ≤ 57 →
      Char.ofNat m ∈ ['0', '1', '2', '3', '4', '5', '6', '7', '8', '9'] := by
    intro m h48 h57
    have hm : m = 48 ∨ m = 49 ∨ m = 50 ∨ m = 51 ∨ m = 52 ∨ m = 53 ∨ m = 54 ∨ m = 55 ∨ m = 56 ∨
        m = 57 := by omega
    rcases hm with rfl | rfl | rfl | rfl | rfl | rfl | rfl | rfl | rfl | rfl <;> decide
  have hc := hall c.toNat hmin' hmax'
  rwa [Char.ofNat_toNat] at hc

theorem toLower_of_isDigit {c : Char} (h : c.isDigit = true) : c.toLower = c := by
  obtain ⟨-, hmax⟩ := Char.isDigit_iff_toNat.mp h
  have hmax' : c.toNat ≤ 57 := hmax
  unfold Char.toLower
  exact dif_neg fun hupper => by
    have hmin : 65 ≤ c.toNat := hupper.1
    omega

theorem matchAll_hex {cs : List Char} (h : ∀ c ∈ cs, c.isDigit = true) {n : Nat} (hn : cs.length = n) :
    matchAll (List.replicate n (oneOf
      ['0', '1', '2', '3', '4', '5', '6', '7', '8', '9', 'a', 'b', 'c', 'd', 'e', 'f'])) cs = true := by
  subst hn
  induction cs with
  | nil => rfl
  | cons c cs ih =>
      have hdigit := h c (List.mem_cons_self ..)
      have hc : oneOf ['0', '1', '2', '3', '4', '5', '6', '7', '8', '9', 'a', 'b', 'c', 'd', 'e', 'f']
          c = true := by
        unfold oneOf
        rw [toLower_of_isDigit hdigit, List.contains_iff_mem]
        exact List.mem_append_left ['a', 'b', 'c', 'd', 'e', 'f'] (mem_digits hdigit)
      rw [List.length_cons, List.replicate_succ]
      show (_ && _) = true
      rw [hc, ih fun d hd => h d (List.mem_cons_of_mem _ hd)]
      rfl

/-- Twelve digits end a UUID. -/
theorem isUUID_of_digits {ds : List Char} (h : ∀ c ∈ ds, c.isDigit = true) (hlength : ds.length = 12) :
    isUUID (String.ofList ("00000000-0000-4000-9000-".toList ++ ds)) = true := by
  have hmatch := matchAll_hex h hlength
  unfold isUUID
  rw [String.toList_ofList, Bool.or_assoc, Bool.or_eq_true]
  exact Or.inl hmatch

theorem serial_isUUID {k : Nat} (hk : k < 900000000000) : isUUID (serial k) = true := by
  have hle := (Nat.length_toDigits_le_iff (b := 10) (n := 100000000000 + k) (k := 12) (by decide)
    (by decide)).mpr (by omega)
  have hgt := mt (Nat.length_toDigits_le_iff (b := 10) (n := 100000000000 + k) (k := 11)
    (by decide) (by decide)).mp (by omega)
  exact isUUID_of_digits (fun c hc => Json.isDigit_of_mem hc) (by omega)

theorem serial_lower (k : Nat) : toLowerCase (serial k) = serial k := by
  have hdigits : (Nat.toDigits 10 (100000000000 + k)).map Char.toLower =
      Nat.toDigits 10 (100000000000 + k) := by
    conv_rhs => rw [← List.map_id (Nat.toDigits 10 (100000000000 + k))]
    exact List.map_congr_left fun c hc => toLower_of_isDigit (Json.isDigit_of_mem hc)
  unfold toLowerCase serial
  rw [String.toList_ofList, List.map_append, hdigits]
  rfl

theorem accepts (j k : Nat) (hj : j < 900000000000) : (waterCall j k).precheck = none := by
  have hvalid : (waterDto j k).transformed.valid = true := by
    unfold CheckoutDto.valid CheckoutDto.transformed waterDto
    dsimp only
    rw [serial_isUUID hj, evaluated.counter, evaluated.ids.2.2]
    have hitems : (List.map CreateTransactionItemDto.transformed
        ({ productId := coffee, quantity := 1 } ::
          List.replicate k { productId := water, quantity := int4Max })).all
        CreateTransactionItemDto.valid = true := by
      rw [List.all_eq_true]
      intro i hi
      obtain ⟨i', hi', rfl⟩ := List.mem_map.mp hi
      rcases List.mem_cons.mp hi' with rfl | hi'
      · exact evaluated.lines.1
      · rw [List.eq_of_mem_replicate hi']
        exact evaluated.lines.2
    rw [hitems]
    rfl
  have hprepare : prepare user (waterDto j k) .v1 =
      .ok (user.normalized, coreRequest (waterDto j k) .v1) := by
    unfold prepare assertCheckoutInput
    rw [evaluated.ids.1, evaluated.ids.2.1, if_neg (by simp)]
    simp only [hvalid, Bool.not_true, Bool.and_false, Bool.false_eq_true, if_false]
    rfl
  show errorOf (prepare user (waterDto j k) .v1) = none
  rw [hprepare]
  rfl

/-- The shop after `n` sales of so many lines of water. -/
def watered (k : Nat) : Nat → Db
  | 0 => stall
  | n + 1 => (waterRows n k).apply (watered k n)

/-- Nothing but the rows of such sales was added to the stall. -/
structure Watered (k n : Nat) (db : Db) : Prop where
  accounts : db.accounts = stall.accounts
  catalog : db.catalog = stall.catalog
  sessions : db.cashierSessions = stall.cashierSessions
  rest : db = { stall with sales := db.sales }
  transactions : ∀ t ∈ db.sales.transactions, ∃ i < n, t = (waterRows i k).transaction
  items : ∀ x ∈ db.sales.transactionItems, ∃ i < n, x ∈ (waterRows i k).items
  payments : ∀ p ∈ db.sales.payments, ∃ i < n, p = (waterRows i k).payment

/-- One more sale adds its own rows. -/
theorem Watered.step {k n : Nat} {db : Db} (h : Watered k n db) :
    Watered k (n + 1) ((waterRows n k).apply db) where
  accounts := h.accounts
  catalog := h.catalog
  sessions := h.sessions
  rest := by
    have hrest := h.rest
    show (waterRows n k).apply db = { stall with sales := (waterRows n k).sales db.sales }
    rw [hrest]
    rfl
  transactions := by
    intro t ht
    rcases List.mem_append.mp ht with hold | hnew
    · obtain ⟨i, hi, ht⟩ := h.transactions t hold
      exact ⟨i, by omega, ht⟩
    · exact ⟨n, by omega, List.mem_singleton.mp hnew⟩
  items := by
    intro x hx
    rcases List.mem_append.mp hx with hold | hnew
    · obtain ⟨i, hi, hx⟩ := h.items x hold
      exact ⟨i, by omega, hx⟩
    · exact ⟨n, by omega, hnew⟩
  payments := by
    intro p hp
    rcases List.mem_append.mp hp with hold | hnew
    · obtain ⟨i, hi, hp⟩ := h.payments p hold
      exact ⟨i, by omega, hp⟩
    · exact ⟨n, by omega, List.mem_singleton.mp hnew⟩

theorem watered_ok (k n : Nat) : Watered k n (watered k n) := by
  induction n with
  | zero =>
      constructor
      case transactions => rintro _ ⟨⟩
      case items => rintro _ ⟨⟩
      case payments => rintro _ ⟨⟩
      all_goals rfl
  | succ n ih => exact ih.step

-- ============================================================================
-- One more sale
-- ============================================================================

section Sale

variable {n k : Nat}

theorem request_items (j k : Nat) : (coreRequest (waterDto j k) .v1).items =
    coffeeLine.normalized :: List.replicate k waterLine.normalized := by
  show ((_ :: List.replicate k _ : List CreateTransactionItemDto).map _).map _ = _
  rw [List.map_cons, List.map_replicate, List.map_cons, List.map_replicate]
  rfl

theorem uniqueProductIds_request (j : Nat) (hk : 0 < k) :
    uniqueProductIds (coreRequest (waterDto j k) .v1).items = [coffee, water] := by
  obtain ⟨k, rfl⟩ := Nat.exists_eq_add_of_le' hk
  unfold uniqueProductIds
  rw [request_items, List.map_cons, List.map_replicate]
  rw [evaluated.products.1, evaluated.products.2, List.eraseDups_cons, List.filter_replicate,
    if_pos evaluated.apart, List.replicate_succ, List.eraseDups_cons, List.filter_replicate,
    if_neg (by simp)]
  rfl

/-- One line of coffee, and the lines of water. -/
theorem waterItems_eq : ∃ c w : Product,
    (∀ k, waterItems k = lineOf c 1 :: List.replicate k (lineOf w int4Max)) ∧
      (c.id = coffee ∧ c.price = 1000 ∧ c.cost = 400 ∧ c.trackStock = false) ∧
      (w.id = water ∧ w.price = 0 ∧ w.cost = 0 ∧ w.trackStock = false) ∧
      stall.catalog.products = [c, w] := by
  have hlines : ∀ c w, stall.catalog.products = [c, w] → ∀ k,
      waterItems k = lineOf c 1 :: List.replicate k (lineOf w int4Max) := by
    intro c w hproducts k
    unfold waterItems
    rw [hproducts]
    show _ :: (List.replicate k _ ++ []) = _
    rw [List.append_nil]
  exact ⟨_, _, hlines _ _ rfl, ⟨rfl, rfl, rfl, rfl⟩, ⟨rfl, rfl, rfl, rfl⟩, rfl⟩

theorem validated (j k : Nat) : validateItems
    { products := selectProducts tenant [coffee, water] stall, assignments := [], options := [] }
    (coreRequest (waterDto j k) .v1).items = .ok (waterItems k) := by
  obtain ⟨c, w, hitems, -, -, hproducts⟩ := waterItems_eq
  obtain ⟨rfl, hrest⟩ := List.cons.inj hproducts
  obtain ⟨rfl, -⟩ := List.cons.inj hrest
  rw [request_items, hitems]
  unfold validateItems
  rw [Checked.mapM_ok]
  have hlines := evaluated.validated
  rw [List.map_cons, List.map_singleton] at hlines
  obtain ⟨hcoffee, hrest⟩ := List.cons.inj hlines
  refine .cons hcoffee ?_
  induction k with
  | zero => exact .nil
  | succ k ih => exact .cons (List.cons.inj hrest).1 ih

theorem subtotals (k : Nat) : ((waterItems k).map ValidatedItem.lineSubtotal).sum = 1000 := by
  obtain ⟨c, w, hitems, ⟨-, hc, -⟩, ⟨-, hw, -⟩, -⟩ := waterItems_eq
  rw [hitems, List.map_cons, List.map_replicate, List.sum_cons, List.sum_replicate]
  simp [ValidatedItem.lineSubtotal, lineOf, hc, hw]

theorem totalled (k : Nat) {tenant : Tenant} (ht : stall.accounts.tenants = [tenant]) :
    checkoutTotals tenant 0 (waterItems k) = .ok waterTotals := by
  have htotals := evaluated.totals
  rw [ht, List.map_singleton] at htotals
  rw [← (List.cons.inj htotals).1]
  unfold checkoutTotals priceTotals
  rw [subtotals, subtotals]

/-- What the shop asks of the `n`-th sale is met. -/
theorem admitted (hk : 0 < k) :
    Admitted user.normalized (coreRequest (waterDto n k) .v1) (watered k n) (waterItems k)
      waterTotals none := by
  obtain ⟨haccounts, hcatalog, hsessions, -, htransactions, -, -⟩ := watered_ok k n
  have hproducts : selectProducts user.normalized.tenantId
      (uniqueProductIds (coreRequest (waterDto n k) .v1).items) (watered k n) =
      selectProducts tenant [coffee, water] stall := by
    unfold selectProducts
    rw [uniqueProductIds_request n hk, hcatalog, evaluated.own]
    rfl
  have hsession : (coreRequest (waterDto n k) .v1).cashierSessionId = some session := by
    exact congrArg some evaluated.names.1
  have houtlet : (coreRequest (waterDto n k) .v1).outletId = outlet := by
    exact evaluated.names.2.2.2
  exact
    { actor := by
        rw [haccounts, evaluated.own]
        exact evaluated.actor
      free := by
        rw [List.find?_eq_none]
        intro t ht hkey
        obtain ⟨i, hi, rfl⟩ := htransactions t ht
        have hsame : toLowerCase (serial i) = toLowerCase (serial n) := by
          unfold hasKey at hkey
          rw [Bool.and_eq_true, beq_iff_eq, beq_iff_eq] at hkey
          exact hkey.2
        rw [serial_lower, serial_lower] at hsame
        have hin := serial_injective hsame
        omega
      session := by
        rw [hsessions, hsession, houtlet, evaluated.own]
        exact evaluated.shift
      outlet := by
        rw [haccounts, houtlet, evaluated.own]
        exact evaluated.place
      noCustomer := rfl
      noDiscount := rfl
      products := by
        rw [hproducts, uniqueProductIds_request n hk]
        exact evaluated.shelf
      noGroups := by
        rw [hcatalog]
        rfl
      lines := by
        rw [hproducts]
        exact validated n k
      sums := by
        rw [haccounts]
        exact ⟨_, rfl, totalled k rfl⟩
      tender := rfl }

theorem plain_lines (k : Nat) : ∀ i ∈ waterItems k, i.Plain := by
  obtain ⟨c, w, hitems, ⟨-, -, -, hc⟩, ⟨-, -, -, hw⟩, -⟩ := waterItems_eq
  intro i hi
  rw [hitems] at hi
  rcases List.mem_cons.mp hi with rfl | hi
  · exact ⟨hc, rfl, rfl⟩
  · rw [List.eq_of_mem_replicate hi]
    exact ⟨hw, rfl, rfl⟩

theorem safe_amounts (k : Nat) : SafeAmounts (waterItems k) waterTotals none where
  lines := by
    obtain ⟨c, w, hitems, ⟨-, hcprice, hccost, -⟩,
      ⟨-, hwprice, hwcost, -⟩, -⟩ := waterItems_eq
    intro i hi
    rw [hitems] at hi
    rcases List.mem_cons.mp hi with rfl | hi
    · simp [lineOf, ValidatedItem.lineSubtotal, hcprice, hccost, InRange, maxSafeInteger]
    · rw [List.eq_of_mem_replicate hi]
      simp [lineOf, ValidatedItem.lineSubtotal, hwprice, hwcost, InRange, maxSafeInteger]
  sums := by simp [waterTotals, InRange, maxSafeInteger]
  tender := fun _ h => nomatch h

end Sale

-- ============================================================================
-- Their identifiers
-- ============================================================================

section Ids

variable {k n : Nat}

/-- The statements of a sale number its rows. -/
theorem itemRows_ids {tid : Id} (j m : Nat) (items : List ValidatedItem) :
    (itemRows user tid (waterEnvs j) m items).map TransactionItem.id =
      (List.range' m items.length).map fun i => serial (10000 * (j + 1) + i) := by
  induction items generalizing m with
  | nil => rfl
  | cons i items ih =>
      rw [itemRows, List.map_cons, ih, List.length_cons, List.range'_succ, List.map_cons]
      rfl

theorem length_waterItems (k : Nat) : (waterItems k).length = k + 1 := by
  obtain ⟨c, w, hitems, -⟩ := waterItems_eq
  rw [hitems, List.length_cons, List.length_replicate]

theorem item_ids (j k : Nat) : (waterRows j k).items.map TransactionItem.id =
    (List.range' 8 (k + 1)).map fun i => serial (10000 * (j + 1) + i) := by
  show (itemRows user _ (waterEnvs j) 8 (waterItems k)).map TransactionItem.id = _
  rw [itemRows_ids, length_waterItems]

theorem mem_item_ids {j k : Nat} {x : TransactionItem} (h : x ∈ (waterRows j k).items) :
    ∃ i, 8 ≤ i ∧ i < k + 9 ∧ x.id = serial (10000 * (j + 1) + i) := by
  have hid := List.mem_map_of_mem (f := TransactionItem.id) h
  rw [item_ids] at hid
  obtain ⟨i, hi, heq⟩ := List.mem_map.mp hid
  rw [List.mem_range'_1] at hi
  exact ⟨i, by omega, by omega, heq.symm⟩

variable (hk : k ≤ 9000)
include hk

/-- All rows have identifiers of their own. -/
theorem nodup_watered :
    ((watered k n).sales.transactions.map Transaction.id).Nodup ∧
    ((watered k n).sales.transactionItems.map TransactionItem.id).Nodup ∧
    ((watered k n).sales.payments.map Payment.id).Nodup ∧
    (watered k n).sales.transactionItemModifiers = [] := by
  induction n with
  | zero => exact ⟨.nil, .nil, .nil, rfl⟩
  | succ n ih =>
      obtain ⟨htransactions, hitems, hpayments, hmodifiers⟩ := ih
      have hpayment : ∀ j, (waterRows j k).payment.id =
          serial (10000 * (j + 1) + (k + 9)) := by
        intro j
        show serial (10000 * (j + 1) + (7 + 1 + (waterItems k).length)) = _
        rw [length_waterItems]
        congr 1
        omega
      refine ⟨?_, ?_, ?_, ?_⟩
      · show (((watered k n).sales.transactions ++ [_]).map Transaction.id).Nodup
        rw [List.map_append, List.nodup_append]
        refine ⟨htransactions, List.nodup_singleton _, ?_⟩
        rintro _ hold _ hnew heq
        obtain ⟨t, ht, rfl⟩ := List.mem_map.mp hold
        obtain ⟨i, hi, rfl⟩ := (watered_ok k n).transactions t ht
        rw [List.map_singleton, List.mem_singleton] at hnew
        have hsame := serial_injective (heq.trans hnew)
        omega
      · show (((watered k n).sales.transactionItems ++ _).map TransactionItem.id).Nodup
        rw [List.map_append, List.nodup_append]
        refine ⟨hitems, ?_, ?_⟩
        · rw [item_ids]
          refine (List.nodup_range' ..).map fun i i' h => ?_
          have hsame := serial_injective h
          omega
        · rintro _ hold _ hnew heq
          obtain ⟨x, hx, rfl⟩ := List.mem_map.mp hold
          obtain ⟨y, hy, rfl⟩ := List.mem_map.mp hnew
          obtain ⟨j, hj, hx'⟩ := (watered_ok k n).items x hx
          obtain ⟨i, -, hi, hxid⟩ := mem_item_ids hx'
          obtain ⟨i', hi', -, hyid⟩ := mem_item_ids hy
          have hsame := serial_injective (hxid.symm.trans (heq.trans hyid))
          omega
      · show (((watered k n).sales.payments ++ [_]).map Payment.id).Nodup
        rw [List.map_append, List.nodup_append]
        refine ⟨hpayments, List.nodup_singleton _, ?_⟩
        rintro _ hold _ hnew heq
        obtain ⟨p, hp, rfl⟩ := List.mem_map.mp hold
        obtain ⟨i, hi, rfl⟩ := (watered_ok k n).payments p hp
        rw [List.map_singleton, List.mem_singleton] at hnew
        have hsame := serial_injective ((hpayment i).symm.trans (heq.trans (hnew.trans (hpayment n))))
        omega
      · show (watered k n).sales.transactionItemModifiers ++ [] = []
        rw [hmodifiers]
        rfl

theorem watered_legal : (watered k n).legal = true := by
  obtain ⟨htransactions, hitems, hpayments, hmodifiers⟩ := nodup_watered (n := n) hk
  have hlegal := stall_wf.legal
  rw [(watered_ok k n).rest]
  unfold Db.legal at hlegal ⊢
  dsimp only at hlegal ⊢
  rw [show distinct Transaction.id (watered k n).sales.transactions = true from
    decide_eq_true htransactions, show distinct TransactionItem.id
    (watered k n).sales.transactionItems = true from decide_eq_true hitems,
    show distinct Payment.id (watered k n).sales.payments = true from decide_eq_true hpayments,
    hmodifiers]
  exact hlegal

end Ids

-- ============================================================================
-- The day
-- ============================================================================

section Day

variable {k : Nat} (hk : 0 < k ∧ k ≤ 9000)
include hk

/-- The next sale is made. -/
theorem next_sale {n : Nat} (hn : n < 900000000000) (hwf : Wf (watered k n)) :
    ∃ r, kasir.alone (waterCall n k) (watered k n) (waterEnvs n) =
      some (.ok r, watered k (n + 1)) := by
  have huser := evaluated.own
  have hpre := accepts n k hn
  have hfresh : ∀ t ∈ (watered k n).sales.transactions, t.id ≠ (waterEnvs n 7).fresh 0 := by
    intro t ht heq
    obtain ⟨i, hi, rfl⟩ := (watered_ok k n).transactions t ht
    have hsame := serial_injective heq
    omega
  have hitems : ∀ x ∈ (watered k n).sales.transactionItems, ∀ y ∈ itemRows user.normalized
      ((waterEnvs n 7).fresh 0) (waterEnvs n) 8 (waterItems k), x.id ≠ y.id := by
    rw [huser]
    intro x hx y hy heq
    obtain ⟨j, hj, hx'⟩ := (watered_ok k n).items x hx
    obtain ⟨i, -, hi, hxid⟩ := mem_item_ids hx'
    obtain ⟨i', hi', -, hyid⟩ := @mem_item_ids n k y hy
    have hsame := serial_injective (hxid.symm.trans (heq.trans hyid))
    have hmax := hk.2
    omega
  have hends := sale_ends (c := waterCall n k) rfl hpre
    (ends_checkout_plain hwf (admitted hk.1) (plain_lines _) (safe_amounts _) hfresh hitems)
  unfold Prog.Ends at hends
  split at hends
  · rename_i n' log r hsolo
    obtain ⟨response, rfl, hlog⟩ := hends
    rw [huser] at hlog
    have hlegal : (watered k (n + 1)).legal = true := watered_legal hk.2
    refine ⟨.sale response, ?_⟩
    rw [App.alone_of_solo_ok hpre hsolo (hlog ▸ hlegal), hlog]
    rfl
  · exact hends.elim

/-- A day of such sales. -/
theorem day (n : Nat) (hn : n < 900000000000) : ∃ σ : State, kasir.Reach stall σ ∧
    σ.db = watered k n ∧ (∀ cs ∈ σ.calls, cs.2.held = []) ∧
      ∀ e ∈ σ.history, ∃ j < n, e.call = waterCall j k := by
  induction n with
  | zero =>
      refine ⟨Sys.init stall, .init, rfl, ?_, ?_⟩
      · rintro cs ⟨⟩
      · rintro e ⟨⟩
  | succ n ih =>
      obtain ⟨σ, hrun, hdb, hquiet, hhistory⟩ := ih (by omega)
      have hwf : Wf (watered k n) := hdb ▸ (reach_sound stall_wf hrun).inv
      obtain ⟨r, halone⟩ := next_sale hk (by omega) hwf
      rw [← hdb] at halone
      obtain ⟨σ', hrun', hdb', hcalls', hhistory', -⟩ :=
        App.run_alone (fun _ _ _ => trivial) hrun hquiet halone
      obtain ⟨seen, hhistory'⟩ := hhistory' r rfl
      refine ⟨σ', hrun', hdb', fun cs hcs => ?_, fun e he => ?_⟩
      · rw [hcalls'] at hcs
        rcases List.mem_append.mp hcs with hold | hnew
        · exact hquiet cs hold
        · rw [List.mem_singleton.mp hnew]
          rfl
      · rw [hhistory'] at he
        rcases List.mem_append.mp he with hold | hnew
        · obtain ⟨j, hj, hcall⟩ := hhistory e hold
          exact ⟨j, by omega, hcall⟩
        · rw [List.mem_singleton.mp hnew]
          exact ⟨n, by omega, rfl⟩

end Day

-- ============================================================================
-- What was sold
-- ============================================================================

section Water

variable {k : Nat} (hk : 0 < k ∧ k ≤ 9000)

theorem soldQuantities_itemRows {tid : Id} {envs : Nat → Env} {m : Nat} {items : List ValidatedItem} :
    soldQuantities (itemRows user tid envs m items) =
      items.map fun i => (i.product.id, i.quantity) := by
  induction items generalizing m with
  | nil => rfl
  | cons i items ih => exact congrArg _ ih

theorem water_amounts (j k : Nat) :
    Js.amountsOf water (soldQuantities (waterRows j k).items) = List.replicate k int4Max := by
  obtain ⟨c, w, hitems, ⟨hc, -⟩, ⟨hw, -⟩, -⟩ := waterItems_eq
  have hne : ¬ coffee = water := by
    intro h
    have hapart := evaluated.apart
    rw [h, beq_self_eq_true] at hapart
    cases hapart
  show Js.amountsOf water (soldQuantities (itemRows user _ (waterEnvs j) 8 (waterItems k))) = _
  rw [soldQuantities_itemRows, hitems, List.map_cons, List.map_replicate]
  unfold Js.amountsOf lineOf
  rw [hc, hw, List.filter_cons_of_neg (by simpa using hne),
    List.filter_eq_self.mpr fun e he => by simp [List.eq_of_mem_replicate he], List.map_replicate]

include hk

theorem watered_wf {n : Nat} (hn : n < 900000000000) : Wf (watered k n) := by
  obtain ⟨σ, hrun, hdb, -⟩ := day hk n hn
  exact hdb ▸ (reach_sound stall_wf hrun).inv

/-- All water is of the session. -/
theorem amountsOf_water {n : Nat} (hn : n < 900000000000) :
    Js.amountsOf water (soldQuantities (sessionItems openSession (watered k n))) =
      List.replicate (n * k) int4Max := by
  induction n with
  | zero =>
      rw [Nat.zero_mul]
      rfl
  | succ n ih =>
      have hfresh : ∀ t ∈ (watered k n).sales.transactions, t.id ≠ (waterRows n k).transaction.id := by
        intro t ht heq
        obtain ⟨i, hi, rfl⟩ := (watered_ok k n).transactions t ht
        have hsame := serial_injective heq
        omega
      have hsale : Shifts.saleOf openSession.tenantId openSession.id (waterRows n k).transaction =
          true := by
        show (tenant == tenant && some (toLowerCase session) == some session && _) = true
        rw [evaluated.names.1, beq_self_eq_true, beq_self_eq_true]
        rfl
      have hsplit : sessionItems openSession ((waterRows n k).apply (watered k n)) =
          sessionItems openSession (watered k n) ++ (waterRows n k).items :=
        sessionItems_apply (watered_wf hk (by omega)) linked_plainRows hfresh hsale
      show Js.amountsOf water (soldQuantities (sessionItems openSession
        ((waterRows n k).apply (watered k n)))) = _
      unfold soldQuantities at ih ⊢
      have hrest := water_amounts n k
      unfold soldQuantities at hrest
      rw [hsplit, List.map_append, amountsOf_append, ih (by omega), hrest, ← List.replicate_add,
        Nat.succ_mul]

end Water

theorem stall_salesOk : SalesOk stall where
  uniqueKey := fun _ h => nomatch h
  onePayment := fun _ h => nomatch h
  linked := fun _ h => nomatch h

theorem stall_books : BooksOk stall := fun _ h => nomatch h

/-- The cashier is who runs the session. -/
theorem watered_own (k n : Nat) : OwnShift user session openSession (watered k n) := by
  have haccounts := (watered_ok k n).accounts
  exact
    { ids := evaluated.ids
      session := ⟨evaluated.names.1, evaluated.names.2.1, evaluated.names.2.2.1⟩
      active := by
        rw [haccounts]
        exact ⟨⟨_, List.mem_singleton.mpr rfl, rfl, rfl, rfl⟩, _, List.mem_singleton.mpr rfl, rfl,
          rfl⟩ }

theorem length_watered (k n : Nat) : (watered k n).sales.transactions.length = n := by
  induction n with
  | zero => rfl
  | succ n ih =>
      show ((watered k n).sales.transactions ++ [_]).length = n + 1
      rw [List.length_append, ih]
      rfl

/-- Each of its sales comes to 1,100. -/
theorem sessionTotal_watered (k n : Nat) : sessionTotal openSession (watered k n) ≤ n * 1100 := by
  have hall : ∀ v ∈ (sessionSales openSession (watered k n)).map Transaction.total, v ≤ 1100 := by
    intro v hv
    obtain ⟨t, ht, rfl⟩ := List.mem_map.mp hv
    obtain ⟨i, -, rfl⟩ := (watered_ok k n).transactions t (mem_sessionSales ht).1
    exact Int.le_refl _
  have hsum := List.sum_le_card_nsmul _ _ hall
  have hlength : (sessionSales openSession (watered k n)).length ≤ n :=
    (List.length_filter_le _ _).trans_eq (length_watered k n)
  rw [List.length_map, nsmul_eq_mul] at hsum
  unfold sessionTotal
  omega

end Shop

/-- A session with 10,565 sales of a coffee and 397 lines of 2,147,483,647 free waters
    each: the summary is answered, and shows another quantity than was sold. -/
theorem summary_rounds_quantities :
    ∃ (db : Db) (σ : State), Wf db ∧ SalesOk db ∧ BooksOk db ∧ db.sales = {} ∧
      kasir.Reach db σ ∧
      (∀ e ∈ σ.history, ∃ user dto, e.call = .create user dto ∧ dto.items.length ≤ 398) ∧
      ∃ (user : JwtPayload) (id : String), ∀ envs, ∃ s,
        kasir.alone (.shiftSummary user id) σ.db envs = some (.ok (.summary s), σ.db) ∧
        ∃ x ∈ σ.db.cashierSessions, s.shiftId = x.id ∧
          ∃ p ∈ s.products, p.quantity ≠ soldOf p.productId x σ.db := by
  have hk : 0 < 397 ∧ 397 ≤ 9000 := by decide
  obtain ⟨σ, hrun, hdb, -, hcalls⟩ := Shop.day hk 10565 (by decide)
  have hsound := reach_sound Shop.stall_wf hrun
  have hbooks : BooksOk σ.db := BooksOk.invariant hsound Shop.stall_salesOk Shop.stall_books
  have hx : Shop.openSession ∈ σ.db.cashierSessions := by
    rw [hdb, (Shop.watered_ok 397 10565).sessions]
    exact List.mem_singleton.mpr rfl
  have hown : OwnShift Shop.user Shop.session Shop.openSession σ.db := hdb ▸ Shop.watered_own _ _
  have hsafe : sessionTotal Shop.openSession σ.db ≤ maxSafeInteger := by
    have hle := Shop.sessionTotal_watered 397 10565
    rw [← hdb] at hle
    unfold maxSafeInteger
    omega
  have hamounts : Js.amountsOf Shop.water (soldQuantities (sessionItems Shop.openSession σ.db)) =
      List.replicate (10565 * 397) int4Max := by
    rw [hdb]
    exact Shop.amountsOf_water hk (by decide)
  obtain ⟨n, hn⟩ : ∃ n, n = 4194303 := ⟨_, rfl⟩
  rw [show 10565 * 397 = n + 1 + 1 by omega] at hamounts
  obtain ⟨p, hp, hwater, hquantity⟩ := summary_of_equal hamounts
  -- the first sums are exact, the last one is not
  have hexact : (List.replicate n int4Max).foldl addNumber int4Max = int4Max * (n + 1) := by
    have hsum : (List.replicate n int4Max).sum = n * int4Max := by simp
    rw [foldl_addNumber_exact ?_ (by decide) ?_, hsum]
    · unfold int4Max
      omega
    · intro y hy
      rw [List.eq_of_mem_replicate hy]
      decide
    · rw [hsum, hn]
      decide
  have hsold : soldOf Shop.water Shop.openSession σ.db = int4Max * (n + 2) := by
    unfold soldOf
    rw [hamounts, List.sum_replicate, nsmul_eq_mul]
    unfold int4Max
    omega
  have hwrong : p.quantity ≠ soldOf p.productId Shop.openSession σ.db := by
    rw [hwater, hquantity, hsold, List.replicate_succ', List.foldl_append, hexact, hn]
    decide +kernel
  refine ⟨Shop.stall, σ, Shop.stall_wf, Shop.stall_salesOk, Shop.stall_books, rfl, hrun, ?_,
    Shop.user, Shop.session, fun envs => ?_⟩
  · intro e he
    obtain ⟨j, -, hcall⟩ := hcalls e he
    refine ⟨_, _, hcall, ?_⟩
    show (_ :: List.replicate 397 _).length ≤ 398
    rw [List.length_cons, List.length_replicate]
  · have hsolo := @solo_summaryBody Shop.user Shop.session Shop.openSession σ.db envs hsound.inv
      hbooks hx hown hsafe
    have hbody : (kasir.body (.shiftSummary Shop.user Shop.session)).solo σ.db envs 0 id =
        ⟨4, id, .ok (.summary (Shifts.summaryOf (Shifts.shiftSelect σ.db.accounts Shop.openSession)
          (summaryAt Shop.openSession σ.db) (envs 3).now))⟩ := by
      show (Shifts.summaryBody Shop.user Shop.session >>= fun r => Prog.ret (Result.summary r)).solo
        σ.db envs 0 id = _
      rw [Prog.solo_bind, hsolo]
      rfl
    exact ⟨_, App.alone_of_solo_ok rfl hbody hsound.inv.legal, Shop.openSession, hx, rfl, p, hp,
      hwrong⟩

end Kasir
