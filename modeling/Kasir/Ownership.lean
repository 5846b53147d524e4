/-
  Kasir.Ownership

  What the transactions of the backend may assume of each other: the invariants
  of the committed database, how it may evolve, and what each token protects.
-/

import Kasir.Api
import Kasir.Txn.Logic

namespace Kasir

open Txn Transactions HeldOrders

-- ============================================================================
-- Well-formed databases
-- ============================================================================

/-- The children of sales have their parents (foreign keys). -/
structure Sales.Closed (s : Sales) : Prop where
  itemParent : ∀ i ∈ s.transactionItems, ∃ t ∈ s.transactions, itemOf t i = true
  modifierParent : ∀ m ∈ s.transactionItemModifiers, ∃ i ∈ s.transactionItems, modifierOf i m = true
  paymentParent : ∀ p ∈ s.payments, ∃ t ∈ s.transactions, paymentOf t p = true

/-- The children of held orders have their parents (foreign keys). -/
structure Held.Closed (h : Held) : Prop where
  itemParent : ∀ i ∈ h.heldOrderItems, ∃ o ∈ h.heldOrders, heldItemOf o i = true
  modifierParent : ∀ m ∈ h.heldOrderItemModifiers,
    ∃ i ∈ h.heldOrderItems, heldModifierOf i m = true

/-- Keys are distinct, children have parents, and held orders have their origin
    session (`fk_held_orders_cashier_session_same_tenant`). -/
structure Wf (db : Db) : Prop where
  legal : db.legal = true
  sales : db.sales.Closed
  held : db.held.Closed
  origin : ∀ o ∈ db.held.heldOrders, ∃ s ∈ db.cashierSessions,
    s.id = o.originCashierSessionId ∧ s.tenantId = o.tenantId

theorem nodup_of_distinct {α κ : Type} [DecidableEq κ] {key : α → κ} {rows : List α}
    (h : distinct key rows = true) : (rows.map key).Nodup := of_decide_eq_true h

section Legal

variable {db : Db} (h : db.legal = true)
include h

theorem legal_users : (db.accounts.users.map User.id).Nodup := by
  simp only [Db.legal, Bool.and_eq_true] at h
  exact nodup_of_distinct (by simp_all)

theorem legal_products : (db.catalog.products.map Product.id).Nodup := by
  simp only [Db.legal, Bool.and_eq_true] at h
  exact nodup_of_distinct (by simp_all)

theorem legal_modifierGroups : (db.catalog.modifierGroups.map ModifierGroup.id).Nodup := by
  simp only [Db.legal, Bool.and_eq_true] at h
  exact nodup_of_distinct (by simp_all)

theorem legal_modifierOptions : (db.catalog.modifierOptions.map ModifierOption.id).Nodup := by
  simp only [Db.legal, Bool.and_eq_true] at h
  exact nodup_of_distinct (by simp_all)

theorem legal_cashierSessions : (db.cashierSessions.map CashierSession.id).Nodup := by
  simp only [Db.legal, Bool.and_eq_true] at h
  exact nodup_of_distinct (by simp_all)

theorem legal_transactions : (db.sales.transactions.map Transaction.id).Nodup := by
  simp only [Db.legal, Bool.and_eq_true] at h
  exact nodup_of_distinct (by simp_all)

theorem legal_transactionItems : (db.sales.transactionItems.map TransactionItem.id).Nodup := by
  simp only [Db.legal, Bool.and_eq_true] at h
  exact nodup_of_distinct (by simp_all)

theorem legal_transactionItemModifiers :
    (db.sales.transactionItemModifiers.map TransactionItemModifier.id).Nodup := by
  simp only [Db.legal, Bool.and_eq_true] at h
  exact nodup_of_distinct (by simp_all)

theorem legal_productStocks :
    (db.stocks.productStocks.map fun s => (s.outletId, s.productId)).Nodup := by
  simp only [Db.legal, Bool.and_eq_true] at h
  exact nodup_of_distinct (by simp_all)

theorem legal_heldOrders : (db.held.heldOrders.map HeldOrder.id).Nodup := by
  simp only [Db.legal, Bool.and_eq_true] at h
  exact nodup_of_distinct (by simp_all)

theorem legal_heldOrderItems : (db.held.heldOrderItems.map HeldOrderItem.id).Nodup := by
  simp only [Db.legal, Bool.and_eq_true] at h
  exact nodup_of_distinct (by simp_all)

end Legal

/-- Rows with the same key are the same row. -/
theorem eq_of_key {α κ : Type} {key : α → κ} {rows : List α} (h : (rows.map key).Nodup)
    {x y : α} (hx : x ∈ rows) (hy : y ∈ rows) (hkey : key x = key y) : x = y :=
  List.inj_on_of_nodup_map h hx hy hkey

theorem find?_of_mem {α : Type} {p : α → Bool} {rows : List α} {x : α} (hx : x ∈ rows)
    (hp : p x = true) : ∃ y, rows.find? p = some y ∧ y ∈ rows ∧ p y = true := by
  have hsome : (rows.find? p).isSome = true := List.find?_isSome.mpr ⟨x, hx, hp⟩
  obtain ⟨y, hy⟩ := Option.isSome_iff_exists.mp hsome
  exact ⟨y, hy, List.mem_of_find?_eq_some hy, List.find?_some hy⟩

/-- The condition holds of one row only. -/
theorem filter_eq_singleton {α κ : Type} {key : α → κ} {rows : List α} {p : α → Bool}
    (h : (rows.map key).Nodup) {x : α} (hx : x ∈ rows) (hp : p x = true)
    (honly : ∀ y ∈ rows, p y = true → key y = key x) : rows.filter p = [x] := by
  have hnodup : (rows.filter p).Nodup := h.of_map.filter _
  have hperm : (rows.filter p).Perm [x] := by
    rw [List.perm_ext_iff_of_nodup hnodup (List.nodup_singleton x)]
    intro y
    rw [List.mem_filter, List.mem_singleton]
    constructor
    · rintro ⟨hy, hpy⟩
      exact eq_of_key h hy hx (honly y hy hpy)
    · rintro rfl
      exact ⟨hx, hp⟩
  exact List.perm_singleton.mp hperm

-- ============================================================================
-- Evolution
-- ============================================================================

/-- Sales only accumulate, and new rows belong to new sales. -/
structure Sales.Grows (a b : Sales) : Prop where
  transactions : ∃ new, b.transactions = a.transactions ++ new
  items : ∃ new, b.transactionItems = a.transactionItems ++ new ∧
    ∀ i ∈ new, ∀ t ∈ a.transactions, itemOf t i = false
  modifiers : ∃ new, b.transactionItemModifiers = a.transactionItemModifiers ++ new ∧
    ∀ m ∈ new, ∀ i ∈ a.transactionItems, modifierOf i m = false
  payments : ∃ new, b.payments = a.payments ++ new ∧
    ∀ p ∈ new, ∀ t ∈ a.transactions, paymentOf t p = false

namespace Sales.Grows

theorem refl (a : Sales) : Sales.Grows a a :=
  ⟨⟨[], by simp⟩, ⟨[], by simp⟩, ⟨[], by simp⟩, ⟨[], by simp⟩⟩

theorem mem {a b : Sales} (h : Sales.Grows a b) {t : Transaction} (ht : t ∈ a.transactions) :
    t ∈ b.transactions := by
  obtain ⟨new, hnew⟩ := h.transactions
  rw [hnew]
  exact List.mem_append_left _ ht

theorem item_mem {a b : Sales} (h : Sales.Grows a b) {i : TransactionItem}
    (hi : i ∈ a.transactionItems) : i ∈ b.transactionItems := by
  obtain ⟨new, hnew, -⟩ := h.items
  rw [hnew]
  exact List.mem_append_left _ hi

theorem trans {a b c : Sales} (h1 : Sales.Grows a b) (h2 : Sales.Grows b c) :
    Sales.Grows a c := by
  obtain ⟨t1, ht1⟩ := h1.transactions
  obtain ⟨t2, ht2⟩ := h2.transactions
  obtain ⟨i1, hi1, hi1'⟩ := h1.items
  obtain ⟨i2, hi2, hi2'⟩ := h2.items
  obtain ⟨m1, hm1, hm1'⟩ := h1.modifiers
  obtain ⟨m2, hm2, hm2'⟩ := h2.modifiers
  obtain ⟨p1, hp1, hp1'⟩ := h1.payments
  obtain ⟨p2, hp2, hp2'⟩ := h2.payments
  refine ⟨⟨t1 ++ t2, by rw [ht2, ht1, List.append_assoc]⟩,
    ⟨i1 ++ i2, by rw [hi2, hi1, List.append_assoc], ?_⟩,
    ⟨m1 ++ m2, by rw [hm2, hm1, List.append_assoc], ?_⟩,
    ⟨p1 ++ p2, by rw [hp2, hp1, List.append_assoc], ?_⟩⟩
  · intro i hi t ht
    exact (List.mem_append.mp hi).elim (fun h => hi1' i h t ht) fun h => hi2' i h t (h1.mem ht)
  · intro m hm i hi
    exact (List.mem_append.mp hm).elim (fun h => hm1' m h i hi)
      fun h => hm2' m h i (h1.item_mem hi)
  · intro p hp t ht
    exact (List.mem_append.mp hp).elim (fun h => hp1' p h t ht) fun h => hp2' p h t (h1.mem ht)

end Sales.Grows

/-- Everything stored about one order: its row, and its lines with their
    modifiers. -/
def Held.slice (held : Held) (id : Id) :
    List HeldOrder × List (HeldOrderItem × List HeldOrderItemModifier) :=
  (held.heldOrders.filter fun o => o.id == id,
    (held.heldOrderItems.filter fun i => i.heldOrderId == id).map fun i =>
      (i, held.heldOrderItemModifiers.filter fun m => m.heldOrderItemId == i.id))

/-- What is fixed when an order is created. -/
def HeldOrder.origin (o : HeldOrder) : Id × Id × Id × Id × Id :=
  (o.id, o.tenantId, o.outletId, o.originCashierSessionId, o.cashierUserId)

/-- Orders stay, and nothing about an order changes but with its version. -/
def Held.Evolves (a b : Held) : Prop :=
  ∀ o ∈ a.heldOrders, ∃ o' ∈ b.heldOrders, o'.origin = o.origin ∧ o.version ≤ o'.version ∧
    (o'.version = o.version → b.slice o.id = a.slice o.id)

theorem Held.Evolves.refl (a : Held) : Held.Evolves a a :=
  fun o ho => ⟨o, ho, rfl, le_refl _, fun _ => rfl⟩

theorem Held.Evolves.trans {a b c : Held} (h1 : Held.Evolves a b) (h2 : Held.Evolves b c) :
    Held.Evolves a c := by
  intro o ho
  obtain ⟨o1, ho1, horigin1, hle1, hsame1⟩ := h1 o ho
  obtain ⟨o2, ho2, horigin2, hle2, hsame2⟩ := h2 o1 ho1
  have hid : o1.id = o.id := congrArg Prod.fst horigin1
  refine ⟨o2, ho2, horigin2.trans horigin1, hle1.trans hle2, fun hv => ?_⟩
  have hv1 : o1.version = o.version := le_antisymm (hv ▸ hle2) hle1
  rw [← hsame1 hv1, ← hid]
  exact hsame2 (hv.trans hv1.symm)

/-- What is fixed when a session is opened. -/
def CashierSession.origin (s : CashierSession) : Id × Id × Id × Id :=
  (s.id, s.tenantId, s.outletId, s.userId)

/-- Sessions stay, and a closed one never changes. -/
def SessionsEvolve (a b : List CashierSession) : Prop :=
  ∀ x ∈ a, ∃ y ∈ b, y.origin = x.origin ∧ (x.status = .closed → y = x)

theorem SessionsEvolve.refl (a : List CashierSession) : SessionsEvolve a a :=
  fun x hx => ⟨x, hx, rfl, fun _ => rfl⟩

theorem SessionsEvolve.trans {a b c : List CashierSession} (h1 : SessionsEvolve a b)
    (h2 : SessionsEvolve b c) : SessionsEvolve a c := by
  intro x hx
  obtain ⟨y, hy, horigin1, hclosed1⟩ := h1 x hx
  obtain ⟨z, hz, horigin2, hclosed2⟩ := h2 y hy
  refine ⟨z, hz, horigin2.trans horigin1, fun h => ?_⟩
  have hyx := hclosed1 h
  rw [hclosed2 (hyx ▸ h), hyx]

/-- How the database may change between two statements of a transaction. -/
structure Evolves (a b : Db) : Prop where
  sales : Sales.Grows a.sales b.sales
  held : Held.Evolves a.held b.held
  sessions : SessionsEvolve a.cashierSessions b.cashierSessions

theorem Evolves.refl (a : Db) : Evolves a a := ⟨.refl _, .refl _, .refl _⟩

theorem Evolves.trans {a b c : Db} (h1 : Evolves a b) (h2 : Evolves b c) : Evolves a c :=
  ⟨h1.sales.trans h2.sales, h1.held.trans h2.held, h1.sessions.trans h2.sessions⟩

-- ============================================================================
-- Tokens
-- ============================================================================

/-- The `product_stocks` rows of an outlet and product. -/
def Stocks.rowsOf (stocks : Stocks) (outletId productId : Id) : List ProductStock :=
  stocks.productStocks.filter fun s => s.outletId == outletId && s.productId == productId

/-- An OPEN order originates from the session. -/
def Held.hasOpenOrder (held : Held) (sessionId : Id) : Prop :=
  ∃ o ∈ held.heldOrders, o.originCashierSessionId = sessionId ∧ o.status = .open

/-- The session is there and OPEN. -/
def Db.sessionOpen (db : Db) (sessionId : Id) : Prop :=
  ∃ s ∈ db.cashierSessions, s.id = sessionId ∧ s.status = .open

/-- The assignments of a product. -/
def Catalog.assignmentsOf (c : Catalog) (tenantId productId : Id) : List ProductModifierGroup :=
  c.productModifierGroups.filter fun a => a.tenantId == tenantId && a.productId == productId

/-- What a token protects, where the marks in `R` are respected.  That no order
    of a session becomes OPEN behind the back of the session's lock holder takes
    the respect for sought sessions: a session that is not there cannot be
    locked. -/
def same (R : Token → Prop) : Token → Db → Db → Prop
  | .stock o p, a, b => b.stocks.rowsOf o p = a.stocks.rowsOf o p
  | .order h, a, b => ∀ o ∈ a.held.heldOrders, o.id = h → b.held.slice h = a.held.slice h
  | .session s, a, b =>
      (∀ x ∈ a.cashierSessions, x.id = s → x ∈ b.cashierSessions) ∧
      (R (.sessionSought s) → ¬ a.held.hasOpenOrder s → ¬ b.held.hasOpenOrder s)
  | .saleKey t k, a, b =>
      (∀ x ∈ a.sales.transactions, hasKey t k x = false) →
        ∀ x ∈ b.sales.transactions, hasKey t k x = false
  | .openUser t u, a, b =>
      (∀ x ∈ a.cashierSessions, Shifts.openSessionOf t u x = false) →
        ∀ x ∈ b.cashierSessions, Shifts.openSessionOf t u x = false
  | .sessionRead s, a, b => R (.sessionRead s) → a.sessionOpen s → b.sessionOpen s
  | .sessionSought s, a, b =>
      R (.sessionSought s) → (∀ x ∈ a.cashierSessions, x.id ≠ s) →
        ∀ x ∈ b.cashierSessions, x.id ≠ s
  | .replacing t p, a, b =>
      R (.replacing t p) → b.catalog.assignmentsOf t p ⊆ a.catalog.assignmentsOf t p
  | .assignment .., _, _ | .closing _, _, _ | .sessionInserted _, _, _ | .replaced .., _, _ => True

/-- A holder of the first token changes what the second one protects. -/
def disturbs : Token → Token → Bool
  | .closing s, .sessionRead s' => s == s'
  | .sessionInserted s, .sessionSought s' => s == s'
  | .replaced t p, .replacing t' p' => t == t' && p == p'
  | _, _ => false

/-- Conflicts: between locks, and with the marks that are respected. -/
def conflicts (R : Token → Prop) (l l' : Token) : Prop :=
  l.blocks l' = true ∨ (R l' ∧ disturbs l l' = true)

theorem same_refl (R : Token → Prop) (l : Token) (db : Db) : same R l db db := by
  cases l <;> simp +contextual [same]

theorem same_trans {R : Token → Prop} {l : Token} {a b c : Db} (h1 : same R l a b)
    (h2 : same R l b c) : same R l a c := by
  cases l with
  | stock o p => exact h2.trans h1
  | order h =>
      intro o ho hid
      have hab := h1 o ho hid
      have hmem : o ∈ (b.held.slice h).1 := by
        rw [hab]
        simp [Held.slice, ho, hid]
      simp only [Held.slice, List.mem_filter] at hmem
      exact (h2 o hmem.1 hid).trans hab
  | session s =>
      exact ⟨fun x hx hid => h2.1 x (h1.1 x hx hid) hid, fun hR hno => h2.2 hR (h1.2 hR hno)⟩
  | saleKey t k => exact fun h => h2 (h1 h)
  | openUser t u => exact fun h => h2 (h1 h)
  | sessionRead s => exact fun hR h => h2 hR (h1 hR h)
  | sessionSought s => exact fun hR h => h2 hR (h1 hR h)
  | assignment t p g => trivial
  | closing s => trivial
  | sessionInserted s => trivial
  | replacing t p => exact fun hR => List.Subset.trans (h2 hR) (h1 hR)
  | replaced t p => trivial

/-- The protocol of the backend, where the marks in `R` are respected. -/
def protocol (R : Token → Prop) : Protocol Db Token where
  Inv := Wf
  evolves := Evolves
  same := same R
  conflicts := conflicts R
  evolves_refl := Evolves.refl
  evolves_trans := Evolves.trans
  same_refl := same_refl R
  same_trans := same_trans

-- ============================================================================
-- Which component a token protects
-- ============================================================================

section Same

variable {R : Token → Prop} {a b : Db}

/-- A commit keeps its promise to the others if it holds the tokens of what it
    changes, component by component. -/
theorem owns_of {held : List Token}
    (hstock : ∀ o p, .stock o p ∈ held ∨ b.stocks.rowsOf o p = a.stocks.rowsOf o p)
    (horder : ∀ h, .order h ∈ held ∨ same R (.order h) a b)
    (hsession : ∀ s, .session s ∈ held ∨ same R (.session s) a b)
    (hkey : ∀ t k, .saleKey t k ∈ held ∨ same R (.saleKey t k) a b)
    (huser : ∀ t u, .openUser t u ∈ held ∨ same R (.openUser t u) a b)
    (hread : ∀ s, (.closing s ∈ held ∧ R (.sessionRead s)) ∨ same R (.sessionRead s) a b)
    (hsought : ∀ s, (.sessionInserted s ∈ held ∧ R (.sessionSought s)) ∨
      same R (.sessionSought s) a b)
    (hreplacing : ∀ t p, .replaced t p ∈ held ∨ same R (.replacing t p) a b) :
    ∀ l, same R l a b ∨ ∃ l' ∈ held, conflicts R l' l := by
  -- a lock conflicts with itself
  have hlock : ∀ l : Token, l.isLock = true → l ∈ held ∨ same R l a b →
      same R l a b ∨ ∃ l' ∈ held, conflicts R l' l := by
    intro l hl h
    rcases h with h | h
    · exact Or.inr ⟨l, h, Or.inl (by simp [Token.blocks, hl])⟩
    · exact Or.inl h
  intro l
  cases l with
  | stock o p => exact hlock _ rfl (hstock o p)
  | order h => exact hlock _ rfl (horder h)
  | session s => exact hlock _ rfl (hsession s)
  | saleKey t k => exact hlock _ rfl (hkey t k)
  | openUser t u => exact hlock _ rfl (huser t u)
  | sessionRead s =>
      rcases hread s with ⟨h, hR⟩ | h
      · exact Or.inr ⟨_, h, Or.inr ⟨hR, by simp [disturbs]⟩⟩
      · exact Or.inl h
  | sessionSought s =>
      rcases hsought s with ⟨h, hR⟩ | h
      · exact Or.inr ⟨_, h, Or.inr ⟨hR, by simp [disturbs]⟩⟩
      · exact Or.inl h
  | replacing t p =>
      by_cases hR : R (.replacing t p)
      · rcases hreplacing t p with h | h
        · exact Or.inr ⟨_, h, Or.inr ⟨hR, by simp [disturbs]⟩⟩
        · exact Or.inl h
      · exact Or.inl fun h => absurd h hR
  | assignment t p g => exact Or.inl trivial
  | closing s => exact Or.inl trivial
  | sessionInserted s => exact Or.inl trivial
  | replaced t p => exact Or.inl trivial

theorem same_order_of (h : b.held = a.held) (x : Id) : same R (.order x) a b := by
  intro o _ _
  rw [h]

theorem same_session_of (hs : b.cashierSessions = a.cashierSessions) (hh : b.held = a.held)
    (s : Id) : same R (.session s) a b := by
  simp only [same, hs, hh]
  exact ⟨fun x hx _ => hx, fun _ h => h⟩

theorem same_saleKey_of (h : b.sales = a.sales) (t k : Id) : same R (.saleKey t k) a b := by
  simp only [same, h]
  exact fun h => h

theorem same_openUser_of (h : b.cashierSessions = a.cashierSessions) (t u : Id) :
    same R (.openUser t u) a b := by
  simp only [same, h]
  exact fun h => h

theorem same_sessionRead_of (h : b.cashierSessions = a.cashierSessions) (s : Id) :
    same R (.sessionRead s) a b := by
  simp only [same, Db.sessionOpen, h]
  exact fun _ h => h

theorem same_replacing_of (h : b.catalog = a.catalog) (t p : Id) :
    same R (.replacing t p) a b := by
  simp only [same, h]
  exact fun _ _ ha => ha

theorem same_sessionSought_of (h : b.cashierSessions = a.cashierSessions) (s : Id) :
    same R (.sessionSought s) a b := by
  simp only [same, h]
  exact fun _ h => h

end Same

end Kasir
