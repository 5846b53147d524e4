/-
  Kasir.StockOrder

  In which order the transactions of the backend take the locks of stock rows.

  Only sales and stock adjustments take such locks.  An adjustment takes one; a
  sale takes one for each tracked product, in the order in which its lines first
  mention the products.
-/

import Kasir.Guarantees.StockLedger
import Kasir.Txn.LockOrder

namespace Kasir

open Txn Transactions HeldOrders

-- ============================================================================
-- Orders of products
-- ============================================================================

/-- A lock of a `product_stocks` row. -/
def Token.isStock : Token → Bool
  | .stock .. => true
  | _ => false

/-- Stock rows of one outlet, in the order of the outlet's products. -/
def stockBefore (before : Id → Id → Id → Prop) : Token → Token → Prop
  | .stock o p, .stock o' p' => o = o' ∧ before o p p'
  | _, _ => False

/-- Products in `T` are first mentioned in order. -/
def Ascends (before : Id → Id → Prop) (T : Id → Prop) (ids : List Id) : Prop :=
  ∀ a ∈ ids, ∀ b ∈ ids, T a → T b → ids.idxOf a < ids.idxOf b → before a b

/-- The products of a held order, line by line, as a sale gets them. -/
def orderedProducts (record : HeldOrderRecord) : List Id :=
  record.items.map fun r => Js.toLowerCase r.item.productId

/-- All tracked products are in `T`, and the lines of every held order mention
    those in the order of its outlet. -/
structure FitsOrder (before : Id → Id → Id → Prop) (T : Id → Prop) (db : Db) : Prop where
  tracked : ∀ p ∈ db.catalog.products, p.trackStock = true → T p.id
  orders : ∀ o ∈ db.held.heldOrders, ∀ rank,
    Ascends (before (Js.toLowerCase o.outletId)) T (orderedProducts (heldRecordOf db rank o))

/-- What holds whatever is done to other tables than the catalog and held orders. -/
def SaleBlind (G : Db → Prop) : Prop :=
  ∀ a b : Db, b.catalog = a.catalog → b.held = a.held → G a → G b

theorem saleBlind_fitsOrder (before : Id → Id → Id → Prop) (T : Id → Prop) :
    SaleBlind (FitsOrder before T) := by
  intro a b hcatalog hheld h
  refine ⟨fun p hp => h.tracked p (hcatalog ▸ hp), fun o ho rank => ?_⟩
  have hsame : orderedProducts (heldRecordOf b rank o) = orderedProducts (heldRecordOf a rank o) := by
    unfold orderedProducts heldRecordOf
    rw [hheld]
  rw [hsame]
  exact h.orders o (hheld ▸ ho) rank

/-- Held orders that keep their identity keep their lines. -/
theorem FitsOrder.change {before : Id → Id → Id → Prop} {T : Id → Prop} {db : Db}
    {hit : List Token} {f : HeldOrder → HeldOrder} (hf : ∀ o, (f o).origin = o.origin)
    (h : FitsOrder before T db) : FitsOrder before T (heldOrders.change hit f db) := by
  refine ⟨h.tracked, fun o ho rank => ?_⟩
  obtain ⟨x, hx, hxo⟩ : ∃ x ∈ db.held.heldOrders,
      (if heldOrders.lock x ∈ hit then f x else x) = o := List.mem_map.mp ho
  have horigin : o.origin = x.origin := by
    rw [← hxo]
    split
    · exact hf x
    · rfl
  simp only [HeldOrder.origin, Prod.mk.injEq] at horigin
  obtain ⟨hid, htenant, houtlet, -⟩ := horigin
  have hlines : orderedProducts (heldRecordOf (heldOrders.change hit f db) rank o) =
      orderedProducts (heldRecordOf db rank x) := by
    have hof : heldItemOf o = heldItemOf x := by
      funext i
      unfold heldItemOf
      rw [hid, htenant]
    unfold orderedProducts heldRecordOf
    rw [List.map_map, List.map_map, hof]
    rfl
  rw [hlines, houtlet]
  exact h.orders x hx rank

-- ============================================================================
-- Statements
-- ============================================================================

section Statements

variable {G : Db → Prop}

/-- A body that takes no lock of a stock row. -/
abbrev NoStock {α : Type} (G : Db → Prop) (x : Body α) (Q : α → Prop) : Prop :=
  x.Calm G Token.isStock Q

theorem noStock_query {α : Type} (f : Db → α) :
    NoStock G (query f) fun a => ∃ db, G db ∧ a = f db :=
  Prog.calm_read fun v hsnap _ => ⟨v.snap, hsnap, rfl⟩

theorem noStock_queryRanked {α : Type} (f : (Id → Nat) → Db → α) :
    NoStock G (queryRanked f) fun a => ∃ db rank, G db ∧ a = f rank db :=
  Prog.calm_read fun v hsnap _ => ⟨v.snap, v.env.rank, hsnap, rfl⟩

theorem noStock_queryNow {α : Type} (f : Db → α) :
    NoStock G (queryNow f) fun _ => True := Prog.calm_read fun _ _ _ => trivial

theorem noStock_insert {α : Type} {mk : Env → α} {add : α → Db → Db}
    (hadd : ∀ a d, G d → G (add a d)) : NoStock G (insert mk add) fun _ => True :=
  Prog.calm_write fun v _ d hd => hadd (mk v.env) d hd

theorem noStock_createMany {α : Type} {n : Nat} {mk : Env → List α} {add : List α → Db → Db}
    (hadd : ∀ a d, G d → G (add a d)) : NoStock G (createMany n mk add) fun _ => True := by
  unfold createMany
  split
  · trivial
  · exact Prog.calm_bind (noStock_insert hadd) fun _ _ => trivial

theorem noStock_insertUnique {α : Type} {entry : Token} {marks : Env → List Token}
    {taken : Db → Bool} {index : UniqueIndex} {mk : Env → α} {add : α → Db → Db}
    (hentry : entry.isStock = false) (hmarks : ∀ env, ∀ l ∈ marks env, l.isStock = false)
    (hadd : ∀ a d, G d → G (add a d)) :
    NoStock G (insertUnique entry marks taken index mk add) fun _ => True := by
  intro v _ _
  refine ⟨fun l hl => ?_, fun d hd => ?_, ?_⟩
  · rcases List.mem_cons.mp hl with rfl | hl
    · exact hentry
    · exact hmarks v.env l hl
  · dsimp only
    split
    · exact hd
    · exact hadd _ d hd
  · dsimp only
    split <;> trivial

theorem noStock_updateMany {ρ : Type} [DecidableEq ρ] {table : Table ρ} {marks : ρ → List Token}
    {q : Db → ρ → Bool} {f : Env → ρ → ρ} {fits : ρ → Bool}
    (hlock : ∀ r, (table.lock r).isStock = false) (hmarks : ∀ r, ∀ l ∈ marks r, l.isStock = false)
    (hchange : ∀ hit env d, G d → G (table.change hit (f env) d)) :
    NoStock G (updateMany table marks q f fits) fun _ => True := by
  intro v _ _
  refine ⟨fun l hl => ?_, fun d hd => hchange _ v.env d hd, ?_⟩
  · rcases List.mem_append.mp hl with hl | hl
    · obtain ⟨r, -, rfl⟩ := List.mem_map.mp hl
      exact hlock r
    · obtain ⟨r, -, hr⟩ := List.mem_flatMap.mp hl
      exact hmarks r l hr
  · dsimp only
    split
    · split <;> trivial
    · trivial

theorem noStock_selectSessionForUpdate (id tenantId : Id) :
    NoStock G (selectSessionForUpdate id tenantId) fun _ => True := by
  intro v _ _
  refine ⟨fun l hl => ?_, fun _ hd => hd, trivial⟩
  dsimp only at hl
  split at hl
  · rw [List.mem_singleton.mp hl]
    rfl
  · rw [List.mem_singleton.mp hl]
    rfl

/-- A SELECT and a check of its result. -/
theorem noStock_check {α : Type} (f : Db → α) (c : α → Bool) (e : Exc) :
    NoStock G (query f >>= fun a => ensure (c a) e) fun _ => True :=
  Prog.calm_bind (noStock_query f) fun a _ =>
    Prog.calm_mono (Prog.calm_guard (c a) e) fun _ _ => trivial

/-- A SELECT of a row that must be there. -/
theorem noStock_find {α : Type} (f : Db → Option α) (e : Exc) :
    NoStock G (query f >>= fun a => Prog.require a e) fun _ => True :=
  Prog.calm_bind (noStock_query f) fun a _ =>
    Prog.calm_mono (Prog.calm_require a e) fun _ _ => trivial

end Statements

-- ============================================================================
-- Parts of a sale
-- ============================================================================

section Sale

variable {G : Db → Prop}

theorem noStock_authorize (user : JwtPayload) : NoStock G (authorize user) fun _ => True := by
  unfold authorize
  refine Prog.calm_bind (noStock_query _) fun actor _ => ?_
  refine Prog.calm_bind (noStock_query _) fun tenant _ => ?_
  cases actor with
  | none => trivial
  | some actor =>
      cases tenant with
      | none => trivial
      | some tenant => trivial

theorem noStock_checkSession (tx : TransactionClient) (user : JwtPayload) (dto : CheckoutDto)
    (mode : CheckoutMode) : NoStock G (checkSession tx user dto mode) fun _ => True := by
  unfold checkSession
  cases mode with
  | legacySync => trivial
  | v1 =>
      refine Prog.calm_bind (Q := fun _ => True) ?_ fun session _ => ?_
      · intro v _ _
        refine ⟨fun l hl => ?_, fun _ hd => hd, trivial⟩
        dsimp only at hl
        split at hl
        · rw [List.mem_singleton.mp hl]
          rfl
        · cases hl
      · exact Prog.calm_bind (Prog.calm_require session _) fun s _ =>
          Prog.calm_mono (Prog.calm_guard _ _) fun _ _ => trivial

theorem noStock_checkParties (user : JwtPayload) (actor : User) (dto : CheckoutDto) :
    NoStock G (checkParties user actor dto) fun _ => True := by
  unfold checkParties
  refine Prog.calm_bind (noStock_query _) fun outlet _ => ?_
  refine Prog.calm_bind (Prog.calm_guard _ _) fun _ _ => ?_
  cases dto.customerId with
  | none => exact Prog.calm_mono (Prog.calm_guard _ _) fun _ _ => trivial
  | some customerId =>
      refine Prog.calm_bind (noStock_query _) fun customer _ => ?_
      refine Prog.calm_bind (Prog.calm_guard _ _) fun _ _ => ?_
      exact Prog.calm_mono (Prog.calm_guard _ _) fun _ _ => trivial

/-- The products a sale works with were in the catalog of a state it saw. -/
theorem noStock_loadCatalog (tenantId : Id) (items : List CreateTransactionItemDto) :
    NoStock G (loadCatalog tenantId items) fun c =>
      ∃ db, G db ∧ ∀ p ∈ c.products, p ∈ db.catalog.products := by
  unfold loadCatalog
  refine Prog.calm_bind (noStock_query _) fun products hproducts => ?_
  obtain ⟨db, hdb, rfl⟩ := hproducts
  refine Prog.calm_bind (Prog.calm_guard _ _) fun _ _ => ?_
  refine Prog.calm_bind (noStock_query _) fun assignments _ => ?_
  dsimp only
  split
  · exact Prog.calm_bind (noStock_query _) fun options _ => ⟨db, hdb, fun p hp =>
      (List.mem_filter.mp hp).1⟩
  · exact ⟨db, hdb, fun p hp => (List.mem_filter.mp hp).1⟩

/-- The lines of a sale keep the products they ask for. -/
theorem validatedProducts {catalog : LoadedCatalog} {items : List CreateTransactionItemDto}
    {validated : List ValidatedItem} (h : validateItems catalog items = .ok validated) :
    validated.map (fun i => i.product.id) = items.map CreateTransactionItemDto.productId ∧
      ∀ i ∈ validated, catalog.products.find? (fun p => p.id == i.product.id) = some i.product := by
  have hall := Checked.mapM_ok.mp h
  have hline : ∀ (item : CreateTransactionItemDto) (i : ValidatedItem),
      validateItem catalog item = .ok i → i.product.id = item.productId ∧
        catalog.products.find? (fun p => p.id == item.productId) = some i.product := by
    intro item i hi
    unfold validateItem at hi
    split at hi
    · cases hi
    · rename_i product hfind
      obtain ⟨options, -, hok⟩ := Checked.bind_ok.mp hi
      obtain rfl := Except.ok.inj hok
      have hid : product.id = item.productId := by simpa using List.find?_some hfind
      exact ⟨hid, hfind⟩
  clear h
  induction hall with
  | nil => exact ⟨rfl, fun i hi => (nomatch hi)⟩
  | @cons item i items validated hi _ ih =>
      obtain ⟨hid, hfind⟩ := hline item i hi
      refine ⟨by rw [List.map_cons, List.map_cons, ih.1, hid], fun j hj => ?_⟩
      rcases List.mem_cons.mp hj with rfl | hj
      · rw [hid]
        exact hfind
      · exact ih.2 j hj

/-- Stock is taken product by product, in the order of first mention. -/
theorem stockByProduct_order {items : List ValidatedItem} {products : List Product}
    (hfind : ∀ i ∈ items, products.find? (fun p => p.id == i.product.id) = some i.product) :
    ((stockByProduct items).map Prod.fst).Pairwise fun a b =>
      (items.map fun i => i.product.id).idxOf a < (items.map fun i => i.product.id).idxOf b := by
  -- lines of one product agree on whether it is tracked
  have hagree : ∀ i ∈ items, ∀ j ∈ items, i.product.id = j.product.id →
      i.product.trackStock = j.product.trackStock := by
    intro i hi j hj hid
    have hij := hfind i hi
    rw [hid, hfind j hj] at hij
    rw [Option.some.inj hij]
  let step := fun (map : List (Id × Int)) (i : ValidatedItem) =>
    if i.product.trackStock then addQuantity i.product.id i.quantity map else map
  -- the keys so far are the tracked products of the lines so far, in order
  have key : ∀ (rest done : List ValidatedItem) (map : List (Id × Int)), items = done ++ rest →
      (∀ a, a ∈ map.map Prod.fst ↔ ∃ i ∈ done, i.product.trackStock = true ∧ i.product.id = a) →
      (map.map Prod.fst).Pairwise (fun a b =>
        (items.map fun i => i.product.id).idxOf a < (items.map fun i => i.product.id).idxOf b) →
      ((rest.foldl step map).map Prod.fst).Pairwise fun a b =>
        (items.map fun i => i.product.id).idxOf a < (items.map fun i => i.product.id).idxOf b := by
    intro rest
    induction rest with
    | nil => exact fun _ _ _ _ h => h
    | cons i rest ih =>
        intro done map hitems hkeys hsorted
        have hmem : i ∈ items := by
          rw [hitems]
          exact List.mem_append_right _ (List.mem_cons_self ..)
        have hdone : ∀ j ∈ done, j ∈ items := fun j hj => by
          rw [hitems]
          exact List.mem_append_left _ hj
        refine ih (done ++ [i]) (step map i) (by rw [hitems, List.append_assoc]; rfl) ?_ ?_
        · intro a
          by_cases htrack : i.product.trackStock = true
          · have hstep : step map i = addQuantity i.product.id i.quantity map := if_pos htrack
            rw [hstep, map_fst_addQuantity]
            constructor
            · intro ha
              split at ha
              · obtain ⟨j, hj, hown⟩ := (hkeys a).mp ha
                exact ⟨j, List.mem_append_left _ hj, hown⟩
              · rcases List.mem_append.mp ha with ha | ha
                · obtain ⟨j, hj, hown⟩ := (hkeys a).mp ha
                  exact ⟨j, List.mem_append_left _ hj, hown⟩
                · exact ⟨i, List.mem_append_right _ (List.mem_singleton.mpr rfl), htrack,
                    (List.mem_singleton.mp ha).symm⟩
            · rintro ⟨j, hj, hown⟩
              split
              · rename_i hold
                rcases List.mem_append.mp hj with hj | hj
                · exact (hkeys a).mpr ⟨j, hj, hown⟩
                · rw [List.mem_singleton.mp hj] at hown
                  exact hown.2 ▸ hold
              · rcases List.mem_append.mp hj with hj | hj
                · exact List.mem_append_left _ ((hkeys a).mpr ⟨j, hj, hown⟩)
                · rw [List.mem_singleton.mp hj] at hown
                  exact List.mem_append_right _ (List.mem_singleton.mpr hown.2.symm)
          · have hstep : step map i = map := if_neg htrack
            rw [hstep, hkeys a]
            constructor
            · rintro ⟨j, hj, hown⟩
              exact ⟨j, List.mem_append_left _ hj, hown⟩
            · rintro ⟨j, hj, hown⟩
              rcases List.mem_append.mp hj with hj | hj
              · exact ⟨j, hj, hown⟩
              · rw [List.mem_singleton.mp hj] at hown
                exact absurd hown.1 htrack
        · by_cases htrack : i.product.trackStock = true
          · have hstep : step map i = addQuantity i.product.id i.quantity map := if_pos htrack
            rw [hstep, map_fst_addQuantity]
            split
            · exact hsorted
            · rename_i hnew
              refine List.pairwise_append.mpr ⟨hsorted, List.pairwise_singleton .., ?_⟩
              intro a ha b hb
              obtain rfl := List.mem_singleton.mp hb
              obtain ⟨j, hj, -, rfl⟩ := (hkeys a).mp ha
              -- the product has not been mentioned before this line
              have hfresh : i.product.id ∉ done.map fun i => i.product.id := by
                intro hold
                obtain ⟨k, hk, hid⟩ := List.mem_map.mp hold
                refine hnew ((hkeys _).mpr ⟨k, hk, ?_, hid⟩)
                rw [hagree k (hdone k hk) i hmem hid]
                exact htrack
              have hbefore : j.product.id ∈ done.map fun i => i.product.id :=
                List.mem_map_of_mem hj
              rw [hitems, List.map_append, List.idxOf_append_of_mem hbefore,
                List.idxOf_append_of_notMem hfresh]
              exact Nat.lt_of_lt_of_le (List.idxOf_lt_length_of_mem hbefore) (Nat.le_add_right ..)
          · have hstep : step map i = map := if_neg htrack
            rw [hstep]
            exact hsorted
  refine key items [] [] rfl (fun a => ?_) List.Pairwise.nil
  constructor
  · intro ha
    cases ha
  · rintro ⟨i, hi, -⟩
    cases hi

variable {before : Id → Id → Id → Prop} {T : Id → Prop} {iso : Isolation} {st : St Db Token}

/-- The locks of stock rows a sale has so far are those of the products done. -/
structure TakenFor (G : Db → Prop) (outletId : Id) (done : List (Id × Int)) (st : St Db Token) :
    Prop where
  keeps : Keeps G st
  taken : ∀ l ∈ st.held, l.isStock = true → ∃ e ∈ done, l = .stock outletId e.1

theorem TakenFor.after {G : Db → Prop} {outletId : Id} {done : List (Id × Int)}
    {st st' : St Db Token} (hst : TakenFor G outletId done st)
    (h : CalmAfter G Token.isStock st st') : TakenFor G outletId done st' := by
  refine ⟨h.keeps, fun l hl hstock => ?_⟩
  have hmem : l ∈ st.held.filter Token.isStock := by
    rw [← h.held]
    exact List.mem_filter.mpr ⟨hl, hstock⟩
  exact hst.taken l (List.mem_filter.mp hmem).1 hstock

/-- A statement that locks the row of one product. -/
theorem ordered_stockStmt {α : Type} {G : Db → Prop} {outletId : Id} {done : List (Id × Int)}
    (entry : Id × Int) {locks : View Db Env → List Token} {write : View Db Env → Db → Db}
    {next : View Db Env → Body α} {Q : α → St Db Token → Prop}
    (hlocks : ∀ v, ∀ l ∈ locks v, l = .stock outletId entry.1)
    (hwrite : ∀ v d, G d → G (write v d)) (hst : TakenFor G outletId done st)
    (hbefore : ∀ e ∈ done, e.1 ≠ entry.1 → before outletId e.1 entry.1)
    (hnext : ∀ v st', TakenFor G outletId (done ++ [entry]) st' →
      Ordered G Token.isStock (stockBefore before) iso (next v) Q st') :
    Ordered G Token.isStock (stockBefore before) iso (.stmt locks write next) Q st := by
  intro s db env hs hdb _
  refine ⟨fun l hl _ hnew h hh hstock => ?_, hnext _ _ ⟨fun d hd => ?_, fun l hl hstock => ?_⟩⟩
  · obtain ⟨e, he, rfl⟩ := hst.taken h hh hstock
    rw [hlocks _ l hl] at hnew ⊢
    exact ⟨rfl, hbefore e he fun heq => hnew (heq ▸ hh)⟩
  · exact hwrite _ _ (hst.keeps d hd)
  · rcases List.mem_append.mp hl with hl | hl
    · obtain ⟨e, he, heq⟩ := hst.taken l hl hstock
      exact ⟨e, List.mem_append_left _ he, heq⟩
    · exact ⟨entry, List.mem_append_right _ (List.mem_singleton.mpr rfl), hlocks _ l hl⟩

/-- An UPDATE of the stock of one product at one outlet, that must hit one row. -/
theorem ordered_updateStock {G : Db → Prop} {outletId : Id} {done : List (Id × Int)}
    (entry : Id × Int) {q : Db → ProductStock → Bool} {f : Env → ProductStock → ProductStock}
    {fits : ProductStock → Bool} {e : Exc} (hG : SaleBlind G)
    (hq : ∀ db r, q db r = true → r.outletId = outletId ∧ r.productId = entry.1)
    (hst : TakenFor G outletId done st)
    (hbefore : ∀ e ∈ done, e.1 ≠ entry.1 → before outletId e.1 entry.1) :
    Ordered G Token.isStock (stockBefore before) iso
      (updateMany productStocks (fun _ => []) q f fits >>= fun n => ensure (n == 1) e)
      (fun _ st' => TakenFor G outletId (done ++ [entry]) st') st := by
  rw [ordered_bind]
  refine ordered_stockStmt entry (fun v l hl => ?_) (fun v d hd => ?_) hst hbefore fun v st1 h1 => ?_
  · rcases List.mem_append.mp hl with hl | hl
    · obtain ⟨r, hr, rfl⟩ := List.mem_map.mp hl
      obtain ⟨ho, hp⟩ := hq _ r (List.mem_filter.mp hr).2
      show Token.stock r.outletId r.productId = _
      rw [ho, hp]
    · obtain ⟨r, -, hr⟩ := List.mem_flatMap.mp hl
      cases hr
  · exact hG d _ rfl rfl hd
  · dsimp only
    split
    · split
      · show Ordered G Token.isStock (stockBefore before) iso (ensure _ e) _ st1
        exact ordered_mono (fun _ st' h => h1.after h.2) ((Prog.calm_guard _ _).ordered h1.keeps)
      · trivial
    · trivial

/-- One round of the loop over the products of a sale. -/
theorem ordered_decrementStock {G : Db → Prop} {user : JwtPayload} {outletId : Id}
    {done : List (Id × Int)} {entry : Id × Int} (hG : SaleBlind G)
    (hst : TakenFor G outletId done st)
    (hbefore : ∀ e ∈ done, e.1 ≠ entry.1 → before outletId e.1 entry.1) :
    Ordered G Token.isStock (stockBefore before) iso (decrementStock user outletId entry)
      (fun _ st' => TakenFor G outletId (done ++ [entry]) st') st := by
  unfold decrementStock
  refine Prog.Calm.andThen (Prog.calm_guard _ _) hst.keeps fun _ st1 _ hafter => ?_
  refine ordered_updateStock entry hG (fun db r hr => ?_) (hst.after hafter) hbefore
  simp only [stockRow, Bool.and_eq_true, beq_iff_eq] at hr
  exact hr.1.1.1

/-- Writing a sale: stock rows are locked product by product. -/
theorem ordered_persist {user : JwtPayload} {dto : CheckoutDto} {items : List ValidatedItem}
    {totals : Totals} {tender : Option Int} (hG : SaleBlind G)
    (hst : TakenFor G dto.outletId [] st)
    (hsorted : ((stockByProduct items).map Prod.fst).Pairwise (before dto.outletId)) :
    Ordered G Token.isStock (stockBefore before) iso (persist user dto items totals tender)
      (fun _ st' => Keeps G st') st := by
  unfold persist
  refine Prog.Calm.andThen (noStock_insertUnique rfl (fun _ _ hl => (nomatch hl))
    fun _ d hd => hG d _ rfl rfl hd) hst.keeps fun transaction st1 _ h1 => ?_
  have hitem : ∀ i, NoStock G (createItem user transaction.id i) fun _ => True := fun i =>
    Prog.calm_bind (Prog.calm_guard _ _) fun _ _ => noStock_insert fun _ d hd => hG d _ rfl rfl hd
  refine (Prog.calm_each hitem items).andThen h1.keeps fun rows st2 _ h2 => ?_
  dsimp only
  refine (noStock_createMany fun rows d hd =>
    hG d (Db.addTransactionItemModifiers rows d) rfl rfl hd).andThen h2.keeps fun _ st3 _ h3 => ?_
  have hst3 := ((hst.after h1).after h2).after h3
  rw [ordered_bind]
  refine ordered_each (fun done st' => TakenFor G dto.outletId done st') ?_ hst3 ?_
  · intro done entry rest st4 heq h4
    refine ordered_decrementStock hG h4 fun e he _ => ?_
    rw [heq, List.map_append, List.map_cons, List.pairwise_append] at hsorted
    exact hsorted.2.2 e.1 (List.mem_map_of_mem he) entry.1 (List.mem_cons_self ..)
  · intro _ st4 h4
    refine (noStock_createMany fun rows d hd =>
      hG d (Db.addStockMovements rows d) rfl rfl hd).andThen h4.keeps fun _ st5 _ h5 => ?_
    refine (noStock_insert fun row d hd =>
      hG d (Db.addPayment row d) rfl rfl hd).andThen h5.keeps fun _ st6 _ h6 => ?_
    have hcomplete : NoStock G (completeTransaction transaction.id user.tenantId) fun _ => True :=
      Prog.calm_write fun _ _ d hd => hG d _ rfl rfl hd
    refine hcomplete.andThen h6.keeps fun completed st7 _ h7 => ?_
    exact ordered_mono (fun _ _ h => h.2.keeps) ((Prog.calm_require _ _).ordered h7.keeps)

/-- The sale core asks for stock rows in turn, if the lines of the request mention
    the tracked products in order. -/
theorem ordered_sell {tx : TransactionClient} {user : JwtPayload} {dto : CheckoutDto}
    {mode : CheckoutMode} {actor : User} {tenant : Tenant} (hG : SaleBlind G)
    (htracked : ∀ db, G db → ∀ p ∈ db.catalog.products, p.trackStock = true → T p.id)
    (hst : TakenFor G dto.outletId [] st)
    (hcart : Ascends (before dto.outletId) T (dto.items.map CreateTransactionItemDto.productId)) :
    Ordered G Token.isStock (stockBefore before) iso (sell tx user dto mode actor tenant)
      (fun _ st' => Keeps G st') st := by
  unfold sell
  refine (noStock_checkSession tx user dto mode).andThen hst.keeps fun _ st1 _ h1 => ?_
  refine (noStock_checkParties user actor dto).andThen h1.keeps fun _ st2 _ h2 => ?_
  refine (noStock_loadCatalog user.tenantId dto.items).andThen h2.keeps
    fun catalog st3 hcatalog h3 => ?_
  refine (Prog.calm_lift _).andThen h3.keeps fun items st4 hitems h4 => ?_
  refine (Prog.calm_lift _).andThen h4.keeps fun totals st5 _ h5 => ?_
  refine (Prog.calm_lift _).andThen h5.keeps fun tender st6 _ h6 => ?_
  have hst6 := (((((hst.after h1).after h2).after h3).after h4).after h5).after h6
  have hsorted : ((stockByProduct items).map Prod.fst).Pairwise (before dto.outletId) := by
    obtain ⟨db, hdb, hproducts⟩ := hcatalog
    obtain ⟨hids, hfind⟩ := validatedProducts hitems
    have horder := stockByProduct_order hfind
    rw [hids] at horder
    -- a product of the map is tracked, hence in `T`, and mentioned by a line
    have hkey : ∀ a ∈ (stockByProduct items).map Prod.fst,
        a ∈ dto.items.map CreateTransactionItemDto.productId ∧ T a := by
      intro a ha
      obtain ⟨i, hi, htrack, rfl⟩ := mem_stockByProduct ha
      refine ⟨hids ▸ List.mem_map_of_mem hi, ?_⟩
      exact htracked db hdb i.product (hproducts _ (List.mem_of_find?_eq_some (hfind i hi))) htrack
    refine horder.imp_of_mem fun {a b} ha hb hab => ?_
    exact hcart a (hkey a ha).1 b (hkey b hb).1 (hkey a ha).2 (hkey b hb).2 hab
  rw [ordered_bind]
  refine ordered_mono ?_ (ordered_persist hG hst6 hsorted)
  intro completed st7 h7
  exact ordered_mono (fun _ _ h => h.2.keeps) ((Prog.calm_lift _).ordered h7)

/-- The sale core, whether or not the request has its sale already. -/
theorem ordered_checkout {tx : TransactionClient} {user : JwtPayload} {dto : CheckoutDto}
    {mode : CheckoutMode} (hG : SaleBlind G)
    (htracked : ∀ db, G db → ∀ p ∈ db.catalog.products, p.trackStock = true → T p.id)
    (hst : TakenFor G dto.outletId [] st)
    (hcart : Ascends (before dto.outletId) T (dto.items.map CreateTransactionItemDto.productId)) :
    Ordered G Token.isStock (stockBefore before) iso (checkout tx user dto mode)
      (fun _ st' => Keeps G st') st := by
  unfold checkout
  refine (noStock_authorize user).andThen hst.keeps fun actor st1 _ h1 => ?_
  refine (noStock_queryRanked _).andThen h1.keeps fun existing st2 _ h2 => ?_
  have hst2 := (hst.after h1).after h2
  cases existing with
  | none => exact ordered_sell hG htracked hst2 hcart
  | some existing =>
      refine (Prog.calm_lift _).andThen hst2.keeps fun _ st3 _ h3 => ?_
      exact ordered_mono (fun _ _ h => h.2.keeps) ((Prog.calm_lift _).ordered h3.keeps)

theorem ordered_executeTransactionCore {tx : TransactionClient} {user : JwtPayload}
    {input : CheckoutDto} {mode : CheckoutMode} (hG : SaleBlind G)
    (htracked : ∀ db, G db → ∀ p ∈ db.catalog.products, p.trackStock = true → T p.id)
    (hst : TakenFor G (coreRequest input mode).outletId [] st)
    (hcart : Ascends (before (coreRequest input mode).outletId) T
      ((coreRequest input mode).items.map CreateTransactionItemDto.productId)) :
    Ordered G Token.isStock (stockBefore before) iso (executeTransactionCore tx user input mode)
      (fun _ st' => Keeps G st') st := by
  unfold executeTransactionCore
  refine (Prog.calm_lift _).andThen hst.keeps fun normalized st1 hnormalized h1 => ?_
  obtain rfl := prepareCore_eq hnormalized
  exact ordered_checkout hG htracked (hst.after h1) hcart

end Sale

end Kasir
