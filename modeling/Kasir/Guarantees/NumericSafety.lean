/-
  Kasir.Guarantees.NumericSafety

  What becomes of integers that are too large.

  Every field of a request has its range, but sums have not.  A checkout adds up the
  quantities of a product over the lines and sends the sum to an INTEGER column, and an
  adjustment adds to a stock.  Amounts are guarded (`money`); these two sums are not, and
  one that does not fit is answered as an error of the server.
-/

import Kasir.Transactions.Alone
import Kasir.Stock.Ends

namespace Kasir

open Txn Js Transactions

-- ============================================================================
-- Safety, and when there is
-- ============================================================================

/-- The calls whose numbers are considered: checkouts and adjustments. -/
def Call.counts : Call → Bool
  | .create .. | .createLegacySync .. | .adjustStock .. => true
  | _ => false

/-- A note does not fit its column: it has a NUL character, or it is longer, which the
    validator, not counting variation selectors, has not seen. -/
def Call.noteRefused (c : Call) : Prop :=
  ∃ user input mode, saleInput c = some (user, input, mode) ∧
    ∃ i ∈ (coreRequest input mode).items, fitsVarchar 255 i.note = false

/-- The reason of an adjustment has a NUL character. -/
def Call.reasonRefused (c : Call) : Prop :=
  ∃ user dto, c = .adjustStock user dto ∧ storable (Stock.reasonOf dto) = false

/-- The call with the default reason. -/
def Call.withoutReason : Call → Call
  | .adjustStock user dto => .adjustStock user { dto with reason := none }
  | c => c

/-- An error that the call is answered with alone blames the request.  The other causes of
    errors are texts: a group without a name, a note and a reason that are not stored. -/
def BlamesRequest (c : Call) (db : Db) (envs : Nat → Env) : Prop :=
  ∀ x db', kasir.alone c db envs = some (.error x, db') →
    x.isClientError = true ∨ x = missingSnapshot ∨ c.noteRefused ∨ c.reasonRefused

/-- The call, alone on the database, is safe with numbers: every sum of numbers, each
    total on the way included, is exact, what is written fits its columns, and an error
    blames the request.  An integer sent to a column that it does not fit is an error
    that does not; an adjustment's is seen behind its reason, too. -/
structure NumericallySafe (c : Call) (db : Db) (envs : Nat → Env) : Prop where
  deltas : ∀ user input mode, saleInput c = some (user, input, mode) → c.precheck = none →
    ∀ catalog : LoadedCatalog, (∀ o ∈ catalog.options, o ∈ db.catalog.modifierOptions) →
    ∀ item ∈ (coreRequest input mode).items, ∀ options,
      resolveOptions catalog item = .ok options →
      (options.map ResolvedOption.priceDelta).foldl addNumber 0 =
        (options.map ResolvedOption.priceDelta).sum
  quantities : ∀ user input mode, saleInput c = some (user, input, mode) → c.precheck = none →
    ∀ items, linesToSell user.normalized (coreRequest input mode) mode db envs = some items →
      ∀ xs, xs <+: trackedQuantities items → tallied addNumber xs = tallied (· + ·) xs
  columns : ∀ answer db', kasir.alone c db envs = some (answer, db') → db'.Fits
  answers : BlamesRequest c db envs
  numbers : c.precheck = none → BlamesRequest c.withoutReason db envs

/-- The sums that are sent to INTEGER columns stay within them. -/
structure Within (c : Call) (db : Db) (envs : Nat → Env) : Prop where
  sale : ∀ user input mode, saleInput c = some (user, input, mode) → c.precheck = none →
    ∀ items, linesToSell user.normalized (coreRequest input mode) mode db envs = some items →
      QuantitiesFit user.normalized (coreRequest input mode).outletId db items
  adjustment : ∀ user dto, c = .adjustStock user dto → c.precheck = none →
    Stock.admits user dto db envs = true → Stock.AdjustmentFits (Stock.scopeOf user dto) dto db

-- ============================================================================
-- What a call answers
-- ============================================================================

section Answers

variable {c : Call} {db : Db} {envs : Nat → Env}

theorem valid_of_precheck {user : JwtPayload} {dto : Stock.CreateStockAdjustmentDto}
    (h : (Call.adjustStock user dto).precheck = none) : dto.valid = true := by
  change (if dto.valid then none else some validationPipeError) = none at h
  split at h
  · assumption
  · cases h

/-- The default reason is as good as a valid one. -/
theorem precheck_withoutReason {user : JwtPayload} {dto : Stock.CreateStockAdjustmentDto}
    (h : (Call.adjustStock user dto).precheck = none) :
    (Call.adjustStock user { dto with reason := none }).precheck = none := by
  have hvalid := valid_of_precheck h
  unfold Stock.CreateStockAdjustmentDto.valid at hvalid
  rw [Bool.and_eq_true] at hvalid
  show (if Stock.CreateStockAdjustmentDto.valid { dto with reason := none } then none
    else some validationPipeError) = none
  rw [if_pos]
  unfold Stock.CreateStockAdjustmentDto.valid
  rw [hvalid.1]
  rfl

/-- What is checked before a transaction opens blames the request. -/
theorem precheck_client (hc : c.counts = true) {x : Exc} (h : c.precheck = some x) :
    x.isClientError = true := by
  have hshape : ∀ dto, Checked.Fails (fun e : Exc => e.isClientError = true)
      (assertPaymentShape dto) := by
    intro dto
    unfold assertPaymentShape
    dsimp only
    split
    · exact Checked.fails_error rfl
    · split
      · split
        · exact Checked.fails_error rfl
        · split
          · exact Checked.fails_error rfl
          · exact Checked.fails_ok ()
      · split
        · exact Checked.fails_error rfl
        · exact Checked.fails_ok ()
      · split
        · exact Checked.fails_error rfl
        · exact Checked.fails_ok ()
  have hinput : ∀ input mode, Checked.Fails (fun e : Exc => e.isClientError = true)
      (assertCheckoutInput input mode) := by
    intro input mode
    unfold assertCheckoutInput
    dsimp only
    split
    · exact (hshape _).bind fun _ => Checked.fails_error rfl
    · exact Checked.fails_ok _
  have hprepare : ∀ user input mode, Checked.Fails (fun e : Exc => e.isClientError = true)
      (prepare user input mode) := by
    intro user input mode
    unfold prepare
    split
    · exact Checked.fails_error rfl
    · apply (hinput _ _).bind
      intro dto
      exact (hshape _).bind fun _ => Checked.fails_ok _
  have herrorOf : ∀ {α : Type} {y : Except Exc α}, errorOf y = some x → y = .error x := by
    intro α y hy
    cases y with
    | ok a => cases hy
    | error e => exact congrArg Except.error (Option.some.inj hy)
  cases c with
  | create user input => exact hprepare _ _ _ x (herrorOf h)
  | createLegacySync user input =>
      have hlegacy : Checked.Fails (fun e : Exc => e.isClientError = true)
          (prepareLegacySync input) := by
        unfold prepareLegacySync
        split
        · exact Checked.fails_error rfl
        · exact Checked.fails_ok _
      exact hlegacy.bind (fun dto => hprepare _ _ _) x (herrorOf h)
  | adjustStock user dto =>
      change (if dto.valid then none else some validationPipeError) = some x at h
      split at h
      · cases h
      · exact Option.some.inj h ▸ rfl
  | _ => cases hc

/-- The notes of the lines are those of the request. -/
theorem noteRefused_of_not_fit {user : JwtPayload} {input : CheckoutDto} {mode : CheckoutMode}
    (hc : saleInput c = some (user, input, mode)) {catalog : LoadedCatalog}
    {items : List ValidatedItem}
    (hitems : validateItems catalog (coreRequest input mode).items = .ok items)
    (h : ¬ NotesFit items) : c.noteRefused := by
  unfold NotesFit at h
  push Not at h
  obtain ⟨i, hi, hnote⟩ := h
  obtain ⟨item, hitem, hvalidated⟩ := forall₂_mem_right (Checked.mapM_ok.mp hitems) i hi
  obtain ⟨product, options, -, rfl⟩ := validateItem_ok hvalidated
  exact ⟨user, input, mode, hc, item, hitem, Bool.eq_false_iff.mpr hnote⟩

theorem not_noteRefused_of_fit {user : JwtPayload} {input : CheckoutDto} {mode : CheckoutMode}
    (hc : saleInput c = some (user, input, mode)) {catalog : LoadedCatalog}
    {items : List ValidatedItem}
    (hitems : validateItems catalog (coreRequest input mode).items = .ok items)
    (h : NotesFit items) : ¬ c.noteRefused := by
  rintro ⟨user', input', mode', hc', item, hitem, hnote⟩
  rw [hc] at hc'
  cases hc'
  obtain ⟨i, hi, hvalidated⟩ := forall₂_mem_right (Checked.mapM_ok.mp hitems).flip item hitem
  obtain ⟨product, options, -, rfl⟩ := validateItem_ok hvalidated
  have hfit := h _ hi
  change fitsVarchar 255 item.note = true at hfit
  rw [hfit] at hnote
  cases hnote

end Answers

-- ============================================================================
-- Where a sum does not fit
-- ============================================================================

section TooWide

variable {c : Call} {db : Db} {envs : Nat → Env} (hwf : Wf db)
include hwf

/-- A quantity that is sent and does not fit is answered as an error of the server. -/
theorem alone_tooWide {user : JwtPayload} {input : CheckoutDto} {mode : CheckoutMode}
    (hc : saleInput c = some (user, input, mode)) (hpre : c.precheck = none)
    {items : List ValidatedItem}
    (hlines : linesToSell user.normalized (coreRequest input mode) mode db envs = some items)
    (hnotes : NotesFit items) {before after : List (Id × Int)} {e : Id × Int}
    (hentries : stockByProduct items = before ++ e :: after)
    (hbefore : ∀ b ∈ before, b.2 ≤ int4Max ∧
      hasStock user.normalized (coreRequest input mode).outletId db b = true)
    (hwide : int4Max < e.2) :
    kasir.alone c db envs = some (.error unableToCreate, db) ∧ ¬ c.noteRefused := by
  obtain ⟨⟨catalog, hitems⟩, hends⟩ := checkout_of_lines hwf hlines
  refine ⟨?_, not_noteRefused_of_fit hc hitems hnotes⟩
  have hfails : (stockByProduct items).forM
      (takeEntry user.normalized (coreRequest input mode).outletId db) = .error (.prisma .other) := by
    rw [Checked.forM_error_iff]
    exact ⟨before, e, after, hentries, fun b hb => takeEntry_ok.mpr (hbefore b hb), if_pos hwide⟩
  have hmust : Prog.Ends db envs
      (checkout .readCommitted user.normalized (coreRequest input mode) mode) 0 id
      (fun _ _ _ => False) (fun x => x = .prisma .other) := by
    apply hends.mono
    · rintro r n log ⟨-, hok⟩
      rw [hfails] at hok
      cases hok
    · rintro x (⟨-, hx⟩ | ⟨-, hx⟩ | ⟨-, hok, -⟩)
      · exact hx
      · exact Except.error.inj (hx.symm.trans hfails)
      · rw [hfails] at hok
        cases hok
  have hhandle : ∀ x, x = .prisma .other → kasir.handle c 0 x = some unableToCreate := by
    rintro x rfl
    cases c <;> first | rfl | cases hc
  exact App.alone_of_fails hpre (sale_ends hc hpre hmust) (fun r n log hno => hno.choose_spec.2)
    hhandle

omit hwf in
/-- So is an adjustment that does not fit. -/
theorem alone_adjustment_tooWide (hfits : db.Fits) {user : JwtPayload}
    {dto : Stock.CreateStockAdjustmentDto} (hpos : 1 ≤ dto.quantity)
    (hpre : (Call.adjustStock user dto).precheck = none)
    (hadmits : Stock.admits user dto db envs = true)
    (hwide : ¬ Stock.AdjustmentFits (Stock.scopeOf user dto) dto db) :
    kasir.alone (.adjustStock user dto) db envs = some (.error (.prisma .other), db) := by
  have hends := Stock.adjustmentBody_ends hpos (fun s hs => (hfits.stocks.stocks s hs).2) hadmits
  have hbody : Prog.Ends db envs (kasir.body (.adjustStock user dto)) 0 id (fun _ _ _ => False)
      (fun x => x = .prisma .other) := by
    show Prog.Ends db envs (Stock.adjustmentBody user dto >>= fun row => Prog.ret (Result.stock row)) 0 id _ _
    rw [Prog.ends_bind]
    apply hends.mono
    · exact fun row n log hfit => hwide hfit
    · rintro x (⟨hx, -⟩ | ⟨-, hfit⟩)
      · exact hx
      · exact absurd hfit hwide
  exact App.alone_of_fails hpre hbody (fun _ _ _ hno => hno) fun x hx => congrArg some hx

end TooWide

-- ============================================================================
-- Where they fit
-- ============================================================================

section Fitting

variable {c : Call} {db : Db} {envs : Nat → Env} (hwf : Wf db) (hfits : db.Fits)
  (hwithin : Within c db envs)
include hwf hwithin

/-- An error of a sale call blames the request, or a text. -/
theorem sale_error {user : JwtPayload} {input : CheckoutDto} {mode : CheckoutMode}
    (hc : saleInput c = some (user, input, mode)) (hpre : c.precheck = none) {x : Exc} {db' : Db}
    (h : kasir.alone c db envs = some (.error x, db')) :
    db' = db ∧ (x.isClientError = true ∨ x = missingSnapshot ∨ c.noteRefused) := by
  have hhandle : ∀ e, kasir.handle c 0 e = handleCreate 0 e := by
    intro e
    cases c <;> first | rfl | cases hc
  have hblamed : ∀ {e}, Blamed e → kasir.handle c 0 e = some x →
      x.isClientError = true ∨ x = missingSnapshot ∨ c.noteRefused := by
    intro e he hx
    rw [hhandle] at hx
    rcases he x hx with hclient | hsnapshot
    · exact Or.inl hclient
    · exact Or.inr (Or.inl hsnapshot)
  cases hlines : linesToSell user.normalized (coreRequest input mode) mode db envs with
  | none =>
      obtain ⟨hdb, e, he, hx⟩ :=
        App.alone_error hpre (sale_ends hc hpre (checkout_of_none hlines)) h
      exact ⟨hdb, hblamed he hx⟩
  | some items =>
      have hquantities := hwithin.sale user input mode hc hpre items hlines
      obtain ⟨⟨catalog, hitems⟩, hends⟩ := checkout_of_lines hwf hlines
      obtain ⟨hdb, e, he, hx⟩ := App.alone_error hpre (sale_ends hc hpre hends) h
      refine ⟨hdb, ?_⟩
      rcases he with ⟨hnotes, -⟩ | ⟨hnotes, hstock⟩ | ⟨-, -, he⟩
      · exact Or.inr (Or.inr (noteRefused_of_not_fit hc hitems hnotes))
      · exact hblamed (forM_takeEntry_error (hquantities.within hnotes) hstock) hx
      · exact hblamed he hx

omit hwf in
/-- An error of an adjustment blames the request, or its reason. -/
theorem adjustment_error (hfits : db.Fits) {user : JwtPayload} {dto : Stock.CreateStockAdjustmentDto}
    (hc : c = .adjustStock user dto) (hpre : c.precheck = none) {x : Exc} {db' : Db}
    (h : kasir.alone c db envs = some (.error x, db')) :
    db' = db ∧ (x.isClientError = true ∨ storable (Stock.reasonOf dto) = false) := by
  subst hc
  have hbody : Prog.Ends db envs (kasir.body (.adjustStock user dto)) 0 id (fun _ _ _ => True)
      (fun e => e.isClientError = true ∨ storable (Stock.reasonOf dto) = false) := by
    show Prog.Ends db envs (Stock.adjustmentBody user dto >>= fun row => Prog.ret (Result.stock row)) 0 id _ _
    rw [Prog.ends_bind]
    cases hadmits : Stock.admits user dto db envs with
    | false =>
        exact (Stock.adjustmentBody_refused hadmits).mono (fun _ _ _ hno => hno.elim)
          fun _ he => Or.inl he
    | true =>
        have hfit := hwithin.adjustment user dto rfl hpre hadmits
        apply (Stock.adjustmentBody_ends (quantity_pos (valid_of_precheck hpre))
          (fun s hs => (hfits.stocks.stocks s hs).2) hadmits).mono
        · exact fun _ _ _ _ => trivial
        · rintro e (⟨-, hwide⟩ | ⟨hreason, -⟩)
          · exact absurd hfit hwide
          · exact hreason
  obtain ⟨hdb, e, he, hx⟩ := App.alone_error hpre hbody h
  have heq : e = x := Option.some.inj hx
  exact ⟨hdb, heq ▸ he⟩

end Fitting

-- ============================================================================
-- What is written
-- ============================================================================

section Written

variable {c : Call} {db : Db}

/-- The quantity of a movement of an adjustment. -/
theorem Stock.delta_bounds {dto : Stock.CreateStockAdjustmentDto} (hpos : 1 ≤ dto.quantity)
    (hmax : dto.quantity ≤ int4Max) :
    -int4Max - 1 ≤ Stock.delta dto ∧ Stock.delta dto ≤ int4Max := by
  unfold Stock.delta
  cases dto.adjustmentType with
  | add =>
      have hmin : (-int4Max - 1 : Int) ≤ 1 := by decide
      show -int4Max - 1 ≤ dto.quantity ∧ dto.quantity ≤ int4Max
      omega
  | deduct =>
      have hmin : (-1 : Int) ≤ int4Max := by decide
      show -int4Max - 1 ≤ -dto.quantity ∧ -dto.quantity ≤ int4Max
      omega

/-- An adjustment that fits leaves the stock tables fitting. -/
theorem AdjustedStock.fits {scope : Stock.Scope} {dto : Stock.CreateStockAdjustmentDto}
    {isNew : Bool} {a : StockAdjustment} {m : StockMovement}
    (h : AdjustedStock scope dto isNew db) (hwf : Wf db) (hvalid : dto.valid = true)
    (hfits : db.stocks.Fits) (hfit : Stock.AdjustmentFits scope dto db)
    (ha : a.quantity = dto.quantity) (hm : m.quantity = Stock.delta dto) :
    (Stock.adjusted scope isNew (Stock.delta dto) a m db.stocks).Fits := by
  have hpos := quantity_pos hvalid
  have hmax := hfit.quantity
  have hnonneg : (Stock.adjusted scope isNew (Stock.delta dto) a m db.stocks).NonNeg :=
    h.nonNeg hwf hvalid fun r hr => (hfits.stocks r hr).1
  refine ⟨fun r hr => ⟨hnonneg r hr, ?_⟩, fun x hx => ?_, fun x hx => ?_⟩
  · change r ∈ (db.stocks.productStocks ++ Stock.newRows scope isNew).map _ at hr
    obtain ⟨s, hs, rfl⟩ := List.mem_map.mp hr
    have hbound : s.stock ≤ int4Max ∧ (s.outletId = scope.outletId → s.productId = scope.productId →
        dto.adjustmentType = .add → s.stock + dto.quantity ≤ int4Max) := by
      rcases List.mem_append.mp hs with hold | hnew
      · exact ⟨(hfits.stocks s hold).2, fun ho hp htype => hfit.stock htype s hold ho hp⟩
      · unfold Stock.newRows at hnew
        split at hnew
        · rw [List.mem_singleton.mp hnew]
          have hzero : (0 : Int) ≤ int4Max := by decide
          exact ⟨hzero, fun _ _ _ => by show 0 + dto.quantity ≤ int4Max; omega⟩
        · cases hnew
    split
    · rename_i hown
      show s.stock + Stock.delta dto ≤ int4Max
      unfold Stock.delta
      cases htype : dto.adjustmentType with
      | add => exact hbound.2 hown.1 hown.2 htype
      | deduct =>
          have hle := hbound.1
          show s.stock + -dto.quantity ≤ int4Max
          omega
    · exact hbound.1
  · rcases List.mem_append.mp hx with hold | hnew
    · exact hfits.movements x hold
    · rw [List.mem_singleton.mp hnew, hm]
      exact Stock.delta_bounds hpos hmax
  · rcases List.mem_append.mp hx with hold | hnew
    · exact hfits.adjustments x hold
    · rw [List.mem_singleton.mp hnew]
      exact ⟨by omega, by omega⟩

end Written

-- ============================================================================
-- Within the columns
-- ============================================================================

section Safety

variable {c : Call} {db : Db} {envs : Nat → Env} (hwf : Wf db) (hfits : db.Fits)
include hwf hfits

omit hfits in
/-- Every quantity that is added up is a double. -/
theorem isDouble_quantities {user : JwtPayload} {input : CheckoutDto} {mode : CheckoutMode}
    (hc : saleInput c = some (user, input, mode)) (hpre : c.precheck = none)
    {items : List ValidatedItem}
    (hlines : linesToSell user.normalized (coreRequest input mode) mode db envs = some items) :
    ∀ x ∈ trackedQuantities items, IsDouble x.2 := by
  obtain ⟨⟨catalog, hitems⟩, -⟩ := checkout_of_lines hwf hlines
  intro x hx
  obtain ⟨i, hi, rfl⟩ := List.mem_map.mp hx
  obtain ⟨item, hitem, hvalidated⟩ :=
    forall₂_mem_right (Checked.mapM_ok.mp hitems) i (List.mem_of_mem_filter hi)
  obtain ⟨product, options, -, rfl⟩ := validateItem_ok hvalidated
  have hquantity : Int4 item.quantity := CreateTransactionItemDto.quantity_int4
    ((wellformed_of_precheck hc hpre).items item hitem)
  obtain ⟨hmin, hmax⟩ := hquantity
  apply isDouble_of_le
  show item.quantity.natAbs ≤ exactBound
  unfold int4Max at hmax
  unfold exactBound
  omega

/-- A call that is safe has been within the columns: a sum that does not fit is answered
    without blame. -/
theorem within_of_safe (h : NumericallySafe c db envs) : Within c db envs where
  sale := by
    intro user input mode hc hpre items hlines
    have hexact := h.quantities user input mode hc hpre items hlines
    refine ⟨(tallied_exact_iff (isDouble_quantities hwf hc hpre hlines)).mp hexact, ?_⟩
    intro hnotes before e after hentries hbefore
    by_contra hover
    obtain ⟨halone, hnote⟩ := alone_tooWide hwf hc hpre hlines hnotes hentries hbefore
      (Int.not_le.mp hover)
    rcases h.answers _ _ halone with hclient | hsnapshot | hrefused | ⟨user, dto, rfl, -⟩
    · exact absurd hclient (by decide)
    · exact absurd hsnapshot (by decide)
    · exact hnote hrefused
    · cases hc
  adjustment := by
    rintro user dto rfl hpre hadmits
    by_contra hwide
    -- whatever its reason: with the default one, the error is the quantity's
    let plain : Stock.CreateStockAdjustmentDto := { dto with reason := none }
    have hpre' : (Call.adjustStock user plain).precheck = none :=
      precheck_withoutReason hpre
    have halone := alone_adjustment_tooWide hfits
      (quantity_pos (valid_of_precheck hpre')) hpre' hadmits fun hfit => hwide ⟨hfit.1, hfit.2⟩
    rcases h.numbers hpre _ _ halone with hclient | hsnapshot | hrefused | hrefused
    · exact absurd hclient (by decide)
    · exact absurd hsnapshot (by decide)
    · obtain ⟨user', input, mode, hc, -⟩ := hrefused
      cases hc
    · obtain ⟨user', dto', heq, hreason⟩ := hrefused
      cases heq
      have hdefault : storable Stock.defaultReason = true := by decide
      exact absurd (hreason.symm.trans hdefault) (by decide)

/-- What a call within the columns writes fits them. -/
theorem columns_of_within (hc : c.counts = true) (h : Within c db envs)
    {answer : Except Exc Result} {db' : Db} (halone : kasir.alone c db envs = some (answer, db')) :
    db'.Fits := by
  cases answer with
  | error x =>
      suffices hsame : db' = db from hsame ▸ hfits
      cases hpre : c.precheck with
      | some e =>
          have hrefused : kasir.alone c db envs = some (.error e, db) := App.alone_of_precheck hpre
          rw [hrefused] at halone
          exact (Prod.mk.inj (Option.some.inj halone)).2.symm
      | none =>
          cases c with
          | create user input => exact (sale_error hwf h rfl hpre halone).1
          | createLegacySync user input => exact (sale_error hwf h rfl hpre halone).1
          | adjustStock user dto => exact (adjustment_error h hfits rfl hpre halone).1
          | _ => cases hc
  | ok r =>
      obtain ⟨hpre, seen, hseen, heffect⟩ := alone_effect hwf halone
      cases heffect with
      | found hsale hfound => exact hfits
      | sold hsale hsold =>
          obtain ⟨hsales, hstocks⟩ :=
            hsold.fits hseen hfits (wellformed_of_precheck hsale hpre) hwf
          exact ⟨hfits.prices, hfits.deltas, hsales, hstocks⟩
      | @adjusted user dto isNew env env' row _ _ hadjusted =>
          have hvalid : dto.valid = true := @valid_of_precheck user dto hpre
          have hadmits : Stock.admits user dto db envs = true := by
            cases hcase : Stock.admits user dto db envs with
            | true => rfl
            | false =>
                -- a refused adjustment does not answer with a row
                have hbody : Prog.Ends db envs (kasir.body (.adjustStock user dto)) 0 id
                    (fun _ _ _ => False) (fun _ => True) := by
                  show Prog.Ends db envs (Stock.adjustmentBody user dto >>= fun row =>
                    Prog.ret (Result.stock row)) 0 id _ _
                  rw [Prog.ends_bind]
                  exact (Stock.adjustmentBody_refused hcase).mono (fun _ _ _ hno => hno.elim)
                    fun _ _ => trivial
                obtain ⟨_, _, hno, -⟩ := App.alone_ok hpre hbody halone
                exact hno.elim
          exact ⟨hfits.prices, hfits.deltas, hfits.sales,
            hadjusted.fits hwf hvalid hfits.stocks (h.adjustment user dto rfl hpre hadmits) rfl rfl⟩
      | _ => cases hc

/-- The errors of a call within the columns. -/
theorem blames_of_within (hc : c.counts = true) (h : Within c db envs) :
    BlamesRequest c db envs := by
  intro x db' halone
  cases hpre : c.precheck with
  | some e =>
      have hrefused : kasir.alone c db envs = some (.error e, db) := App.alone_of_precheck hpre
      rw [hrefused] at halone
      obtain rfl : e = x := Except.error.inj (Prod.mk.inj (Option.some.inj halone)).1
      exact Or.inl (precheck_client hc hpre)
  | none =>
      cases c with
      | create user input =>
          exact (sale_error hwf h rfl hpre halone).2.imp_right (Or.imp_right Or.inl)
      | createLegacySync user input =>
          exact (sale_error hwf h rfl hpre halone).2.imp_right (Or.imp_right Or.inl)
      | adjustStock user dto =>
          rcases (adjustment_error h hfits rfl hpre halone).2 with hclient | hreason
          · exact Or.inl hclient
          · exact Or.inr (Or.inr (Or.inr ⟨user, dto, rfl, hreason⟩))
      | _ => cases hc

omit hwf hfits in
/-- Its reason does not decide whether an adjustment is within the columns. -/
theorem within_withoutReason (hpre : c.precheck = none) (h : Within c db envs) :
    Within c.withoutReason db envs := by
  cases c with
  | adjustStock user dto =>
      refine ⟨fun user' input mode hc => (nomatch hc), ?_⟩
      intro user' dto' heq _ hadmits
      cases heq
      have hfit := h.adjustment user dto rfl hpre hadmits
      exact ⟨hfit.1, hfit.2⟩
  | _ => exact h

/-- A call within the columns is safe. -/
theorem safe_of_within (hc : c.counts = true) (h : Within c db envs) :
    NumericallySafe c db envs where
  deltas := by
    intro user input mode hsale hpre catalog hcatalog item hitem options hoptions
    exact sum_priceDelta_exact hfits hcatalog ((wellformed_of_precheck hsale hpre).items item hitem)
      (resolveOptions_ok hoptions).1
  quantities := fun user input mode hsale hpre items hlines =>
    (tallied_exact_iff (isDouble_quantities hwf hsale hpre hlines)).mpr
      (h.sale user input mode hsale hpre items hlines).totals
  columns := fun answer db' halone => columns_of_within hwf hfits hc h halone
  answers := blames_of_within hwf hfits hc h
  numbers := by
    intro hpre
    have hcounts : c.withoutReason.counts = true := by
      cases c with
      | adjustStock user dto => rfl
      | _ => exact hc
    exact blames_of_within hwf hfits hcounts (within_withoutReason hpre h)

end Safety

namespace Shop

/-- A request for coffees, one line for each quantity, paid by QRIS. -/
def coffeesDto (key : Id) (quantities : List Int) : CheckoutDto :=
  { clientTransactionId := key, outletId := outlet, cashierSessionId := some session
    items := quantities.map fun n => { productId := coffee, quantity := n }
    payment := { method := .qris } }

def coffees (key : Id) (quantities : List Int) : Call := .create user (coffeesDto key quantities)

/-- The stock of coffee, which is 10, is raised. -/
def raiseCoffee (quantity : Int) : Call :=
  .adjustStock { user with role := "OWNER" }
    { outletId := outlet, productId := coffee, adjustmentType := .add, quantity }

/-- What a call is answered alone, as far as it is an error. -/
def refusal (c : Call) : Option Exc :=
  match kasir.alone c db (envs 0) with
  | some (.error x, _) => some x
  | _ => none

theorem alone_of_refusal {c : Call} {x : Exc} (h : refusal c = some x) :
    ∃ db', kasir.alone c db (envs 0) = some (.error x, db') := by
  unfold refusal at h
  split at h
  · rename_i y db' halone
    exact ⟨db', Option.some.inj h ▸ halone⟩
  · cases h

theorem fits : db.Fits := by
  refine ⟨by decide +kernel, fun _ h => (nomatch h), ?_, ?_⟩
  · constructor <;> exact fun _ h => nomatch h
  · refine ⟨?_, fun _ h => (nomatch h), fun _ h => (nomatch h)⟩
    intro r hr
    rw [List.mem_singleton.mp hr]
    exact ⟨by decide, by decide⟩

end Shop

end Kasir
