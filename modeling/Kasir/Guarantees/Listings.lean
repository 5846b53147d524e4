/-
  Kasir.Guarantees.Listings

  Turning the pages of the sales.

  A listing is read page by page, each page in a transaction of its own, while the shop goes
  on selling.  The pages read of one state are the selected sales, each once; pages read of
  states in the order of a run miss none of the sales that were there when the reader began.
-/

import Kasir.SaleHistory
import Kasir.Txn.Seen
import Kasir.Readers

namespace Kasir

open Txn Js Transactions

-- ============================================================================
-- What a page is
-- ============================================================================

/-- The active user that a token names. -/
def activeUser (user : JwtPayload) (db : Db) : Option User :=
  db.accounts.users.find? fun u =>
    u.id == user.normalized.sub && u.tenantId == user.normalized.tenantId && u.isActive &&
      db.accounts.tenants.any fun t => t.id == u.tenantId && t.isActive

/-- The outlet that is listed for a role: a cashier's own one, and for others the one they
    ask for. -/
def listedOutlet (role : Role) (own requested : Option Id) : Option Id :=
  if role = .cashier then own else requested

/-- The sales that are listed for an actor with this role and outlet. -/
def listScopeOf (user : JwtPayload) (requested : Option String) (role : Role) (own : Option Id) :
    ReadScope where
  tenantId := toLowerCase user.tenantId
  outletId := listedOutlet role own (requested.map toLowerCase)

section Page

variable {user : JwtPayload} {q : QueryTransactionsDto} {db : Db} {envs : Nat → Env} {n n' : Nat}

theorem listOutlet_ok {actor : User} {requested outletId : Option Id}
    (h : (listOutlet actor requested).solo db envs n id = ⟨n', id, .ok outletId⟩) :
    outletId = listedOutlet actor.role actor.outletId requested := by
  have hresult := congrArg Prog.Outcome.result h
  unfold listOutlet at hresult
  cases hrole : actor.role with
  | owner =>
      rw [hrole] at hresult
      exact (Except.ok.inj hresult).symm
  | admin =>
      rw [hrole] at hresult
      exact (Except.ok.inj hresult).symm
  | cashier =>
      rw [hrole] at hresult
      obtain ⟨n1, own, hown, h1⟩ := (Prog.reading_require _ _).bind_ok hresult
      obtain ⟨n2, -, -, h2⟩ := (Prog.reading_guard _ _).bind_ok h1
      rw [require_ok hown]
      exact (Except.ok.inj h2).symm

theorem listScope_ok {requested : Option String} {scope : ReadScope}
    (h : (listScope user requested).solo db envs n id = ⟨n', id, .ok scope⟩) :
    ∃ actor, activeUser user db = some actor ∧ 
      scope = listScopeOf user requested actor.role actor.outletId := by
  have hresult := congrArg Prog.Outcome.result h
  obtain ⟨n1, -, -, h1⟩ := (Prog.reading_guard _ _).bind_ok hresult
  obtain ⟨n2, actor, hactor, h2⟩ := (principal_reading _).bind_ok h1
  obtain ⟨n3, outletId, houtlet, h3⟩ := (listOutlet_reading _ _).bind_ok h2
  obtain ⟨n4, -, -, h4⟩ := (checkOutlet_reading _ _).bind_ok h3
  refine ⟨actor, ?_, ?_⟩
  · have hresult' := congrArg Prog.Outcome.result hactor
    obtain ⟨n5, found, hfound, hrest⟩ := (reading_query _).bind_ok hresult'
    have hone : found = some actor := by
      cases found with
      | none => cases hrest
      | some v => exact congrArg some (Except.ok.inj hrest)
    simp only [query, Prog.solo_read, Prog.Outcome.mk.injEq, Except.ok.injEq, true_and] at hfound
    exact hfound.2.trans hone
  · have hscope : { tenantId := toLowerCase user.tenantId, outletId } = scope := Except.ok.inj h4
    rw [← hscope, listOutlet_ok houtlet]
    rfl

/-- What a page shows. -/
theorem findAll_ok {r : TransactionList} (h : findAll user q db envs = .ok r) :
    prepareList q = .ok () ∧ ∃ actor, activeUser user db = some actor ∧
      r.data = (Paging.page q.limit q.page
        (listed q (listScopeOf user q.outletId actor.role actor.outletId) db)).map Transaction.summary ∧
      r.listMeta.totalPages = Paging.pageCount q.limit
        (listed q (listScopeOf user q.outletId actor.role actor.outletId) db).length := by
  obtain ⟨n1, u, hprepared, h1⟩ := (Prog.reading_lift _).bind_ok h
  obtain ⟨n2, scope, hscope, h2⟩ := (listScope_reading _ _).bind_ok h1
  obtain ⟨n3, total, htotal, h3⟩ := (reading_query _).bind_ok h2
  obtain ⟨n4, rows, hrows, h4⟩ := (reading_query _).bind_ok h3
  obtain ⟨n5, data, hdata, h5⟩ := (Prog.reading_lift _).bind_ok h4
  obtain ⟨actor, hactor, rfl⟩ := listScope_ok hscope
  simp only [query, Prog.solo_read, Prog.Outcome.mk.injEq, Except.ok.injEq, true_and] at htotal hrows
  obtain rfl := hrows.2
  obtain rfl := htotal.2
  have hmapped := Checked.mapM_ok.mp (lift_ok (congrArg Prog.Outcome.result hdata))
  have heq := Except.ok.inj h5
  refine ⟨lift_ok (congrArg Prog.Outcome.result hprepared), actor, hactor, ?_, ?_⟩
  · rw [← heq]
    show data = List.map _ _
    symm
    rw [← List.forall₂_eq_eq_eq, List.forall₂_map_left_iff]
    exact hmapped.imp fun t s hs => (toSummary_ok hs).symm
  · rw [← heq, listed, (List.perm_insertionSort _ _).length_eq]
    rfl

theorem limit_pos (h : prepareList q = .ok ()) : 0 < q.limit := by
  unfold prepareList at h
  split at h
  · cases h
  · rename_i hvalid
    have hlimit : q.valid = true := by simpa using hvalid
    simp only [QueryTransactionsDto.valid, Bool.and_eq_true, decide_eq_true_eq] at hlimit
    omega

end Page

-- ============================================================================
-- The listing
-- ============================================================================

section Listed

variable {q : QueryTransactionsDto} {scope : ReadScope} {a b : Db}

theorem pairwise_listed : (listed q scope a).Pairwise newerFirst := by
  have htotal : Std.Total newerFirst := ⟨fun x y => by
    show (_ ∨ _) ∨ (_ ∨ _)
    rcases Nat.lt_trichotomy x.createdAt y.createdAt with hlt | heq | hgt
    · exact Or.inr (Or.inl hlt)
    · rcases String.le_total x.id y.id with hle | hle
      · exact Or.inr (Or.inr ⟨heq.symm, hle⟩)
      · exact Or.inl (Or.inr ⟨heq, hle⟩)
    · exact Or.inl (Or.inl hgt)⟩
  have htrans : IsTrans Transaction newerFirst := ⟨fun x y z hxy hyz => by
    rcases hxy with hxy | ⟨hxy, hle⟩
    · rcases hyz with hyz | ⟨hyz, -⟩
      · exact Or.inl (by omega)
      · exact Or.inl (by omega)
    · rcases hyz with hyz | ⟨hyz, hle'⟩
      · exact Or.inl (by omega)
      · exact Or.inr ⟨hxy.trans hyz, String.le_trans hle' hle⟩⟩
  exact List.pairwise_insertionSort newerFirst _

theorem nodup_listed (hwf : Wf a) : (listed q scope a).Nodup := by
  have hrows : a.sales.transactions.Nodup := List.Nodup.of_map _ (legal_transactions hwf.legal)
  exact (List.perm_insertionSort _ _).nodup_iff.mpr (hrows.filter _)

/-- Sales only join the listing. -/
theorem listed_grows (hgrows : Sales.Grows a.sales b.sales) (hwf : Wf b) :
    (listed q scope a).Sublist (listed q scope b) := by
  apply Paging.sublist_of_sorted pairwise_listed pairwise_listed
  · obtain ⟨new, hnew⟩ := hgrows.transactions
    have hsub : (a.sales.transactions.filter (q.selects scope)).Sublist
        (b.sales.transactions.filter (q.selects scope)) := by
      rw [hnew]
      exact (List.sublist_append_left _ _).filter _
    have hperm := List.perm_insertionSort newerFirst (a.sales.transactions.filter (q.selects scope))
    have hperm' := List.perm_insertionSort newerFirst (b.sales.transactions.filter (q.selects scope))
    exact (hperm.subperm.trans hsub.subperm).trans hperm'.symm.subperm
  · -- two sales of one moment have different identifiers
    intro x hx y hy hxy hyx
    have hid : x.id = y.id := by
      rcases hxy with hxy | ⟨heq, hle⟩
      · rcases hyx with hyx | ⟨heq, -⟩
        · omega
        · omega
      · rcases hyx with hyx | ⟨-, hle'⟩
        · omega
        · exact String.le_antisymm hle' hle
    exact eq_of_key (legal_transactions hwf.legal) (mem_listed.mp hx).1 (mem_listed.mp hy).1 hid

end Listed

-- ============================================================================
-- Turning the pages
-- ============================================================================

/-- **The pages of one state.**  Read of one state, the pages of a query are the selected
    sales, newest first, one behind the other. -/
theorem pages_of_one_state {user : JwtPayload} {q : QueryTransactionsDto} {db : Db} {m : Nat}
    {envs : Nat → Nat → Env} {responses : Nat → TransactionList} (hm : 1 ≤ m)
    (hread : ∀ p, 1 ≤ p → p ≤ m → findAll user { q with page := p } db (envs p) = .ok (responses p))
    (hend : (responses m).listMeta.totalPages ≤ m) :
    ∃ actor, activeUser user db = some actor ∧
      ((List.range m).map fun k => (responses (k + 1)).data).flatten =
        (listed q (listScopeOf user q.outletId actor.role actor.outletId) db).map
          Transaction.summary := by
  obtain ⟨hprepared, actor, hactor, -, hpages⟩ := findAll_ok (hread m hm (Nat.le_refl m))
  have hlimit := limit_pos hprepared
  let rows := listed q (listScopeOf user q.outletId actor.role actor.outletId) db
  have hdata : ∀ k ∈ List.range m, (responses (k + 1)).data =
      (Paging.page q.limit (k + 1) rows).map Transaction.summary := by
    intro k hk
    have hlt := List.mem_range.mp hk
    obtain ⟨-, actor', hactor', hdata, -⟩ := findAll_ok (hread (k + 1) (by omega) (by omega))
    obtain rfl : actor = actor' := Option.some.inj (hactor.symm.trans hactor')
    exact hdata
  have hall : Paging.pageCount q.limit rows.length ≤ m := by
    have hcount : Paging.pageCount q.limit rows.length = (responses m).listMeta.totalPages :=
      hpages.symm
    omega
  refine ⟨actor, hactor, ?_⟩
  have hsplit : ((List.range m).map fun k =>
        (Paging.page q.limit (k + 1) rows).map Transaction.summary) =
      ((List.range m).map fun k => Paging.page q.limit (k + 1) rows).map
        (List.map Transaction.summary) := by
    rw [List.map_map]
    rfl
  rw [List.map_congr_left hdata, hsplit, ← List.map_flatten, Paging.flatten_all_pages hlimit hall]

/-- A reader turns the pages of a query from the first to the `m`-th, each in a transaction
    that reads a later state of the run or the same, as a user with this role and outlet. -/
structure TurnsPages (db0 : Db) (σ : State) (user : JwtPayload) (q : QueryTransactionsDto)
    (role : Role) (own : Option Id) (m : Nat) (ds : Nat → Db)
    (responses : Nat → TransactionList) : Prop where
  some : 1 ≤ m
  states : ∃ moment : Nat → Nat, (∀ p, 1 ≤ p → p < m → moment p ≤ moment (p + 1)) ∧
    ∀ p, 1 ≤ p → p ≤ m → (states db0 σ.history)[moment p]? = Option.some (ds p)
  pages : ∀ p, 1 ≤ p → p ≤ m →
    ∃ envs, findAll user { q with page := p } (ds p) envs = .ok (responses p)
  actor : ∀ p, 1 ≤ p → p ≤ m → ∀ u, activeUser user (ds p) = Option.some u →
    u.role = role ∧ u.outletId = own
  /-- up to a page that says it is the last one -/
  last : (responses m).listMeta.totalPages ≤ m

/-- **A listing misses nothing.**  Whatever is sold while a reader turns the pages, in
    whatever interleaving, every selected sale that was there when the first page was read is
    on one of the pages, and nothing but selected sales is on any. -/
theorem listing_misses_nothing {db0 : Db} {σ : State} (h0 : Wf db0) (hreach : kasir.Reach db0 σ)
    {user : JwtPayload} {q : QueryTransactionsDto} {role : Role} {own : Option Id} {m : Nat}
    {ds : Nat → Db} {responses : Nat → TransactionList}
    (hturns : TurnsPages db0 σ user q role own m ds responses) :
    (∀ t ∈ (ds 1).sales.transactions, q.selects (listScopeOf user q.outletId role own) t = true →
      ∃ p, 1 ≤ p ∧ p ≤ m ∧ Transaction.summary t ∈ (responses p).data) ∧
    ∀ p, 1 ≤ p → p ≤ m → ∀ s ∈ (responses p).data, ∃ t ∈ (ds p).sales.transactions,
      q.selects (listScopeOf user q.outletId role own) t = true ∧ s = Transaction.summary t := by
  have hsound := reach_sound h0 hreach
  obtain ⟨moment, horder, hstates⟩ := hturns.states
  let scope := listScopeOf user q.outletId role own
  -- what each page is
  have hpage : ∀ p, 1 ≤ p → p ≤ m → 0 < q.limit ∧ (responses p).data =
        (Paging.page q.limit p (listed q scope (ds p))).map Transaction.summary ∧
      (responses p).listMeta.totalPages =
        Paging.pageCount q.limit (listed q scope (ds p)).length := by
    intro p hp hle
    obtain ⟨envs, hread⟩ := hturns.pages p hp hle
    obtain ⟨hprepared, actor, hactor, hdata, hcount⟩ := findAll_ok hread
    obtain ⟨rfl, rfl⟩ := hturns.actor p hp hle actor hactor
    have hlimit := limit_pos hprepared
    exact ⟨hlimit, hdata, hcount⟩
  have hwf : ∀ p, 1 ≤ p → p ≤ m → Wf (ds p) := by
    intro p hp hle
    rcases mem_states.mp (List.mem_of_getElem? (hstates p hp hle)) with heq | ⟨e, he, heq⟩
    · exact heq ▸ h0
    · exact heq ▸ (hsound.commits e he).invAfter
  have hgrow : ∀ p, 1 ≤ p → p < m →
      (listed q scope (ds p)).Sublist (listed q scope (ds (p + 1))) := by
    intro p hp hlt
    have hevolves : Evolves (ds p) (ds (p + 1)) :=
      hsound.chain.rel_of_le Evolves.refl (fun _ _ _ => Evolves.trans)
        (fun e he => (hsound.commits e he).evolves) (horder p hp hlt)
        (hstates p hp (by omega)) (hstates (p + 1) (by omega) (by omega))
    exact listed_grows hevolves.sales (hwf (p + 1) (by omega) (by omega))
  constructor
  · intro t ht hselected
    have hmem : t ∈ listed q scope (ds 1) := mem_listed.mpr ⟨ht, hselected⟩
    obtain ⟨hlimit, -, hcount⟩ := hpage m hturns.some (Nat.le_refl m)
    have hlast := hturns.last
    have hend : (listed q scope (ds m)).length ≤ m * q.limit := by
      have hcover := Paging.le_pageCount_mul hlimit (listed q scope (ds m)).length
      have hmul := Nat.mul_le_mul_right q.limit hlast
      rw [hcount] at hmul
      omega
    obtain ⟨p, hp, hle, hfound⟩ := Paging.nothing_skipped hgrow
      (fun p hp hle => nodup_listed (hwf p hp hle)) hturns.some hend hmem
    refine ⟨p, hp, hle, ?_⟩
    rw [(hpage p hp hle).2.1]
    exact List.mem_map_of_mem hfound
  · intro p hp hle s hs
    rw [(hpage p hp hle).2.1] at hs
    obtain ⟨t, ht, rfl⟩ := List.mem_map.mp hs
    have hrow : t ∈ listed q scope (ds p) :=
      List.mem_of_mem_drop (List.mem_of_mem_take ht)
    obtain ⟨hmem, hselected⟩ := mem_listed.mp hrow
    exact ⟨t, hmem, hselected, rfl⟩

-- ============================================================================
-- In the shop
-- ============================================================================

namespace Shop

/-- Pages of one sale each. -/
def onePerPage : QueryTransactionsDto := { limit := 1 }

/-- The first page is read of the third state, the others of the one after it. -/
def moment (p : Nat) : Nat := if p = 1 then 2 else 3

/-- The state that a page is read of. -/
def stateAt (xs : List Db) (p : Nat) : Db := (xs[moment p]?).getD db

/-- A page of a state. -/
def shownOf (d : Db) (p : Nat) : TransactionList :=
  (findAll user { onePerPage with page := p } d (envs 9)).toOption.getD
    { data := [], listMeta := { page := 0, limit := 0, total := 0, totalPages := 0 } }

/-- Two pages are all. -/
def twoPages (d : Db) : Bool :=
  ([1, 2].all fun p => decide (findAll user { onePerPage with page := p } d (envs 9) =
    .ok (shownOf d p))) &&
  decide ((shownOf d 2).listMeta.totalPages ≤ 2) &&
  (activeUser user d).all fun u =>
    decide ((listed onePerPage (listScopeOf user onePerPage.outletId u.role u.outletId) d).length =
      2)

def shownAt (xs : List Db) (p : Nat) : TransactionList := shownOf (stateAt xs p) p

/-- Three pages are read while a third sale joins the first two. -/
def turned (xs : List Db) : Bool :=
  ([1, 2, 3].all fun p => decide (xs[moment p]? = some (stateAt xs p)) &&
    decide (findAll user { onePerPage with page := p } (stateAt xs p) (envs 9) =
      .ok (shownAt xs p)) &&
    (activeUser user (stateAt xs p)).all fun u =>
      decide (u.role = .cashier ∧ u.outletId = some outlet)) &&
  decide ((shownAt xs 3).listMeta.totalPages ≤ 3) &&
  decide ((stateAt xs 1).sales.transactions.length = 2) &&
  decide ((stateAt xs 3).sales.transactions.length = 3) &&
  (stateAt xs 1).sales.transactions.all fun t =>
    onePerPage.selects (listScopeOf user none .cashier (some outlet)) t

theorem turnsPages_of_turned {σ : State} {xs : List Db} (hxs : states db σ.history = xs)
    (h : turned xs = true) :
    TurnsPages db σ user onePerPage .cashier (some outlet) 3 (stateAt xs) (shownAt xs) := by
  simp only [turned, Bool.and_eq_true, decide_eq_true_eq, List.all_eq_true] at h
  obtain ⟨⟨⟨⟨hpages, hlast⟩, -⟩, -⟩, -⟩ := h
  have hmem : ∀ p, 1 ≤ p → p ≤ 3 → p ∈ [1, 2, 3] := by
    intro p hp hle
    have hcases : p = 1 ∨ p = 2 ∨ p = 3 := by omega
    rcases hcases with rfl | rfl | rfl <;> simp
  constructor
  case some => omega
  case last => exact hlast
  case states =>
    refine ⟨moment, fun p hp hlt => ?_, fun p hp hle => ?_⟩
    · unfold moment
      split
      · split <;> omega
      · split <;> omega
    · rw [hxs]
      exact (hpages p (hmem p hp hle)).1.1
  case pages =>
    intro p hp hle
    exact ⟨_, (hpages p (hmem p hp hle)).1.2⟩
  case actor =>
    intro p hp hle u hu
    have hactor := (hpages p (hmem p hp hle)).2
    rw [hu, Option.all_some, decide_eq_true_eq] at hactor
    exact hactor

end Shop

/-- In the shop two sales are two pages. -/
theorem pages_of_one_state_shop :
    ∃ (σ : State) (responses : Nat → TransactionList) (rows : List Transaction),
      kasir.Reach Shop.db σ ∧ rows.length = 2 ∧
      (∀ p, 1 ≤ p → p ≤ 2 → findAll Shop.user { Shop.onePerPage with page := p } σ.db
        (Shop.envs 9) = .ok (responses p)) ∧
      ((List.range 2).map fun k => (responses (k + 1)).data).flatten =
        rows.map Transaction.summary := by
  obtain ⟨σ, -, hrun, hp, -⟩ := Shop.run noMarks
    [(Shop.sale (Shop.uuid 9 9 7), Shop.envs 1), (Shop.sale (Shop.uuid 9 9 8), Shop.envs 2)]
    (fun _ after => Shop.twoPages after) (by decide +kernel)
  simp only [Shop.twoPages, Bool.and_eq_true, decide_eq_true_eq, List.all_eq_true] at hp
  obtain ⟨⟨hpages, hlast⟩, hcount⟩ := hp
  have hread : ∀ p, 1 ≤ p → p ≤ 2 → findAll Shop.user { Shop.onePerPage with page := p } σ.db
      (Shop.envs 9) = .ok (Shop.shownOf σ.db p) := by
    intro p hp hle
    have hcases : p = 1 ∨ p = 2 := by omega
    rcases hcases with rfl | rfl
    · exact hpages 1 (by simp)
    · exact hpages 2 (by simp)
  obtain ⟨actor, hactor, hrows⟩ := pages_of_one_state (by omega) hread hlast
  simp only [hactor, Option.all_some, decide_eq_true_eq] at hcount
  exact ⟨σ, Shop.shownOf σ.db, _, hrun.reach, hcount, hread, hrows⟩

/-- In the shop a third sale is made between the first page and the second one. -/
theorem listing_misses_nothing_shop :
    ∃ (σ : State) (ds : Nat → Db) (responses : Nat → TransactionList), kasir.Reach Shop.db σ ∧
      TurnsPages Shop.db σ Shop.user Shop.onePerPage .cashier (some Shop.outlet) 3 ds responses ∧
      (ds 1).sales.transactions.length = 2 ∧ (ds 3).sales.transactions.length = 3 ∧
      ∀ t ∈ (ds 1).sales.transactions,
        ∃ p, 1 ≤ p ∧ p ≤ 3 ∧ Transaction.summary t ∈ (responses p).data := by
  obtain ⟨σ, turns, hrun, hp, -, -, hhistory⟩ := Shop.run noMarks
    [(Shop.sale (Shop.uuid 9 9 7), Shop.envs 1), (Shop.sale (Shop.uuid 9 9 8), Shop.envs 2),
      (Shop.sale (Shop.uuid 9 9 9), Shop.envs 3)]
    (fun turns _ => Shop.turned
      (Shop.db :: (turns.filterMap App.Turn.commit).map fun c => c.2.2.2))
    (by decide +kernel)
  have hxs : states Shop.db σ.history =
      Shop.db :: (turns.filterMap App.Turn.commit).map fun c => c.2.2.2 := by
    rw [← hhistory, List.map_map]
    rfl
  have hturns := Shop.turnsPages_of_turned hxs hp
  have hfound := (listing_misses_nothing Shop.wf hrun.reach hturns).1
  simp only [Shop.turned, Bool.and_eq_true, decide_eq_true_eq, List.all_eq_true] at hp
  obtain ⟨⟨⟨-, htwo⟩, hthree⟩, hselected⟩ := hp
  exact ⟨σ, _, _, hrun.reach, hturns, htwo, hthree, fun t ht => hfound t ht (hselected t ht)⟩

end Kasir
