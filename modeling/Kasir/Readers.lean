/-
  Kasir.Readers

  The readers of sales: `TransactionsService.findOne` and `findAll`, and
  `ReceiptsService.findOne`.

  All only read, at Repeatable Read, so whatever commits meanwhile they answer as they
  would alone on their snapshot.  What the detail and the receipt answer is made of the
  record of the sale alone, as far as its lines carry their snapshots.
-/

import Kasir.Receipts.Service
import Kasir.Transactions.FindAll
import Kasir.Txn.ReadOnly
import Kasir.Rules

namespace Kasir

open Txn Js Transactions

-- ============================================================================
-- They only read
-- ============================================================================

theorem reading_query {α : Type} (f : Db → α) : (query f).Reading :=
  Prog.reading_read fun db _ => f db

theorem reading_queryRanked {α : Type} (f : (Id → Nat) → Db → α) : (queryRanked f).Reading :=
  Prog.reading_read fun (db : Db) (env : Env) => f env.rank db

theorem principal_reading (user : JwtPayload) : (HeldOrders.principal user).Reading :=
  (reading_query _).bind fun _ => Prog.reading_require _ _

theorem findLegacyProducts_reading (tenantId : Id) (rec : TransactionRecord) :
    (findLegacyProducts tenantId rec).Reading := by
  have hload : (loadLegacyProducts tenantId rec.legacyProductIds).Reading := by
    unfold loadLegacyProducts
    split
    · exact reading_query _
    · exact .ret _
  exact hload.bind fun products => .ret _

namespace Transactions

theorem readScope_reading (user : JwtPayload) : (readScope user).Reading := by
  refine (Prog.reading_guard _ _).bind fun _ => (principal_reading _).bind fun actor => ?_
  dsimp only
  cases actor.role with
  | owner => exact .ret _
  | admin => exact .ret _
  | cashier =>
      refine (Prog.reading_require _ _).bind fun outletId => (reading_query _).bind fun outlet => ?_
      exact (Prog.reading_guard _ _).bind fun _ => .ret _

theorem findOneBody_reading (user : JwtPayload) (id : String) : (findOneBody user id).Reading := by
  refine (Prog.reading_guard _ _).bind fun _ => (readScope_reading user).bind fun scope => ?_
  refine (reading_queryRanked _).bind fun found => (Prog.reading_require _ _).bind fun rec => ?_
  exact (findLegacyProducts_reading _ _).bind fun legacy => Prog.reading_lift _

theorem listOutlet_reading (actor : User) (requested : Option Id) :
    (listOutlet actor requested).Reading := by
  unfold listOutlet
  cases actor.role with
  | owner => exact .ret _
  | admin => exact .ret _
  | cashier =>
      apply (Prog.reading_require _ _).bind
      intro outletId
      exact (Prog.reading_guard _ _).bind fun _ => .ret _

theorem checkOutlet_reading (tenantId : Id) (outletId : Option Id) :
    (checkOutlet tenantId outletId).Reading := by
  cases outletId with
  | none => exact .ret _
  | some outletId => exact (reading_query _).bind fun _ => Prog.reading_guard _ _

theorem listScope_reading (user : JwtPayload) (requested : Option String) :
    (listScope user requested).Reading := by
  apply (Prog.reading_guard _ _).bind
  intro _
  apply (principal_reading _).bind
  intro actor
  apply (listOutlet_reading _ _).bind
  intro outletId
  exact (checkOutlet_reading _ _).bind fun _ => .ret _

theorem findAllBody_reading (user : JwtPayload) (q : QueryTransactionsDto) :
    (findAllBody user q).Reading := by
  apply (Prog.reading_lift _).bind
  intro _
  apply (listScope_reading _ _).bind
  intro scope
  apply (reading_query _).bind
  intro total
  apply (reading_query _).bind
  intro rows
  exact (Prog.reading_lift _).bind fun _ => .ret _

end Transactions

namespace Receipts

theorem receiptScope_reading (user : JwtPayload) : (receiptScope user).Reading := by
  refine (Prog.reading_guard _ _).bind fun _ => (principal_reading _).bind fun actor => ?_
  dsimp only
  cases actor.role with
  | owner => exact .ret _
  | admin => exact .ret _
  | cashier => exact (Prog.reading_require _ _).bind fun outletId => .ret _

theorem findOneBody_reading (user : JwtPayload) (id : String) : (findOneBody user id).Reading := by
  refine (Prog.reading_guard _ _).bind fun _ => (receiptScope_reading user).bind fun scope => ?_
  refine (reading_query _).bind fun found => (Prog.reading_require _ _).bind fun rec => ?_
  exact (findLegacyProducts_reading _ _).bind fun legacy => Prog.reading_lift _

end Receipts

-- ============================================================================
-- While others commit
-- ============================================================================

/-- What `findOne` answers if its statements are sent in these states. -/
def Transactions.findOneIn (user : JwtPayload) (id : String) (reads : List (Db × Env)) :
    Option (Except Exc TransactionResponse) :=
  (Transactions.findOneBody user id).answerIn .repeatableRead none reads

/-- What `findAll` answers then. -/
def Transactions.findAllIn (user : JwtPayload) (q : QueryTransactionsDto) (reads : List (Db × Env)) :
    Option (Except Exc TransactionList) :=
  (findAllBody user q).answerIn .repeatableRead none reads

/-- What the receipt is then. -/
def Receipts.findOneIn (user : JwtPayload) (id : String) (reads : List (Db × Env)) :
    Option (Except Exc Receipts.Receipt) :=
  (Receipts.findOneBody user id).answerIn .repeatableRead none reads

section Meanwhile

variable {P : Db → Prop} {reads : List (Db × Env)} {user : JwtPayload} {id : String}

/-- A reader is answered from one of the states it has read. -/
theorem answerIn_of_reads {α : Type} {p : Body α} (hp : p.Reading) {x : Except Exc α}
    (h : p.answerIn .repeatableRead none reads = some x) {db0 : Db} (h0 : P db0)
    (hreads : ∀ v ∈ reads, P v.1) : ∃ d, P d ∧ ∃ envs, (p.solo d envs 0 fun d => d).result = x := by
  obtain ⟨d, hd, hresult⟩ := hp.answerIn_eq h db0 ⟨fun _ => "", 0, fun _ => 0⟩
  refine ⟨d, ?_, hresult⟩
  rcases hd with rfl | hmem
  · exact h0
  · obtain ⟨v, hv, rfl⟩ := List.mem_map.mp hmem
    exact hreads v hv

end Meanwhile

-- ============================================================================
-- What they answer
-- ============================================================================

section Answers

variable {db : Db} {envs : Nat → Env} {n : Nat} {log : Db → Db}

theorem toSummary_ok {t : Transaction} {s : TransactionSummary} (h : toSummary t = .ok s) :
    s = Transaction.summary t := by
  obtain ⟨-, hs⟩ := Checked.then_ok.mp h
  exact (Except.ok.inj hs).symm

theorem mem_listed {q : QueryTransactionsDto} {scope : ReadScope} {t : Transaction} :
    t ∈ listed q scope db ↔ t ∈ db.sales.transactions ∧ q.selects scope t = true := by
  unfold listed
  rw [(List.perm_insertionSort _ _).mem_iff, List.mem_filter]

theorem toReceipt_ok {rec : Receipts.ReceiptRecord} {legacy : Id → Option LegacyProduct}
    {r : Receipts.Receipt} (h : Receipts.toReceipt rec legacy = .ok r) : r = rec.receipt legacy := by
  obtain ⟨-, -, hr⟩ := Checked.bind_ok.mp h
  exact (Except.ok.inj hr).symm

theorem require_ok {α : Type} {o : Option α} {e : Exc} {n' : Nat} {a : α}
    (h : (Prog.require o e : Body α).solo db envs n log = ⟨n', log, .ok a⟩) : o = some a := by
  cases o with
  | none => cases h
  | some b =>
      simp only [Prog.require_some, Prog.solo_ret, Prog.Outcome.mk.injEq, Except.ok.injEq] at h
      rw [h.2.2]

theorem lift_ok {α : Type} {x : Except Exc α} {a : α}
    (h : ((Prog.lift x : Body α).solo db envs n log).result = .ok a) : x = .ok a := by
  cases x with
  | error e => cases h
  | ok b => exact h

/-- The detail of a sale is a reading of its record. -/
theorem findOne_ok {user : JwtPayload} {id : String} {r : TransactionResponse}
    (h : findOne user id db envs = .ok r) :
    ∃ t ∈ db.sales.transactions, t.id = toLowerCase id ∧ ∃ rank legacy,
      r = (recordOf db.sales rank t).response legacy := by
  obtain ⟨n1, -, -, h1⟩ := (Prog.reading_guard _ _).bind_ok h
  obtain ⟨n2, scope, -, h2⟩ := (readScope_reading user).bind_ok h1
  obtain ⟨n3, found, hfound, h3⟩ := (reading_queryRanked _).bind_ok h2
  obtain ⟨n4, rec, hrec, h4⟩ := (Prog.reading_require _ _).bind_ok h3
  obtain ⟨n5, legacy, -, h5⟩ := (findLegacyProducts_reading _ _).bind_ok h4
  have hsome := require_ok hrec
  subst hsome
  -- the row found is the one of the identifier
  simp only [queryRanked, Prog.solo_read, Prog.Outcome.mk.injEq, Except.ok.injEq, true_and] at hfound
  obtain ⟨t, ht, rfl⟩ := Option.map_eq_some_iff.mp hfound.2
  have hid := List.find?_some ht
  simp only [Bool.and_eq_true, beq_iff_eq] at hid
  exact ⟨t, List.mem_of_find?_eq_some ht, hid.2, _, legacy, toResponse_ok (lift_ok h5)⟩

/-- So is the receipt. -/
theorem receipt_ok {user : JwtPayload} {id : String} {r : Receipts.Receipt}
    (h : Receipts.findOne user id db envs = .ok r) :
    ∃ t ∈ db.sales.transactions, t.id = toLowerCase id ∧ ∃ legacy,
      r = (Receipts.receiptRecordOf db t).receipt legacy := by
  obtain ⟨n1, -, -, h1⟩ := (Prog.reading_guard _ _).bind_ok h
  obtain ⟨n2, scope, -, h2⟩ := (Receipts.receiptScope_reading user).bind_ok h1
  obtain ⟨n3, found, hfound, h3⟩ := (reading_query _).bind_ok h2
  obtain ⟨n4, rec, hrec, h4⟩ := (Prog.reading_require _ _).bind_ok h3
  obtain ⟨n5, legacy, -, h5⟩ := (findLegacyProducts_reading _ _).bind_ok h4
  have hsome := require_ok hrec
  subst hsome
  simp only [query, Prog.solo_read, Prog.Outcome.mk.injEq, Except.ok.injEq, true_and] at hfound
  obtain ⟨t, ht, rfl⟩ := Option.map_eq_some_iff.mp hfound.2
  have hid := List.find?_some ht
  simp only [Bool.and_eq_true, beq_iff_eq] at hid
  exact ⟨t, List.mem_of_find?_eq_some ht, hid.2, legacy, toReceipt_ok (lift_ok h5)⟩

end Answers

end Kasir
