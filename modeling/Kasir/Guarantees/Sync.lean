/-
  Kasir.Guarantees.Sync

  Batches of sales.

  A batch is a fold over its rows that isolates their faults and may be resumed.  Its
  results are those of its own calls; what fails leaves no trace; and a row that has once
  been synced is synced again by the same user, with the same sale and without writing
  anything.
-/

import Kasir.Sync.Results
import Kasir.Guarantees.HeldRetries

namespace Kasir.Sync

open Txn Js Transactions

-- ============================================================================
-- A sale that answers a request
-- ============================================================================

/-- The sale answers the request, and the actor and the tenant are active. -/
structure Answering (t : Transaction) (user : JwtPayload) (dto : CheckoutDto) (db : Db) : Prop where
  sale : Answers t user dto db
  sales : SalesOk db
  active : ActiveIn user db

/-- The key leads to the sale. -/
theorem Answering.find_key {t : Transaction} {user : JwtPayload} {dto : CheckoutDto} {db : Db}
    (h : Answering t user dto db) :
    db.sales.transactions.find? (hasKey user.tenantId dto.clientTransactionId) = some t := by
  obtain ⟨y, hy, hmem, hkeyed⟩ := find?_of_mem h.sale.mem h.sale.hasKey
  rw [hy, h.sales.uniqueKey y hmem t h.sale.mem _ _ hkeyed h.sale.hasKey]

section Call

variable {c : Call} {user : JwtPayload} {input : CheckoutDto} {mode : CheckoutMode}
  {t : Transaction} (hc : saleInput c = some (user, input, mode)) (hpre : c.precheck = none)
include hc hpre

/-- A sale call that the sale answers. -/
theorem wpe_sale_answers {R : Token → Prop} {Err : Exc → Prop} {J : Db → Prop} {db : Db}
    (hJ : ∀ s, J s → Answering t user.normalized (coreRequest input mode) s)
    {Good : Result → (Db → Db) → Prop}
    (hgood : ∀ r log, r.transactionId = t.id → (∀ d, log d = d) → Good (.sale r) log) :
    wpe ((protocol R).during J) c.isolation Err c.body (fun r st _ => Good r st.log) St.start
      db := by
  have hprepare := prepare_of_precheck hc hpre
  have hcore := prepareCore_of_prepare hprepare
  have hbody : wpe ((protocol R).during J) .readCommitted Err (createBody user input mode)
      (fun r st _ => Good (.sale r) st.log) St.start db := by
    unfold createBody executeTransactionCore
    rw [hprepare]
    simp only [Prog.lift_ok, Prog.ret_bind]
    rw [hcore]
    have hsame : ∀ s, J s → ∀ rank, sameRequest (recordOf s.sales rank t) user.normalized
        (coreRequest input mode) = true ↔ True := fun s hs rank =>
      iff_of_true ((hJ s hs).sale.same rank) trivial
    exact wpe_checkout_found (fun s hs => (hJ s hs).active) (fun _ => rfl)
      (fun s hs => (hJ s hs).find_key) (fun s hs => (hJ s hs).sale.readable) hsame
      (fun _ r st' _ hid hlog => hgood r st'.log hid hlog) fun hne => absurd trivial hne
  cases c with
  | create user' input' =>
      cases hc
      exact (wpe_bind _ _ _).mpr hbody
  | createLegacySync user' input' =>
      cases hc
      exact (wpe_bind _ _ _).mpr hbody
  | _ => cases hc

/-- By itself it is answered with the sale and writes nothing. -/
theorem alone_of_answering {db : Db} (hwf : Wf db)
    (hanswering : Answering t user.normalized (coreRequest input mode) db) (envs : Nat → Env) :
    ∃ r, kasir.alone c db envs = some (.ok (.sale r), db) ∧ r.transactionId = t.id := by
  let J := Answering t user.normalized (coreRequest input mode)
  let Good : Result → (Db → Db) → Prop := fun result log =>
    (∃ r, result = .sale r ∧ r.transactionId = t.id) ∧ ∀ d, log d = d
  have hwpe : wpe ((protocol noMarks).during J) c.isolation (fun _ => False) c.body
      (fun result st _ => Good result st.log) St.start db :=
    wpe_sale_answers hc hpre (fun _ hs => hs) fun r log hid hlog => ⟨⟨r, rfl, hid⟩, hlog⟩
  rcases kasir.alone_of_wpe hpre hwpe ⟨hwf, hanswering⟩ envs with
    ⟨result, st, ⟨⟨r, rfl, hid⟩, hlog⟩, halone⟩ | ⟨x, hfalse, -⟩
  · have hlegal : kasir.legal (st.log db) = true := by
      rw [hlog]
      exact hwf.legal
    refine ⟨r, ?_, hid⟩
    rw [halone hlegal, hlog]
  · exact hfalse.elim

/-- In any interleaving it is answered so, or broken off by the database; it writes
    nothing. -/
theorem later_of_answering {db0 : Db} {σ σ' : State} {ok : State → Label Env Exc Call → Prop}
    {F : Prop} (h0 : Wf db0) (hrun : kasir.Reach db0 σ) (hsteps : kasir.Steps ok σ σ')
    (hanswering : ∀ {σ1 : State}, kasir.Steps ok σ σ1 →
      Answering t user.normalized (coreRequest input mode) σ1.db)
    (hfault : ∀ σ1 i x, ok σ1 (.fault i x) → F) {i : Nat} (hi : σ.calls.length ≤ i)
    {a : Except Exc Result} (ha : σ'.calls[i]? = some (c, .done a)) :
    ((∃ r, a = .ok (.sale r) ∧ r.transactionId = t.id) ∨
      ∃ x n p, F ∧ a = .error x ∧ handleCreate n (.prisma p) = some x) ∧
    ∀ e ∈ σ'.history, e.pid = i → e.after = e.before := by
  let J := Answering t user.normalized (coreRequest input mode)
  let Good : Call → Result → (Db → Db) → Prop := fun c' result log => c' = c →
    (∃ r, result = .sale r ∧ r.transactionId = t.id) ∧ ∀ d, log d = d
  let Err : Call → Exc → Prop := fun c' x => c' = c → F ∧ ∃ p, x = .prisma p
  have hbody : ∀ c', kasir.precheck c' = none → ∀ db, ((protocol noMarks).during J).Inv db →
      wpe ((protocol noMarks).during J) (kasir.iso c') (Err c') (kasir.body c')
        (fun r st _ => Good c' r st.log) St.start db := by
    intro c' hpre' db _
    by_cases hcc : c' = c
    · subst hcc
      exact wpe_sale_answers hc hpre' (fun _ hs => hs)
        fun r log hid hlog _ => ⟨⟨r, rfl, hid⟩, hlog⟩
    · exact wpe_mono (fun _ _ _ _ heq => absurd heq hcc) (wpe_of_any fun x heq => absurd heq hcc)
  have hsettled := settled_reach h0 hbody
    (fun σ1 j _ _ _ p hok _ _ => ⟨hfault σ1 j _ hok, p, rfl⟩) hanswering hrun hsteps
  have hsound := reach_sound h0 (hsteps.run (fun _ _ _ => trivial) hrun)
  constructor
  · cases a with
    | ok result =>
        obtain ⟨e, he, rfl, rfl, rfl⟩ := hsound.commit_of_answer ha
        obtain ⟨log, hgood, -⟩ := hsettled.committed e he hi
        obtain ⟨⟨r, hr, hid⟩, -⟩ := hgood rfl
        exact Or.inl ⟨r, congrArg Except.ok hr, hid⟩
    | error x =>
        rcases hsettled.failed i c x hi ha with hrejected | ⟨n, x', herr, hhandle⟩
        · have hnone : kasir.precheck c = none := hpre
          rw [hnone] at hrejected
          cases hrejected
        · obtain ⟨hF, p, rfl⟩ := herr rfl
          rw [handle_of_saleInput hc] at hhandle
          exact Or.inr ⟨x, n, p, hF, rfl, hhandle⟩
  · intro e he hpid
    have howner := hsound.owner e he
    rw [hpid, ha] at howner
    have hcall : e.call = c := (Prod.mk.inj (Option.some.inj howner)).1.symm
    obtain ⟨log, hgood, hafter⟩ := hsettled.committed e he (hpid ▸ hi)
    rw [hafter, (hgood hcall).2]

end Call

-- ============================================================================
-- Sales of a run
-- ============================================================================

section Runs

variable {db0 : Db} {σ : State} {e e' : KasirCommit} {user user' : JwtPayload}
  {input input' : CheckoutDto} {mode mode' : CheckoutMode}

/-- What a sale call does when it commits. -/
theorem sale_cases {R : Token → Prop} {c : Call} {result : Result} {seen : List Db} {a b : Db}
    (hc : saleInput c = some (user, input, mode)) (h : Effect R c result seen a b) :
    (∃ r, result = .sale r ∧ FoundSale user.normalized (coreRequest input mode) r a ∧ b = a) ∨
    ∃ sale r, result = .sale r ∧ NewSale R .readCommitted user.normalized (coreRequest input mode)
      mode sale r seen a ∧ b = sale.rows.apply a := by
  cases h with
  | found hc' hfound =>
      cases hc'.symm.trans hc
      exact Or.inl ⟨_, rfl, hfound, rfl⟩
  | sold hc' hsale =>
      cases hc'.symm.trans hc
      exact Or.inr ⟨_, _, rfl, hsale, rfl⟩
  | _ => cases hc

/-- What a sale call has committed answers its request ever after. -/
theorem answers_of_commit (h : KasirSound noMarks db0 σ) (he : e ∈ σ.history)
    (hc : saleInput e.call = some (user, input, mode)) {r : TransactionResponse}
    (hr : e.result = .sale r) :
    ∃ t, r.transactionId = t.id ∧
      ∀ {s : Db}, Sales.Grows e.after.sales s.sales →
        Answers t user.normalized (coreRequest input mode) s := by
  have hcommit := h.commits e he
  have hfound : FoundSale user.normalized (coreRequest input mode) r e.after := by
    rcases sale_cases hc hcommit.post with ⟨r', hr', hfound, hafter⟩ | ⟨sale, r', hr', hsale, hafter⟩
    · obtain rfl := Result.sale.inj (hr'.symm.trans hr)
      rw [hafter]
      exact hfound
    · obtain rfl := Result.sale.inj (hr'.symm.trans hr)
      exact hsale.foundSale hcommit.invBefore (wellformed_of_precheck hc hcommit.admitted)
        (hafter ▸ rfl)
  obtain ⟨t, hanswers, hid⟩ := hfound.answers
  exact ⟨t, hid, fun hgrows => hanswers.later hgrows⟩

/-- A tenant's key makes one sale: of two commits that ask for it one at most has written
    anything. -/
theorem sale_once (h : KasirSound noMarks db0 σ) (he : e ∈ σ.history) (he' : e' ∈ σ.history)
    (hc : saleInput e.call = some (user, input, mode))
    (hc' : saleInput e'.call = some (user', input', mode'))
    (htenant : user.normalized.tenantId = user'.normalized.tenantId)
    (hkey : (coreRequest input mode).clientTransactionId =
      (coreRequest input' mode').clientTransactionId) :
    e = e' ∨ e.after = e.before ∨ e'.after = e'.before := by
  by_contra hno
  obtain ⟨hne, hno⟩ := not_or.mp hno
  obtain ⟨hwrites, hwrites'⟩ := not_or.mp hno
  -- the one that comes second has found the key free
  have hclash : ∀ {c d : KasirCommit} {u v : JwtPayload} {i j : CheckoutDto} {m n : CheckoutMode},
      c ∈ σ.history → d ∈ σ.history → saleInput c.call = some (u, i, m) →
      saleInput d.call = some (v, j, n) → u.normalized.tenantId = v.normalized.tenantId →
      (coreRequest i m).clientTransactionId = (coreRequest j n).clientTransactionId →
      c.after ≠ c.before → d.after ≠ d.before → Evolves c.after d.before → False := by
    intro c d u v i j m n hc hd hci hdi htenant hkey hcw hdw hev
    rcases sale_cases hci (h.commits c hc).post with ⟨-, -, -, hsame⟩ | ⟨sale, _, -, hsale, hafter⟩
    · exact hcw hsame
    rcases sale_cases hdi (h.commits d hd).post with ⟨-, -, -, hsame⟩ | ⟨sale', _, -, hsale', -⟩
    · exact hdw hsame
    have hmem : sale.rows.transaction ∈ c.after.sales.transactions := by
      rw [hafter]
      exact List.mem_append_right _ (List.mem_singleton.mpr rfl)
    have hfree := hsale'.free _ (hev.sales.mem hmem)
    rw [← htenant, ← hkey, hsale.built.hasKey] at hfree
    cases hfree
  rcases h.ordered he he' hne with hev | hev
  · exact hclash he he' hc hc' htenant hkey hwrites hwrites' hev
  · exact hclash he' he hc' hc htenant.symm hkey.symm hwrites' hwrites hev

end Runs

-- ============================================================================
-- A batch that nobody disturbs
-- ============================================================================

instance : Nonempty Env := ⟨⟨fun _ => "", 0, fun _ => 0⟩⟩

/-- The rows that have been synced so far. -/
def syncedRows (b : SyncBatch) : List SyncTransactionInput :=
  ((b.request.transactions.zip (results b)).filter fun x => x.2.isSynced).map Prod.fst

/-- What a batch comes to that nobody disturbs, from the state `d` on: its rows take turns;
    a row is synced with what its call answers when it is made alone in the state that the
    rows before it have left; a row that failed has left the state as it was, and its call
    fails alone as well, unless `F`, the database broke it off; and the rows that were
    synced lead to the same state by themselves. -/
structure Folded (F : Prop) (d : Db) (b : SyncBatch) (turns : List (App.Turn Db Exc Call Result)) :
    Prop where
  calls : turns.map App.Turn.call =
    (b.request.transactions.take b.answers.length).map (rowCall b.request.user)
  linked : App.Linked d turns
  row : ∀ (j : Nat) (t : App.Turn Db Exc Call Result) (x : RowResult), turns[j]? = some t →
    (results b)[j]? = some x →
    (x.isSynced = true → ∃ envs r, kasir.alone t.call t.before envs = some (.ok (.sale r), t.after) ∧
      x = .synced x.clientTransactionId r) ∧
    (x.isSynced = false → t.after = t.before ∧ (F ∨ kasir.FailsAlone t.call t.before))
  only : ∃ (calls : List (Call × (Nat → Env))) (done : List (App.Turn Db Exc Call Result)),
    calls.map Prod.fst = (syncedRows b).map (rowCall b.request.user) ∧
    kasir.sequence calls d = some done ∧ App.lastState d done = App.lastState d turns

/-- Lists that agree in `f` and in `p` agree in `f` where `p` holds. -/
theorem map_filter_of_agree {α β γ : Type} {xs : List α} {ys : List β} {f : α → γ} {g : β → γ}
    {p : α → Bool} {q : β → Bool}
    (h : xs.map (fun x => (f x, p x)) = ys.map (fun y => (g y, q y))) :
    (xs.filter p).map f = (ys.filter q).map g := by
  have hboth := congrArg (fun l => (l.filter Prod.snd).map Prod.fst) h
  simp only [List.filter_map, List.map_map] at hboth
  exact hboth

section Folded

variable {db0 d : Db} {s : SyncState} {k : Nat} {q : SyncRequest} {calls : List Call} {b : SyncBatch}
  {F : Prop} {turns : List (App.Turn Db Exc Call Result)} (h0 : Wf db0)
  (h : syncService.Reach kasir db0 s) (hadmitted : syncService.admits q d = .ok calls)
  (hserves : Batcher.Serves kasir F k d ⟨q, calls, [], []⟩ b turns s)
include h0 h hadmitted hserves

/-- The turns and the results are those of the rows. -/
theorem turn_row {j : Nat} {t : App.Turn Db Exc Call Result} (ht : turns[j]? = some t) :
    ∃ row x, b.request.transactions[j]? = some row ∧ (results b)[j]? = some x ∧
      t.call = rowCall b.request.user row ∧ x.isSynced = t.succeeded ∧
      (∀ r, t.answer = .ok r → ∃ response, r = .sale response ∧
        x = .synced x.clientTransactionId response) := by
  have ha : b.answers[j]? = some t.answer := by
    rw [hserves.answers, List.nil_append, List.getElem?_map, ht]
    rfl
  obtain ⟨row, -, hrow, -, -, -, hanswer⟩ := answered_row h0 h hserves.batch ha
  have hzip : (b.request.transactions.zip b.answers)[j]? = some (row, t.answer) :=
    List.getElem?_zip_eq_some.mpr ⟨hrow, ha⟩
  have hx : (results b)[j]? = rowResult row t.answer := by
    rw [results_getElem? h0 h hserves.batch j, hzip]
    rfl
  have hcall : t.call = rowCall b.request.user row := by
    obtain ⟨-, -, rfl⟩ := admits_ok hadmitted
    have htaken := hserves.taken j t ht
    rw [List.length_nil, Nat.zero_add, List.getElem?_map] at htaken
    rw [hserves.request] at hrow ⊢
    rw [hrow] at htaken
    exact (Option.some.inj htaken).symm
  unfold App.Turn.succeeded
  rcases hanswer with ⟨response, hresponse⟩ | ⟨y, hy⟩
  · rw [hresponse] at hx ⊢
    refine ⟨row, _, hrow, hx, hcall, rfl, fun r hr => ⟨response, (Except.ok.inj hr).symm, rfl⟩⟩
  · rw [hy] at hx ⊢
    exact ⟨row, _, hrow, hx, hcall, rfl, fun r hr => by cases hr⟩

theorem folded : Folded F d b turns where
  calls := by
    have hlength : b.answers.length = turns.length := by
      rw [hserves.answers, List.nil_append, List.length_map]
    apply List.ext_getElem?
    intro j
    rw [List.getElem?_map, List.getElem?_map, List.getElem?_take, hlength]
    split
    · rename_i hj
      obtain ⟨row, x, hrow, -, hcall, -⟩ := turn_row h0 h hadmitted hserves (List.getElem?_eq_getElem hj)
      rw [List.getElem?_eq_getElem hj, hrow]
      exact congrArg some hcall
    · rename_i hj
      rw [List.getElem?_eq_none (by omega)]
      rfl
  linked := hserves.linked
  row := by
    intro j t x ht hx
    obtain ⟨row, x', -, hx', -, hsucceeded, hresult⟩ := turn_row h0 h hadmitted hserves ht
    obtain rfl := Option.some.inj (hx'.symm.trans hx)
    have hfair := hserves.fair t (List.mem_of_getElem? ht)
    unfold App.Fair at hfair
    unfold App.Turn.succeeded at hsucceeded
    cases hanswer : t.answer with
    | ok r =>
        rw [hanswer] at hsucceeded hfair
        obtain ⟨response, rfl, hsynced⟩ := hresult r hanswer
        obtain ⟨envs, halone⟩ := hfair
        refine ⟨fun _ => ⟨envs, response, halone, hsynced⟩, fun hfailed => ?_⟩
        rw [hsucceeded] at hfailed
        cases hfailed
    | error e =>
        rw [hanswer] at hsucceeded hfair
        refine ⟨fun hsynced => ?_, fun _ => hfair⟩
        rw [hsucceeded] at hsynced
        cases hsynced
  only := by
    obtain ⟨made, hmade, hseq, hlast⟩ := App.sequence_of_fair hserves.linked hserves.fair
    refine ⟨made, _, ?_, hseq, hlast⟩
    rw [hmade]
    unfold syncedRows
    rw [List.map_map]
    apply map_filter_of_agree
    have hlength : (results b).length = turns.length := by
      have htotal := (reported h0 h hserves.batch).total
      rw [hserves.answers, List.nil_append, List.length_map] at htotal
      exact htotal
    apply List.ext_getElem?
    intro j
    rw [List.getElem?_map, List.getElem?_map]
    by_cases hj : j < turns.length
    · have ht := List.getElem?_eq_getElem hj
      obtain ⟨row, x, hrow, hx, hcall, hsucceeded, -⟩ := turn_row h0 h hadmitted hserves ht
      have hzip : (b.request.transactions.zip (results b))[j]? = some (row, x) :=
        List.getElem?_zip_eq_some.mpr ⟨hrow, hx⟩
      rw [ht, hzip]
      show some (turns[j].call, turns[j].succeeded) = some (rowCall b.request.user row, x.isSynced)
      rw [hcall, hsucceeded]
    · have hnone : (b.request.transactions.zip (results b))[j]? = none := by
        apply List.getElem?_eq_none
        rw [List.length_zip]
        omega
      rw [List.getElem?_eq_none (by omega), hnone]
      rfl

end Folded

-- ============================================================================
-- A batch sent again
-- ============================================================================

/-- A step while the user and the tenant are active; the database breaks transactions off
    only if `F`. -/
def ActiveStep (F : Prop) (user : JwtPayload) (σ : State) (l : Label Env Exc Call) : Prop :=
  kasir.Into (ActiveIn user) σ l ∧ ∀ i x, l = .fault i x → F

/-- Batches are submitted and go on while the user and the tenant are active. -/
def WhileActive (F : Prop) (user : JwtPayload) (s : SyncState) :
    BatchLabel Env Exc Call SyncRequest → Prop
  | .other l => ActiveStep F user s.sys l
  | .submit _ | .next _ | .hear _ => True

/-- A batch is admitted again as long as its actor has the same role and outlet. -/
theorem admits_again {q : SyncRequest} {db db' : Db}
    (h : (findActor q.user db').map (fun u => (u.role, u.outletId)) =
      (findActor q.user db).map fun u => (u.role, u.outletId)) :
    syncService.admits q db' = syncService.admits q db := by
  have haccess : validateSyncAccess q.user q.transactions db' =
      validateSyncAccess q.user q.transactions db := by
    unfold validateSyncAccess
    split
    · cases hactor : findActor q.user db with
      | none =>
          rw [hactor] at h
          rw [Option.map_eq_none_iff.mp h]
      | some u =>
          rw [hactor] at h
          obtain ⟨u', hactor', hsame⟩ := Option.map_eq_some_iff.mp h
          obtain ⟨hrole, houtlet⟩ := Prod.mk.inj hsame
          rw [hactor']
          show authorizeActor q.transactions u' = authorizeActor q.transactions u
          unfold authorizeActor
          rw [hrole, houtlet]
    · rfl
  show (validDto q.transactions >>= fun _ => validateSyncAccess q.user q.transactions db' >>= _) = _
  rw [haccess]
  rfl

section Resumed

variable {db0 : Db} {s s' : SyncState} {k j : Nat} {b : SyncBatch} {row : SyncTransactionInput}
  {r : TransactionResponse} {F : Prop} (h0 : Wf db0) (hsales : SalesOk db0)
  (h : syncService.Reach kasir db0 s) (hb : s.batches[k]? = some b)
  (hrow : b.request.transactions[j]? = some row)
  (hx : (results b)[j]? = some (.synced row.clientTransactionId r))
include h0 hsales h hb hrow hx

/-- A row that has been synced is answered by its sale ever after. -/
theorem answering_of_synced : (rowCall b.request.user row).precheck = none ∧
    ∃ t input mode, (∀ user, saleInput (rowCall user row) = some (user, input, mode)) ∧
      r.transactionId = t.id ∧
      ∀ {ok : State → Label Env Exc Call → Prop} {σ : State}, kasir.Steps ok s.sys σ →
        ActiveIn b.request.user.normalized σ.db →
        Answering t b.request.user.normalized (coreRequest input mode) σ.db := by
  have hlength : j < b.answers.length := by
    obtain ⟨hlt, -⟩ := List.getElem?_eq_some_iff.mp hx
    have htotal : (results b).length = b.answers.length := (reported h0 h hb).total
    omega
  obtain ⟨i, a, x, hi, hcalls, hx', hsynced, -⟩ := (reported h0 h hb).row j row hrow hlength
  obtain rfl := Option.some.inj (hx'.symm.trans hx)
  obtain ⟨e, he, hpid, hresult⟩ := (hsynced r).mp rfl
  have hsound := reach_sound h0 h.sys
  have hcall : e.call = rowCall b.request.user row := by
    have howner := hsound.owner e he
    rw [hpid, hcalls] at howner
    exact (Prod.mk.inj (Option.some.inj howner)).1.symm
  obtain ⟨input, mode, hsale⟩ := saleInput_rowCall row
  have hc : saleInput e.call = some (b.request.user, input, mode) := by
    rw [hcall]
    exact hsale _
  obtain ⟨t, hid, hanswers⟩ := answers_of_commit hsound he hc hresult
  refine ⟨hcall ▸ (hsound.commits e he).admitted, t, input, mode, hsale, hid, ?_⟩
  intro ok σ hsteps hactive
  have hsound' := reach_sound h0 (hsteps.run (fun _ _ _ => trivial) h.sys)
  have hstate : e.after ∈ states db0 σ.history :=
    mem_states.mpr (Or.inr ⟨e, hsteps.history e he, rfl⟩)
  exact ⟨hanswers (hsound'.evolves_of_mem_states hstate).sales, hsales.invariant hsound', hactive⟩

/-- The row sent again: alone, and as a row of any batch, in any interleaving. -/
theorem resumed (hactive : ActiveIn b.request.user.normalized s.sys.db)
    (hsteps : syncService.Steps kasir (WhileActive F b.request.user.normalized) s s') :
    (∀ envs, ∃ r', kasir.alone (rowCall b.request.user row) s'.sys.db envs =
      some (.ok (.sale r'), s'.sys.db) ∧ r'.transactionId = r.transactionId) ∧
    ∀ (k' j' i : Nat) (b' : SyncBatch) (x : RowResult), s'.batches[k']? = some b' →
      b'.request.user.normalized = b.request.user.normalized →
      b'.request.transactions[j']? = some row → b'.made[j']? = some i → s.sys.calls.length ≤ i →
      (results b')[j']? = some x →
      ((∃ r', x = .synced row.clientTransactionId r' ∧ r'.transactionId = r.transactionId) ∨
        (F ∧ x.isSynced = false)) ∧
      ∀ e ∈ s'.sys.history, e.pid = i → e.after = e.before := by
  obtain ⟨hpre, t, input, mode, hsale, hid, hanswering⟩ :=
    answering_of_synced h0 hsales h hb hrow hx
  have hdown : kasir.Steps (ActiveStep F b.request.user.normalized) s.sys s'.sys :=
    hsteps.sys_into (fun _ _ hl => hl) (fun _ _ _ _ hl => by cases hl) hactive
  have hstays : ∀ {σ : State}, kasir.Steps (ActiveStep F b.request.user.normalized) s.sys σ →
      Answering t b.request.user.normalized (coreRequest input mode) σ.db := fun hsteps =>
    hanswering hsteps (hsteps.holds (fun _ _ hl => hl.1) hactive)
  have hreach' := hsteps.reach h
  constructor
  · intro envs
    obtain ⟨r', halone, hid'⟩ := alone_of_answering (hsale _) hpre (reach_sound h0 hreach'.sys).inv
      (hstays hdown) envs
    exact ⟨r', halone, hid'.trans hid.symm⟩
  · intro k' j' i b' x hb' huser hrow' hi hlater hx'
    have hlength : j' < b'.answers.length := by
      obtain ⟨hlt, -⟩ := List.getElem?_eq_some_iff.mp hx'
      have htotal : (results b').length = b'.answers.length := (reported h0 hreach' hb').total
      omega
    have ha := List.getElem?_eq_getElem hlength
    obtain ⟨row', i', hrow'', hi', hcalls, hpre', -⟩ := answered_row h0 hreach' hb' ha
    obtain rfl := Option.some.inj (hrow''.symm.trans hrow')
    obtain rfl := Option.some.inj (hi'.symm.trans hi)
    have hzip : (b'.request.transactions.zip b'.answers)[j']? = some (row', b'.answers[j']) :=
      List.getElem?_zip_eq_some.mpr ⟨hrow', ha⟩
    have hresult : some x = rowResult row' b'.answers[j'] := by
      rw [← hx', results_getElem? h0 hreach' hb' j', hzip]
      rfl
    obtain ⟨hanswer, hsilent⟩ := later_of_answering (hsale _) hpre' h0 h.sys hdown
      (fun hsteps => by rw [huser]; exact hstays hsteps) (fun _ _ _ hl => hl.2 _ _ rfl) hlater hcalls
    refine ⟨?_, hsilent⟩
    rcases hanswer with ⟨r', hr', hid'⟩ | ⟨y, n, p, hF, hy, hhandle⟩
    · rw [hr'] at hresult
      obtain rfl := Option.some.inj hresult
      exact Or.inl ⟨r', rfl, hid'.trans hid.symm⟩
    · obtain ⟨z, rfl⟩ := http_of_handleCreate hhandle
      rw [hy] at hresult
      obtain rfl := Option.some.inj hresult
      exact Or.inr ⟨hF, rfl⟩

end Resumed

-- ============================================================================
-- Every batch
-- ============================================================================

/-- A row of the queue: some coffees. -/
def Shop.syncRow (key : Id) (quantity : Int) : SyncTransactionInput where
  clientTransactionId := key
  outletId := Shop.outlet
  cashierSessionId := some (some Shop.session)
  items := [{ productId := Shop.coffee, quantity }]
  payment := { method := .cash, amountReceived := some 30000 }

/-- A sale, one that the stock does not cover, and the first one again. -/
def Shop.syncBatch : SyncRequest where
  user := Shop.user
  transactions := [Shop.syncRow (Shop.uuid 9 9 9) 2, Shop.syncRow (Shop.uuid 9 9 8) 20,
    Shop.syncRow (Shop.uuid 9 9 9) 2]

/-- The batch is submitted, and its rows one after the other. -/
def Shop.syncLabels : List (BatchLabel Env Exc Call SyncRequest) :=
  [.submit Shop.syncBatch, .next 0] ++ (Shop.stmts 0 1 0 13 ++ [Label.commit 0]).map .other ++
    [.hear 0, .next 0] ++ (Shop.stmts 1 2 0 10 ++ [Label.abort 1]).map .other ++
    [.hear 0, .next 0] ++ (Shop.stmts 2 3 0 3 ++ [Label.commit 2]).map .other ++ [.hear 0]

end Kasir.Sync
