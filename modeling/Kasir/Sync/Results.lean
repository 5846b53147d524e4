/-
  Kasir.Sync.Results

  What the results of a batch tell.

  A row that is admitted is let in by its call, and the call is answered with a sale or an
  `HttpException`.  So every row that has been submitted has a result, in the order of the
  request, and no row keeps a later one from being submitted.
-/

import Kasir.Sync.Service
import Kasir.Replays

namespace Kasir.Sync

open Txn Js Transactions

/-- The system with its batches. -/
abbrev SyncState := Served Db Env Token Exc Exc Call Result SyncRequest

/-- A batch of `SyncService.transactions`. -/
abbrev SyncBatch := Batch SyncRequest Exc Call Result

-- ============================================================================
-- What is submitted
-- ============================================================================

section Submitted

variable {user : JwtPayload} {row : SyncTransactionInput} {q : SyncRequest} {db : Db}
  {calls : List Call}

/-- What an admitted batch has passed. -/
theorem admits_ok (h : syncService.admits q db = .ok calls) :
    validDto q.transactions = .ok () ∧ validateSyncAccess q.user q.transactions db = .ok () ∧
      calls = q.transactions.map (rowCall q.user) := by
  obtain ⟨hvalid, h⟩ := Checked.then_ok.mp h
  obtain ⟨haccess, h⟩ := Checked.then_ok.mp h
  exact ⟨hvalid, haccess, (Except.ok.inj h).symm⟩

theorem rows_valid (h : validDto q.transactions = .ok ()) : ∀ row ∈ q.transactions,
    row.valid = true := by
  unfold validDto at h
  split at h
  · rename_i hrules
    exact List.all_eq_true.mp hrules.2.2
  · cases h

theorem user_valid (h : validateSyncAccess q.user q.transactions db = .ok ()) :
    isUUID q.user.sub = true ∧ isUUID q.user.tenantId = true := by
  unfold validateSyncAccess at h
  split at h
  · rename_i huser
    exact Bool.and_eq_true_iff.mp huser
  · cases h

/-- A row asks for one sale, the same for every user. -/
theorem saleInput_rowCall (row : SyncTransactionInput) :
    ∃ input mode, ∀ user, saleInput (rowCall user row) = some (user, input, mode) := by
  unfold rowCall
  split
  · exact ⟨_, _, fun _ => rfl⟩
  · exact ⟨_, _, fun _ => rfl⟩

/-- A request that passes its checks is let in. -/
theorem prepare_of_valid {dto : CheckoutDto} {mode : CheckoutMode}
    (huser : isUUID user.sub = true ∧ isUUID user.tenantId = true)
    (hvalid : mode = .v1 → dto.transformed.valid = true) (hpayment : dto.payment.valid = true) :
    prepare user dto mode = .ok (user.normalized, coreRequest dto mode) := by
  have hinput : assertCheckoutInput dto mode = .ok dto.transformed := by
    unfold assertCheckoutInput
    cases mode with
    | legacySync => rfl
    | v1 =>
        dsimp only
        rw [hvalid rfl]
        rfl
  have hshape : assertPaymentShape dto.transformed = .ok () := assertPaymentShape_of_valid hpayment
  unfold prepare
  rw [huser.1, huser.2]
  exact Checked.bind_ok.mpr ⟨_, hinput, Checked.then_ok.mpr ⟨hshape, rfl⟩⟩

/-- The call of a valid row is let in. -/
theorem precheck_rowCall (huser : isUUID user.sub = true ∧ isUUID user.tenantId = true)
    (hrow : row.valid = true) : (rowCall user row).precheck = none := by
  unfold SyncTransactionInput.valid at hrow
  unfold rowCall
  cases hkind : classifySyncTransaction row with
  | v1 =>
      rw [hkind] at hrow
      have hpayment := (wellformed_of_valid hrow .v1).payment
      show errorOf (prepare user row.createTransactionDto .v1) = none
      rw [prepare_of_valid huser (fun _ => hrow) hpayment]
      rfl
  | legacySync =>
      rw [hkind] at hrow
      obtain ⟨dto, hdto, hvalid⟩ := (Option.any_eq_true _ _).mp hrow
      have hpayment := (wellformed_of_legacy hvalid).payment
      have hprepare : prepare user dto.toCheckoutDto .legacySync =
          .ok (user.normalized, coreRequest dto.toCheckoutDto .legacySync) :=
        prepare_of_valid huser (fun h : CheckoutMode.legacySync = .v1 => nomatch h) hpayment
      rw [hdto]
      show errorOf (prepareLegacySync dto >>= fun d => prepare user d .legacySync) = none
      unfold prepareLegacySync
      rw [hvalid]
      show errorOf (prepare user dto.toCheckoutDto .legacySync) = none
      rw [hprepare]
      rfl

/-- So is every call of an admitted batch. -/
theorem precheck_of_admits (h : syncService.admits q db = .ok calls) {j : Nat} {c : Call}
    (hj : calls[j]? = some c) : c.precheck = none := by
  obtain ⟨hvalid, haccess, rfl⟩ := admits_ok h
  obtain ⟨row, hrow, rfl⟩ := List.mem_map.mp (List.mem_of_getElem? hj)
  exact precheck_rowCall (user_valid haccess) (rows_valid hvalid row hrow)

end Submitted

-- ============================================================================
-- Answers of sale calls
-- ============================================================================

section Answers

variable {c : Call} {user : JwtPayload} {input : CheckoutDto} {mode : CheckoutMode}

/-- A sale call that commits is answered with a sale. -/
theorem sale_of_effect {R : Token → Prop} {r : Result} {seen : List Db} {a b : Db}
    (hc : saleInput c = some (user, input, mode)) (h : Effect R c r seen a b) :
    ∃ response, r = .sale response := by
  cases h with
  | found _ _ => exact ⟨_, rfl⟩
  | sold _ _ => exact ⟨_, rfl⟩
  | replayed _ _ => cases hc
  | convertedFound _ _ _ => cases hc
  | convertedSold _ _ => cases hc
  | held _ => cases hc
  | updated _ => cases hc
  | cancelled _ => cases hc
  | opened _ => cases hc
  | closed _ => cases hc
  | summarized _ => cases hc
  | adjusted _ => cases hc
  | edited _ => cases hc
  | administered => cases hc

/-- What `createInternal` answers to an error is an `HttpException`. -/
theorem http_of_handleCreate {n : Nat} {e x : Exc} (h : handleCreate n e = some x) :
    ∃ y, x = .http y := by
  unfold handleCreate at h
  split at h
  · exact ⟨_, (Option.some.inj h).symm⟩
  · split at h
    · cases h
    · exact ⟨_, (Option.some.inj h).symm⟩
  · split at h
    · cases h
    · exact ⟨_, (Option.some.inj h).symm⟩
  · exact ⟨_, (Option.some.inj h).symm⟩
  · exact ⟨_, (Option.some.inj h).symm⟩
  · exact ⟨_, (Option.some.inj h).symm⟩

theorem handle_of_saleInput (hc : saleInput c = some (user, input, mode)) (n : Nat) (e : Exc) :
    kasir.handle c n e = handleCreate n e := by
  cases c with
  | create _ _ => rfl
  | createLegacySync _ _ => rfl
  | _ => cases hc

/-- A sale call that has been let in is answered with a sale or an `HttpException`. -/
theorem answer_of_sale {db0 : Db} {σ : State} (h0 : Wf db0) (h : kasir.Reach db0 σ) {i : Nat}
    {a : Except Exc Result} (hc : saleInput c = some (user, input, mode)) (hpre : c.precheck = none)
    (hi : σ.calls[i]? = some (c, .done a)) :
    (∃ response, a = .ok (.sale response)) ∨ ∃ e, a = .error (.http e) := by
  cases a with
  | ok r =>
      have hsound := reach_sound h0 h
      obtain ⟨e, he, -, rfl, rfl⟩ := hsound.commit_of_answer hi
      obtain ⟨response, hr⟩ := sale_of_effect hc (hsound.commits e he).post
      exact Or.inl ⟨response, by rw [hr]⟩
  | error x =>
      rcases h.refused hi with hprecheck | ⟨n, e, hhandle⟩
      · have hnone : kasir.precheck c = none := hpre
        rw [hnone] at hprecheck
        cases hprecheck
      · rw [handle_of_saleInput hc] at hhandle
        obtain ⟨y, rfl⟩ := http_of_handleCreate hhandle
        exact Or.inr ⟨y, rfl⟩

end Answers

-- ============================================================================
-- Results
-- ============================================================================

/-- Where every element has an image, the images keep their places. -/
theorem getElem?_filterMap {α β : Type} {f : α → Option β} {xs : List α}
    (h : ∀ x ∈ xs, (f x).isSome = true) (j : Nat) : (xs.filterMap f)[j]? = xs[j]?.bind f := by
  induction xs generalizing j with
  | nil => rfl
  | cons x xs ih =>
      obtain ⟨y, hy⟩ := Option.isSome_iff_exists.mp (h x (List.mem_cons_self ..))
      rw [List.filterMap_cons_some hy]
      cases j with
      | zero => exact hy.symm
      | succ j => exact ih (fun z hz => h z (List.mem_cons_of_mem _ hz)) j

section Results

variable {db0 : Db} {s : SyncState} {k : Nat} {b : SyncBatch} (h0 : Wf db0)
  (h : syncService.Reach kasir db0 s) (hb : s.batches[k]? = some b)
include h0 h hb

/-- What is known of a row that has been answered. -/
theorem answered_row {j : Nat} {a : Except Exc Result} (ha : b.answers[j]? = some a) :
    ∃ row i, b.request.transactions[j]? = some row ∧ b.made[j]? = some i ∧
      s.sys.calls[i]? = some (rowCall b.request.user row, .done a) ∧
      (rowCall b.request.user row).precheck = none ∧
      ((∃ response, a = .ok (.sale response)) ∨ ∃ e, a = .error (.http e)) := by
  obtain ⟨d, hadmitted⟩ := h.admitted hb
  obtain ⟨i, c, hi, hc, hcalls, -⟩ := h.heard hb ha
  have hpre := precheck_of_admits hadmitted hc
  obtain ⟨-, -, hrows⟩ := admits_ok hadmitted
  rw [hrows, List.getElem?_map] at hc
  obtain ⟨row, hrow, rfl⟩ := Option.map_eq_some_iff.mp hc
  obtain ⟨input, mode, hsale⟩ := saleInput_rowCall row
  exact ⟨row, i, hrow, hi, hcalls, hpre, answer_of_sale h0 h.sys (hsale _) hpre hcalls⟩

/-- The result of a row is made of its answer. -/
theorem results_getElem? (j : Nat) :
    (results b)[j]? = (b.request.transactions.zip b.answers)[j]?.bind fun x => rowResult x.1 x.2 := by
  apply getElem?_filterMap
  intro x hx
  obtain ⟨j, hj⟩ := List.getElem?_of_mem hx
  obtain ⟨row, a⟩ := x
  obtain ⟨-, ha⟩ := List.getElem?_zip_eq_some.mp hj
  obtain ⟨-, -, -, -, -, -, hanswer⟩ := answered_row h0 h hb ha
  rcases hanswer with ⟨response, rfl⟩ | ⟨e, rfl⟩
  · rfl
  · rfl

theorem answers_le : b.answers.length ≤ b.request.transactions.length := by
  by_contra hlt
  have hlast : b.request.transactions.length < b.answers.length := by omega
  have ha := List.getElem?_eq_getElem hlast
  obtain ⟨row, -, hrow, -⟩ := answered_row h0 h hb ha
  rw [List.getElem?_eq_none (Nat.le_refl _)] at hrow
  cases hrow

end Results

/-- What the results of a batch tell, whatever else happens: there is one for each row
    submitted so far, in the order of the request; a row is synced with a sale exactly if
    its own call has committed this sale, and a row that failed has committed nothing and
    does not keep the next one from being submitted. -/
structure Reported (s : SyncState) (b : SyncBatch) : Prop where
  order : (results b).map RowResult.clientTransactionId =
    (b.request.transactions.take b.answers.length).map SyncTransactionInput.clientTransactionId
  total : (syncResponse b).total = b.answers.length
  counts : (syncResponse b).total = (syncResponse b).synced + (syncResponse b).failed
  goesOn : b.made.length = b.answers.length → ∀ row,
    b.request.transactions[b.answers.length]? = some row →
      syncService.upcoming b = some (rowCall b.request.user row)
  row : ∀ (j : Nat) (row : SyncTransactionInput), b.request.transactions[j]? = some row →
    j < b.answers.length → ∃ i a x, b.made[j]? = some i ∧
      s.sys.calls[i]? = some (rowCall b.request.user row, .done a) ∧ (results b)[j]? = some x ∧
      (∀ response, x = .synced row.clientTransactionId response ↔
        ∃ e ∈ s.sys.history, e.pid = i ∧ e.result = .sale response) ∧
      (x.isSynced = false → ∀ e ∈ s.sys.history, e.pid ≠ i)

section Reported

variable {db0 : Db} {s : SyncState} {k : Nat} {b : SyncBatch} (h0 : Wf db0)
  (h : syncService.Reach kasir db0 s) (hb : s.batches[k]? = some b)
include h0 h hb

/-- No answer of a row ends its batch. -/
theorem upcoming_of_ready (hready : b.made.length = b.answers.length) {row : SyncTransactionInput}
    (hrow : b.request.transactions[b.answers.length]? = some row) :
    syncService.upcoming b = some (rowCall b.request.user row) := by
  have hstops : b.answers.any syncService.stops = false := by
    rw [List.any_eq_false]
    intro a ha
    obtain ⟨j, hj⟩ := List.getElem?_of_mem ha
    obtain ⟨-, -, -, -, -, -, hanswer⟩ := answered_row h0 h hb hj
    rcases hanswer with ⟨response, rfl⟩ | ⟨e, rfl⟩
    · exact Bool.false_ne_true
    · exact Bool.false_ne_true
  obtain ⟨d, hadmitted⟩ := h.admitted hb
  obtain ⟨-, -, hcalls⟩ := admits_ok hadmitted
  unfold Batcher.upcoming
  rw [if_pos ⟨hready, hstops⟩, hready, hcalls, List.getElem?_map, hrow]
  rfl

theorem reported : Reported s b := by
  have hget := results_getElem? h0 h hb
  have hle := answers_le h0 h hb
  have hid : ∀ j : Nat, ((results b)[j]?).map RowResult.clientTransactionId =
      ((b.request.transactions.take b.answers.length)[j]?).map
        SyncTransactionInput.clientTransactionId := by
    intro j
    rw [hget j, List.getElem?_take]
    split
    · rename_i hj
      have ha := List.getElem?_eq_getElem hj
      obtain ⟨row, -, hrow, -, -, -, hanswer⟩ := answered_row h0 h hb ha
      have hzip : (b.request.transactions.zip b.answers)[j]? = some (row, b.answers[j]) :=
        List.getElem?_zip_eq_some.mpr ⟨hrow, ha⟩
      rw [hzip, hrow]
      rcases hanswer with ⟨response, hresponse⟩ | ⟨e, he⟩
      · rw [hresponse]
        rfl
      · rw [he]
        rfl
    · rename_i hj
      have hnone : (b.request.transactions.zip b.answers)[j]? = none := by
        apply List.getElem?_eq_none
        rw [List.length_zip]
        omega
      rw [hnone]
      rfl
  have horder : (results b).map RowResult.clientTransactionId =
      (b.request.transactions.take b.answers.length).map
        SyncTransactionInput.clientTransactionId := by
    apply List.ext_getElem?
    intro j
    rw [List.getElem?_map, List.getElem?_map]
    exact hid j
  have hlength : (results b).length = b.answers.length := by
    have hmap := congrArg List.length horder
    rw [List.length_map, List.length_map, List.length_take] at hmap
    omega
  refine ⟨horder, hlength, ?_, fun hready _ => upcoming_of_ready h0 h hb hready,
    fun j row hrow hj => ?_⟩
  · have hcount : (results b).countP RowResult.isSynced ≤ (results b).length :=
      List.countP_le_length
    show (results b).length = (results b).countP _ + ((results b).length - (results b).countP _)
    omega
  · have ha := List.getElem?_eq_getElem hj
    obtain ⟨row', i, hrow', hi, hcalls, -, hanswer⟩ := answered_row h0 h hb ha
    obtain rfl := Option.some.inj (hrow'.symm.trans hrow)
    obtain ⟨i', c, hi', -, hcalls', hok, herror⟩ := h.heard hb ha
    obtain rfl := Option.some.inj (hi'.symm.trans hi)
    obtain ⟨hc, -⟩ := Prod.mk.inj (Option.some.inj (hcalls'.symm.trans hcalls))
    have hzip : (b.request.transactions.zip b.answers)[j]? = some (row', b.answers[j]) :=
      List.getElem?_zip_eq_some.mpr ⟨hrow', ha⟩
    have hx : (results b)[j]? = rowResult row' b.answers[j] := by
      rw [hget j, hzip]
      rfl
    rcases hanswer with ⟨response, hresponse⟩ | ⟨y, hy⟩
    · rw [hresponse] at hx hcalls hok
      refine ⟨i', _, .synced row'.clientTransactionId response, hi, hcalls, hx,
        fun response' => ⟨fun heq => ?_, ?_⟩, fun hfailed => by cases hfailed⟩
      · obtain ⟨e, he, hpid, -, hresult⟩ := (hok (.sale response)).mp rfl
        cases heq
        exact ⟨e, he, hpid, hresult⟩
      · rintro ⟨e, he, hpid, hresult⟩
        have howner := (h.sys.recorded.committed e he)
        have hcall : e.call = c := by
          have hget' : s.sys.calls[e.pid]? = some (e.call, .done (.ok e.result)) := howner
          rw [hpid, hcalls'] at hget'
          exact (Prod.mk.inj (Option.some.inj hget')).1.symm
        have heq := (hok (.sale response')).mpr ⟨e, he, hpid, hcall, hresult⟩
        cases heq
        rfl
    · rw [hy] at hx hcalls
      refine ⟨i', _, .failed row'.clientTransactionId (errorResponse y), hi, hcalls, hx,
        fun response' => ⟨fun heq => ?_, ?_⟩, fun _ => herror _ hy⟩
      · cases heq
      · rintro ⟨e, he, hpid, -⟩
        exact absurd hpid (herror _ hy e he)

end Reported

end Kasir.Sync
