/-
  Kasir.Bootstrap.Once

  Bootstrap fills an empty database, once.

  Alone on an empty database a call commits as long as its values fit the columns.  The
  checks of the service and the columns agree except on the owner's name.  However many
  calls run, the Serializable level lets one commit at most: in a serial order the
  second one counts the rows of the first.
-/

import Kasir.Bootstrap.Service

namespace Kasir.Bootstrap

open Txn Js

-- ============================================================================
-- What a bootstrap leaves
-- ============================================================================

/-- No rows are counted. -/
def Db.empty (db : Db) : Prop := db.tenants = [] ∧ db.outlets = [] ∧ db.users = []

/-- The hashes are hashes of the inputs, as `bcrypt.compare` tells, and text. -/
structure Call.Hashed (compare : String → String → Bool) (c : Call) : Prop where
  password : compare c.inputs.ownerPassword c.passwordHash = true
  pin : compare c.inputs.ownerPin c.pinHash = true
  passwordText : storable c.passwordHash = true
  pinText : storable c.pinHash = true

/-- An address, which the empty string leaves out. -/
def addressOf (input : Option String) : Option String := input.filter fun address => address ≠ ""

/-- There are one tenant, one outlet of it and one owner of it, with the values of the
    input, all within the limits of their columns. -/
structure Bootstrapped (c : Call) (r : BootstrapResult) (db : Db) : Prop where
  tenants : db.tenants =
    [{ id := r.tenantId, storeCode := some c.inputs.storeCode, name := c.inputs.tenantName
       address := addressOf c.inputs.tenantAddress, isActive := true }]
  outlets : db.outlets =
    [{ id := r.outletId, tenantId := r.tenantId, name := c.inputs.outletName
       address := addressOf c.inputs.outletAddress, isActive := true }]
  users : db.users =
    [{ id := r.ownerId, tenantId := r.tenantId, outletId := none, name := c.inputs.ownerName
       email := c.inputs.ownerEmail, passwordHash := c.passwordHash, pinHash := some c.pinHash
       role := .owner, pinFailedAttempts := 0, lockedUntil := none, pinChangedAt := some c.now
       isActive := true }]
  columns : (∀ t ∈ db.tenants, t.fits = true) ∧ (∀ o ∈ db.outlets, o.fits = true) ∧
    ∀ u ∈ db.users, u.fits = true
  result : r.storeCode = c.inputs.storeCode ∧ r.ownerEmail = c.inputs.ownerEmail

/-- The owner's name is no longer than its column is wide, and there is no NUL character
    in what is stored as it is. -/
def BootstrapInputs.fitting (inputs : BootstrapInputs) : Bool :=
  inputs.ownerName.length ≤ 100 &&
    [inputs.tenantName, inputs.outletName, inputs.ownerName, inputs.ownerEmail].all storable &&
    (addressOf inputs.tenantAddress).all storable && (addressOf inputs.outletAddress).all storable

-- ============================================================================
-- The checks of the service
-- ============================================================================

theorem check_ok {ok : Bool} {text : String} : check ok text = .ok () ↔ ok = true := by
  unfold check
  cases ok <;> simp

/-- What the checks say about the values that are stored. -/
structure Accepted (inputs : BootstrapInputs) : Prop where
  storeCode : storeCodeFormat inputs.storeCode = true
  tenantName : utf16Length inputs.tenantName ≤ 100
  outletName : utf16Length inputs.outletName ≤ 100
  ownerEmail : utf16Length inputs.ownerEmail ≤ 255

theorem accepted {inputs : BootstrapInputs} (h : validateInputs inputs = .ok ()) :
    Accepted inputs := by
  simp only [validateInputs, Checked.then_ok, check_ok, decide_eq_true_eq] at h
  obtain ⟨hcode, -, htenant, -, houtlet, -, -, -, hemail, -⟩ := h
  exact ⟨hcode, htenant, houtlet, hemail⟩

/-- A store code has no NUL character: it is made of other characters. -/
theorem storable_of_storeCodeFormat {s : String} (h : storeCodeFormat s = true) :
    storable s = true := by
  simp only [storeCodeFormat, Bool.and_eq_true, List.all_eq_true, Bool.or_eq_true, beq_iff_eq] at h
  simp only [storable, Bool.not_eq_true', List.contains_eq_mem, decide_eq_false_iff_not]
  intro hmem
  have hbad := h.1.1 _ hmem
  revert hbad
  decide

theorem varchar_iff {n : Nat} {s : String} :
    varchar n s = true ↔ storable s = true ∧ s.length ≤ n := by
  simp [varchar]

section Rows

variable {c : Call} {compare : String → String → Bool}

/-- The columns refuse nothing the checks let in, apart from NUL characters. -/
theorem newTenant_fits (h : Accepted c.inputs) (id : Id) :
    (newTenant c.inputs id).fits = true ↔
      storable c.inputs.tenantName = true ∧ (addressOf c.inputs.tenantAddress).all storable = true := by
  have hcode := h.storeCode
  have hwidth : c.inputs.storeCode.length ≤ 32 := by
    simp only [storeCodeFormat, Bool.and_eq_true, decide_eq_true_eq] at hcode
    exact hcode.2
  have hname : c.inputs.tenantName.length ≤ 100 :=
    (length_le_utf16Length _).trans h.tenantName
  simp [Tenant.fits, newTenant, addressOf, varchar_iff, storable_of_storeCodeFormat hcode, hwidth,
    hcode, hname]

theorem newOutlet_fits (h : Accepted c.inputs) (tenantId id : Id) :
    (newOutlet c.inputs tenantId id).fits = true ↔
      storable c.inputs.outletName = true ∧ (addressOf c.inputs.outletAddress).all storable = true := by
  have hname : c.inputs.outletName.length ≤ 100 :=
    (length_le_utf16Length _).trans h.outletName
  simp [Outlet.fits, newOutlet, addressOf, varchar_iff, hname]

/-- The owner's name is checked against 150 code units and stored in 100 characters. -/
theorem newOwner_fits (h : Accepted c.inputs) (hhash : c.Hashed compare) (tenantId id : Id) :
    (newOwner c tenantId id).fits = true ↔
      (storable c.inputs.ownerName = true ∧ c.inputs.ownerName.length ≤ 100) ∧
        storable c.inputs.ownerEmail = true := by
  have hemail : c.inputs.ownerEmail.length ≤ 255 :=
    (length_le_utf16Length _).trans h.ownerEmail
  simp [User.fits, newOwner, varchar_iff, hemail, hhash.passwordText, hhash.pinText]

theorem fitting_iff (h : Accepted c.inputs) (hhash : c.Hashed compare) (tenantId outletId ownerId : Id) :
    c.inputs.fitting = true ↔ (newTenant c.inputs tenantId).fits = true ∧
      (newOutlet c.inputs tenantId outletId).fits = true ∧
      (newOwner c tenantId ownerId).fits = true := by
  rw [newTenant_fits h, newOutlet_fits h, newOwner_fits h hhash]
  simp only [BootstrapInputs.fitting, List.all_cons, List.all_nil, Bool.and_true, Bool.and_eq_true,
    decide_eq_true_eq]
  tauto

end Rows

-- ============================================================================
-- A call alone
-- ============================================================================

section Alone

variable {c : Call} {db db' : Db} {envs : Nat → Env} {r : BootstrapResult}

@[simp] theorem newTenant_id (inputs : BootstrapInputs) (id : Id) :
    (newTenant inputs id).id = id := rfl

theorem solo_create {ρ : Type} (fits : ρ → Bool) (add : ρ → Db → Db) (row : Id → ρ) (n : Nat)
    (log : Db → Db) :
    (create fits add row).solo db envs n log =
      if fits (row (envs n).fresh) then
        ⟨n + 1, add (row (envs n).fresh) ∘ log, .ok (row (envs n).fresh)⟩
      else ⟨n + 1, log, .error .prisma⟩ := by
  unfold create
  simp only [Prog.solo]
  split <;> rfl

/-- Where there are rows the call is refused. -/
theorem solo_bootstrap_used (hdb : ¬ db.empty) :
    ∃ n log, (bootstrap c).solo db envs 0 id = ⟨n, log, .error refused⟩ := by
  have hcount : (decide (db.tenants.length > 0) || decide (db.users.length > 0) ||
      decide (db.outlets.length > 0)) = true := by
    simp only [Db.empty, not_and_or] at hdb
    simp only [gt_iff_lt, List.length_pos_iff, Bool.or_eq_true, decide_eq_true_eq]
    tauto
  unfold bootstrap
  simp only [Prog.solo_bind, Prog.solo_read, id_eq, hcount, if_true, Prog.solo_throw]
  exact ⟨_, _, rfl⟩

/-- The rows a call inserts into an empty database; the first three statements count. -/
def insertedTenant (c : Call) (envs : Nat → Env) : Tenant := newTenant c.inputs (envs 3).fresh

def insertedOutlet (c : Call) (envs : Nat → Env) : Outlet :=
  newOutlet c.inputs (envs 3).fresh (envs 4).fresh

def insertedOwner (c : Call) (envs : Nat → Env) : User := newOwner c (envs 3).fresh (envs 5).fresh

def insertedRows (c : Call) (envs : Nat → Env) : Db where
  tenants := [insertedTenant c envs]
  outlets := [insertedOutlet c envs]
  users := [insertedOwner c envs]

def resultOf (c : Call) (envs : Nat → Env) : BootstrapResult where
  tenantId := (envs 3).fresh
  storeCode := c.inputs.storeCode
  outletId := (envs 4).fresh
  ownerId := (envs 5).fresh
  ownerEmail := c.inputs.ownerEmail

/-- The columns hold the rows. -/
def RowsFit (c : Call) (envs : Nat → Env) : Prop :=
  (insertedTenant c envs).fits = true ∧ (insertedOutlet c envs).fits = true ∧
    (insertedOwner c envs).fits = true

/-- The counts of an empty database let the call go on to its inserts. -/
theorem solo_bootstrap_empty (hdb : db.empty) :
    (bootstrap c).solo db envs 0 id =
      (do let tenant ← create Tenant.fits Db.addTenant (newTenant c.inputs)
          let outlet ← create Outlet.fits Db.addOutlet (newOutlet c.inputs tenant.id)
          let owner ← create User.fits Db.addUser (newOwner c tenant.id)
          pure
            { tenantId := tenant.id
              storeCode := tenant.storeCode.getD c.inputs.storeCode
              outletId := outlet.id
              ownerId := owner.id
              ownerEmail := owner.email } : Body BootstrapResult).solo db envs 3 id := by
  obtain ⟨htenants, houtlets, husers⟩ := hdb
  unfold bootstrap
  rw [Prog.solo_bind]
  simp only [Prog.solo_bind, Prog.solo_read, id_eq, htenants, houtlets, husers, List.length_nil,
    gt_iff_lt, Nat.lt_irrefl, decide_false, Bool.or_false, Bool.false_eq_true, if_false]

/-- The rows are inserted, if the columns hold them. -/
theorem solo_bootstrap_fits (hdb : db.empty) (hfit : RowsFit c envs) :
    ∃ n log, (bootstrap c).solo db envs 0 id = ⟨n, log, .ok (resultOf c envs)⟩ ∧
      log db = insertedRows c envs := by
  obtain ⟨htenant, houtlet, howner⟩ := hfit
  unfold insertedTenant at htenant
  unfold insertedOutlet at houtlet
  unfold insertedOwner at howner
  rw [solo_bootstrap_empty hdb]
  simp only [Prog.solo_bind, solo_create, htenant, if_true, newTenant_id, Nat.reduceAdd]
  rw [if_pos houtlet]
  simp only [Nat.reduceAdd]
  rw [if_pos howner]
  refine ⟨_, _, rfl, ?_⟩
  obtain ⟨htenants, houtlets, husers⟩ := hdb
  simp [Db.addTenant, Db.addOutlet, Db.addUser, htenants, houtlets, husers, insertedRows,
    insertedTenant, insertedOutlet, insertedOwner, newTenant]

/-- The first insert that the columns refuse ends the call. -/
theorem solo_bootstrap_unfit (hdb : db.empty) (hfit : ¬ RowsFit c envs) :
    ∃ n log, (bootstrap c).solo db envs 0 id = ⟨n, log, .error .prisma⟩ := by
  rw [solo_bootstrap_empty hdb]
  simp only [Prog.solo_bind, solo_create, Nat.reduceAdd]
  rcases Bool.eq_false_or_eq_true (newTenant c.inputs (envs 3).fresh).fits with htenant | htenant
  · simp only [htenant, if_true, newTenant_id, Nat.reduceAdd]
    rcases Bool.eq_false_or_eq_true (newOutlet c.inputs (envs 3).fresh (envs 4).fresh).fits with
      houtlet | houtlet
    · simp only [houtlet, if_true, Nat.reduceAdd]
      have howner : (newOwner c (envs 3).fresh (envs 5).fresh).fits = false :=
        Bool.eq_false_iff.mpr fun howner => hfit ⟨htenant, houtlet, howner⟩
      simp only [howner, Bool.false_eq_true, if_false]
      exact ⟨_, _, rfl⟩
    · simp only [houtlet, Bool.false_eq_true, if_false]
      exact ⟨_, _, rfl⟩
  · simp only [htenant, Bool.false_eq_true, if_false]
    exact ⟨_, _, rfl⟩

theorem precheck_none (h : validateInputs c.inputs = .ok ()) : application.precheck c = none := by
  simp only [application, h]

theorem legal_insertedRows : (insertedRows c envs).legal = true := by
  simp [Db.legal, distinct, insertedRows, insertedTenant, insertedOutlet, insertedOwner, newTenant,
    newOutlet, newOwner]

/-- **A call that succeeds alone** has found the database empty and has filled it. -/
theorem alone_succeeds (h : application.alone c db envs = some (.ok r, db')) :
    db.empty ∧ RowsFit c envs ∧ r = resultOf c envs ∧ db' = insertedRows c envs := by
  unfold App.alone at h
  cases hpre : application.precheck c with
  | some e =>
      rw [hpre] at h
      cases h
  | none =>
      rw [hpre] at h
      by_cases hdb : db.empty
      · by_cases hfit : RowsFit c envs
        · obtain ⟨n, log, hsolo, hlog⟩ := solo_bootstrap_fits hdb hfit
          have hsolo' : (application.body c).solo db envs 0 id = ⟨n, log, .ok (resultOf c envs)⟩ :=
            hsolo
          simp only [hsolo', hlog] at h
          split at h
          · cases h
            exact ⟨hdb, hfit, rfl, rfl⟩
          · cases h
        · obtain ⟨n, log, hsolo⟩ := solo_bootstrap_unfit hdb hfit
          have hsolo' : (application.body c).solo db envs 0 id = ⟨n, log, .error .prisma⟩ := hsolo
          simp only [hsolo', Option.map_eq_some_iff] at h
          obtain ⟨e, -, he⟩ := h
          cases he
      · obtain ⟨n, log, hsolo⟩ := @solo_bootstrap_used c db envs hdb
        have hsolo' : (application.body c).solo db envs 0 id = ⟨n, log, .error refused⟩ := hsolo
        simp only [hsolo', Option.map_eq_some_iff] at h
        obtain ⟨e, -, he⟩ := h
        cases he

/-- On an empty database it does succeed, if the columns hold the rows. -/
theorem alone_of_fits (hvalid : validateInputs c.inputs = .ok ()) (hdb : db.empty)
    (hfit : RowsFit c envs) :
    application.alone c db envs = some (.ok (resultOf c envs), insertedRows c envs) := by
  obtain ⟨n, log, hsolo, hlog⟩ := solo_bootstrap_fits hdb hfit
  have hsolo' : (application.body c).solo db envs 0 id = ⟨n, log, .ok (resultOf c envs)⟩ := hsolo
  have hlegal : application.legal (insertedRows c envs) = true := legal_insertedRows
  unfold App.alone
  simp only [precheck_none hvalid, hsolo', hlog, hlegal, if_true]

/-- The rows are those of the input. -/
theorem bootstrapped (hfit : RowsFit c envs) :
    Bootstrapped c (resultOf c envs) (insertedRows c envs) := by
  obtain ⟨htenant, houtlet, howner⟩ := hfit
  refine ⟨rfl, rfl, rfl, ⟨?_, ?_, ?_⟩, rfl, rfl⟩
  · intro t ht
    rw [List.mem_singleton.mp ht]
    exact htenant
  · intro o ho
    rw [List.mem_singleton.mp ho]
    exact houtlet
  · intro u hu
    rw [List.mem_singleton.mp hu]
    exact howner

end Alone

-- ============================================================================
-- Bootstrap
-- ============================================================================

/-- In a run at most one call is answered with success, and only that call changes the
    database: an empty one, which it fills. -/
structure RunsOnce (db0 : Db) (σ : State) : Prop where
  once : ∀ i j c d r s, σ.Answered i c r → σ.Answered j d s → i = j
  filled : ∀ i c r, σ.Answered i c r → db0.empty ∧ Bootstrapped c r σ.db
  unchanged : (∀ i c r, ¬ σ.Answered i c r) → σ.db = db0

theorem runs_once {db0 : Db} {σ : State}
    (hrun : application.Run (application.serialized db0) db0 σ) : RunsOnce db0 σ := by
  -- whoever succeeds alone has counted no rows, and leaves some
  have hused : ∀ c db envs r db', application.alone c db envs = some (.ok r, db') →
      ¬ (¬ db.empty) ∧ ¬ db'.empty := by
    intro c db envs r db' h
    obtain ⟨hdb, -, -, rfl⟩ := alone_succeeds h
    exact ⟨fun hno => hno hdb, fun hempty => nomatch hempty.1⟩
  have hserial := hrun.serializable
  have hrecorded := hrun.recorded
  obtain ⟨hlength, -⟩ := hserial.length_le_one hused
  constructor
  case once =>
    intro i j c d r s hi hj
    obtain ⟨e, he, rfl, -⟩ := hrecorded.answered i c r hi
    obtain ⟨f, hf, rfl, -⟩ := hrecorded.answered j d s hj
    rcases hhistory : σ.history with _ | ⟨g, _ | ⟨g', rest⟩⟩
    · rw [hhistory] at he
      cases he
    · rw [hhistory] at he hf
      rw [List.mem_singleton.mp he, List.mem_singleton.mp hf]
    · rw [hhistory] at hlength
      simp at hlength
  case filled =>
    intro i c r hi
    obtain ⟨e, he, -, rfl, rfl⟩ := hrecorded.answered i c r hi
    obtain ⟨order, hperm, horder⟩ := hserial
    -- the one commit is the serial order
    have hmem := hperm.mem_iff.mpr he
    have hone : order.length ≤ 1 := hperm.length_eq ▸ hlength
    rcases order with _ | ⟨g, _ | ⟨g', rest⟩⟩
    · cases hmem
    · obtain rfl := List.mem_singleton.mp hmem
      obtain ⟨envs, db1, halone, hdb⟩ := horder
      obtain ⟨hempty, hfit, hr, hrows⟩ := alone_succeeds halone
      refine ⟨hempty, ?_⟩
      rw [← show db1 = σ.db from hdb, hr, hrows]
      exact bootstrapped hfit
    · simp at hone
  case unchanged =>
    intro hno
    rcases hhistory : σ.history with _ | ⟨e, rest⟩
    · have hchain := hrecorded.chain
      rw [hhistory] at hchain
      exact hchain.symm
    · exact absurd (hrecorded.committed e (by rw [hhistory]; exact List.mem_cons_self ..)) (hno _ _ _)

/-- What bootstrap promises: on an empty database it is total where the values fit, and
    it runs once. -/
structure BootstrapLaw (compare : String → String → Bool) : Prop where
  total : ∀ (c : Call) (envs : Nat → Env), validateInputs c.inputs = .ok () → c.Hashed compare →
    ((∃ r db, application.alone c {} envs = some (.ok r, db) ∧ Bootstrapped c r db) ↔
      c.inputs.fitting = true)
  once : ∀ (db0 : Db) (σ : State), application.Run (application.serialized db0) db0 σ →
    RunsOnce db0 σ

theorem empty_init : Db.empty {} := ⟨rfl, rfl, rfl⟩

/-- **Bootstrap is total on values that fit, and runs once.** -/
theorem bootstrap_law (compare : String → String → Bool) : BootstrapLaw compare := by
  constructor
  case total =>
    intro c envs hvalid hhash
    have hfits : c.inputs.fitting = true ↔ RowsFit c envs :=
      fitting_iff (accepted hvalid) hhash (envs 3).fresh (envs 4).fresh (envs 5).fresh
    rw [hfits]
    constructor
    · rintro ⟨r, db, halone, -⟩
      exact (alone_succeeds halone).2.1
    · intro hfit
      exact ⟨_, _, alone_of_fits hvalid empty_init hfit, bootstrapped hfit⟩
  case once => exact fun _ _ hrun => runs_once hrun

namespace Shop

def inputs : BootstrapInputs where
  storeCode := "KASIR-01"
  tenantName := "Toko"
  outletName := "Pusat"
  ownerName := "Ibu Sari"
  ownerEmail := "sari@toko.id"
  ownerPassword := "rahasia"
  ownerPin := "123456"

/-- An owner's name of 101 letters. -/
def longName : BootstrapInputs :=
  { inputs with ownerName := String.ofList (List.replicate 101 'a') }

/-- The hashes are the texts themselves. -/
def call (inputs : BootstrapInputs) : Call where
  inputs := inputs
  passwordHash := inputs.ownerPassword
  pinHash := inputs.ownerPin
  now := 0

def env (k : Nat) : Env := { fresh := String.ofList [Char.ofNat (65 + k)] }

/-- A second shop. -/
def others : BootstrapInputs := { inputs with storeCode := "KASIR-02" }

/-- The call `i` sends its six statements. -/
def stmts (i : Nat) : List (Label Env Error Call) :=
  (List.range 6).map fun k => .stmt i (env (6 * i + k))

/-- Two calls count before either commits, the database breaks the second one off, and
    a third one counts the rows of the first. -/
def race : List (Label Env Error Call) :=
  [.call (call inputs), .call (call others)] ++ stmts 0 ++ stmts 1 ++
    [.commit 0, .fault 1 .prisma, .call (call others)] ++ (stmts 2).take 3 ++ [.abort 2]

/-- The answers so far. -/
def answers (σ : State) : List (Option (Except Error BootstrapResult)) :=
  σ.calls.map fun x =>
    match x.2 with
    | .done a => some a
    | .active _ _ => none

/-- One call succeeds, and what is committed is what that call does alone. -/
def raced (σ : State) : Bool :=
  decide (answers σ = [some (.ok (resultOf (call inputs) env)), some (.error .prisma),
    some (.error refused)]) &&
    σ.history.all fun e =>
      decide (application.alone e.call e.before env = some (.ok e.result, e.after))

end Shop

theorem bootstrap_law_shop :
    (∃ r db, application.alone (Shop.call Shop.inputs) {} Shop.env = some (.ok r, db) ∧
      Bootstrapped (Shop.call Shop.inputs) r db) ∧
    ∃ σ r, application.Run (application.serialized {}) {} σ ∧
      Shop.answers σ = [some (.ok r), some (.error .prisma), some (.error refused)] ∧
      RunsOnce {} σ := by
  have hvalid : validateInputs Shop.inputs = .ok () := by decide +kernel
  have hhash : (Shop.call Shop.inputs).Hashed (· == ·) :=
    ⟨by decide +kernel, by decide +kernel, by decide +kernel, by decide +kernel⟩
  have hrace : (application.replay (Sys.init {}) Shop.race).any Shop.raced = true := by
    decide +kernel
  obtain ⟨σ, hreplay, hraced⟩ := (Option.any_eq_true ..).mp hrace
  simp only [Shop.raced, Bool.and_eq_true, decide_eq_true_eq, List.all_eq_true] at hraced
  obtain ⟨hanswers, halone⟩ := hraced
  have hrun : application.Run (fun _ _ => True) {} σ := .of_replay (fun _ _ => trivial) .init hreplay
  have hserial := hrun.serialized fun e he => ⟨Shop.env, halone e he⟩
  exact ⟨((bootstrap_law (· == ·)).total (Shop.call Shop.inputs) Shop.env hvalid hhash).mpr
    (by decide +kernel), σ, _, hserial, hanswers, (bootstrap_law (· == ·)).once {} σ hserial⟩

/-- An owner's name of 101 letters passes the checks and fits no row. -/
theorem long_owner_name :
    ∃ c : Call, validateInputs c.inputs = .ok () ∧ c.Hashed (· == ·) ∧
      ∀ envs r db, application.alone c {} envs ≠ some (.ok r, db) := by
  have hvalid : validateInputs (Shop.call Shop.longName).inputs = .ok () := by decide +kernel
  have hhash : (Shop.call Shop.longName).Hashed (· == ·) :=
    ⟨by decide +kernel, by decide +kernel, by decide +kernel, by decide +kernel⟩
  have hlong : (Shop.call Shop.longName).inputs.fitting = false := by decide +kernel
  refine ⟨Shop.call Shop.longName, hvalid, hhash, fun envs r db halone => ?_⟩
  obtain ⟨-, hfit, -⟩ := alone_succeeds halone
  have hfitting := (fitting_iff (accepted hvalid) hhash (envs 3).fresh (envs 4).fresh
    (envs 5).fresh).mpr hfit
  rw [hlong] at hfitting
  cases hfitting

/-- Snapshots alone let two calls through: each counts before the other commits. -/
example :
    ((application.replay (Sys.init {})
      ([.call (Shop.call Shop.inputs), .call (Shop.call Shop.others)] ++ Shop.stmts 0 ++
        Shop.stmts 1 ++ [.commit 0, .commit 1])).map fun σ => σ.db.tenants.length) = some 2 := by
  decide +kernel

end Kasir.Bootstrap
