/-
  Kasir.Owners

  An identifier never changes hands.

  Held orders and sessions stay, with what was fixed when they were created; options stay
  with their tenants, since no operation on the catalog deletes one or changes whose it is.
  So the last state of a run tells the owners of all identifiers that were ever there.
  Outlets are left to the administration, of which this has to be assumed.
-/

import Kasir.Tenants
import Kasir.Runs
import Kasir.Frames

namespace Kasir

open Txn Js CatalogServices

-- ============================================================================
-- Options stay
-- ============================================================================

/-- Options stay, with their tenants. -/
def OptionsStay (a b : Catalog) : Prop :=
  ∀ o ∈ a.modifierOptions, ∃ o' ∈ b.modifierOptions, o'.id = o.id ∧ o'.tenantId = o.tenantId

theorem OptionsStay.of_eq {a b : Catalog} (h : b.modifierOptions = a.modifierOptions) :
    OptionsStay a b := fun o ho => ⟨o, h ▸ ho, rfl, rfl⟩

theorem OptionsStay.trans {a b c : Catalog} (h : OptionsStay a b) (h' : OptionsStay b c) :
    OptionsStay a c := by
  intro o ho
  obtain ⟨o1, ho1, hid1, htenant1⟩ := h o ho
  obtain ⟨o2, ho2, hid2, htenant2⟩ := h' o1 ho1
  exact ⟨o2, ho2, hid2.trans hid1, htenant2.trans htenant1⟩

/-- Nothing the body writes takes an option away. -/
abbrev KeepsOptions {α : Type} (p : Body α) : Prop :=
  Prog.Within id (fun d d' => OptionsStay d.catalog d'.catalog) (fun _ => True) (fun _ => True) p p

section Bodies

variable {α : Type} {tenantId : Id}

theorem keepsOptions_query {f : Db → α} : KeepsOptions (query f) :=
  Prog.Within.read (fun _ => .of_eq rfl) fun _ _ _ => rfl

theorem keepsOptions_stmt {locks : View Db Env → List Token} {f : View Db Env → Catalog → Catalog}
    {next : View Db Env → Body α} (hf : ∀ v c, OptionsStay c (f v c))
    (hnext : ∀ v, KeepsOptions (next v)) :
    KeepsOptions (Prog.stmt locks (fun v => Db.modifyCatalog (f v)) next) :=
  .stmt (fun _ _ _ => rfl) (fun v _ _ d _ => ⟨rfl, hf v d.catalog, trivial⟩) fun v _ _ => hnext v

theorem keepsOptions_insertRow {fits : Bool} {taken : Db → Bool} {index : UniqueIndex}
    {row : Env → α} {add : α → Catalog → Catalog} (h : ∀ env c, OptionsStay c (add (row env) c)) :
    KeepsOptions (insertRow fits taken index row add) := by
  apply keepsOptions_stmt (fun v => h v.env)
  intro v
  split
  · exact .throw _
  · split
    · exact .throw _
    · exact .ret _ fun _ h => h

theorem keepsOptions_updateRow {tokens : List Token} {fits : Bool} {taken : Db → Bool}
    {index : UniqueIndex} {find : Db → Option α} {f : Env → α → α}
    {change : (α → α) → Catalog → Catalog} (h : ∀ env c, OptionsStay c (change (f env) c)) :
    KeepsOptions (updateRow tokens fits taken index find f change) := by
  apply keepsOptions_stmt fun v => h v.env
  intro v
  split
  · exact .throw _
  · split
    · exact .throw _
    · split
      · exact .throw _
      · exact .ret _ fun _ h => h

theorem keepsOptions_insertAssignments {productId : Id} {dtos : List AssignmentDto}
    {answer : Env → α} :
    KeepsOptions (insertAssignments tenantId productId dtos answer) := by
  apply keepsOptions_stmt
  · intro v c
    exact .of_eq rfl
  · intro v
    dsimp only
    split
    · exact .throw _
    · split
      · exact .throw _
      · exact .ret _ fun _ h => h

theorem keepsOptions_deleteAssignments {marks : List Token} {p : ProductModifierGroup → Bool} :
    KeepsOptions (deleteAssignments marks p) := by
  apply Prog.Within.bind
  · apply Prog.Within.stmt (Q := fun _ => True)
    · intro v _ _
      rfl
    · intro v _ _ d _
      exact ⟨rfl, .of_eq rfl, trivial⟩
    · intro v _ _
      exact .ret _ fun _ h => h
  · intro found
    apply keepsOptions_stmt
    · intro v c
      exact .of_eq rfl
    · intro v
      exact .ret _ fun _ h => h

theorem keepsOptions_validateProductOwnership {productId : Id} :
    KeepsOptions (validateProductOwnership tenantId productId) :=
  keepsOptions_query.bind fun _ => .guard _ _

theorem keepsOptions_validateCategory {categoryId : Option String} :
    KeepsOptions (validateCategory tenantId categoryId) := by
  unfold validateCategory
  cases categoryId with
  | none => exact .ret _ fun _ h => h
  | some categoryId => exact keepsOptions_query.bind fun _ => .guard _ _

theorem keepsOptions_validateGroupOwnership {groupId : Id} :
    KeepsOptions (validateGroupOwnership tenantId groupId) :=
  keepsOptions_query.bind fun _ => .guard _ _

theorem keepsOptions_validateActiveGroup {groupId : Id} :
    KeepsOptions (validateActiveGroup tenantId groupId) :=
  keepsOptions_query.bind fun _ => .guard _ _

theorem keepsOptions_validateAssignment {productId groupId : Id} :
    KeepsOptions (validateAssignment tenantId productId groupId) :=
  keepsOptions_query.bind fun _ => .guard _ _

theorem keepsOptions_getModifierGroups {productId : Id} :
    KeepsOptions (getModifierGroups tenantId productId) := by
  unfold getModifierGroups
  apply keepsOptions_validateProductOwnership.bind
  intro _
  apply keepsOptions_query.bind
  intro assignments
  apply keepsOptions_query.bind
  intro groups
  apply keepsOptions_query.bind
  intro options
  exact .lift _

theorem keepsOptions_replaceModifierGroups {productId : Id}
    {dto : ReplaceProductModifierGroupsDto} :
    KeepsOptions (replaceModifierGroups tenantId productId dto) := by
  unfold replaceModifierGroups
  apply keepsOptions_validateProductOwnership.bind
  intro _
  apply Prog.Within.bind (.lift _)
  intro _
  have hreplace : KeepsOptions (do
      let _ ← deleteAssignments [.replacing tenantId productId]
        fun a => a.tenantId == tenantId && a.productId == productId
      if dto.modifierGroups.length > 0 then
        insertAssignments tenantId productId dto.modifierGroups fun _ => ()
      else pure ()) := by
    apply keepsOptions_deleteAssignments.bind
    intro _
    split
    · exact keepsOptions_insertAssignments
    · exact .ret _ fun _ h => h
  dsimp only
  split
  · apply keepsOptions_query.bind
    intro owned
    apply Prog.Within.bind (.guard _ _)
    intro _
    exact hreplace
  · exact hreplace

theorem keepsOptions_changeAssignment {productId groupId : Id} {dto : AssignmentDto} :
    KeepsOptions (changeAssignment tenantId productId groupId dto) :=
  (keepsOptions_updateRow fun _ _ => .of_eq rfl).answer assignmentAnswer

theorem keepsOptions_updateModifierGroupAssignment {productId : Id} {groupId : String}
    {dto : AssignmentDto} :
    KeepsOptions (updateModifierGroupAssignment tenantId productId groupId dto) := by
  unfold updateModifierGroupAssignment
  apply keepsOptions_validateProductOwnership.bind
  intro _
  apply Prog.Within.bind (.lift _)
  intro _
  apply keepsOptions_validateAssignment.bind
  intro _
  apply keepsOptions_validateActiveGroup.bind
  intro _
  split
  · apply keepsOptions_query.bind
    intro existing
    apply Prog.Within.bind (.guard _ _)
    intro _
    exact keepsOptions_changeAssignment
  · exact keepsOptions_changeAssignment

theorem keepsOptions_withOptions {group : ModifierGroup} :
    KeepsOptions (withOptions tenantId group) := by
  unfold withOptions
  apply Prog.Within.answer
  exact Prog.Within.read (fun _ => .of_eq rfl) fun _ _ _ => rfl

theorem keepsOptions_changeGroup {id : Id} {fits : Bool} {taken : Db → Bool}
    {f : Env → ModifierGroup → ModifierGroup} :
    KeepsOptions (changeGroup tenantId id fits taken f) := by
  unfold changeGroup
  apply keepsOptions_validateGroupOwnership.bind
  intro _
  refine Prog.Within.bind ?_ fun group => keepsOptions_withOptions
  exact keepsOptions_updateRow fun _ _ => .of_eq rfl

theorem keepsOptions_changeOption {groupId optionId : Id} {fits : Bool} {taken : Db → Bool}
    {f : Env → ModifierOption → ModifierOption} (hid : ∀ env o, (f env o).id = o.id)
    (htenant : ∀ env o, (f env o).tenantId = o.tenantId) :
    KeepsOptions (changeOption tenantId groupId optionId fits taken f) := by
  unfold changeOption
  apply keepsOptions_query.bind
  intro option
  apply Prog.Within.bind (.guard _ _)
  intro _
  apply keepsOptions_updateRow
  intro env c o ho
  refine ⟨_, List.mem_map_of_mem ho, ?_⟩
  split
  · exact ⟨hid env o, htenant env o⟩
  · exact ⟨rfl, rfl⟩

/-- No operation on the catalog takes an option away. -/
theorem keepsOptions_catalogBody {user : JwtPayload} {op : CatalogOp} :
    KeepsOptions (catalogBody user op) := by
  unfold catalogBody
  cases op with
  | createProduct dto =>
      apply Prog.Within.answer
      unfold createProduct
      apply keepsOptions_validateCategory.bind
      intro _
      split
      · exact keepsOptions_insertRow fun _ _ => .of_eq rfl
      · exact .throw _
  | updateProduct id dto =>
      apply Prog.Within.answer
      unfold updateProduct
      apply keepsOptions_validateProductOwnership.bind
      intro _
      apply keepsOptions_validateCategory.bind
      intro _
      apply Prog.Within.bind (.guard _ _)
      intro _
      split
      · exact keepsOptions_updateRow fun _ _ => .of_eq rfl
      · exact .throw _
  | getModifierGroups productId => exact keepsOptions_getModifierGroups.answer _
  | replaceModifierGroups productId dto => exact keepsOptions_replaceModifierGroups.answer _
  | assignModifierGroup productId dto =>
      apply Prog.Within.answer
      unfold assignModifierGroup
      apply keepsOptions_validateProductOwnership.bind
      intro _
      apply Prog.Within.bind (.lift _)
      intro _
      apply keepsOptions_validateActiveGroup.bind
      intro _
      exact keepsOptions_insertAssignments
  | updateModifierGroupAssignment productId groupId dto =>
      exact keepsOptions_updateModifierGroupAssignment.answer _
  | removeModifierGroup productId groupId =>
      apply Prog.Within.answer
      unfold removeModifierGroup
      apply keepsOptions_validateProductOwnership.bind
      intro _
      apply keepsOptions_validateAssignment.bind
      intro _
      apply keepsOptions_deleteAssignments.bind
      intro deleted
      exact .require _ _
  | createGroup dto =>
      apply Prog.Within.answer
      unfold createGroup
      refine Prog.Within.bind ?_ fun group => keepsOptions_withOptions
      exact keepsOptions_insertRow fun _ _ => .of_eq rfl
  | updateGroup id dto => exact keepsOptions_changeGroup.answer _
  | removeGroup id =>
      apply Prog.Within.answer
      unfold removeGroup
      exact keepsOptions_changeGroup
  | createOption groupId dto =>
      apply Prog.Within.answer
      unfold createOption
      apply keepsOptions_validateGroupOwnership.bind
      intro _
      split
      · exact keepsOptions_insertRow fun _ _ o ho =>
          ⟨o, List.mem_append_left _ ho, rfl, rfl⟩
      · exact .throw _
  | updateOption groupId optionId dto =>
      apply Prog.Within.answer
      unfold updateOption
      split
      · exact keepsOptions_changeOption (fun _ _ => rfl) fun _ _ => rfl
      · exact .throw _
  | removeOption groupId optionId =>
      apply Prog.Within.answer
      unfold removeOption
      exact keepsOptions_changeOption (fun _ _ => rfl) fun _ _ => rfl

end Bodies

-- ============================================================================
-- Owners in a run
-- ============================================================================

/-- Only operations on the catalog change it. -/
theorem Effect.catalog_eq {R : Token → Prop} {c : Call} {r : Result} {seen : List Db} {a b : Db}
    (h : Effect R c r seen a b) : b.catalog = a.catalog ∨ ∃ user op, c = .catalog user op := by
  cases h with
  | edited h => exact Or.inr ⟨_, _, rfl⟩
  | _ => exact Or.inl rfl

section Runs

variable {db0 : Db} {σ : State} (h0 : Wf db0) (hrun : kasir.Reach db0 σ)
include h0 hrun

/-- Every commit keeps the options. -/
theorem options_stay : ∀ e ∈ σ.history, OptionsStay e.before.catalog e.after.catalog := by
  have hcatalog := (hrun.commits_apart (J := fun _ => True)
    (A := fun _ d d' => OptionsStay d.catalog d'.catalog)
    (S := fun c => ∃ user op, c = Call.catalog user op) (fun _ _ => .of_eq rfl)
    (fun _ _ _ _ => OptionsStay.trans) trivial (fun _ _ => trivial) ?_).2
  · intro e he
    have hpost : Effect noMarks e.call e.result e.seen e.before e.after :=
      ((reach_sound h0 hrun).commits e he).post
    rcases hpost.catalog_eq with heq | hop
    · rw [heq]
      exact .of_eq rfl
    · exact hcatalog e he hop
  · rintro c ⟨user, op, rfl⟩
    exact ⟨id, fun _ => True, _,
      keepsOptions_catalogBody.bind fun _ => .ret _ fun _ h => h⟩

end Runs

/-- Whose an identifier is, by a table. -/
def ownerIn {ρ : Type} (id owner : ρ → Id) (rows : List ρ) (x : Id) : Id :=
  ((rows.find? fun r => id r == x).map owner).getD ""

theorem ownerIn_eq {ρ : Type} {id owner : ρ → Id} {rows : List ρ} (h : (rows.map id).Nodup) {r : ρ}
    (hr : r ∈ rows) : ownerIn id owner rows (id r) = owner r := by
  obtain ⟨x, hx, hmem, hid⟩ := find?_of_mem (p := fun x => id x == id r) hr (beq_self_eq_true _)
  have hxr : x = r := eq_of_key h hmem hr (beq_iff_eq.mp hid)
  unfold ownerIn
  rw [hx, hxr]
  rfl

/-- Whose the identifiers of a state are. -/
def ownersAt (outlet : Id → Id) (db : Db) : Owners where
  outlet := outlet
  option := ownerIn ModifierOption.id ModifierOption.tenantId db.catalog.modifierOptions
  order := ownerIn HeldOrder.id HeldOrder.tenantId db.held.heldOrders
  session := ownerIn CashierSession.id CashierSession.tenantId db.cashierSessions

/-- No outlet is anybody else's. -/
def OutletsOf (outlet : Id → Id) (db : Db) : Prop :=
  ∀ o ∈ db.accounts.outlets, outlet o.id = o.tenantId

/-- The last state of a run tells the owners in all states before it. -/
theorem owned_of_states {db0 : Db} {σ : State} (h0 : Wf db0) (hrun : kasir.Reach db0 σ)
    {outlet : Id → Id} {d : Db} (hd : d ∈ states db0 σ.history) (houtlet : OutletsOf outlet d) :
    Owned (ownersAt outlet σ.db) d := by
  have hsound : KasirSound noMarks db0 σ := reach_sound h0 hrun
  have hlegal : σ.db.legal = true := hsound.inv.legal
  have hevolves : Evolves d σ.db := hsound.evolves_of_mem_states hd
  have hoptions : OptionsStay d.catalog σ.db.catalog :=
    hsound.rel_of_mem_states (fun d d' => OptionsStay d.catalog d'.catalog)
      (fun _ => .of_eq rfl) OptionsStay.trans (options_stay h0 hrun) hd
  refine ⟨houtlet, fun o ho => ?_, fun o ho => ?_, fun s hs => ?_⟩
  · obtain ⟨o', ho', hid, htenant⟩ := hoptions o ho
    rw [← hid, ← htenant]
    exact ownerIn_eq (legal_modifierOptions hlegal) ho'
  · obtain ⟨o', ho', horigin, -⟩ := hevolves.held o ho
    simp only [HeldOrder.origin, Prod.mk.injEq] at horigin
    rw [← horigin.1, ← horigin.2.1]
    exact ownerIn_eq (legal_heldOrders hlegal) ho'
  · obtain ⟨s', hs', horigin, -⟩ := hevolves.sessions s hs
    simp only [CashierSession.origin, Prod.mk.injEq] at horigin
    rw [← horigin.1, ← horigin.2.1]
    exact ownerIn_eq (legal_cashierSessions hlegal) hs'

end Kasir
