/-
  Kasir.Catalog.Proof

  What the catalog services keep: no required MULTIPLE assignment, no group
  without a name, and the assignments of the products they are not called for.
-/

import Kasir.Rules
import Kasir.Catalog.Service

namespace Kasir

open Txn

/-- A catalog as the services leave it. -/
structure Catalog.Ok (c : Catalog) : Prop where
  noRequiredMultiple : ∀ a ∈ c.productModifierGroups,
    (a.required && a.selectionType == .multiple) = false
  groupNames : ∀ g ∈ c.modifierGroups, g.name.isEmpty = false

namespace CatalogServices

open Transactions

/-- A change of the catalog that keeps it as it should be.  Assignments change of the
    products in `S` only, and they can only go, unless the mark tells otherwise. -/
structure CatalogEdit (S : Id → Id → Prop) (held : List Token) (f : Catalog → Catalog) : Prop where
  ok : ∀ c, c.Ok → (f c).Ok
  others : ∀ t p, ¬ S t p → ∀ c, (f c).assignmentsOf t p = c.assignmentsOf t p
  shrinks : ∀ t p, .replaced t p ∈ held ∨ ∀ c, (f c).assignmentsOf t p ⊆ c.assignmentsOf t p

namespace CatalogEdit

variable {S : Id → Id → Prop} {held held' : List Token} {f g : Catalog → Catalog}

theorem refl : CatalogEdit S held id :=
  ⟨fun _ h => h, fun _ _ _ _ => rfl, fun _ _ => Or.inr fun _ _ h => h⟩

/-- A change that leaves the assignments alone. -/
theorem of_assignments (h : ∀ c, (f c).productModifierGroups = c.productModifierGroups)
    (hnames : ∀ c, c.Ok → ∀ g ∈ (f c).modifierGroups, g.name.isEmpty = false) :
    CatalogEdit S held f := by
  have hsame : ∀ t p c, (f c).assignmentsOf t p = c.assignmentsOf t p := by
    intro t p c
    unfold Catalog.assignmentsOf
    rw [h]
  refine ⟨fun c hc => ⟨?_, hnames c hc⟩, fun t p _ => hsame t p, fun t p => Or.inr fun c => ?_⟩
  · rw [h]
    exact hc.noRequiredMultiple
  · rw [hsame]
    exact fun _ ha => ha

theorem comp (hf : CatalogEdit S held f) (hg : CatalogEdit S held' g) (hsub : held ⊆ held') :
    CatalogEdit S held' (g ∘ f) where
  ok c hc := hg.ok _ (hf.ok c hc)
  others t p hS c := (hg.others t p hS _).trans (hf.others t p hS c)
  shrinks t p := by
    rcases hf.shrinks t p with h | h
    · exact Or.inl (hsub h)
    · rcases hg.shrinks t p with h' | h'
      · exact Or.inl h'
      · exact Or.inr fun c => List.Subset.trans (h' _) (h c)

end CatalogEdit

/-- The transaction has changed the catalog only. -/
def Edits (R : Token → Prop) (S : Id → Id → Prop) (st : St Db Token) (db : Db) (st' : St Db Token)
    (db' : Db) : Prop :=
  ∃ f : Catalog → Catalog, CatalogEdit S st'.held f ∧ Ran R (Db.modifyCatalog f) st db st' db'

section Rules

variable {R : Token → Prop} {S : Id → Id → Prop} {iso : Isolation} {st st1 st2 : St Db Token}
  {db db1 db2 : Db}

theorem Edits.of_ran (h : Ran R id st db st1 db1) : Edits R S st db st1 db1 :=
  ⟨id, .refl, h⟩

theorem Edits.trans (h1 : Edits R S st db st1 db1) (h2 : Edits R S st1 db1 st2 db2) :
    Edits R S st db st2 db2 := by
  obtain ⟨f, hf, hran1⟩ := h1
  obtain ⟨g, hg, hran2⟩ := h2
  exact ⟨g ∘ f, hf.comp hg hran2.held, hran1.trans hran2⟩

-- ============================================================================
-- Statements
-- ============================================================================

variable {α : Type} {Q : α → St Db Token → Db → Prop}

theorem wp_insertRow {fits : Bool} {taken : Db → Bool} {index : UniqueIndex} {row : Env → α}
    {add : α → Catalog → Catalog} (hadd : ∀ env held, CatalogEdit S held (add (row env)))
    (h : ∀ a st' db', Edits R S st db st' db' → Q a st' db') :
    wp (protocol R) iso (insertRow fits taken index row add) Q st db := by
  refine wp_stmt fun st1 db1 s env hran _ _ => ?_
  simp only
  split
  · trivial
  · split
    · trivial
    · exact h _ st1 db1 ⟨add (row env), hadd env st1.held, hran⟩

theorem wp_updateRow {tokens : List Token} {fits : Bool} {taken : Db → Bool}
    {index : UniqueIndex} {find : Db → Option α} {f : Env → α → α}
    {change : (α → α) → Catalog → Catalog}
    (hchange : ∀ env held, tokens ⊆ held → CatalogEdit S held (change (f env)))
    (h : ∀ a st' db', Edits R S st db st' db' → Q a st' db') :
    wp (protocol R) iso (updateRow tokens fits taken index find f change) Q st db := by
  refine wp_stmt fun st1 db1 s env hran _ hlocks => ?_
  simp only
  split
  · trivial
  · split
    · trivial
    · split
      · trivial
      · exact h _ st1 db1 ⟨change (f env), hchange env st1.held hlocks, hran⟩

/-- An accepted list has accepted assignments. -/
theorem rules_of_checkAssignments {dtos : List AssignmentDto} {seen : List String}
    (h : checkAssignments seen dtos = .ok ()) :
    ∀ dto ∈ dtos, checkAssignmentRule dto = .ok () := by
  induction dtos generalizing seen with
  | nil => exact fun _ hdto => absurd hdto List.not_mem_nil
  | cons dto rest ih =>
      unfold checkAssignments at h
      split at h
      · cases h
      · obtain ⟨hrule, hrest⟩ := Checked.then_ok.mp h
        exact List.forall_mem_cons.mpr ⟨hrule, ih hrest⟩

/-- The rows of accepted assignments. -/
theorem rows_ok {tenantId productId : Id} {dtos : List AssignmentDto} {env : Env}
    (hrules : ∀ dto ∈ dtos, checkAssignmentRule dto = .ok ()) :
    ∀ a ∈ assignmentRows tenantId productId dtos env,
      (a.required && a.selectionType == .multiple) = false := by
  intro a ha
  obtain ⟨⟨dto, i⟩, hx, rfl⟩ := List.mem_map.mp ha
  have hrule := hrules dto (List.fst_mem_of_mem_zipIdx hx)
  unfold checkAssignmentRule at hrule
  split at hrule
  · cases hrule
  · rename_i hno
    simpa [assignmentRow] using hno

/-- The rows inserted for a product belong to it. -/
theorem rows_own {tenantId productId : Id} {dtos : List AssignmentDto} {env : Env} :
    ∀ a ∈ assignmentRows tenantId productId dtos env,
      a.tenantId = tenantId ∧ a.productId = productId := by
  intro a ha
  obtain ⟨⟨dto, i⟩, -, rfl⟩ := List.mem_map.mp ha
  exact ⟨rfl, rfl⟩

theorem edit_insertAssignments {tenantId productId : Id} {dtos : List AssignmentDto} {env : Env}
    {held : List Token} (hrules : ∀ dto ∈ dtos, checkAssignmentRule dto = .ok ())
    (hS : S tenantId productId) (hmark : .replaced tenantId productId ∈ held) :
    CatalogEdit S held fun c => { c with productModifierGroups :=
      c.productModifierGroups ++ assignmentRows tenantId productId dtos env } := by
  -- the assignments of other products stay
  have hother : ∀ t p, ¬ (t = tenantId ∧ p = productId) →
      (assignmentRows tenantId productId dtos env).filter
        (fun a => a.tenantId == t && a.productId == p) = [] := by
    intro t p hne
    rw [List.filter_eq_nil_iff]
    intro a ha hcond
    rw [Bool.and_eq_true, beq_iff_eq, beq_iff_eq] at hcond
    obtain ⟨ht, hp⟩ := rows_own a ha
    exact hne ⟨hcond.1.symm.trans ht, hcond.2.symm.trans hp⟩
  refine ⟨fun c hc => ⟨fun a ha => ?_, hc.groupNames⟩, fun t p hno c => ?_, fun t p => ?_⟩
  · exact (List.mem_append.mp ha).elim (hc.noRequiredMultiple a) (rows_ok hrules a)
  · unfold Catalog.assignmentsOf
    rw [List.filter_append, hother t p, List.append_nil]
    rintro ⟨rfl, rfl⟩
    exact hno hS
  · by_cases hown : t = tenantId ∧ p = productId
    · rw [hown.1, hown.2]
      exact Or.inl hmark
    · refine Or.inr fun c => ?_
      unfold Catalog.assignmentsOf
      rw [List.filter_append, hother t p hown, List.append_nil]
      exact fun _ ha => ha

theorem edit_filterAssignments {held : List Token} {keep : ProductModifierGroup → Bool}
    (hS : ∀ a, keep a = false → S a.tenantId a.productId) :
    CatalogEdit S held fun c =>
      { c with productModifierGroups := c.productModifierGroups.filter keep } := by
  refine ⟨fun c hc => ⟨fun a ha => ?_, hc.groupNames⟩, fun t p hno c => ?_,
    fun t p => Or.inr fun c a ha => ?_⟩
  · exact hc.noRequiredMultiple a (List.mem_of_mem_filter ha)
  · unfold Catalog.assignmentsOf
    rw [List.filter_filter]
    refine List.filter_congr fun a _ => ?_
    cases hkeep : keep a with
    | true => rw [Bool.and_true]
    | false =>
        have hown := hS a hkeep
        rw [Bool.and_false]
        symm
        rw [Bool.and_eq_false_imp, beq_iff_eq, beq_eq_false_iff_ne]
        rintro rfl rfl
        exact hno hown
  · unfold Catalog.assignmentsOf at ha ⊢
    rw [List.filter_filter] at ha
    obtain ⟨hmem, hcond⟩ := List.mem_filter.mp ha
    rw [Bool.and_eq_true] at hcond
    exact List.mem_filter.mpr ⟨hmem, hcond.1⟩

theorem wp_insertAssignments {tenantId productId : Id} {dtos : List AssignmentDto}
    {answer : Env → α} (hrules : ∀ dto ∈ dtos, checkAssignmentRule dto = .ok ())
    (hS : S tenantId productId) (h : ∀ a st' db', Edits R S st db st' db' → Q a st' db') :
    wp (protocol R) iso (insertAssignments tenantId productId dtos answer) Q st db := by
  refine wp_stmt fun st1 db1 s env hran _ hlocks => ?_
  simp only
  split
  · trivial
  · split
    · trivial
    · have hmark : .replaced tenantId productId ∈ st1.held := hlocks (List.mem_cons_self ..)
      exact h _ st1 db1 ⟨_, edit_insertAssignments hrules hS hmark, hran⟩

theorem wp_deleteAssignments {Q : List ProductModifierGroup → St Db Token → Db → Prop}
    {marks : List Token} {p : ProductModifierGroup → Bool}
    (hS : ∀ a, p a = true → S a.tenantId a.productId)
    (h : ∀ as st' db', Edits R S st db st' db' → Q as st' db') :
    wp (protocol R) iso (deleteAssignments marks p) Q st db := by
  unfold deleteAssignments
  refine wp_stmt fun st1 db1 s env hran1 _ _ => ?_
  refine wp_stmt fun st2 db2 s env hran2 _ _ => ?_
  refine h _ st2 db2 (Edits.trans (.of_ran hran1) ⟨_, edit_filterAssignments fun a ha => ?_, hran2⟩)
  rw [Bool.not_eq_false', Bool.and_eq_true] at ha
  exact hS a ha.1

/-- A SELECT. -/
theorem wp_select {β : Type} {f : Db → β} {rest : β → Body α}
    (hrest : ∀ b st' db', Edits R S st db st' db' → wp (protocol R) iso (rest b) Q st' db') :
    wp (protocol R) iso (query f >>= rest) Q st db := by
  rw [wp_bind]
  exact wp_query fun st1 db1 _ hran _ => hrest _ st1 db1 (.of_ran hran)

/-- A SELECT whose result decides whether the body goes on. -/
theorem wp_check {Q : Unit → St Db Token → Db → Prop} {β : Type} {f : Db → β} {c : β → Bool}
    {e : Exc} (h : ∀ st' db', Edits R S st db st' db' → Q () st' db') :
    wp (protocol R) iso (query f >>= fun a => ensure (c a) e) Q st db :=
  wp_select fun _ st1 db1 h1 => wp_guard fun _ => h st1 db1 h1

/-- A SELECT whose result decides, and then the rest of the operation. -/
theorem wp_check_then {β : Type} {f : Db → β} {c : β → Bool} {e : Exc} {rest : Body α}
    (hrest : ∀ st' db', Edits R S st db st' db' → wp (protocol R) iso rest Q st' db') :
    wp (protocol R) iso ((query f >>= fun a => ensure (c a) e) >>= fun _ => rest) Q st db := by
  rw [wp_bind]
  exact wp_check hrest

/-- The category of a request is looked for, if it has one, and then the rest of the
    operation. -/
theorem wp_validateCategory_then {tenantId : Id} {categoryId : Option String} {rest : Body α}
    (hrest : ∀ st1 db1, (∀ a st' db', Edits R S st1 db1 st' db' → Q a st' db') →
      wp (protocol R) iso rest Q st1 db1)
    (h : ∀ a st' db', Edits R S st db st' db' → Q a st' db') :
    wp (protocol R) iso (validateCategory tenantId categoryId >>= fun _ => rest) Q st db := by
  unfold validateCategory
  cases categoryId with
  | none => exact hrest st db h
  | some categoryId =>
      refine wp_check_then (S := S) fun st1 db1 h1 => hrest st1 db1 fun a st2 db2 h2 => ?_
      exact h a st2 db2 (h1.trans h2)

-- ============================================================================
-- Operations
-- ============================================================================

/-- A change of the groups keeps their names if it does so row by row. -/
theorem edit_mapGroups {tenantId id : Id} {f : ModifierGroup → ModifierGroup} {held : List Token}
    (hf : ∀ g, g.name.isEmpty = false → (f g).name.isEmpty = false) :
    CatalogEdit S held fun c => { c with
      modifierGroups := c.modifierGroups.map fun g => if groupIs tenantId id g then f g else g } := by
  refine .of_assignments (fun _ => rfl) fun c hc g hg => ?_
  obtain ⟨g', hg', rfl⟩ := List.mem_map.mp hg
  split
  · exact hf g' (hc.groupNames g' hg')
  · exact hc.groupNames g' hg'

/-- A change of products and options. -/
theorem edit_others {f : Catalog → Catalog} {held : List Token}
    (h : ∀ c, (f c).productModifierGroups = c.productModifierGroups)
    (hgroups : ∀ c, (f c).modifierGroups = c.modifierGroups) : CatalogEdit S held f := by
  refine .of_assignments h fun c hc g hg => ?_
  rw [hgroups] at hg
  exact hc.groupNames g hg

/-- A name with a visible character is not empty. -/
theorem not_isEmpty_of_validName {n : Nat} {name : String} (h : validName n name = true) :
    name.isEmpty = false := by
  simp only [validName, Bool.and_eq_true, List.any_eq_true] at h
  obtain ⟨⟨c, hc, -⟩, -⟩ := h
  cases hempty : name.isEmpty with
  | false => rfl
  | true =>
      rw [String.isEmpty_iff] at hempty
      rw [hempty] at hc
      cases hc

theorem wp_createProduct {Q : Product → St Db Token → Db → Prop} {tenantId : Id}
    {dto : CreateProductDto} (h : ∀ p st' db', Edits R S st db st' db' → Q p st' db') :
    wp (protocol R) iso (createProduct tenantId dto) Q st db := by
  unfold createProduct
  refine wp_validateCategory_then (fun st1 db1 h1 => ?_) h
  split
  · exact wp_insertRow (fun env _ =>
      edit_others (f := fun c => { c with products := c.products ++ [newProduct tenantId dto _ env] })
        (fun _ => rfl) fun _ => rfl) h1
  · trivial

theorem wp_updateProduct {Q : Product → St Db Token → Db → Prop} {tenantId id : Id}
    {dto : UpdateProductDto} (h : ∀ p st' db', Edits R S st db st' db' → Q p st' db') :
    wp (protocol R) iso (updateProduct tenantId id dto) Q st db := by
  unfold updateProduct validateProductOwnership
  refine wp_check_then (S := S) fun st1 db1 h1 => ?_
  refine wp_validateCategory_then (S := S) (fun st2 db2 h2 => ?_) fun p st2 db2 h2 =>
    h p st2 db2 (h1.trans h2)
  rw [wp_bind]
  refine wp_guard fun _ => ?_
  split
  · exact wp_updateRow (fun _ _ _ => edit_others (fun _ => rfl) fun _ => rfl) h2
  · trivial

/-- The read of a product's groups. -/
theorem wp_getModifierGroups {Q : List AssignedGroup → St Db Token → Db → Prop}
    {tenantId productId : Id} (h : ∀ groups st' db', Edits R S st db st' db' → Q groups st' db') :
    wp (protocol R) iso (getModifierGroups tenantId productId) Q st db := by
  unfold getModifierGroups validateProductOwnership
  refine wp_check_then (S := S) fun st1 db1 h1 => ?_
  refine wp_select (S := S) fun assignments st2 db2 h2 => ?_
  refine wp_select (S := S) fun groups st3 db3 h3 => ?_
  refine wp_select (S := S) fun options st4 db4 h4 => ?_
  exact wp_lift fun answer _ => h answer st4 db4 (((h1.trans h2).trans h3).trans h4)

theorem wp_replaceModifierGroups {Q : Unit → St Db Token → Db → Prop} {tenantId productId : Id}
    {dto : ReplaceProductModifierGroupsDto} (hS : S tenantId productId)
    (h : ∀ st' db', Edits R S st db st' db' → Q () st' db') :
    wp (protocol R) iso (replaceModifierGroups tenantId productId dto) Q st db := by
  unfold replaceModifierGroups validateProductOwnership
  refine wp_check_then (S := S) fun st1 db1 h1 => ?_
  rw [wp_bind]
  refine wp_lift fun _ hrules => ?_
  have hinsert : ∀ st2 db2, Edits R S st db st2 db2 → wp (protocol R) iso
      (if dto.modifierGroups.length > 0 then
        insertAssignments tenantId productId dto.modifierGroups fun _ => ()
      else pure ()) Q st2 db2 := by
    intro st2 db2 h2
    split
    · exact wp_insertAssignments (rules_of_checkAssignments hrules) hS
        fun _ st3 db3 h3 => h st3 db3 (h2.trans h3)
    · exact h st2 db2 h2
  have hdelete : ∀ st2 db2, Edits R S st db st2 db2 → wp (protocol R) iso
      (deleteAssignments [.replacing tenantId productId] fun a =>
          a.tenantId == tenantId && a.productId == productId)
      (fun _ st3 db3 => wp (protocol R) iso
        (if dto.modifierGroups.length > 0 then
          insertAssignments tenantId productId dto.modifierGroups fun _ => ()
        else pure ()) Q st3 db3) st2 db2 := by
    intro st2 db2 h2
    refine wp_deleteAssignments (fun a ha => ?_) fun _ st3 db3 h3 => hinsert st3 db3 (h2.trans h3)
    rw [Bool.and_eq_true, beq_iff_eq, beq_iff_eq] at ha
    exact ha.1 ▸ ha.2 ▸ hS
  simp only
  split
  · rw [← Prog.bind_assoc]
    refine wp_check_then (S := S) fun st2 db2 h2 => ?_
    rw [wp_bind]
    exact hdelete st2 db2 (h1.trans h2)
  · rw [wp_bind]
    exact hdelete st1 db1 h1

theorem wp_assignModifierGroup {Q : AssignmentAnswer → St Db Token → Db → Prop}
    {tenantId productId : Id} {dto : AssignmentDto} (hS : S tenantId productId)
    (h : ∀ a st' db', Edits R S st db st' db' → Q a st' db') :
    wp (protocol R) iso (assignModifierGroup tenantId productId dto) Q st db := by
  unfold assignModifierGroup validateProductOwnership validateActiveGroup
  refine wp_check_then (S := S) fun st1 db1 h1 => ?_
  rw [wp_bind]
  refine wp_lift fun _ hrule => wp_check_then (S := S) fun st2 db2 h2 => ?_
  refine wp_insertAssignments ?_ hS fun a st3 db3 h3 => h a st3 db3 ((h1.trans h2).trans h3)
  intro x hx
  rw [List.mem_singleton.mp hx]
  exact hrule

theorem owner_of_assignmentIs {tenantId productId groupId : Id} {a : ProductModifierGroup}
    (h : assignmentIs tenantId productId groupId a = true) :
    a.tenantId = tenantId ∧ a.productId = productId := by
  unfold assignmentIs at h
  rw [Bool.and_eq_true, Bool.and_eq_true, beq_iff_eq, beq_iff_eq] at h
  exact h.1

/-- An assignment is rewritten: it may change its group and its rule. -/
theorem edit_changeAssignment {tenantId productId groupId : Id} {dto : AssignmentDto} {env : Env}
    {held : List Token} (hrule : checkAssignmentRule dto = .ok ()) (hS : S tenantId productId)
    (hmark : .replaced tenantId productId ∈ held) :
    CatalogEdit S held fun c => { c with
      productModifierGroups := c.productModifierGroups.map fun a =>
        if assignmentIs tenantId productId groupId a then updatedAssignment dto env a else a } := by
  have hother : ∀ t p, ¬ (t = tenantId ∧ p = productId) → ∀ c : Catalog,
      (c.productModifierGroups.map fun a =>
          if assignmentIs tenantId productId groupId a then updatedAssignment dto env a
          else a).filter (fun a => a.tenantId == t && a.productId == p) =
        c.assignmentsOf t p := by
    intro t p hne c
    unfold Catalog.assignmentsOf
    -- a rewritten row belonged, and belongs, to the product
    have hno : ∀ a : ProductModifierGroup, a.tenantId = tenantId → a.productId = productId →
        (a.tenantId == t && a.productId == p) = false := by
      intro a ht hp
      rw [Bool.and_eq_false_imp, beq_iff_eq, beq_eq_false_iff_ne]
      exact fun h1 h2 => hne ⟨h1.symm.trans ht, h2.symm.trans hp⟩
    induction c.productModifierGroups with
    | nil => rfl
    | cons a rest ih =>
        rw [List.map_cons]
        by_cases hown : assignmentIs tenantId productId groupId a = true
        · obtain ⟨ht, hp⟩ := owner_of_assignmentIs hown
          rw [if_pos hown, List.filter_cons_of_neg, List.filter_cons_of_neg, ih]
          · rw [hno a ht hp]
            exact Bool.false_ne_true
          · rw [hno (updatedAssignment dto env a) ht hp]
            exact Bool.false_ne_true
        · rw [if_neg hown, List.filter_cons, List.filter_cons, ih]
  refine ⟨fun c hc => ⟨fun a ha => ?_, hc.groupNames⟩, fun t p hno c => ?_, fun t p => ?_⟩
  · obtain ⟨x, hx, rfl⟩ := List.mem_map.mp ha
    split
    · unfold checkAssignmentRule at hrule
      split at hrule
      · cases hrule
      · rename_i hno
        simpa [updatedAssignment] using hno
    · exact hc.noRequiredMultiple x hx
  · refine hother t p ?_ c
    rintro ⟨rfl, rfl⟩
    exact hno hS
  · by_cases hown : t = tenantId ∧ p = productId
    · rw [hown.1, hown.2]
      exact Or.inl hmark
    · refine Or.inr fun c => ?_
      have hsame := hother t p hown c
      unfold Catalog.assignmentsOf at hsame ⊢
      rw [hsame]
      exact fun _ ha => ha

theorem wp_changeAssignment {Q : AssignmentAnswer → St Db Token → Db → Prop}
    {tenantId productId groupId : Id} {dto : AssignmentDto}
    (hrule : checkAssignmentRule dto = .ok ()) (hS : S tenantId productId)
    (h : ∀ a st' db', Edits R S st db st' db' → Q a st' db') :
    wp (protocol R) iso (changeAssignment tenantId productId groupId dto) Q st db := by
  unfold changeAssignment
  rw [wp_bind]
  refine wp_updateRow (fun env held hheld => edit_changeAssignment hrule hS (hheld ?_))
    fun a st1 db1 h1 => h (assignmentAnswer a) st1 db1 h1
  simp

theorem wp_updateModifierGroupAssignment {Q : AssignmentAnswer → St Db Token → Db → Prop}
    {tenantId productId : Id} {groupId : String} {dto : AssignmentDto} (hS : S tenantId productId)
    (h : ∀ a st' db', Edits R S st db st' db' → Q a st' db') :
    wp (protocol R) iso (updateModifierGroupAssignment tenantId productId groupId dto) Q st db := by
  unfold updateModifierGroupAssignment validateProductOwnership validateAssignment
    validateActiveGroup
  refine wp_check_then (S := S) fun st1 db1 h1 => ?_
  rw [wp_bind]
  refine wp_lift fun _ hrule => wp_check_then (S := S) fun st2 db2 h2 => ?_
  refine wp_check_then (S := S) fun st3 db3 h3 => ?_
  have h03 := (h1.trans h2).trans h3
  split
  · rw [← Prog.bind_assoc]
    exact wp_check_then (S := S) fun st4 db4 h4 => wp_changeAssignment hrule hS
      fun a st5 db5 h5 => h a st5 db5 ((h03.trans h4).trans h5)
  · exact wp_changeAssignment hrule hS fun a st4 db4 h4 => h a st4 db4 (h03.trans h4)

theorem wp_removeModifierGroup {Q : AssignmentAnswer → St Db Token → Db → Prop}
    {tenantId productId groupId : Id} (hS : S tenantId productId)
    (h : ∀ a st' db', Edits R S st db st' db' → Q a st' db') :
    wp (protocol R) iso (removeModifierGroup tenantId productId groupId) Q st db := by
  unfold removeModifierGroup validateProductOwnership validateAssignment
  refine wp_check_then (S := S) fun st1 db1 h1 => wp_check_then (S := S) fun st2 db2 h2 => ?_
  rw [wp_bind]
  refine wp_deleteAssignments (fun a ha => ?_) fun _ st3 db3 h3 =>
    wp_require fun a _ => h a st3 db3 ((h1.trans h2).trans h3)
  obtain ⟨ht, hp⟩ := owner_of_assignmentIs ha
  exact ht ▸ hp ▸ hS

theorem wp_withOptions {Q : GroupAnswer → St Db Token → Db → Prop} {tenantId : Id}
    {group : ModifierGroup} (h : ∀ a st' db', Edits R S st db st' db' → Q a st' db') :
    wp (protocol R) iso (withOptions tenantId group) Q st db := by
  unfold withOptions
  rw [wp_bind]
  exact wp_queryRanked fun st1 db1 _ _ hran _ => h _ st1 db1 (.of_ran hran)

theorem wp_createGroup {Q : GroupAnswer → St Db Token → Db → Prop} {tenantId : Id}
    {dto : CreateModifierGroupDto} (hname : dto.name.isEmpty = false)
    (h : ∀ a st' db', Edits R S st db st' db' → Q a st' db') :
    wp (protocol R) iso (createGroup tenantId dto) Q st db := by
  unfold createGroup
  rw [wp_bind]
  refine wp_insertRow (S := S) (fun env _ => ?_) fun _ st1 db1 h1 =>
    wp_withOptions fun a st2 db2 h2 => h a st2 db2 (h1.trans h2)
  refine .of_assignments (fun _ => rfl) fun c hc g hg => ?_
  rcases List.mem_append.mp hg with hg | hg
  · exact hc.groupNames g hg
  · rw [List.mem_singleton.mp hg]
    exact hname

theorem wp_changeGroup {Q : GroupAnswer → St Db Token → Db → Prop} {tenantId id : Id}
    {fits : Bool} {taken : Db → Bool} {f : Env → ModifierGroup → ModifierGroup}
    (hf : ∀ env g, g.name.isEmpty = false → (f env g).name.isEmpty = false)
    (h : ∀ a st' db', Edits R S st db st' db' → Q a st' db') :
    wp (protocol R) iso (changeGroup tenantId id fits taken f) Q st db := by
  unfold changeGroup validateGroupOwnership
  refine wp_check_then (S := S) fun st1 db1 h1 => ?_
  rw [wp_bind]
  exact wp_updateRow (S := S) (fun env _ _ => edit_mapGroups (hf env)) fun _ st2 db2 h2 =>
    wp_withOptions fun a st3 db3 h3 => h a st3 db3 ((h1.trans h2).trans h3)

theorem wp_createOption {Q : ModifierOption → St Db Token → Db → Prop} {tenantId groupId : Id}
    {dto : CreateModifierOptionDto} (h : ∀ o st' db', Edits R S st db st' db' → Q o st' db') :
    wp (protocol R) iso (createOption tenantId groupId dto) Q st db := by
  unfold createOption validateGroupOwnership
  refine wp_check_then (S := S) fun st1 db1 h1 => ?_
  split
  · rename_i hdelta
    exact wp_insertRow (fun env _ => edit_others (f := fun c => { c with
        modifierOptions := c.modifierOptions ++ [newOption tenantId groupId dto hdelta env] })
      (fun _ => rfl) fun _ => rfl) fun o st2 db2 h2 => h o st2 db2 (h1.trans h2)
  · trivial

theorem wp_changeOption {Q : ModifierOption → St Db Token → Db → Prop}
    {tenantId groupId optionId : Id} {fits : Bool} {taken : Db → Bool}
    {f : Env → ModifierOption → ModifierOption}
    (h : ∀ o st' db', Edits R S st db st' db' → Q o st' db') :
    wp (protocol R) iso (changeOption tenantId groupId optionId fits taken f) Q st db := by
  unfold changeOption
  rw [← Prog.bind_assoc]
  refine wp_check_then (S := S) fun st1 db1 h1 => ?_
  exact wp_updateRow (fun _ _ _ => edit_others (fun _ => rfl) fun _ => rfl)
    fun o st2 db2 h2 => h o st2 db2 (h1.trans h2)

/-- The product whose assignments an operation changes. -/
def CatalogOp.assigned : CatalogOp → Option Id
  | .replaceModifierGroups productId _ | .assignModifierGroup productId _
  | .updateModifierGroupAssignment productId _ _ | .removeModifierGroup productId _ =>
      some (Js.toLowerCase productId)
  | .createProduct _ | .updateProduct .. | .getModifierGroups _ | .createGroup _ | .updateGroup ..
  | .removeGroup _ | .createOption .. | .updateOption .. | .removeOption .. => none

/-- An operation of this user changes the assignments of this product. -/
abbrev CatalogOp.assigns (user : JwtPayload) (op : CatalogOp) (t p : Id) : Prop :=
  t = Js.toLowerCase user.tenantId ∧ op.assigned = some p

/-- **Every catalog operation** keeps the catalog as it should be. -/
theorem wp_catalogBody {Q : CatalogAnswer → St Db Token → Db → Prop} {user : JwtPayload}
    {op : CatalogOp} (hvalid : op.valid = true)
    (h : ∀ a st' db', Edits R (op.assigns user) st db st' db' → Q a st' db') :
    wp (protocol R) iso (catalogBody user op) Q st db := by
  unfold catalogBody
  cases op with
  | createProduct dto =>
      dsimp only
      rw [wp_bind]
      exact wp_createProduct fun _ => h _
  | updateProduct id dto =>
      dsimp only
      rw [wp_bind]
      exact wp_updateProduct fun _ => h _
  | getModifierGroups productId =>
      dsimp only
      rw [wp_bind]
      exact wp_getModifierGroups fun _ => h _
  | replaceModifierGroups productId dto =>
      dsimp only
      rw [wp_bind]
      exact wp_replaceModifierGroups ⟨rfl, rfl⟩ (h _)
  | assignModifierGroup productId dto =>
      dsimp only
      rw [wp_bind]
      exact wp_assignModifierGroup ⟨rfl, rfl⟩ fun _ => h _
  | updateModifierGroupAssignment productId groupId dto =>
      dsimp only
      rw [wp_bind]
      exact wp_updateModifierGroupAssignment ⟨rfl, rfl⟩ fun _ => h _
  | removeModifierGroup productId groupId =>
      dsimp only
      rw [wp_bind]
      exact wp_removeModifierGroup ⟨rfl, rfl⟩ fun _ => h _
  | createGroup dto =>
      dsimp only
      rw [wp_bind]
      simp only [CatalogOp.valid, CreateModifierGroupDto.valid, Bool.and_eq_true] at hvalid
      exact wp_createGroup (not_isEmpty_of_validName hvalid.1) fun _ => h _
  | updateGroup id dto =>
      dsimp only
      rw [wp_bind]
      simp only [CatalogOp.valid, UpdateModifierGroupDto.valid, Bool.and_eq_true] at hvalid
      refine wp_changeGroup (fun env g hg => ?_) fun _ => h _
      unfold updatedGroup
      cases hname : dto.name with
      | none => exact hg
      | some name =>
          rw [hname] at hvalid
          exact not_isEmpty_of_validName hvalid.2.1
  | removeGroup id =>
      dsimp only
      rw [wp_bind]
      exact wp_changeGroup (fun _ _ hg => hg) fun _ => h _
  | createOption groupId dto =>
      dsimp only
      rw [wp_bind]
      exact wp_createOption fun _ => h _
  | updateOption groupId optionId dto =>
      dsimp only
      rw [wp_bind]
      unfold updateOption
      split
      · exact wp_changeOption fun _ => h _
      · trivial
  | removeOption groupId optionId =>
      dsimp only
      rw [wp_bind]
      exact wp_changeOption fun _ => h _

end Rules

end CatalogServices

end Kasir
