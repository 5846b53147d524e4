/-
  Kasir.Catalog.Replace

  `ProductsService.replaceModifierGroups` while nobody else assigns groups to the
  product.

  The DELETE of a call removes what it found when it started, so that the list of
  the call is all there is after its commit only if no assignment has appeared
  since then.  The mark `replacing` stands for that.
-/

import Kasir.Catalog.Proof

namespace Kasir

open Txn

/-- What an assignment tells of its group. -/
def ProductModifierGroup.rule (a : ProductModifierGroup) : Id × Bool × SelectionType × Int :=
  (a.modifierGroupId, a.required, a.selectionType, a.displayOrder)

namespace CatalogServices

open Transactions

/-- What a request tells of a group. -/
def AssignmentDto.rule (dto : AssignmentDto) : Id × Bool × SelectionType × Int :=
  (Js.toLowerCase dto.modifierGroupId, dto.required, dto.selectionType, dto.displayOrder)

/-- The group of the request is there, belongs to the tenant and is active. -/
def AssignmentDto.ActiveIn (t : Id) (db : Db) (dto : AssignmentDto) : Prop :=
  ∃ g ∈ db.catalog.modifierGroups,
    g.id = Js.toLowerCase dto.modifierGroupId ∧ g.tenantId = t ∧ g.isActive = true

/-- The list does not pass the validation of a call that reads this state, and the error
    names the reason. -/
inductive Refusal (t p : Id) (dtos : List AssignmentDto) (db : Db) : Exc → Prop
  | product (h : ∀ x ∈ db.catalog.products, ¬ (x.id = p ∧ x.tenantId = t)) :
      Refusal t p dtos db productNotFound
  | duplicate (h : ¬ (dtos.map AssignmentDto.modifierGroupId).Nodup) :
      Refusal t p dtos db duplicateAssignment
  | rule {dto : AssignmentDto} (hdto : dto ∈ dtos)
      (h : dto.required = true ∧ dto.selectionType = .multiple) :
      Refusal t p dtos db requiredMultipleNotSupported
  | group {dto : AssignmentDto} (hdto : dto ∈ dtos) (h : ¬ dto.ActiveIn t db) :
      Refusal t p dtos db groupsNotFound

-- ============================================================================
-- The checks
-- ============================================================================

theorem refusal_of_rule {dto : AssignmentDto} {e : Exc} (h : checkAssignmentRule dto = .error e) :
    e = requiredMultipleNotSupported ∧ dto.required = true ∧ dto.selectionType = .multiple := by
  unfold checkAssignmentRule at h
  split at h
  · rename_i hrule
    rw [Bool.and_eq_true, beq_iff_eq] at hrule
    exact ⟨(Except.error.inj h).symm, hrule⟩
  · cases h

/-- The first assignment that is refused was seen before, or breaks the rule. -/
theorem refusal_of_checkAssignments {dtos : List AssignmentDto} {seen : List String} {e : Exc}
    (h : checkAssignments seen dtos = .error e) :
    (e = duplicateAssignment ∧ ¬ (seen ++ dtos.map AssignmentDto.modifierGroupId).Nodup) ∨
    (e = requiredMultipleNotSupported ∧
      ∃ dto ∈ dtos, dto.required = true ∧ dto.selectionType = .multiple) := by
  induction dtos generalizing seen with
  | nil => cases h
  | cons dto rest ih =>
      unfold checkAssignments at h
      split at h
      · rename_i hseen
        refine Or.inl ⟨(Except.error.inj h).symm, fun hnodup => ?_⟩
        exact (List.nodup_append.mp hnodup).2.2 _ (List.contains_iff_mem.mp hseen) _
          (List.mem_cons_self ..) rfl
      · cases hrule : checkAssignmentRule dto with
        | error e' =>
            rw [hrule] at h
            obtain rfl : e' = e := Except.error.inj h
            obtain ⟨he, hbroken⟩ := refusal_of_rule hrule
            exact Or.inr ⟨he, dto, List.mem_cons_self .., hbroken⟩
        | ok _ =>
            rw [hrule] at h
            rcases ih h with ⟨he, hnodup⟩ | ⟨he, x, hx, hbroken⟩
            · refine Or.inl ⟨he, fun hall => hnodup ?_⟩
              rw [List.map_cons] at hall
              exact (List.perm_middle.nodup_iff).mp hall
            · exact Or.inr ⟨he, x, List.mem_cons_of_mem _ hx, hbroken⟩

/-- All groups of a list are found if all are active. -/
theorem length_activeGroups {t : Id} {dtos : List AssignmentDto} {db : Db}
    (hlegal : db.legal = true)
    (hnodup : (dtos.map fun dto => Js.toLowerCase dto.modifierGroupId).Nodup)
    (h : ∀ dto ∈ dtos, dto.ActiveIn t db) :
    (activeGroups t (dtos.map fun dto => Js.toLowerCase dto.modifierGroupId) db).length =
      (dtos.map fun dto => Js.toLowerCase dto.modifierGroupId).length := by
  have hfound : ((activeGroups t (dtos.map fun dto => Js.toLowerCase dto.modifierGroupId) db).map
      ModifierGroup.id).Nodup :=
    (legal_modifierGroups hlegal).sublist (List.filter_sublist.map _)
  rw [← List.length_map ModifierGroup.id]
  refine ((List.perm_ext_iff_of_nodup hfound hnodup).mpr fun id => ?_).length_eq
  unfold activeGroups
  simp only [List.mem_map, List.mem_filter, Bool.and_eq_true, beq_iff_eq, List.contains_iff_mem]
  constructor
  · rintro ⟨g, ⟨-, ⟨-, dto, hdto, hid⟩, -⟩, rfl⟩
    exact ⟨dto, hdto, hid⟩
  · rintro ⟨dto, hdto, rfl⟩
    obtain ⟨g, hg, hid, ht, hactive⟩ := h dto hdto
    exact ⟨g, ⟨hg, ⟨ht, dto, hdto, hid.symm⟩, hactive⟩, hid⟩

theorem rule_assignmentRows (tenantId productId : Id) (dtos : List AssignmentDto) (env : Env) :
    (assignmentRows tenantId productId dtos env).map ProductModifierGroup.rule =
      dtos.map AssignmentDto.rule := by
  have hfst : dtos.zipIdx.map Prod.fst = dtos := List.zipIdx_map_fst ..
  unfold assignmentRows
  rw [List.map_map]
  conv_rhs => rw [← hfst, List.map_map]
  rfl

-- ============================================================================
-- The statements of a call
-- ============================================================================

/-- The transaction leaves no assignment of the product, whatever the others commit. -/
def Cleared (R : Token → Prop) (t p : Id) (st : St Db Token) (db : Db) : Prop :=
  ∀ d, (protocol R).Rely st.held db d → (st.log d).catalog.assignmentsOf t p = []

/-- The transaction leaves just these assignments of the product. -/
def Replaced (R : Token → Prop) (t p : Id) (dtos : List AssignmentDto) (st : St Db Token)
    (db : Db) : Prop :=
  ∀ d, (protocol R).Rely st.held db d →
    ((st.log d).catalog.assignmentsOf t p).map ProductModifierGroup.rule =
      dtos.map AssignmentDto.rule

section Rules

variable {R : Token → Prop} {J : Db → Prop} {Err : Exc → Prop} {st : St Db Token} {db : Db}
  {t p : Id}

/-- The DELETE clears the product. -/
theorem wpe_deleteAssignments {Q : List ProductModifierGroup → St Db Token → Db → Prop}
    (hR : R (.replacing t p)) (hlog : ∀ d, st.log d = d)
    (h : ∀ as st' db', Cleared R t p st' db' → Q as st' db') :
    wpe ((protocol R).during J) .readCommitted Err
      (deleteAssignments [.replacing t p] fun a => a.tenantId == t && a.productId == p)
      Q st db := by
  unfold deleteAssignments
  refine wpe_stmt fun st1 db1 s1 _ hran1 hread1 _ hlocks1 => ?_
  have hmark : .replacing t p ∈ st1.held := hlocks1 (List.mem_singleton.mpr rfl)
  obtain rfl := hread1.now rfl
  refine wpe_stmt fun st2 db2 s2 _ hran2 _ _ _ => h _ st2 db2 fun d hrely => ?_
  -- from the start of the DELETE on, assignments of the product only go
  have hshrunk : d.catalog.assignmentsOf t p ⊆ s1.catalog.assignmentsOf t p := by
    have h12 : same R (.replacing t p) s1 db2 := hran2.same hmark
    have h2d : same R (.replacing t p) db2 d := hrely.same _ (hran2.held hmark)
    exact same_trans h12 h2d hR
  have hd : st1.log d = d := by
    rw [hran1.log, hlog]
    rfl
  rw [hran2.log, hd]
  show (List.filter _ (d.catalog.productModifierGroups.filter _)) = []
  rw [List.filter_filter, List.filter_eq_nil_iff]
  intro a ha hcond
  rw [Bool.and_eq_true, Bool.not_eq_true'] at hcond
  obtain ⟨hown, hkept⟩ := hcond
  have hfound : a ∈ s1.catalog.assignmentsOf t p := hshrunk (List.mem_filter.mpr ⟨ha, hown⟩)
  have hsome : ((st.log s1).catalog.productModifierGroups.filter fun a =>
      a.tenantId == t && a.productId == p).any (fun x => x.tuple == a.tuple) = true := by
    rw [hlog, List.any_eq_true]
    exact ⟨a, hfound, beq_self_eq_true _⟩
  exact absurd hkept (by simp [hown, hsome])

/-- The INSERT after it finds no row in its way. -/
theorem wpe_insertAssignments {Q : Unit → St Db Token → Db → Prop} {dtos : List AssignmentDto}
    (hcleared : Cleared R t p st db)
    (hunfit : dtos.all AssignmentDto.fits = false → Err (.prisma .other))
    (h : ∀ st' db', Replaced R t p dtos st' db' → Q () st' db') :
    wpe ((protocol R).during J) .readCommitted Err (insertAssignments t p dtos fun _ => ())
      Q st db := by
  unfold insertAssignments
  refine wpe_stmt fun st1 db1 s env hran _ _ _ => ?_
  have hfree : (st.log db1).catalog.productModifierGroups.any (fun a =>
      (dtos.map fun dto => Token.assignment t p (Js.toLowerCase dto.modifierGroupId)).contains
        (assignmentToken a)) = false := by
    rw [List.any_eq_false]
    intro a ha htoken
    rw [List.contains_iff_mem, List.mem_map] at htoken
    obtain ⟨dto, -, htoken⟩ := htoken
    have hnone := hcleared db1 hran.rely
    unfold Catalog.assignmentsOf at hnone
    rw [List.filter_eq_nil_iff] at hnone
    refine hnone a ha ?_
    obtain ⟨ht, hp, -⟩ := Token.assignment.inj htoken
    rw [← ht, ← hp, beq_self_eq_true, beq_self_eq_true]
    rfl
  simp only
  split
  · rename_i hfits
    rw [Bool.not_eq_true'] at hfits
    exact hunfit hfits
  split
  · rename_i htaken
    exact absurd (hfree.symm.trans htaken) Bool.false_ne_true
  refine h st1 db1 fun d hrely => ?_
  have hnone := hcleared d (hran.rely.trans (hrely.mono hran.held))
  have hall : (assignmentRows t p dtos env).filter (fun a => a.tenantId == t && a.productId == p) =
      assignmentRows t p dtos env := by
    rw [List.filter_eq_self]
    intro a ha
    obtain ⟨ht, hp⟩ := rows_own a ha
    rw [ht, hp, beq_self_eq_true, beq_self_eq_true]
    rfl
  rw [hran.log]
  show ((((st.log d).catalog.productModifierGroups ++ assignmentRows t p dtos env).filter _).map
    _) = _
  rw [List.filter_append, hall]
  show ((st.log d).catalog.assignmentsOf t p ++ _).map _ = _
  rw [hnone, List.nil_append, rule_assignmentRows]

/-- **A call on a product that nobody else assigns groups to** leaves its own list,
    and fails only if its list does not pass its validation, or does not fit. -/
theorem wpe_replaceModifierGroups {dto : ReplaceProductModifierGroupsDto}
    (hR : R (.replacing t p)) (hlog : ∀ d, st.log d = d) (hvalid : dto.valid = true)
    (hunfit : dto.modifierGroups.all AssignmentDto.fits = false → Err (.prisma .other))
    (herr : ∀ s e, J s → Refusal t p dto.modifierGroups s e → Err e) :
    wpe ((protocol R).during J) .readCommitted Err (replaceModifierGroups t p dto)
      (fun _ st' db' => Replaced R t p dto.modifierGroups st' db') st db := by
  have hinsert : ∀ st' db', Cleared R t p st' db' →
      wpe ((protocol R).during J) .readCommitted Err
      (if dto.modifierGroups.length > 0 then
        insertAssignments t p dto.modifierGroups fun _ => () else pure ())
      (fun _ st' db' => Replaced R t p dto.modifierGroups st' db') st' db' := by
    intro st1 db1 hcleared
    by_cases hlen : dto.modifierGroups.length > 0
    · rw [if_pos hlen]
      exact wpe_insertAssignments hcleared hunfit fun _ _ h => h
    · rw [if_neg hlen]
      have hnil : dto.modifierGroups = [] := List.eq_nil_of_length_eq_zero (by omega)
      intro d hrely
      rw [hcleared d hrely, hnil]
      rfl
  unfold replaceModifierGroups validateProductOwnership
  rw [wpe_bind, wpe_bind]
  refine wpe_stmt fun st1 db1 s1 _ hran1 _ hJ1 _ => ?_
  have hlog1 : ∀ d, st1.log d = d := fun d => by rw [hran1.log, hlog, id]
  refine wpe_guard (fun _ => ?_) fun hnone => herr s1 _ hJ1 (.product fun x hx hown => ?_)
  · rw [wpe_bind]
    refine wpe_lift (fun _ _ => ?_) fun e he => ?_
    · simp only
      split
      · rw [wpe_bind]
        refine wpe_stmt fun st2 db2 s2 _ hran2 hread2 hJ2 _ => ?_
        have hlog2 : ∀ d, st2.log d = d := fun d => by rw [hran2.log, hlog1, id]
        simp only [wpe_ret]
        rw [wpe_bind]
        refine wpe_guard (fun _ => ?_) fun hlen => ?_
        · rw [wpe_bind]
          exact wpe_deleteAssignments hR hlog2 fun _ => hinsert
        · -- a list whose groups are all active has been found as a whole
          have hnodup : (dto.modifierGroups.map fun a => Js.toLowerCase a.modifierGroupId).Nodup := by
            unfold ReplaceProductModifierGroupsDto.valid at hvalid
            rw [Bool.and_eq_true, decide_eq_true_eq] at hvalid
            exact hvalid.2
          by_cases hall : ∀ x ∈ dto.modifierGroups, x.ActiveIn t s2
          · rw [hlog1, length_activeGroups hread2.wf.legal hnodup hall, beq_self_eq_true] at hlen
            cases hlen
          · simp only [not_forall] at hall
            obtain ⟨x, hx, hinactive⟩ := hall
            exact herr s2 _ hJ2 (.group hx hinactive)
      · rw [wpe_bind]
        exact wpe_deleteAssignments hR hlog1 fun _ => hinsert
    · rcases refusal_of_checkAssignments he with ⟨rfl, hdup⟩ | ⟨rfl, x, hx, hbroken⟩
      · exact herr s1 _ hJ1 (.duplicate hdup)
      · exact herr s1 _ hJ1 (.rule hx hbroken)
  · rw [hlog, Option.isSome_eq_false_iff, Option.isNone_iff_eq_none, List.find?_eq_none] at hnone
    refine hnone x hx ?_
    unfold productIs
    rw [hown.1, hown.2, beq_self_eq_true, beq_self_eq_true]
    rfl

/-- What a call of an operation leaves, if it is a call of `replaceModifierGroups`. -/
def ReplacedBy (R : Token → Prop) (user : JwtPayload) (op : CatalogOp) (st : St Db Token)
    (db : Db) : Prop :=
  ∀ d, (protocol R).Rely st.held db d → ∀ productId dto,
    op = .replaceModifierGroups productId dto →
    R (.replacing (Js.toLowerCase user.tenantId) (Js.toLowerCase productId)) →
    ((st.log d).catalog.assignmentsOf (Js.toLowerCase user.tenantId)
      (Js.toLowerCase productId)).map ProductModifierGroup.rule =
        dto.modifierGroups.map AssignmentDto.rule

theorem wp_replacedBy {user : JwtPayload} {op : CatalogOp} (hvalid : op.valid = true)
    (hlog : ∀ d, st.log d = d) :
    wp (protocol R) .readCommitted (catalogBody user op)
      (fun _ st' db' => ReplacedBy R user op st' db') st db := by
  by_cases hcase : ∃ productId dto, op = .replaceModifierGroups productId dto ∧
      R (.replacing (Js.toLowerCase user.tenantId) (Js.toLowerCase productId))
  · obtain ⟨productId, dto, rfl, hR⟩ := hcase
    simp only [CatalogOp.valid, Bool.and_eq_true] at hvalid
    have hreplace : wpe ((protocol R).during fun _ => True) .readCommitted (fun _ => True)
        (replaceModifierGroups (Js.toLowerCase user.tenantId) (Js.toLowerCase productId) dto)
        _ st db :=
      wpe_replaceModifierGroups hR hlog hvalid.2 (fun _ => trivial) fun _ _ _ _ => trivial
    show wp _ _ (replaceModifierGroups _ _ dto >>= fun _ => Prog.ret _) _ st db
    rw [wp_bind]
    refine wp_mono ?_ (wp_of_during (fun _ => trivial) hreplace)
    rintro - st' db' h d hrely productId' dto' heq -
    obtain ⟨rfl, rfl⟩ := CatalogOp.replaceModifierGroups.inj heq
    exact h d hrely
  · have hany : wpe (protocol R) .readCommitted (fun _ => True) (catalogBody user op)
        (fun _ _ _ => True) st db := wpe_of_any fun _ => trivial
    refine wp_of_wpe (wpe_mono ?_ hany)
    intro _ st' db' _ d _ productId dto heq hR
    exact absurd ⟨productId, dto, heq, hR⟩ hcase

end Rules

end CatalogServices

end Kasir
