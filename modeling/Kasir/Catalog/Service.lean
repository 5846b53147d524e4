/-
  Kasir.Catalog.Service

  The operations of `ProductsService` and `ModifierGroupsService` that change
  products, modifier groups, options and assignments, and the one that shows the
  groups of a product.

  Each operation is a few statements; they are one transaction body here.  Requests
  have passed the request pipe (`valid`).

  `replaceModifierGroups` is modelled up to the commit of its transaction.  What it
  answers then is what `getModifierGroups` answers, which it calls next.
-/

import Kasir.Catalog.Dto

namespace Kasir.CatalogServices

open Txn Js Transactions

-- ============================================================================
-- Statements on the catalog
-- ============================================================================

/-- An INSERT of a row under a unique index.  `fits` tells whether its values fit their
    columns. -/
def insertRow {α : Type} (fits : Bool) (taken : Db → Bool) (index : UniqueIndex) (row : Env → α)
    (add : α → Catalog → Catalog) : Body α :=
  Prog.stmt (fun _ => []) (fun v => Db.modifyCatalog (add (row v.env)))
    fun v =>
      if !fits then .throw (.prisma .other)
      else if taken v.cur then .throw (.prisma (.P2002 index))
      else .ret (row v.env)

/-- `update` of the one row that `find` finds.  `change` applies what becomes of the row
    where the row is, and `taken` tells whether another row has its new entry in the
    unique index. -/
def updateRow {α : Type} (tokens : List Token) (fits : Bool) (taken : Db → Bool)
    (index : UniqueIndex) (find : Db → Option α) (f : Env → α → α)
    (change : (α → α) → Catalog → Catalog) : Body α :=
  Prog.stmt (fun _ => tokens) (fun v => Db.modifyCatalog (change (f v.env)))
    fun v =>
      if !fits then .throw (.prisma .other)
      else match find v.cur with
        | none => .throw (.prisma .P2025)
        | some row =>
            if taken v.cur then .throw (.prisma (.P2002 index)) else .ret (f v.env row)

/-- The error handling of a write under one unique index. -/
def handleCatalog (index : UniqueIndex) (taken : Exc) (e : Exc) : Option Exc :=
  if e = .prisma (.P2002 index) then some taken else some e

/-- `orderBy: [{ display_order: 'asc' }, { id: 'asc' }]` -/
def inDisplayOrder {α : Type} (displayOrder : α → Int) (id : α → Id) (rows : List α) : List α :=
  rows.insertionSort fun a b =>
    displayOrder a < displayOrder b ∨ (displayOrder a = displayOrder b ∧ id a ≤ id b)

-- ============================================================================
-- Products
-- ============================================================================

def productNotFound : Exc := .coded .notFound "Product not found" "PRODUCT_NOT_FOUND"

def categoryNotFound : Exc := .coded .notFound "Category not found" "CATEGORY_NOT_FOUND"

def skuAlreadyExists : Exc := .coded .conflict "Product SKU already exists" "SKU_ALREADY_EXISTS"

def productIs (tenantId id : Id) (p : Product) : Bool := p.id == id && p.tenantId == tenantId

/-- `validateProductOwnership`. -/
def validateProductOwnership (tenantId productId : Id) : Body Unit := do
  let product ← query fun db => db.catalog.products.find? (productIs tenantId productId)
  ensure product.isSome productNotFound

/-- `validateCategory`. -/
def validateCategory (tenantId : Id) : Option String → Body Unit
  | none => pure ()
  | some categoryId => do
      let category ← query fun db => db.accounts.categories.find? fun c =>
        c.id == toLowerCase categoryId && c.tenantId == tenantId
      ensure category.isSome categoryNotFound

/-- The row of a new product. -/
def newProduct (tenantId : Id) (dto : CreateProductDto) (h : 0 ≤ dto.price ∧ 0 ≤ dto.cost)
    (env : Env) : Product where
  id := env.fresh 0
  tenantId := tenantId
  name := dto.name
  sku := dto.sku
  price := dto.price
  cost := dto.cost
  trackStock := dto.trackStock.getD true
  isActive := true
  categoryId := dto.categoryId.map toLowerCase
  minimumStock := dto.minimumStock
  createdAt := env.now
  price_nonneg := h.1
  cost_nonneg := h.2

/-- `ProductsService.create`. -/
def createProduct (tenantId : Id) (dto : CreateProductDto) : Body Product := do
  validateCategory tenantId dto.categoryId
  if h : 0 ≤ dto.price ∧ 0 ≤ dto.cost then
    insertRow (varchar 150 dto.name && varchar 100 dto.sku)
      (fun db => db.catalog.products.any fun p => p.tenantId == tenantId && p.sku == dto.sku)
      .productsTenantSku (newProduct tenantId dto h)
      fun p c => { c with products := c.products ++ [p] }
  else Prog.throw (.prisma .other)

/-- The row after an update, whose prices satisfy the constraints. -/
def updatedProduct (dto : UpdateProductDto)
    (h : (∀ n ∈ dto.price, 0 ≤ n) ∧ (∀ n ∈ dto.cost, 0 ≤ n)) (p : Product) : Product :=
  { p with
    name := dto.name.getD p.name
    sku := dto.sku.getD p.sku
    price := dto.price.getD p.price
    cost := dto.cost.getD p.cost
    minimumStock := dto.minimumStock.getD p.minimumStock
    categoryId := (dto.categoryId.map fun c => c.map toLowerCase).getD p.categoryId
    trackStock := dto.trackStock.getD p.trackStock
    price_nonneg := by
      cases hp : dto.price with
      | none => exact p.price_nonneg
      | some n => exact h.1 n hp
    cost_nonneg := by
      cases hc : dto.cost with
      | none => exact p.cost_nonneg
      | some n => exact h.2 n hc }

/-- `ProductsService.update`. -/
def updateProduct (tenantId id : Id) (dto : UpdateProductDto) : Body Product := do
  validateProductOwnership tenantId id
  validateCategory tenantId dto.categoryId.join
  ensure (dto.name.isSome || dto.sku.isSome || dto.price.isSome || dto.cost.isSome ||
      dto.minimumStock.isSome || dto.categoryId.isSome || dto.trackStock.isSome)
    (.plain .badRequest "At least one product field is required")
  if h : (∀ n ∈ dto.price, 0 ≤ n) ∧ (∀ n ∈ dto.cost, 0 ≤ n) then
    updateRow [] (dto.name.all (varchar 150) && dto.sku.all (varchar 100))
      (fun db => dto.sku.any fun sku => db.catalog.products.any fun p =>
        p.tenantId == tenantId && p.sku == sku && p.id != id)
      .productsTenantSku (fun db => db.catalog.products.find? (productIs tenantId id))
      (fun _ => updatedProduct dto h)
      fun f c => { c with
        products := c.products.map fun p => if productIs tenantId id p then f p else p }
  else Prog.throw (.prisma .other)

-- ============================================================================
-- Assignments
-- ============================================================================

def requiredMultipleNotSupported : Exc :=
  .coded .badRequest "Required MULTIPLE modifier groups are not supported in V1"
    "REQUIRED_MULTIPLE_NOT_SUPPORTED"

def assignmentNotFound : Exc :=
  .coded .notFound "Modifier group assignment not found" "MODIFIER_GROUP_ASSIGNMENT_NOT_FOUND"

def alreadyAssigned : Exc :=
  .coded .conflict "Modifier group already assigned to this product"
    "MODIFIER_GROUP_ALREADY_ASSIGNED"

def groupNotFound (message : String) : Exc := .coded .notFound message "MODIFIER_GROUP_NOT_FOUND"

def groupsNotFound : Exc := groupNotFound "One or more active modifier groups were not found"

def duplicateAssignment : Exc :=
  .coded .conflict "Duplicate modifier group assignment" "DUPLICATE_MODIFIER_GROUP_ASSIGNMENT"

/-- The primary key of an assignment. -/
def assignmentIs (tenantId productId groupId : Id) (a : ProductModifierGroup) : Bool :=
  a.tenantId == tenantId && a.productId == productId && a.modifierGroupId == groupId

def assignmentToken (a : ProductModifierGroup) : Token :=
  .assignment a.tenantId a.productId a.modifierGroupId

/-- A row of `product_modifier_groups` in an answer. -/
structure AssignmentAnswer where
  tenantId : Id
  productId : Id
  modifierGroupId : Id
  required : Bool
  selectionType : SelectionType
  displayOrder : Int
  createdAt : Nat
  updatedAt : Nat
deriving DecidableEq, Repr

def assignmentAnswer (a : ProductModifierGroup) : AssignmentAnswer where
  tenantId := a.tenantId
  productId := a.productId
  modifierGroupId := a.modifierGroupId
  required := a.required
  selectionType := a.selectionType
  displayOrder := a.displayOrder
  createdAt := a.createdAt
  updatedAt := a.updatedAt

/-- Required MULTIPLE assignments are refused; the selection type itself has been
    checked by the request pipe. -/
def checkAssignmentRule (dto : AssignmentDto) : Except Exc Unit :=
  if dto.required && dto.selectionType == .multiple then .error requiredMultipleNotSupported
  else .ok ()

/-- The checks of a list, one assignment after the other. -/
def checkAssignments (seen : List String) : List AssignmentDto → Except Exc Unit
  | [] => .ok ()
  | dto :: rest =>
      if seen.contains dto.modifierGroupId then .error duplicateAssignment
      else checkAssignmentRule dto >>= fun _ =>
        checkAssignments (dto.modifierGroupId :: seen) rest

/-- The row of a request's assignment. -/
def assignmentRow (tenantId productId : Id) (env : Env) (tuple : Id) (dto : AssignmentDto) :
    ProductModifierGroup where
  tuple := tuple
  tenantId := tenantId
  productId := productId
  modifierGroupId := toLowerCase dto.modifierGroupId
  required := dto.required
  selectionType := dto.selectionType
  displayOrder := dto.displayOrder
  createdAt := env.now
  updatedAt := env.now

/-- The rows of a request's assignments. -/
def assignmentRows (tenantId productId : Id) (dtos : List AssignmentDto) (env : Env) :
    List ProductModifierGroup :=
  dtos.zipIdx.map fun x => assignmentRow tenantId productId env (env.fresh x.2) x.1

/-- The row of an assignment after an update. -/
def updatedAssignment (dto : AssignmentDto) (env : Env) (a : ProductModifierGroup) :
    ProductModifierGroup :=
  { a with
    modifierGroupId := toLowerCase dto.modifierGroupId
    required := dto.required
    selectionType := dto.selectionType
    displayOrder := dto.displayOrder
    updatedAt := env.now }

/-- The active groups of the tenant among the given ones. -/
def activeGroups (tenantId : Id) (groupIds : List Id) (db : Db) : List ModifierGroup :=
  db.catalog.modifierGroups.filter fun g =>
    g.tenantId == tenantId && groupIds.contains g.id && g.isActive

/-- The values of an assignment fit their columns. -/
def AssignmentDto.fits (dto : AssignmentDto) : Bool := decide (dto.displayOrder ≤ int4Max)

/-- An INSERT of assignments.  It answers with what `answer` makes of what it was
    supplied with. -/
def insertAssignments {α : Type} (tenantId productId : Id) (dtos : List AssignmentDto)
    (answer : Env → α) : Body α :=
  let tokens := dtos.map fun dto => .assignment tenantId productId (toLowerCase dto.modifierGroupId)
  let taken := fun (db : Db) => db.catalog.productModifierGroups.any fun a =>
    tokens.contains (assignmentToken a)
  Prog.stmt (fun _ => .replaced tenantId productId :: tokens)
    (fun v => Db.modifyCatalog fun c =>
      { c with productModifierGroups :=
          c.productModifierGroups ++ assignmentRows tenantId productId dtos v.env })
    fun v =>
      if !dtos.all AssignmentDto.fits then .throw (.prisma .other)
      else if taken v.cur then .throw (.prisma (.P2002 .productModifierGroupsPkey))
      else .ret (answer v.env)

/-- A DELETE of the assignments that satisfy the condition.  It finds them when it
    starts, waits for their locks and deletes those that are still there and still
    satisfy the condition.  It does not see what is inserted while it waits.
    `marks` are left when it starts.  It returns the deleted rows. -/
def deleteAssignments (marks : List Token) (p : ProductModifierGroup → Bool) :
    Body (List ProductModifierGroup) := do
  let found ← Prog.stmt (fun _ => marks) (fun _ => id)
    fun v => .ret (v.snap.catalog.productModifierGroups.filter p)
  let gone := fun (a : ProductModifierGroup) => p a && found.any fun x => x.tuple == a.tuple
  Prog.stmt (fun _ => found.map assignmentToken)
    (fun _ => Db.modifyCatalog fun c =>
      { c with productModifierGroups := c.productModifierGroups.filter fun a => !gone a })
    fun v => .ret (v.cur.catalog.productModifierGroups.filter gone)

/-- A group of a product in the answer of `getModifierGroups`. -/
structure AssignedGroup where
  id : Id
  name : String
  required : Bool
  selectionType : SelectionType
  displayOrder : Int
  options : List ModifierOption
deriving DecidableEq, Repr

/-- The assignments of the product whose groups are active. -/
def activeAssignments (tenantId productId : Id) (db : Db) : List ProductModifierGroup :=
  inDisplayOrder ProductModifierGroup.displayOrder ProductModifierGroup.modifierGroupId
    (db.catalog.productModifierGroups.filter fun a =>
      a.tenantId == tenantId && a.productId == productId &&
        db.catalog.modifierGroups.any fun g =>
          g.tenantId == tenantId && g.id == a.modifierGroupId && g.isActive)

/-- The group of an assignment with its options.  The client finds no row without its
    required relation. -/
def assignedGroup (groups : List ModifierGroup) (options : List ModifierOption)
    (a : ProductModifierGroup) : Except Exc AssignedGroup :=
  match groups.find? fun g => g.id == a.modifierGroupId with
  | none => .error (.prisma .other)
  | some g => .ok
      { id := g.id
        name := g.name
        required := a.required
        selectionType := a.selectionType
        displayOrder := a.displayOrder
        options := options.filter fun o => o.modifierGroupId == g.id }

/-- `ProductsService.getModifierGroups`.  The client reads the relations one after the
    other. -/
def getModifierGroups (tenantId productId : Id) : Body (List AssignedGroup) := do
  validateProductOwnership tenantId productId
  let assignments ← query (activeAssignments tenantId productId)
  let groups ← query fun db => db.catalog.modifierGroups.filter fun g =>
    g.tenantId == tenantId && assignments.any fun a => a.modifierGroupId == g.id
  let options ← query fun db => inDisplayOrder ModifierOption.displayOrder ModifierOption.id
    (db.catalog.modifierOptions.filter fun o =>
      o.tenantId == tenantId && o.isActive && groups.any fun g => g.id == o.modifierGroupId)
  Prog.lift (assignments.mapM (assignedGroup groups options))

/-- `ProductsService.replaceModifierGroups`, up to its commit. -/
def replaceModifierGroups (tenantId productId : Id) (dto : ReplaceProductModifierGroupsDto) :
    Body Unit := do
  validateProductOwnership tenantId productId
  Prog.lift (checkAssignments [] dto.modifierGroups)
  let groupIds := dto.modifierGroups.map fun a => toLowerCase a.modifierGroupId
  if groupIds.length > 0 then do
    let owned ← query (activeGroups tenantId groupIds)
    ensure (owned.length == groupIds.length) groupsNotFound
  else pure ()
  let _ ← deleteAssignments [.replacing tenantId productId]
    fun a => a.tenantId == tenantId && a.productId == productId
  if dto.modifierGroups.length > 0 then
    insertAssignments tenantId productId dto.modifierGroups fun _ => ()
  else pure ()

/-- The group is there and active. -/
def validateActiveGroup (tenantId groupId : Id) : Body Unit := do
  let group ← query fun db => db.catalog.modifierGroups.find? fun g =>
    g.tenantId == tenantId && g.id == groupId && g.isActive
  ensure group.isSome (groupNotFound "Active modifier group not found")

/-- `ProductsService.assignModifierGroup`. -/
def assignModifierGroup (tenantId productId : Id) (dto : AssignmentDto) :
    Body AssignmentAnswer := do
  validateProductOwnership tenantId productId
  Prog.lift (checkAssignmentRule dto)
  validateActiveGroup tenantId (toLowerCase dto.modifierGroupId)
  insertAssignments tenantId productId [dto] fun env =>
    assignmentAnswer (assignmentRow tenantId productId env (env.fresh 0) dto)

/-- The assignment is there. -/
def validateAssignment (tenantId productId groupId : Id) : Body Unit := do
  let assignment ← query fun db =>
    db.catalog.productModifierGroups.find? (assignmentIs tenantId productId groupId)
  ensure assignment.isSome assignmentNotFound

/-- An `update` of an assignment. -/
def changeAssignment (tenantId productId groupId : Id) (dto : AssignmentDto) :
    Body AssignmentAnswer := do
  let row ← updateRow [.assignment tenantId productId groupId,
      .assignment tenantId productId (toLowerCase dto.modifierGroupId),
      .replaced tenantId productId] dto.fits
    (fun db => toLowerCase dto.modifierGroupId != groupId && db.catalog.productModifierGroups.any
      (assignmentIs tenantId productId (toLowerCase dto.modifierGroupId)))
    .productModifierGroupsPkey
    (fun db => db.catalog.productModifierGroups.find? (assignmentIs tenantId productId groupId))
    (updatedAssignment dto)
    fun f c => { c with
      productModifierGroups := c.productModifierGroups.map fun a =>
        if assignmentIs tenantId productId groupId a then f a else a }
  pure (assignmentAnswer row)

/-- `ProductsService.updateModifierGroupAssignment`.  The group's identifier in the path
    is compared with the one in the request as they were sent. -/
def updateModifierGroupAssignment (tenantId productId : Id) (groupId : String)
    (dto : AssignmentDto) : Body AssignmentAnswer := do
  validateProductOwnership tenantId productId
  Prog.lift (checkAssignmentRule dto)
  validateAssignment tenantId productId (toLowerCase groupId)
  validateActiveGroup tenantId (toLowerCase dto.modifierGroupId)
  if dto.modifierGroupId ≠ groupId then do
    let existing ← query fun db => db.catalog.productModifierGroups.find?
      (assignmentIs tenantId productId (toLowerCase dto.modifierGroupId))
    ensure existing.isNone alreadyAssigned
  else pure ()
  changeAssignment tenantId productId (toLowerCase groupId) dto

/-- `ProductsService.removeModifierGroup`. -/
def removeModifierGroup (tenantId productId groupId : Id) : Body AssignmentAnswer := do
  validateProductOwnership tenantId productId
  validateAssignment tenantId productId groupId
  let deleted ← deleteAssignments [] (assignmentIs tenantId productId groupId)
  Prog.require (deleted.head?.map assignmentAnswer) (.prisma .P2025)

-- ============================================================================
-- Groups
-- ============================================================================

def groupNameExists : Exc :=
  .coded .conflict "Modifier group name already exists in this tenant"
    "MODIFIER_GROUP_NAME_EXISTS"

def groupIs (tenantId id : Id) (g : ModifierGroup) : Bool := g.id == id && g.tenantId == tenantId

/-- `validateGroupOwnership`. -/
def validateGroupOwnership (tenantId groupId : Id) : Body Unit := do
  let group ← query fun db => db.catalog.modifierGroups.find? (groupIs tenantId groupId)
  ensure group.isSome (groupNotFound "Modifier group not found")

/-- A group in an answer, with all its options. -/
structure GroupAnswer where
  group : ModifierGroup
  options : List ModifierOption
deriving DecidableEq, Repr

/-- `include: { options: true }` -/
def withOptions (tenantId : Id) (group : ModifierGroup) : Body GroupAnswer := do
  let options ← queryRanked fun rank db => unordered rank ModifierOption.id
    (db.catalog.modifierOptions.filter fun o =>
      o.tenantId == tenantId && o.modifierGroupId == group.id)
  pure { group, options }

/-- The row of a new group. -/
def newGroup (tenantId : Id) (dto : CreateModifierGroupDto) (env : Env) : ModifierGroup where
  id := env.fresh 0
  tenantId := tenantId
  name := dto.name
  isActive := dto.isActive.getD true
  displayOrder := dto.displayOrder.getD 0
  createdAt := env.now
  updatedAt := env.now

/-- `ModifierGroupsService.create`. -/
def createGroup (tenantId : Id) (dto : CreateModifierGroupDto) : Body GroupAnswer := do
  let group ← insertRow
    (varchar 150 dto.name && dto.displayOrder.all fun n => decide (n ≤ int4Max))
    (fun db => db.catalog.modifierGroups.any fun g => g.tenantId == tenantId && g.name == dto.name)
    .modifierGroupsTenantName (newGroup tenantId dto)
    fun g c => { c with modifierGroups := c.modifierGroups ++ [g] }
  withOptions tenantId group

/-- An `update` of a group.  `taken` tells whether another group has its new name. -/
def changeGroup (tenantId id : Id) (fits : Bool) (taken : Db → Bool)
    (f : Env → ModifierGroup → ModifierGroup) : Body GroupAnswer := do
  validateGroupOwnership tenantId id
  let group ← updateRow [] fits taken .modifierGroupsTenantName
    (fun db => db.catalog.modifierGroups.find? (groupIs tenantId id)) f
    fun f c => { c with
      modifierGroups := c.modifierGroups.map fun g => if groupIs tenantId id g then f g else g }
  withOptions tenantId group

/-- The row after an update. -/
def updatedGroup (dto : UpdateModifierGroupDto) (env : Env) (g : ModifierGroup) : ModifierGroup :=
  { g with
    name := dto.name.getD g.name
    isActive := dto.isActive.getD g.isActive
    displayOrder := dto.displayOrder.getD g.displayOrder
    updatedAt := env.now }

/-- `ModifierGroupsService.update`. -/
def updateGroup (tenantId id : Id) (dto : UpdateModifierGroupDto) : Body GroupAnswer :=
  changeGroup tenantId id
    (dto.name.all (varchar 150) && dto.displayOrder.all fun n => decide (n ≤ int4Max))
    (fun db => dto.name.any fun name => db.catalog.modifierGroups.any fun g =>
      g.tenantId == tenantId && g.name == name && g.id != id)
    (updatedGroup dto)

/-- `ModifierGroupsService.remove`. -/
def removeGroup (tenantId id : Id) : Body GroupAnswer :=
  changeGroup tenantId id true (fun _ => false) fun env g =>
    { g with isActive := false, updatedAt := env.now }

-- ============================================================================
-- Options
-- ============================================================================

def optionNameExists : Exc :=
  .coded .conflict "Modifier option name already exists in this group"
    "MODIFIER_OPTION_NAME_EXISTS"

def optionNotFound : Exc :=
  .coded .notFound "Modifier option not found" "MODIFIER_OPTION_NOT_FOUND"

/-- The row of a new option. -/
def newOption (tenantId groupId : Id) (dto : CreateModifierOptionDto) (h : 0 ≤ dto.priceDelta)
    (env : Env) : ModifierOption where
  id := env.fresh 0
  tenantId := tenantId
  modifierGroupId := groupId
  name := dto.name
  priceDelta := dto.priceDelta
  isActive := dto.isActive.getD true
  displayOrder := dto.displayOrder.getD 0
  createdAt := env.now
  updatedAt := env.now
  priceDelta_nonneg := h

/-- `ModifierGroupsService.createOption`. -/
def createOption (tenantId groupId : Id) (dto : CreateModifierOptionDto) :
    Body ModifierOption := do
  validateGroupOwnership tenantId groupId
  if h : 0 ≤ dto.priceDelta then
    insertRow (varchar 150 dto.name && dto.displayOrder.all fun n => decide (n ≤ int4Max))
      (fun db => db.catalog.modifierOptions.any fun o =>
        o.tenantId == tenantId && o.modifierGroupId == groupId && o.name == dto.name)
      .modifierOptionsTenantGroupName (newOption tenantId groupId dto h)
      fun o c => { c with modifierOptions := c.modifierOptions ++ [o] }
  else Prog.throw (.prisma .other)

/-- An `update` of an option.  `taken` tells whether another option has its new name. -/
def changeOption (tenantId groupId optionId : Id) (fits : Bool) (taken : Db → Bool)
    (f : Env → ModifierOption → ModifierOption) : Body ModifierOption := do
  let option ← query fun db => db.catalog.modifierOptions.find? fun o =>
    o.id == optionId && o.modifierGroupId == groupId && o.tenantId == tenantId
  ensure option.isSome optionNotFound
  updateRow [] fits taken .modifierOptionsTenantGroupName
    (fun db => db.catalog.modifierOptions.find? fun o => o.id == optionId) f
    fun f c => { c with
      modifierOptions := c.modifierOptions.map fun o => if o.id == optionId then f o else o }

/-- The row after an update, whose delta satisfies the constraint. -/
def updatedOption (dto : UpdateModifierOptionDto) (h : ∀ n ∈ dto.priceDelta, 0 ≤ n) (env : Env)
    (o : ModifierOption) : ModifierOption :=
  { o with
    name := dto.name.getD o.name
    priceDelta := dto.priceDelta.getD o.priceDelta
    isActive := dto.isActive.getD o.isActive
    displayOrder := dto.displayOrder.getD o.displayOrder
    updatedAt := env.now
    priceDelta_nonneg := by
      cases hd : dto.priceDelta with
      | none => exact o.priceDelta_nonneg
      | some n => exact h n hd }

/-- `ModifierGroupsService.updateOption`. -/
def updateOption (tenantId groupId optionId : Id) (dto : UpdateModifierOptionDto) :
    Body ModifierOption :=
  if h : ∀ n ∈ dto.priceDelta, 0 ≤ n then
    changeOption tenantId groupId optionId
      (dto.name.all (varchar 150) && dto.displayOrder.all fun n => decide (n ≤ int4Max))
      (fun db => dto.name.any fun name => db.catalog.modifierOptions.any fun o =>
        o.tenantId == tenantId && o.modifierGroupId == groupId && o.name == name &&
          o.id != optionId)
      (updatedOption dto h)
  else Prog.throw (.prisma .other)

/-- `ModifierGroupsService.removeOption`. -/
def removeOption (tenantId groupId optionId : Id) : Body ModifierOption :=
  changeOption tenantId groupId optionId true (fun _ => false) fun env o =>
    { o with isActive := false, updatedAt := env.now }

-- ============================================================================
-- All operations
-- ============================================================================

/-- What an operation answers. -/
inductive CatalogAnswer
  | product (row : Product)
  /-- the groups of a product, under the identifier the request has -/
  | modifierGroups (productId : String) (groups : List AssignedGroup)
  /-- the list is replaced, and the groups of the product are read next -/
  | replaced
  | assignment (row : AssignmentAnswer)
  | group (answer : GroupAnswer)
  | option (row : ModifierOption)
deriving DecidableEq, Repr

/-- The body of an operation. -/
def catalogBody (user : JwtPayload) (op : CatalogOp) : Body CatalogAnswer :=
  let tenantId := toLowerCase user.tenantId
  match op with
  | .createProduct dto => do
      let row ← createProduct tenantId dto
      pure (.product row)
  | .updateProduct id dto => do
      let row ← updateProduct tenantId (toLowerCase id) dto
      pure (.product row)
  | .getModifierGroups productId => do
      let groups ← getModifierGroups tenantId (toLowerCase productId)
      pure (.modifierGroups productId groups)
  | .replaceModifierGroups productId dto => do
      replaceModifierGroups tenantId (toLowerCase productId) dto
      pure .replaced
  | .assignModifierGroup productId dto => do
      let row ← assignModifierGroup tenantId (toLowerCase productId) dto
      pure (.assignment row)
  | .updateModifierGroupAssignment productId groupId dto => do
      let row ← updateModifierGroupAssignment tenantId (toLowerCase productId) groupId dto
      pure (.assignment row)
  | .removeModifierGroup productId groupId => do
      let row ← removeModifierGroup tenantId (toLowerCase productId) (toLowerCase groupId)
      pure (.assignment row)
  | .createGroup dto => do
      let answer ← createGroup tenantId dto
      pure (.group answer)
  | .updateGroup id dto => do
      let answer ← updateGroup tenantId (toLowerCase id) dto
      pure (.group answer)
  | .removeGroup id => do
      let answer ← removeGroup tenantId (toLowerCase id)
      pure (.group answer)
  | .createOption groupId dto => do
      let row ← createOption tenantId (toLowerCase groupId) dto
      pure (.option row)
  | .updateOption groupId optionId dto => do
      let row ← updateOption tenantId (toLowerCase groupId) (toLowerCase optionId) dto
      pure (.option row)
  | .removeOption groupId optionId => do
      let row ← removeOption tenantId (toLowerCase groupId) (toLowerCase optionId)
      pure (.option row)

/-- The error handling of an operation. -/
def handleOp (op : CatalogOp) (e : Exc) : Option Exc :=
  match op with
  | .createProduct _ | .updateProduct .. =>
      handleCatalog .productsTenantSku skuAlreadyExists e
  | .assignModifierGroup .. | .updateModifierGroupAssignment .. =>
      handleCatalog .productModifierGroupsPkey alreadyAssigned e
  | .createGroup _ | .updateGroup .. => handleCatalog .modifierGroupsTenantName groupNameExists e
  | .createOption .. | .updateOption .. =>
      handleCatalog .modifierOptionsTenantGroupName optionNameExists e
  | .getModifierGroups _ | .replaceModifierGroups .. | .removeModifierGroup .. | .removeGroup _
  | .removeOption .. => some e

end Kasir.CatalogServices
