/-
  Kasir.Catalog.Dto

  The requests of `ProductsService` and `ModifierGroupsService` that the model has, and
  what the request pipe admits of them.
-/

import Kasir.Transactions.Service

namespace Kasir.CatalogServices

open Js Transactions

/-- `@Matches(/\S/) @MaxLength(n)` -/
def validName (n : Nat) (name : String) : Bool :=
  (name.toList.any fun c => !isSpace c) && decide (validatorLength name ≤ n)

/-- `@IsInt() @Min(0) @Max(2147483647)` -/
def validInteger (n : Int) : Bool := decide (0 ≤ n) && decide (n ≤ int4Max)

/-- `@IsInt() @Min(0)`, without a maximum. -/
def validDisplayOrder (n : Int) : Bool := decide (0 ≤ n)

/-- `CreateProductDto`. -/
structure CreateProductDto where
  name : String
  sku : String
  price : Int
  cost : Int
  minimumStock : Int
  categoryId : Option String := none
  trackStock : Option Bool := none
deriving DecidableEq, Repr

def CreateProductDto.valid (dto : CreateProductDto) : Bool :=
  validName 150 dto.name && validName 100 dto.sku && validInteger dto.price &&
    validInteger dto.cost && validInteger dto.minimumStock && dto.categoryId.all isUUID

/-- `UpdateProductDto`.  A category that is given may be null. -/
structure UpdateProductDto where
  name : Option String := none
  sku : Option String := none
  price : Option Int := none
  cost : Option Int := none
  minimumStock : Option Int := none
  categoryId : Option (Option String) := none
  trackStock : Option Bool := none
deriving DecidableEq, Repr

def UpdateProductDto.valid (dto : UpdateProductDto) : Bool :=
  dto.name.all (validName 150) && dto.sku.all (validName 100) && dto.price.all validInteger &&
    dto.cost.all validInteger && dto.minimumStock.all validInteger && dto.categoryId.join.all isUUID

/-- `ReplaceProductModifierGroupItemDto`. -/
structure AssignmentDto where
  modifierGroupId : String
  required : Bool
  selectionType : SelectionType
  displayOrder : Int
deriving DecidableEq, Repr

def AssignmentDto.valid (dto : AssignmentDto) : Bool :=
  isUUID dto.modifierGroupId && validDisplayOrder dto.displayOrder

/-- `ReplaceProductModifierGroupsDto`. -/
structure ReplaceProductModifierGroupsDto where
  modifierGroups : List AssignmentDto
deriving DecidableEq, Repr

def ReplaceProductModifierGroupsDto.valid (dto : ReplaceProductModifierGroupsDto) : Bool :=
  dto.modifierGroups.all AssignmentDto.valid &&
    decide (dto.modifierGroups.map fun a => toLowerCase a.modifierGroupId).Nodup

/-- `CreateModifierGroupDto`. -/
structure CreateModifierGroupDto where
  name : String
  isActive : Option Bool := none
  displayOrder : Option Int := none
deriving DecidableEq, Repr

def CreateModifierGroupDto.valid (dto : CreateModifierGroupDto) : Bool :=
  validName 150 dto.name && dto.displayOrder.all validDisplayOrder

/-- `UpdateModifierGroupDto`. -/
structure UpdateModifierGroupDto where
  name : Option String := none
  isActive : Option Bool := none
  displayOrder : Option Int := none
deriving DecidableEq, Repr

def UpdateModifierGroupDto.valid (dto : UpdateModifierGroupDto) : Bool :=
  dto.name.all (validName 150) && dto.displayOrder.all validDisplayOrder

/-- `CreateModifierOptionDto`. -/
structure CreateModifierOptionDto where
  name : String
  priceDelta : Int
  isActive : Option Bool := none
  displayOrder : Option Int := none
deriving DecidableEq, Repr

def CreateModifierOptionDto.valid (dto : CreateModifierOptionDto) : Bool :=
  validName 150 dto.name && validInteger dto.priceDelta && dto.displayOrder.all validDisplayOrder

/-- `UpdateModifierOptionDto`. -/
structure UpdateModifierOptionDto where
  name : Option String := none
  priceDelta : Option Int := none
  isActive : Option Bool := none
  displayOrder : Option Int := none
deriving DecidableEq, Repr

def UpdateModifierOptionDto.valid (dto : UpdateModifierOptionDto) : Bool :=
  dto.name.all (validName 150) && dto.priceDelta.all validInteger &&
    dto.displayOrder.all validDisplayOrder

/-- The catalog operations and their requests. -/
inductive CatalogOp
  | createProduct (dto : CreateProductDto)
  | updateProduct (id : String) (dto : UpdateProductDto)
  | getModifierGroups (productId : String)
  | replaceModifierGroups (productId : String) (dto : ReplaceProductModifierGroupsDto)
  | assignModifierGroup (productId : String) (dto : AssignmentDto)
  | updateModifierGroupAssignment (productId groupId : String) (dto : AssignmentDto)
  | removeModifierGroup (productId groupId : String)
  | createGroup (dto : CreateModifierGroupDto)
  | updateGroup (id : String) (dto : UpdateModifierGroupDto)
  | removeGroup (id : String)
  | createOption (groupId : String) (dto : CreateModifierOptionDto)
  | updateOption (groupId optionId : String) (dto : UpdateModifierOptionDto)
  | removeOption (groupId optionId : String)
deriving DecidableEq, Repr

/-- What the request pipe admits. -/
def CatalogOp.valid : CatalogOp → Bool
  | .createProduct dto => dto.valid
  | .updateProduct id dto => isUUID id && dto.valid
  | .getModifierGroups productId => isUUID productId
  | .replaceModifierGroups productId dto => isUUID productId && dto.valid
  | .assignModifierGroup productId dto => isUUID productId && dto.valid
  | .updateModifierGroupAssignment productId groupId dto =>
      isUUID productId && isUUID groupId && dto.valid
  | .removeModifierGroup productId groupId => isUUID productId && isUUID groupId
  | .createGroup dto => dto.valid
  | .updateGroup id dto => isUUID id && dto.valid
  | .removeGroup id => isUUID id
  | .createOption groupId dto => isUUID groupId && dto.valid
  | .updateOption groupId optionId dto => isUUID groupId && isUUID optionId && dto.valid
  | .removeOption groupId optionId => isUUID groupId && isUUID optionId

end Kasir.CatalogServices
