/-
  Kasir.Js.Sort

  `Array.prototype.sort` without a comparison function: strings are ordered by
  their UTF-16 code units.  Two lists of strings sort to the same list exactly
  when one is a permutation of the other.
-/

import Kasir.Js.PrefixCode
import Mathlib.Data.List.Sort
import Mathlib.Order.Lattice.Nat
import Mathlib.Data.List.Lex

namespace Js

/-- The UTF-16 code units of a character. -/
def codeUnits (c : Char) : List Nat :=
  let n := c.toNat
  if n < 0x10000 then [n]
  else [0xD800 + (n - 0x10000) / 0x400, 0xDC00 + (n - 0x10000) % 0x400]

/-- The UTF-16 code units of a string. -/
def utf16 (s : String) : List Nat := s.toList.flatMap codeUnits

/-- `String.prototype.length`. -/
def utf16Length (s : String) : Nat := (utf16 s).length

/-- A character is one code unit or two. -/
theorem length_le_utf16Length (s : String) : s.length ≤ utf16Length s := by
  rw [← String.length_toList]
  unfold utf16Length utf16
  induction s.toList with
  | nil => exact Nat.zero_le _
  | cons c cs ih =>
      have hone : 1 ≤ (codeUnits c).length := by
        unfold codeUnits
        simp only
        split <;> simp
      rw [List.flatMap_cons, List.length_append, List.length_cons]
      omega

/-- A character is a scalar value: in range and no surrogate. -/
theorem toNat_scalar (c : Char) :
    c.toNat < 0xD800 ∨ (0xE000 ≤ c.toNat ∧ c.toNat < 0x110000) := by
  have h := c.valid
  simp only [UInt32.isValidChar, Nat.isValidChar] at h
  change c.val.toNat < 0xD800 ∨ (0xE000 ≤ c.val.toNat ∧ c.val.toNat < 0x110000)
  omega

theorem codeUnits_prefixCode : PrefixCode codeUnits := by
  intro a b h
  have ha := toNat_scalar a
  have hb := toNat_scalar b
  apply Char.toNat_inj.mp
  simp only [codeUnits] at h
  split at h <;> split at h <;>
    simp only [List.cons_prefix_cons, List.nil_prefix, List.prefix_nil, and_true, reduceCtorEq,
      and_false] at h <;>
    omega

theorem utf16_injective : Function.Injective utf16 := by
  -- a sequence of code words needs a mark at its end; no code unit is `0x110000`
  have hcode : PrefixCode fun cs : List Char => cs.flatMap codeUnits ++ [0x110000] := by
    refine codeUnits_prefixCode.sequence fun c => ?_
    have hc := toNat_scalar c
    unfold codeUnits
    simp only
    split
    · exact ⟨_, _, rfl, by omega⟩
    · exact ⟨_, _, rfl, by omega⟩
  intro s t h
  apply String.toList_inj.mp
  refine hcode.injective ?_
  change utf16 s ++ _ = utf16 t ++ _
  rw [h]

/-- The order of `sort`. -/
def CodeUnitLE (s t : String) : Prop := utf16 s ≤ utf16 t

instance : DecidableRel CodeUnitLE := fun s t => inferInstanceAs (Decidable (utf16 s ≤ utf16 t))

instance : Std.Total CodeUnitLE := ⟨fun s t => le_total (utf16 s) (utf16 t)⟩

instance : IsTrans String CodeUnitLE := ⟨fun _ _ _ h1 h2 => le_trans (α := List Nat) h1 h2⟩

instance : Std.Antisymm CodeUnitLE :=
  ⟨fun _ _ h1 h2 => utf16_injective (le_antisymm (α := List Nat) h1 h2)⟩

/-- `sort()` on an array of strings. -/
def sort (xs : List String) : List String := xs.insertionSort CodeUnitLE

theorem sort_perm (xs : List String) : (sort xs).Perm xs := List.perm_insertionSort _ xs

theorem sort_eq_sort_iff {xs ys : List String} : sort xs = sort ys ↔ xs.Perm ys := by
  constructor
  · intro h
    exact (sort_perm xs).symm.trans (h ▸ sort_perm ys)
  · intro h
    refine List.Perm.eq_of_pairwise' (r := CodeUnitLE) (List.pairwise_insertionSort _ xs)
      (List.pairwise_insertionSort _ ys) ?_
    exact (sort_perm xs).trans (h.trans (sort_perm ys).symm)

end Js
