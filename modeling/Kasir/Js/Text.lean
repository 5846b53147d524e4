/-
  Kasir.Js.Text

  The string operations of JavaScript and of the validator library that the
  services use: lower-casing of identifiers, `trim`, the UUID test and the
  length test.

  A string is a sequence of Unicode scalar values.  Lone surrogates, which
  JavaScript admits, cannot be stored by the database and are left out.
-/

import Mathlib.Data.List.DropRight

namespace Js

-- ============================================================================
-- Lower case
-- ============================================================================

/-- `toLowerCase` on identifiers, which are ASCII wherever it is applied. -/
def toLowerCase (s : String) : String := String.ofList (s.toList.map Char.toLower)

@[simp] theorem toList_toLowerCase (s : String) :
    (toLowerCase s).toList = s.toList.map Char.toLower := by
  simp [toLowerCase]

@[simp] theorem toLower_toLower (c : Char) : c.toLower.toLower = c.toLower := by
  -- only `A` to `Z` change, and they land outside that range
  have hfix : ∀ d : Char, ¬ (d.val ≥ 'A'.val ∧ d.val ≤ 'Z'.val) → d.toLower = d := by
    intro d hd
    unfold Char.toLower
    rw [dif_neg hd]
  by_cases h : c.val ≥ 'A'.val ∧ c.val ≤ 'Z'.val
  · refine hfix _ ?_
    have hval : c.toLower.val = c.val + ('a'.val - 'A'.val) := by
      unfold Char.toLower
      rw [dif_pos h]
    rw [hval]
    simp only [ge_iff_le, UInt32.le_iff_toNat_le, UInt32.toNat_add,
      show 'A'.val.toNat = 65 from rfl, show 'Z'.val.toNat = 90 from rfl,
      show ('a'.val - 'A'.val).toNat = 32 from rfl] at h ⊢
    omega
  · rw [hfix c h, hfix c h]

@[simp] theorem toLowerCase_toLowerCase (s : String) :
    toLowerCase (toLowerCase s) = toLowerCase s := by
  apply String.toList_inj.mp
  simp [Function.comp_def]

@[simp] theorem toLowerCase_comp_toLowerCase : toLowerCase ∘ toLowerCase = toLowerCase :=
  funext toLowerCase_toLowerCase

-- ============================================================================
-- Identifiers
-- ============================================================================

/-- Every character satisfies the test at its position. -/
def matchAll : List (Char → Bool) → List Char → Bool
  | [], [] => true
  | p :: ps, c :: cs => p c && matchAll ps cs
  | _, _ => false

theorem length_of_matchAll {ps : List (Char → Bool)} {cs : List Char} (h : matchAll ps cs = true) :
    cs.length = ps.length := by
  induction ps generalizing cs with
  | nil =>
      cases cs with
      | nil => rfl
      | cons c cs => cases h
  | cons p ps ih =>
      cases cs with
      | nil => cases h
      | cons c cs =>
          simp only [matchAll, Bool.and_eq_true] at h
          rw [List.length_cons, List.length_cons, ih h.2]

/-- A test that does not look at the case of its character. -/
def CaseInsensitive (p : Char → Bool) : Prop := ∀ c, p c.toLower = p c

theorem matchAll_toLower {ps : List (Char → Bool)} (hps : ∀ p ∈ ps, CaseInsensitive p)
    (cs : List Char) : matchAll ps (cs.map Char.toLower) = matchAll ps cs := by
  induction ps generalizing cs with
  | nil => cases cs <;> rfl
  | cons p ps ih =>
      cases cs with
      | nil => rfl
      | cons c cs =>
          simp only [List.map_cons, matchAll]
          rw [hps p (List.mem_cons_self ..), ih fun q hq => hps q (List.mem_cons_of_mem _ hq)]

/-- The character is one of `cs`, in either case. -/
def oneOf (cs : List Char) (c : Char) : Bool := cs.contains c.toLower

theorem oneOf_caseInsensitive (cs : List Char) : CaseInsensitive (oneOf cs) := by
  intro c
  simp [oneOf]

/-- The pattern of a UUID whose version digit is one of `versions`. -/
def uuidPattern (versions : List Char) : List (Char → Bool) :=
  let hex := oneOf ['0', '1', '2', '3', '4', '5', '6', '7', '8', '9', 'a', 'b', 'c', 'd', 'e', 'f']
  let dash := oneOf ['-']
  List.replicate 8 hex ++ [dash] ++ List.replicate 4 hex ++
    [dash, oneOf versions] ++ List.replicate 3 hex ++
    [dash, oneOf ['8', '9', 'a', 'b']] ++ List.replicate 3 hex ++ [dash] ++ List.replicate 12 hex

theorem uuidPattern_caseInsensitive (versions : List Char) :
    ∀ p ∈ uuidPattern versions, CaseInsensitive p := by
  intro p hp
  simp only [uuidPattern, List.mem_append, List.mem_replicate, List.mem_cons, List.not_mem_nil,
    or_false] at hp
  rcases hp with (((((((⟨-, h⟩ | h) | ⟨-, h⟩) | (h | h)) | ⟨-, h⟩) | (h | h)) | ⟨-, h⟩) | h) |
      ⟨-, h⟩ <;>
    exact h ▸ oneOf_caseInsensitive _

/-- `isUUID(s)` of the validator library: versions 1 to 8, and the nil and the
    max UUID. -/
def isUUID (s : String) : Bool :=
  matchAll (uuidPattern ['1', '2', '3', '4', '5', '6', '7', '8']) s.toList ||
    toLowerCase s == "00000000-0000-0000-0000-000000000000" ||
    toLowerCase s == "ffffffff-ffff-ffff-ffff-ffffffffffff"

/-- `isUUID(s, '4')` of the validator library. -/
def isUUID4 (s : String) : Bool := matchAll (uuidPattern ['4']) s.toList

@[simp] theorem isUUID_toLowerCase (s : String) : isUUID (toLowerCase s) = isUUID s := by
  simp [isUUID, matchAll_toLower (uuidPattern_caseInsensitive _)]

@[simp] theorem isUUID4_toLowerCase (s : String) : isUUID4 (toLowerCase s) = isUUID4 s := by
  simp [isUUID4, matchAll_toLower (uuidPattern_caseInsensitive _)]

-- ============================================================================
-- Trimming and length
-- ============================================================================

/-- The characters `trim` removes: white space and line terminators. -/
def isSpace (c : Char) : Bool :=
  let n := c.toNat
  (9 ≤ n && n ≤ 13) || n == 0x20 || n == 0xA0 || n == 0x1680 || (0x2000 ≤ n && n ≤ 0x200A) ||
    n == 0x2028 || n == 0x2029 || n == 0x202F || n == 0x205F || n == 0x3000 || n == 0xFEFF

/-- `String.prototype.trim`. -/
def trim (s : String) : String :=
  String.ofList ((s.toList.dropWhile isSpace).rdropWhile isSpace)

/-- Dropping from the end leaves the first element alone, unless it drops everything. -/
theorem head?_rdropWhile {α : Type} (p : α → Bool) (xs : List α) :
    ∀ x ∈ (xs.rdropWhile p).head?, xs.head? = some x := by
  intro x hx
  obtain ⟨ys, hys⟩ := List.rdropWhile_prefix p (l := xs)
  cases hd : xs.rdropWhile p with
  | nil => simp [hd] at hx
  | cons z zs =>
      rw [hd, List.head?_cons, Option.mem_some] at hx
      rw [← hys, hd, hx]
      rfl

@[simp] theorem trim_trim (s : String) : trim (trim s) = trim s := by
  unfold trim
  rw [String.toList_ofList]
  have hdrop : ((s.toList.dropWhile isSpace).rdropWhile isSpace).dropWhile isSpace =
      (s.toList.dropWhile isSpace).rdropWhile isSpace := by
    rw [List.dropWhile_eq_self_iff]
    intro hl
    have hfirst := head?_rdropWhile isSpace (s.toList.dropWhile isSpace)
      (((s.toList.dropWhile isSpace).rdropWhile isSpace)[0]) (by simp [List.head?_eq_getElem?])
    have hno := List.head?_dropWhile_not isSpace s.toList
    rw [hfirst] at hno
    simpa using hno
  rw [hdrop, List.rdropWhile_idempotent]

@[simp] theorem trim_comp_trim : trim ∘ trim = trim := funext trim_trim

/-- The length the validator library compares: code points, less the variation
    selectors. -/
def validatorLength (s : String) : Nat :=
  (s.toList.filter fun c => c.toNat != 0xFE0E && c.toNat != 0xFE0F).length

end Js
