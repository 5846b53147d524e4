/-
  Kasir.Js.Json

  `JSON.stringify` on strings, integers, nullable strings and arrays, as lists
  of characters.  Each is a prefix code (an integer once a comma follows), so
  the text of an object with fixed keys determines its values.
-/

import Kasir.Js.PrefixCode
import Mathlib.Data.List.Basic

namespace Js.Json

-- ============================================================================
-- Strings
-- ============================================================================

/-- One character inside a string literal. -/
def escape (c : Char) : List Char :=
  if c = '"' then ['\\', '"']
  else if c = '\\' then ['\\', '\\']
  else if c.toNat < 0x20 then
    match c.toNat with
    | 8 => ['\\', 'b']
    | 9 => ['\\', 't']
    | 10 => ['\\', 'n']
    | 12 => ['\\', 'f']
    | 13 => ['\\', 'r']
    | n => ['\\', 'u', '0', '0', Nat.digitChar (n / 16), Nat.digitChar (n % 16)]
  else [c]

/-- The characters that are escaped. -/
def escaped : List Char := '"' :: '\\' :: (List.range 0x20).map Char.ofNat

theorem escape_cases (c : Char) : c ∈ escaped ∨ (escape c = [c] ∧ c ≠ '\\' ∧ c ≠ '"') := by
  by_cases hq : c = '"'
  · exact Or.inl (by simp [escaped, hq])
  by_cases hb : c = '\\'
  · exact Or.inl (by simp [escaped, hb])
  by_cases hc : c.toNat < 0x20
  · left
    simp only [escaped, List.mem_cons, List.mem_map, List.mem_range]
    exact Or.inr (Or.inr ⟨c.toNat, hc, Char.ofNat_toNat c⟩)
  · exact Or.inr ⟨by simp [escape, hq, hb, hc], hb, hq⟩

theorem escape_escaped : ∀ a ∈ escaped, ∀ b ∈ escaped, escape a <+: escape b → a = b := by
  have h : (escaped.all fun a => escaped.all fun b =>
      !(escape a).isPrefixOf (escape b) || a == b) = true := by decide +kernel
  intro a ha b hb hpre
  have hab := List.all_eq_true.mp (List.all_eq_true.mp h a ha) b hb
  rw [List.isPrefixOf_iff_prefix.mpr hpre] at hab
  exact beq_iff_eq.mp hab

theorem head_escape_escaped : ∀ a ∈ escaped, (escape a).head? = some '\\' := by
  have h : (escaped.all fun a => (escape a).head? == some '\\') = true := by decide +kernel
  exact fun a ha => beq_iff_eq.mp (List.all_eq_true.mp h a ha)

theorem escape_prefixCode : PrefixCode escape := by
  intro a b h
  rcases escape_cases a with ha | ⟨ha, hab, -⟩ <;> rcases escape_cases b with hb | ⟨hb, hbb, -⟩
  · exact escape_escaped a ha b hb h
  · -- an escape begins with a backslash, which stands for itself nowhere
    have hhead := head_escape_escaped a ha
    obtain ⟨t, ht⟩ := h
    rw [hb] at ht
    cases hea : escape a with
    | nil => simp [hea] at hhead
    | cons x xs =>
        rw [hea] at hhead ht
        simp only [List.head?_cons, Option.some.injEq] at hhead
        simp only [List.cons_append, List.cons.injEq] at ht
        exact absurd (ht.1.symm.trans hhead) hbb
  · have hhead := head_escape_escaped b hb
    obtain ⟨t, ht⟩ := h
    rw [ha] at ht
    rw [← ht] at hhead
    simp only [List.cons_append, List.head?_cons, Option.some.injEq] at hhead
    exact absurd hhead hab
  · rw [ha, hb, List.cons_prefix_cons] at h
    exact h.1

/-- An escaped character does not begin like the end of a string. -/
theorem escape_ne_quote (c : Char) : ∃ x xs, escape c = x :: xs ∧ x ≠ '"' := by
  rcases escape_cases c with hc | ⟨hc, -, hq⟩
  · have hhead := head_escape_escaped c hc
    cases he : escape c with
    | nil => simp [he] at hhead
    | cons x xs =>
        rw [he, List.head?_cons, Option.some.injEq] at hhead
        exact ⟨x, xs, rfl, by rw [hhead]; decide⟩
  · exact ⟨c, [], hc, hq⟩

/-- A string. -/
def string (s : String) : List Char := ['"'] ++ (s.toList.flatMap escape ++ ['"'])

theorem string_prefixCode : PrefixCode string := by
  have hseq := (escape_prefixCode.sequence (e := '"') escape_ne_quote).const_append ['"']
  exact hseq.comp fun s t h => String.toList_inj.mp h

/-- A string or `null`. -/
def nullable : Option String → List Char
  | none => ['n', 'u', 'l', 'l']
  | some s => string s

theorem nullable_prefixCode : PrefixCode nullable := by
  intro a b h
  cases a with
  | none => cases b with
    | none => rfl
    | some t => simp [nullable, string] at h
  | some s => cases b with
    | none => simp [nullable, string] at h
    | some t => rw [string_prefixCode s t h]

-- ============================================================================
-- Integers
-- ============================================================================

/-- An integer in decimal notation. -/
def number : Int → List Char
  | .ofNat n => Nat.toDigits 10 n
  | .negSucc n => '-' :: Nat.toDigits 10 (n + 1)

theorem toDigits_injective : Function.Injective (Nat.toDigits 10) := by
  intro m n h
  rw [← Nat.ofDigitChars_ten_toDigits (n := m), h, Nat.ofDigitChars_ten_toDigits]

theorem isDigit_of_mem {n : Nat} {c : Char} (h : c ∈ Nat.toDigits 10 n) : c.isDigit = true :=
  Nat.isDigit_of_mem_toDigits (by decide) (by decide) h

theorem number_injective : Function.Injective number := by
  intro m n h
  have hminus : ∀ (a b : Nat), Nat.toDigits 10 a ≠ '-' :: Nat.toDigits 10 (b + 1) := by
    intro a b hab
    have hd := isDigit_of_mem (n := a) (hab ▸ List.mem_cons_self ..)
    exact absurd hd (by decide)
  cases m with
  | ofNat m => cases n with
    | ofNat n => rw [toDigits_injective h]
    | negSucc n => exact absurd h (hminus m n)
  | negSucc m => cases n with
    | ofNat n => exact absurd h.symm (hminus n m)
    | negSucc n =>
        have hmn := toDigits_injective (List.cons.inj h).2
        rw [Nat.succ.inj hmn]

theorem comma_not_mem_number (n : Int) : ',' ∉ number n := by
  intro h
  cases n with
  | ofNat n => exact absurd (isDigit_of_mem h) (by decide)
  | negSucc n =>
      rcases List.mem_cons.mp h with h | h
      · exact absurd h (by decide)
      · exact absurd (isDigit_of_mem h) (by decide)

/-- A number followed by a comma. -/
theorem number_prefixCode : PrefixCode fun n => number n ++ [','] :=
  PrefixCode.marked number_injective comma_not_mem_number

-- ============================================================================
-- Arrays
-- ============================================================================

/-- The elements of an array after the first one, and its end. -/
def rest (xs : List String) : List Char := (xs.flatMap fun x => ',' :: string x) ++ [']']

/-- An array of strings. -/
def array : List String → List Char
  | [] => ['[', ']']
  | x :: xs => '[' :: (string x ++ rest xs)

theorem rest_prefixCode : PrefixCode rest := by
  have hcomma : PrefixCode fun x => ',' :: string x := string_prefixCode.const_append [',']
  exact hcomma.sequence fun x => ⟨',', string x, rfl, by decide⟩

theorem array_prefixCode : PrefixCode array := by
  intro xs ys h
  cases xs with
  | nil => cases ys with
    | nil => rfl
    | cons y ys => simp [array, string] at h
  | cons x xs => cases ys with
    | nil => simp [array, string] at h
    | cons y ys =>
        have h' := (List.cons_prefix_cons.mp h).2
        have hpair := (string_prefixCode.append rest_prefixCode) (x, xs) (y, ys) h'
        rw [(Prod.mk.inj hpair).1, (Prod.mk.inj hpair).2]

/-- The text of an array of strings determines it. -/
theorem array_injective : Function.Injective array := array_prefixCode.injective

end Js.Json
