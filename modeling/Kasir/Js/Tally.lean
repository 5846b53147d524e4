/-
  Kasir.Js.Tally

  A `Map` that adds up amounts by key.

  Entries stand in the order in which their keys were first set, as a `Map` lists them.
  Whatever the addition, an entry is the sum of its own amounts, from the first one on,
  and no other amounts reach it.
-/

import Mathlib.Data.List.Induction
import Mathlib.Data.List.Nodup
import Kasir.Js.Number

namespace Js

variable {κ ν : Type} [DecidableEq κ] {add : ν → ν → ν}

/-- One amount joins the map: the first one of its key is set, a further one is added. -/
def tally (add : ν → ν → ν) (k : κ) (n : ν) : List (κ × ν) → List (κ × ν)
  | [] => [(k, n)]
  | e :: m => if e.1 = k then (e.1, add e.2 n) :: m else e :: tally add k n m

/-- The map of a list of amounts. -/
def tallied (add : ν → ν → ν) (xs : List (κ × ν)) : List (κ × ν) :=
  xs.foldl (fun m x => tally add x.1 x.2 m) []

/-- The amounts of a key, in the order in which they are added. -/
def amountsOf (k : κ) (xs : List (κ × ν)) : List ν :=
  (xs.filter fun x => x.1 = k).map Prod.snd

theorem amountsOf_append (k : κ) (xs ys : List (κ × ν)) :
    amountsOf k (xs ++ ys) = amountsOf k xs ++ amountsOf k ys := by
  unfold amountsOf
  rw [List.filter_append, List.map_append]

theorem amountsOf_self (k : κ) (n : ν) : amountsOf k [(k, n)] = [n] := by
  simp [amountsOf]

theorem amountsOf_other {k k' : κ} (h : k' ≠ k) (n : ν) : amountsOf k [(k', n)] = [] := by
  simp [amountsOf, h]

theorem amountsOf_nil {k : κ} {xs : List (κ × ν)} (h : k ∉ xs.map Prod.fst) :
    amountsOf k xs = [] := by
  unfold amountsOf
  rw [List.map_eq_nil_iff, List.filter_eq_nil_iff]
  intro x hx hk
  exact h (List.mem_map.mpr ⟨x, hx, of_decide_eq_true hk⟩)

theorem amountsOf_perm (k : κ) {xs ys : List (κ × ν)} (h : xs.Perm ys) :
    (amountsOf k xs).Perm (amountsOf k ys) := (h.filter _).map _

theorem mem_amountsOf {k : κ} {n : ν} {xs : List (κ × ν)} :
    n ∈ amountsOf k xs ↔ (k, n) ∈ xs := by
  unfold amountsOf
  constructor
  · intro h
    obtain ⟨⟨k', n'⟩, hmem, rfl⟩ := List.mem_map.mp h
    obtain ⟨hx, hk⟩ := List.mem_filter.mp hmem
    have hkey : k' = k := of_decide_eq_true hk
    exact hkey ▸ hx
  · intro h
    exact List.mem_map.mpr ⟨(k, n), List.mem_filter.mpr ⟨h, decide_eq_true rfl⟩, rfl⟩

/-- The amounts of one key are no more than all of them. -/
theorem sum_amountsOf_le {k : κ} {xs : List (κ × Int)} (hpos : ∀ x ∈ xs, 0 ≤ x.2) :
    (amountsOf k xs).sum ≤ (xs.map Prod.snd).sum := by
  have hsub : (amountsOf k xs).Sublist (xs.map Prod.snd) := List.filter_sublist.map _
  apply hsub.sum_le_sum
  intro n hn
  obtain ⟨x, hx, rfl⟩ := List.mem_map.mp hn
  exact hpos x hx

-- ============================================================================
-- One amount
-- ============================================================================

/-- What a map is of the amounts that have gone into it. -/
structure Tallies (add : ν → ν → ν) (m xs : List (κ × ν)) : Prop where
  nodup : (m.map Prod.fst).Nodup
  keys : ∀ k, k ∈ m.map Prod.fst ↔ k ∈ xs.map Prod.fst
  amounts : ∀ e ∈ m, ∃ n ns, amountsOf e.1 xs = n :: ns ∧ e.2 = ns.foldl add n

theorem mem_keys_tally {k k' : κ} {n : ν} {m : List (κ × ν)} :
    k' ∈ (tally add k n m).map Prod.fst ↔ k' ∈ m.map Prod.fst ∨ k' = k := by
  induction m with
  | nil => simp [tally]
  | cons e m ih =>
      unfold tally
      by_cases hk : e.1 = k
      · rw [if_pos hk]
        simp only [List.map_cons, List.mem_cons]
        constructor
        · intro h
          exact Or.inl h
        · rintro (h | rfl)
          · exact h
          · exact Or.inl hk.symm
      · rw [if_neg hk]
        simp only [List.map_cons, List.mem_cons, ih]
        exact or_assoc.symm

theorem nodup_tally {k : κ} {n : ν} {m : List (κ × ν)} (h : (m.map Prod.fst).Nodup) :
    ((tally add k n m).map Prod.fst).Nodup := by
  induction m with
  | nil => simp [tally]
  | cons e m ih =>
      rw [List.map_cons, List.nodup_cons] at h
      unfold tally
      by_cases hk : e.1 = k
      · rw [if_pos hk, List.map_cons, List.nodup_cons]
        exact h
      · rw [if_neg hk, List.map_cons, List.nodup_cons]
        refine ⟨fun hmem => ?_, ih h.2⟩
        rcases mem_keys_tally.mp hmem with hold | hnew
        · exact h.1 hold
        · exact hk hnew

/-- An entry stays, or has the amount added, or is new. -/
theorem mem_tally {k : κ} {n : ν} {m : List (κ × ν)} {e : κ × ν}
    (h : e ∈ tally add k n m) (hnodup : (m.map Prod.fst).Nodup) :
    (e ∈ m ∧ e.1 ≠ k) ∨ (∃ v, (k, v) ∈ m ∧ e = (k, add v n)) ∨
      (k ∉ m.map Prod.fst ∧ e = (k, n)) := by
  induction m with
  | nil => exact Or.inr (Or.inr ⟨List.not_mem_nil, List.mem_singleton.mp h⟩)
  | cons f m ih =>
      rw [List.map_cons, List.nodup_cons] at hnodup
      unfold tally at h
      by_cases hk : f.1 = k
      · rw [if_pos hk] at h
        subst hk
        rcases List.mem_cons.mp h with rfl | hmem
        · exact Or.inr (Or.inl ⟨f.2, List.mem_cons_self .., rfl⟩)
        · refine Or.inl ⟨List.mem_cons_of_mem _ hmem, fun heq => hnodup.1 ?_⟩
          exact heq ▸ List.mem_map_of_mem hmem
      · rw [if_neg hk] at h
        rcases List.mem_cons.mp h with rfl | hmem
        · exact Or.inl ⟨List.mem_cons_self .., hk⟩
        · rcases ih hmem hnodup.2 with ⟨hm, hne⟩ | ⟨v, hv, heq⟩ | ⟨hno, heq⟩
          · exact Or.inl ⟨List.mem_cons_of_mem _ hm, hne⟩
          · exact Or.inr (Or.inl ⟨v, List.mem_cons_of_mem _ hv, heq⟩)
          · refine Or.inr (Or.inr ⟨fun hmem => ?_, heq⟩)
            rcases List.mem_cons.mp hmem with heq | hmem
            · exact hk heq.symm
            · exact hno hmem

/-- The entry of the key has the amount added. -/
theorem tally_mem {k : κ} {v n : ν} {m : List (κ × ν)} (h : (k, v) ∈ m)
    (hnodup : (m.map Prod.fst).Nodup) : (k, add v n) ∈ tally add k n m := by
  induction m with
  | nil => cases h
  | cons e m ih =>
      rw [List.map_cons, List.nodup_cons] at hnodup
      unfold tally
      rcases List.mem_cons.mp h with heq | hmem
      · rw [← heq, if_pos rfl]
        exact List.mem_cons_self ..
      · have hk : e.1 ≠ k := fun heq => hnodup.1 (heq ▸ List.mem_map_of_mem hmem)
        rw [if_neg hk]
        exact List.mem_cons_of_mem _ (ih hmem hnodup.2)

/-- Two additions join an amount alike exactly if they agree on the entry of its key. -/
theorem tally_eq_iff {add' : ν → ν → ν} {k : κ} {n : ν} {m : List (κ × ν)}
    (hnodup : (m.map Prod.fst).Nodup) :
    tally add k n m = tally add' k n m ↔ ∀ v, (k, v) ∈ m → add v n = add' v n := by
  induction m with
  | nil => exact ⟨fun _ _ h => (nomatch h), fun _ => rfl⟩
  | cons e m ih =>
      rw [List.map_cons, List.nodup_cons] at hnodup
      unfold tally
      by_cases hk : e.1 = k
      · subst hk
        rw [if_pos rfl, if_pos rfl]
        constructor
        · intro h v hv
          rcases List.mem_cons.mp hv with heq | hmem
          · rw [← congrArg Prod.snd heq] at h
            exact congrArg Prod.snd (List.cons.inj h).1
          · exact absurd (List.mem_map_of_mem hmem) hnodup.1
        · intro h
          rw [h e.2 (List.mem_cons_self ..)]
      · rw [if_neg hk, if_neg hk]
        constructor
        · intro h v hv
          rcases List.mem_cons.mp hv with rfl | hmem
          · exact absurd rfl hk
          · exact (ih hnodup.2).mp (List.cons.inj h).2 v hmem
        · intro h
          rw [(ih hnodup.2).mpr fun v hv => h v (List.mem_cons_of_mem _ hv)]

theorem Tallies.step {k : κ} {n : ν} {m xs : List (κ × ν)} (h : Tallies add m xs) :
    Tallies add (tally add k n m) (xs ++ [(k, n)]) where
  nodup := nodup_tally h.nodup
  keys k' := by
    rw [mem_keys_tally, h.keys]
    simp
  amounts e he := by
    rw [amountsOf_append]
    rcases mem_tally he h.nodup with ⟨hold, hne⟩ | ⟨v, hv, rfl⟩ | ⟨hno, rfl⟩
    · rw [amountsOf_other (Ne.symm hne), List.append_nil]
      exact h.amounts e hold
    · obtain ⟨n0, ns, hns, hfold⟩ := h.amounts _ hv
      refine ⟨n0, ns ++ [n], ?_, ?_⟩
      · rw [hns, amountsOf_self, List.cons_append]
      · rw [List.foldl_append, ← hfold]
        rfl
    · rw [amountsOf_nil fun hk => hno ((h.keys k).mpr hk), amountsOf_self]
      exact ⟨n, [], rfl, rfl⟩

-- ============================================================================
-- All amounts
-- ============================================================================

theorem tallied_append (add : ν → ν → ν) (xs : List (κ × ν)) (x : κ × ν) :
    tallied add (xs ++ [x]) = tally add x.1 x.2 (tallied add xs) := by
  unfold tallied
  rw [List.foldl_append]
  rfl

/-- A map is of all amounts that have gone into it. -/
theorem tallies (add : ν → ν → ν) (xs : List (κ × ν)) : Tallies add (tallied add xs) xs := by
  induction xs using List.reverseRecOn with
  | nil => exact ⟨List.nodup_nil, fun _ => Iff.rfl, fun _ he => nomatch he⟩
  | append_singleton xs x ih =>
      rw [tallied_append]
      exact ih.step

theorem foldl_add (n : Int) (ns : List Int) : ns.foldl (· + ·) n = (n :: ns).sum := by
  induction ns generalizing n with
  | nil => simp
  | cons m ns ih =>
      rw [List.foldl_cons, ih]
      simp only [List.sum_cons]
      omega

theorem Tallies.sum {m xs : List (κ × Int)} (h : Tallies (· + ·) m xs) {e : κ × Int}
    (he : e ∈ m) : e.2 = (amountsOf e.1 xs).sum := by
  obtain ⟨n, ns, hns, hfold⟩ := h.amounts e he
  rw [hns, hfold, foldl_add]

-- ============================================================================
-- Sums of numbers
-- ============================================================================

/-- The totals on the way are exact as numbers exactly if each of them is a double. -/
theorem tallied_exact_iff {xs : List (κ × Int)} (hxs : ∀ x ∈ xs, IsDouble x.2) :
    (∀ ys, ys <+: xs → tallied addNumber ys = tallied (· + ·) ys) ↔
      ∀ ys, ys <+: xs → ∀ e ∈ tallied (· + ·) ys, IsDouble e.2 := by
  induction xs using List.reverseRecOn with
  | nil =>
      constructor
      · intro _ ys hys e he
        rw [List.prefix_nil.mp hys] at he
        cases he
      · intro _ ys hys
        rw [List.prefix_nil.mp hys]
        rfl
  | append_singleton xs x ih =>
      have ih := ih fun y hy => hxs y (List.mem_append_left _ hy)
      have hnodup := (tallies (· + ·) xs).nodup
      constructor
      · intro h ys hys e he
        have hold := ih.mp fun zs hzs => h zs (hzs.trans (List.prefix_append ..))
        rcases List.prefix_concat_iff.mp hys with rfl | hys
        · have hwhole := h _ (List.prefix_refl _)
          have hbefore := h xs (List.prefix_append ..)
          rw [tallied_append, tallied_append, hbefore, tally_eq_iff hnodup] at hwhole
          rw [tallied_append] at he
          rcases mem_tally he hnodup with ⟨hmem, -⟩ | ⟨v, hv, rfl⟩ | ⟨-, rfl⟩
          · exact hold xs (List.prefix_refl _) e hmem
          · have hsum : toNumber (v + x.2) = v + x.2 := hwhole v hv
            exact toNumber_eq_iff.mp hsum
          · exact hxs x (List.mem_append_right _ (List.mem_singleton.mpr rfl))
        · exact hold ys hys e he
      · intro h ys hys
        have hold := ih.mpr fun zs hzs => h zs (hzs.trans (List.prefix_append ..))
        rcases List.prefix_concat_iff.mp hys with rfl | hys
        · rw [tallied_append, tallied_append, hold xs (List.prefix_refl _), tally_eq_iff hnodup]
          intro v hv
          have hmem : (x.1, v + x.2) ∈ tallied (· + ·) (xs ++ [x]) := by
            rw [tallied_append]
            exact tally_mem hv hnodup
          have hdouble : IsDouble (v + x.2) := h _ (List.prefix_refl _) (x.1, v + x.2) hmem
          show toNumber (v + x.2) = v + x.2
          exact toNumber_eq_iff.mpr hdouble
        · exact hold ys hys

/-- Amounts that are together at most 2⁵³ have such totals. -/
theorem isDouble_totals {xs : List (κ × Int)} (hpos : ∀ x ∈ xs, 0 ≤ x.2)
    (hbound : (xs.map Prod.snd).sum ≤ exactBound) {ys : List (κ × Int)} (hys : ys <+: xs)
    {e : κ × Int} (he : e ∈ tallied (· + ·) ys) : IsDouble e.2 := by
  have hpos' : ∀ y ∈ ys, 0 ≤ y.2 := fun y hy => hpos y (hys.subset hy)
  have hall : ∀ n ∈ xs.map Prod.snd, 0 ≤ n := by
    intro n hn
    obtain ⟨x, hx, rfl⟩ := List.mem_map.mp hn
    exact hpos x hx
  have hsum := (tallies (· + ·) ys).sum he
  have hle : (amountsOf e.1 ys).sum ≤ (xs.map Prod.snd).sum :=
    (sum_amountsOf_le hpos').trans ((hys.map Prod.snd).sublist.sum_le_sum hall)
  have hnonneg : 0 ≤ (amountsOf e.1 ys).sum :=
    List.sum_nonneg fun n hn => hpos' _ (mem_amountsOf.mp hn)
  apply isDouble_of_le
  omega

/-- Sums of numbers that stay in the exact range are exact. -/
theorem Tallies.exact {m xs : List (κ × Int)} (h : Tallies addNumber m xs)
    (hpos : ∀ x ∈ xs, 0 ≤ x.2) {e : κ × Int} (he : e ∈ m)
    (hbound : (amountsOf e.1 xs).sum ≤ exactBound) : e.2 = (amountsOf e.1 xs).sum := by
  obtain ⟨n, ns, hns, hfold⟩ := h.amounts e he
  have hall : ∀ y ∈ n :: ns, 0 ≤ y := by
    intro y hy
    rw [← hns] at hy
    exact hpos _ (mem_amountsOf.mp hy)
  rw [hns, List.sum_cons] at hbound ⊢
  rw [hfold]
  exact foldl_addNumber_exact (fun y hy => hall y (List.mem_cons_of_mem _ hy))
    (hall n (List.mem_cons_self ..)) hbound

/-- A map of exact sums has the entries that its amounts determine. -/
theorem Tallies.mem_iff {m xs : List (κ × Int)} (h : Tallies addNumber m xs)
    (hpos : ∀ x ∈ xs, 0 ≤ x.2) (hbound : ∀ k, (amountsOf k xs).sum ≤ exactBound) {e : κ × Int} :
    e ∈ m ↔ e.1 ∈ xs.map Prod.fst ∧ e.2 = (amountsOf e.1 xs).sum := by
  constructor
  · intro he
    exact ⟨(h.keys e.1).mp (List.mem_map_of_mem he), h.exact hpos he (hbound e.1)⟩
  · rintro ⟨hk, hsum⟩
    obtain ⟨e', he', hkey⟩ := List.mem_map.mp ((h.keys e.1).mpr hk)
    have hsum' := h.exact hpos he' (hbound e'.1)
    have heq : e' = e := by
      apply Prod.ext hkey
      rw [hsum', hsum, hkey]
    exact heq ▸ he'

/-- The order of the amounts only shows in the order of the entries. -/
theorem Tallies.perm {m m' xs ys : List (κ × Int)} (h : Tallies addNumber m xs)
    (h' : Tallies addNumber m' ys) (hperm : xs.Perm ys) (hpos : ∀ x ∈ xs, 0 ≤ x.2)
    (hbound : ∀ k, (amountsOf k xs).sum ≤ exactBound) : m.Perm m' := by
  have hsum : ∀ k, (amountsOf k ys).sum = (amountsOf k xs).sum := fun k =>
    (amountsOf_perm k hperm.symm).sum_eq
  have hpos' : ∀ x ∈ ys, 0 ≤ x.2 := fun x hx => hpos x (hperm.mem_iff.mpr hx)
  have hm : m.Nodup := List.Nodup.of_map Prod.fst h.nodup
  have hm' : m'.Nodup := List.Nodup.of_map Prod.fst h'.nodup
  refine (List.perm_ext_iff_of_nodup hm hm').mpr fun e => ?_
  rw [h.mem_iff hpos hbound, h'.mem_iff hpos' (fun k => by rw [hsum]; exact hbound k), hsum,
    (hperm.map Prod.fst).mem_iff]

end Js
