/-
  Kasir.Js.PrefixCode

  Encodings that can be read back from the front: no code word is a prefix of
  another one's.  Concatenations and terminated sequences of such encodings are
  again of this kind, so an encoding built from them is injective.
-/

import Mathlib.Data.List.Infix
import Mathlib.Logic.Function.Basic

namespace Js

variable {α β γ : Type}

/-- No code word is a prefix of another one's. -/
def PrefixCode (f : α → List β) : Prop := ∀ a b, f a <+: f b → a = b

namespace PrefixCode

theorem injective {f : α → List β} (hf : PrefixCode f) : Function.Injective f :=
  fun _ _ h => hf _ _ (h ▸ List.prefix_rfl)

/-- A code word at the front of a text can be split off in one way only. -/
theorem cancel {f : α → List β} (hf : PrefixCode f) {a b : α} {r s : List β}
    (h : f a ++ r = f b ++ s) : a = b ∧ r = s := by
  have hpre : f a <+: f b ∨ f b <+: f a :=
    List.prefix_or_prefix_of_prefix (List.prefix_append (f a) r) (h ▸ List.prefix_append (f b) s)
  have hab : a = b := hpre.elim (hf a b) fun h' => (hf b a h').symm
  subst hab
  exact ⟨rfl, List.append_cancel_left h⟩

/-- It is enough that code words can be split off. -/
theorem of_cancel {f : α → List β}
    (h : ∀ a b r s, f a ++ r = f b ++ s → a = b) : PrefixCode f := by
  rintro a b ⟨t, ht⟩
  exact h a b t [] (by rw [ht, List.append_nil])

theorem comp {f : α → List β} (hf : PrefixCode f) {g : γ → α} (hg : Function.Injective g) :
    PrefixCode fun c => f (g c) :=
  fun _ _ h => hg (hf _ _ h)

theorem append {f : α → List β} {g : γ → List β} (hf : PrefixCode f) (hg : PrefixCode g) :
    PrefixCode fun p : α × γ => f p.1 ++ g p.2 := by
  refine of_cancel ?_
  rintro ⟨a, c⟩ ⟨b, d⟩ r s h
  simp only [List.append_assoc] at h
  obtain ⟨hab, h⟩ := hf.cancel h
  obtain ⟨hcd, -⟩ := hg.cancel h
  rw [hab, hcd]

/-- Fixed text in front changes nothing. -/
theorem const_append {f : α → List β} (hf : PrefixCode f) (t : List β) :
    PrefixCode fun a => t ++ f a :=
  fun a b h => hf a b ((List.prefix_append_right_inj t).mp h)

/-- Words that avoid a mark can be told apart once each is followed by the mark. -/
theorem marked [BEq β] [LawfulBEq β] {f : α → List β} {e : β} (hf : Function.Injective f)
    (he : ∀ a, e ∉ f a) : PrefixCode fun a => f a ++ [e] := by
  refine of_cancel fun a b r s h => hf ?_
  -- both words are what precedes the first mark
  have hword : ∀ a (t : List β), (f a ++ [e] ++ t).takeWhile (fun x => !(x == e)) = f a := by
    intro a t
    rw [List.append_assoc, List.takeWhile_append_of_pos]
    · simp
    · intro x hx
      simp only [Bool.not_eq_true', beq_eq_false_iff_ne]
      exact fun hxe => he a (hxe ▸ hx)
  rw [← hword a r, ← hword b s, h]

/-- A sequence of code words followed by a mark that starts none of them. -/
theorem sequence {f : α → List β} {e : β} (hf : PrefixCode f)
    (he : ∀ a, ∃ x xs, f a = x :: xs ∧ x ≠ e) :
    PrefixCode fun as : List α => as.flatMap f ++ [e] := by
  refine of_cancel ?_
  intro as
  induction as with
  | nil =>
      intro bs r s h
      cases bs with
      | nil => rfl
      | cons b bs =>
          obtain ⟨x, xs, hx, hne⟩ := he b
          simp only [List.flatMap_nil, List.flatMap_cons, hx, List.nil_append, List.cons_append,
            List.cons.injEq] at h
          exact absurd h.1.symm hne
  | cons a as ih =>
      intro bs r s h
      cases bs with
      | nil =>
          obtain ⟨x, xs, hx, hne⟩ := he a
          simp only [List.flatMap_nil, List.flatMap_cons, hx, List.nil_append, List.cons_append,
            List.cons.injEq] at h
          exact absurd h.1 hne
      | cons b bs =>
          simp only [List.flatMap_cons, List.append_assoc] at h
          obtain ⟨hab, h⟩ := hf.cancel h
          have has := ih bs r s (by simpa using h)
          rw [hab, has]

end PrefixCode

end Js
