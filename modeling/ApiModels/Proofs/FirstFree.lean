import ApiModels.Text.FirstFree
import Mathlib.Data.List.Nodup
import Mathlib.Data.List.Perm.Subperm

/-!
# A free name is found

Numbered candidates all differ. So among one more candidate than there are taken names one is free,
and the search never runs out.
-/

namespace ApiModels.Text

/-- Numbered names differ: the plain one has no number, and numbers are written differently. -/
theorem numbered_injective (base : String) : Function.Injective (numbered base) := by
  have hne : ∀ n : Nat, numbered base 0 ≠ numbered base (n + 1) := by
    intro n h
    have hlen := congrArg String.length h
    have : "_".length = 1 := rfl
    simp only [numbered, String.length_append] at hlen
    omega
  intro i j h
  match i, j with
  | 0, 0 => rfl
  | 0, n + 1 => exact absurd h (hne n)
  | n + 1, 0 => exact absurd h.symm (hne n)
  | n + 1, k + 1 =>
      have hlist := congrArg String.toList h
      simp only [numbered, String.toList_append, List.append_cancel_left_eq] at hlist
      have hdigits : Nat.toDigits 10 (n + 2) = Nat.toDigits 10 (k + 2) := by
        simpa [toString, Nat.toList_repr] using hlist
      have hnum := congrArg (fun l => Nat.ofDigitChars 10 l 0) hdigits
      simp only [Nat.ofDigitChars_toDigits (by decide : 1 < 10) (by decide : 10 ≤ 10)] at hnum
      omega

/-- A name is the first of the candidates that is not taken: those before it all are. -/
def IsFirstFree (taken : α → Prop) (candidate : Nat → α) (name : α) : Prop :=
  ∃ n, name = candidate n ∧ ¬ taken name ∧ ∀ k < n, taken (candidate k)

theorem IsFirstFree.congr {α : Type u} {taken taken' : α → Prop} {candidate : Nat → α} {name : α}
    (h : IsFirstFree taken candidate name) (heq : ∀ a, taken a ↔ taken' a) :
    IsFirstFree taken' candidate name := by
  obtain ⟨n, hname, hfree, htaken⟩ := h
  exact ⟨n, hname, fun hn => hfree ((heq _).mpr hn), fun k hk => (heq _).mp (htaken k hk)⟩

/-- Among one more candidate than there are taken names one is free. -/
theorem exists_free {α : Type u} {candidate : Nat → α} (hinj : Function.Injective candidate)
    {names : List α} {bound : Nat} (hbound : names.length ≤ bound) :
    ∃ i ∈ List.range (bound + 1), candidate i ∉ names := by
  by_contra hall
  push Not at hall
  have hnd : ((List.range (bound + 1)).map candidate).Nodup := List.nodup_range.map hinj
  have hsub : (List.range (bound + 1)).map candidate ⊆ names := by
    intro a ha
    obtain ⟨i, hi, rfl⟩ := List.mem_map.mp ha
    exact hall i hi
  have hle := (List.subperm_of_subset hnd hsub).length_le
  simp only [List.length_map, List.length_range] at hle
  omega

/-- **The search finds the first free candidate**, if there are no more taken names than its
bound. -/
theorem isFirstFree_firstFree {α : Type u} {candidate : Nat → α}
    (hinj : Function.Injective candidate) {taken : α → Bool} (names : List α)
    (htaken : ∀ a, taken a = true → a ∈ names) {bound : Nat} (hbound : names.length ≤ bound) :
    IsFirstFree (taken · = true) candidate (firstFree taken candidate bound) := by
  unfold firstFree
  cases hf : (List.range (bound + 1)).find? fun i => !taken (candidate i) with
  | some i =>
      obtain ⟨hfree, -, hbefore⟩ := List.find?_range_eq_some.mp hf
      exact ⟨i, rfl, by simpa using hfree, fun k hk => by simpa using hbefore k hk⟩
  | none =>
      -- all candidates would be taken, and there are too many of them
      obtain ⟨i, hi, hfree⟩ := exists_free hinj hbound
      exact absurd (htaken _ (by simpa using List.find?_eq_none.mp hf i hi)) hfree

/-- What the search finds is free also where only a part of a candidate is compared, if the
candidates differ in that part. -/
theorem part_firstFree_notMem {α : Type u} {β : Type v} [DecidableEq β] {part : α → β}
    {candidate : Nat → α} (hinj : Function.Injective (part ∘ candidate)) {names : List β}
    {bound : Nat} (hbound : names.length ≤ bound) :
    part (firstFree (fun a => names.contains (part a)) candidate bound) ∉ names := by
  unfold firstFree
  cases hf : (List.range (bound + 1)).find? fun i => !names.contains (part (candidate i)) with
  | some i => simpa using List.find?_some hf
  | none =>
      obtain ⟨i, hi, hfree⟩ := exists_free hinj hbound
      exact absurd (by simpa using List.find?_eq_none.mp hf i hi) hfree

end ApiModels.Text
