import ApiModels.Text.NaturalOrder
import Mathlib.Data.List.SplitBy
import Mathlib.Order.Basic

/-!
# The natural order of labels

The order is that of keys: a run of digits counts by its value, and any other run by its text, after
all runs of digits or before them. So it is a total preorder, and the greatest label is well defined,
as long as no run of digits that has a value meets one that has none. Those two compare by their
texts, which need not go along with the values, and the order can go round in a circle.
-/

namespace ApiModels.Text

open Std (OrientedCmp ReflCmp TransCmp compare_self)

/-! ## Runs -/

/-- A run of digits, or a run without any. -/
structure IsRun (run : List Char) : Prop where
  ne_nil : run ≠ []
  uniform : (∀ c ∈ run, c.isDigit = true) ∨ ∀ c ∈ run, c.isDigit = false

variable {run a b : List Char} {m n : Nat}

theorem isRun_of_mem_digitRuns {text : List Char} (h : run ∈ digitRuns text) : IsRun run := by
  refine ⟨List.ne_nil_of_mem_splitBy h, ?_⟩
  have hchain := List.isChain_of_mem_splitBy h
  cases run with
  | nil => exact .inl fun _ hc => nomatch hc
  | cons c run =>
    -- every character is of the kind of the first
    have hsame : ∀ d ∈ c :: run, d.isDigit = c.isDigit := by
      have htrans : IsTrans Char fun a b => (a.isDigit == b.isDigit) = true :=
        ⟨fun a b c hab hbc => beq_iff_eq.mpr ((beq_iff_eq.mp hab).trans (beq_iff_eq.mp hbc))⟩
      have hfirst := (List.pairwise_cons.mp (List.isChain_iff_pairwise.mp hchain)).1
      intro d hd
      rcases List.mem_cons.mp hd with rfl | hd
      · rfl
      · exact (beq_iff_eq.mp (hfirst d hd)).symm
    cases hc : c.isDigit with
    | true => exact .inl fun d hd => (hsame d hd).trans hc
    | false => exact .inr fun d hd => (hsame d hd).trans hc

theorem digits_of_runValue? (h : runValue? run = some n) : run.all Char.isDigit = true := by
  unfold runValue? at h
  split at h
  · rename_i hvalue
    simp only [Bool.and_eq_true] at hvalue
    exact hvalue.1.2
  · cases h

theorem compareRuns_of_values (ha : runValue? a = some m) (hb : runValue? b = some n) :
    compareRuns a b = compare m n := by
  unfold compareRuns
  rw [ha, hb]

theorem compareRuns_of_none (h : runValue? a = none ∨ runValue? b = none) :
    compareRuns a b = compare (String.ofList a) (String.ofList b) := by
  unfold compareRuns
  split
  · rename_i ha hb
    rw [ha, hb] at h
    simp at h
  · rfl

instance : OrientedCmp compareRuns where
  eq_swap {a b} := by
    cases ha : runValue? a with
    | none =>
      rw [compareRuns_of_none (.inl ha), compareRuns_of_none (.inr ha)]
      exact @OrientedCmp.eq_swap String compare _ _ _
    | some m =>
      cases hb : runValue? b with
      | none =>
        rw [compareRuns_of_none (.inr hb), compareRuns_of_none (.inl hb)]
        exact @OrientedCmp.eq_swap String compare _ _ _
      | some n =>
        rw [compareRuns_of_values ha hb, compareRuns_of_values hb ha]
        exact @OrientedCmp.eq_swap Nat compare _ _ _

theorem compareRunLists_eq (as bs : List (List Char)) :
    compareRunLists as bs = List.compareLex compareRuns as bs := by
  induction as generalizing bs with
  | nil => cases bs <;> rfl
  | cons a as ih =>
    cases bs with
    | nil => rfl
    | cons b bs => rw [compareRunLists, ih, List.compareLex_cons_cons]

/-- The order of two labels is turned round with them. -/
theorem naturalOrder_swap (a b : String) : naturalOrder b a = (naturalOrder a b).swap := by
  unfold naturalOrder
  rw [compareRunLists_eq, compareRunLists_eq]
  exact @OrientedCmp.eq_swap _ (List.compareLex compareRuns) _ _ _

theorem naturalOrder_self (a : String) : naturalOrder a a = .eq := by
  unfold naturalOrder
  rw [compareRunLists_eq]
  exact @ReflCmp.compare_self _ (List.compareLex compareRuns) _ _

/-! ## Keys -/

/-- Where a character stands: before the digits, among them, or after them. -/
def digitPlace (c : Char) : Nat := if c < '0' then 0 else if c ≤ '9' then 1 else 2

theorem digitPlace_eq_one {c : Char} : digitPlace c = 1 ↔ c.isDigit = true := by
  have hlow : c < '0' ↔ c.toNat < '0'.toNat := Iff.rfl
  have hhigh : c ≤ '9' ↔ c.toNat ≤ '9'.toNat := Iff.rfl
  rw [Char.isDigit_iff_toNat, ← hhigh, ← Nat.not_lt, ← hlow]
  unfold digitPlace
  split
  · simp_all
  · split <;> simp_all

theorem lt_of_digitPlace_lt {c d : Char} (h : digitPlace c < digitPlace d) : c < d := by
  have hlow : ∀ c : Char, c < '0' ↔ c.toNat < '0'.toNat := fun _ => Iff.rfl
  have hhigh : ∀ c : Char, c ≤ '9' ↔ c.toNat ≤ '9'.toNat := fun _ => Iff.rfl
  show c.toNat < d.toNat
  unfold digitPlace at h
  simp only [hlow, hhigh] at h
  by_cases hc : c.toNat < '0'.toNat
  · rw [if_pos hc] at h
    by_cases hd : d.toNat < '0'.toNat
    · rw [if_pos hd] at h
      cases h
    · omega
  · rw [if_neg hc] at h
    by_cases hd : d.toNat ≤ '9'.toNat
    · rw [if_pos hd] at h
      split at h <;> split at h <;> omega
    · rw [if_neg hd] at h
      split at h <;> split at h <;> omega

/-- What a run counts as. -/
structure RunKey where
  place : Nat
  value : Nat
  text : String

namespace RunKey

/-- Keys compare by place, then by value, then by text. -/
def compare (a b : RunKey) : Ordering :=
  (Ord.compare a.place b.place).then ((Ord.compare a.value b.value).then (Ord.compare a.text b.text))

instance : TransCmp compare :=
  inferInstanceAs (TransCmp
    (compareLex (compareOn place) (compareLex (compareOn value) (compareOn text))))

/-- The key of a run. A run that has a value counts by nothing else. -/
def of (run : List Char) : RunKey where
  place := (run.head?.map digitPlace).getD 0
  value := (runValue? run).getD 0
  text := if (runValue? run).isSome then "" else String.ofList run

theorem place_of_eq_one (h : IsRun run) : (of run).place = 1 ↔ run.all Char.isDigit = true := by
  rw [List.all_eq_true]
  obtain ⟨c, rest, rfl⟩ := List.exists_cons_of_ne_nil h.ne_nil
  rw [show (of (c :: rest)).place = digitPlace c from rfl, digitPlace_eq_one]
  refine ⟨fun hc => h.uniform.resolve_right fun hnot => ?_, fun hall => hall c List.mem_cons_self⟩
  rw [hnot c List.mem_cons_self] at hc
  cases hc

/-- Texts of runs at different places compare by their first characters. -/
theorem compare_texts_of_lt (ha : IsRun a) (hb : IsRun b) (h : (of a).place < (of b).place) :
    Ord.compare (String.ofList a) (String.ofList b) = .lt := by
  obtain ⟨c, as, rfl⟩ := List.exists_cons_of_ne_nil ha.ne_nil
  obtain ⟨d, bs, rfl⟩ := List.exists_cons_of_ne_nil hb.ne_nil
  have hlt : String.ofList (c :: as) < String.ofList (d :: bs) := by
    show (String.ofList (c :: as)).toList < (String.ofList (d :: bs)).toList
    rw [String.toList_ofList, String.toList_ofList]
    exact List.cons_lt_cons_iff.mpr (.inl (lt_of_digitPlace_lt h))
  exact if_pos hlt

theorem compare_texts (ha : IsRun a) (hb : IsRun b) (h : (of a).place ≠ (of b).place) :
    Ord.compare (String.ofList a) (String.ofList b) = Ord.compare (of a).place (of b).place := by
  rcases Nat.lt_or_gt_of_ne h with h | h
  · rw [compare_texts_of_lt ha hb h, Nat.compare_eq_lt.mpr h]
  · rw [@OrientedCmp.eq_swap String Ord.compare, compare_texts_of_lt hb ha h,
      Nat.compare_eq_gt.mpr h]
    rfl

end RunKey

/-- Runs of digits of which one has a value if the other has. -/
def SameMeasure (a b : List Char) : Prop :=
  a.all Char.isDigit = true → b.all Char.isDigit = true →
    (runValue? a).isSome = (runValue? b).isSome

theorem then_of_ne_eq {o o' : Ordering} (h : o ≠ .eq) : o.then o' = o := by
  cases o with
  | eq => exact absurd rfl h
  | lt => rfl
  | gt => rfl

instance (a b : List Char) : Decidable (SameMeasure a b) :=
  inferInstanceAs (Decidable (_ → _ → _))

/-- Runs compare as their keys do. -/
theorem compareRuns_eq (ha : IsRun a) (hb : IsRun b) (h : SameMeasure a b) :
    compareRuns a b = (RunKey.of a).compare (RunKey.of b) := by
  by_cases hplace : (RunKey.of a).place = (RunKey.of b).place
  · have hdigits : a.all Char.isDigit = true ↔ b.all Char.isDigit = true := by
      rw [← RunKey.place_of_eq_one ha, ← RunKey.place_of_eq_one hb, hplace]
    unfold RunKey.compare
    rw [hplace, compare_self, Ordering.eq_then]
    cases hm : runValue? a with
    | some m =>
      have hsome := h (digits_of_runValue? hm) (hdigits.mp (digits_of_runValue? hm))
      rw [hm] at hsome
      obtain ⟨n, hn⟩ := Option.isSome_iff_exists.mp hsome.symm
      rw [compareRuns_of_values hm hn]
      simp [RunKey.of, hm, hn]
    | none =>
      have hnone : runValue? b = none := by
        refine Option.eq_none_iff_forall_ne_some.mpr fun n hn => ?_
        have hsome := h (hdigits.mpr (digits_of_runValue? hn)) (digits_of_runValue? hn)
        rw [hm, hn] at hsome
        cases hsome
      rw [compareRuns_of_none (.inl hm)]
      simp [RunKey.of, hm, hnone]
  · -- two values would stand at one place
    have hnone : runValue? a = none ∨ runValue? b = none := by
      by_contra hsome
      rw [not_or, ← ne_eq, ← ne_eq, Option.ne_none_iff_exists', Option.ne_none_iff_exists'] at hsome
      obtain ⟨⟨m, hm⟩, n, hn⟩ := hsome
      refine hplace ?_
      rw [(RunKey.place_of_eq_one ha).mpr (digits_of_runValue? hm),
        (RunKey.place_of_eq_one hb).mpr (digits_of_runValue? hn)]
    rw [compareRuns_of_none hnone, RunKey.compare_texts ha hb hplace]
    exact (then_of_ne_eq fun heq => hplace (Nat.compare_eq_eq.mp heq)).symm

/-! ## Labels -/

/-- Labels in which no run of digits that has a value meets one that has none. -/
def Commensurable (a b : String) : Prop :=
  ∀ runs ∈ (digitRuns a.toList).zip (digitRuns b.toList), SameMeasure runs.1 runs.2

instance (a b : String) : Decidable (Commensurable a b) := inferInstanceAs (Decidable (∀ _ ∈ _, _))

/-- What a label counts as. -/
def labelKey (label : String) : List RunKey := (digitRuns label.toList).map RunKey.of

theorem compareLex_map_of {as bs : List (List Char)} (ha : ∀ run ∈ as, IsRun run)
    (hb : ∀ run ∈ bs, IsRun run) (h : ∀ runs ∈ as.zip bs, SameMeasure runs.1 runs.2) :
    List.compareLex compareRuns as bs
      = List.compareLex RunKey.compare (as.map RunKey.of) (bs.map RunKey.of) := by
  induction as generalizing bs with
  | nil => cases bs <;> rfl
  | cons a as ih =>
    cases bs with
    | nil => rfl
    | cons b bs =>
      obtain ⟨hfirst, hrest⟩ := List.forall_mem_cons.mp h
      rw [List.map_cons, List.map_cons, List.compareLex_cons_cons, List.compareLex_cons_cons,
        compareRuns_eq (ha a List.mem_cons_self) (hb b List.mem_cons_self) hfirst,
        ih (fun run hrun => ha run (List.mem_cons_of_mem a hrun))
          (fun run hrun => hb run (List.mem_cons_of_mem b hrun)) hrest]

variable {label label' : String} {labels : List String}

/-- **Labels compare as their keys do.** -/
theorem naturalOrder_eq (h : Commensurable label label') :
    naturalOrder label label'
      = List.compareLex RunKey.compare (labelKey label) (labelKey label') := by
  unfold naturalOrder labelKey
  rw [compareRunLists_eq]
  exact compareLex_map_of (fun _ => isRun_of_mem_digitRuns) (fun _ => isRun_of_mem_digitRuns) h

theorem naturalOrder_trans {c : String} (hab : Commensurable label label')
    (hbc : Commensurable label' c) (hac : Commensurable label c)
    (h : (naturalOrder label label').isLE = true) (h' : (naturalOrder label' c).isLE = true) :
    (naturalOrder label c).isLE = true := by
  rw [naturalOrder_eq hab] at h
  rw [naturalOrder_eq hbc] at h'
  rw [naturalOrder_eq hac]
  exact @TransCmp.isLE_trans _ (List.compareLex RunKey.compare) _ _ _ _ h h'

theorem isLE_naturalOrder_of_ne_lt (h : naturalOrder label label' ≠ .lt) :
    (naturalOrder label' label).isLE = true := by
  rw [naturalOrder_swap label label']
  cases hle : naturalOrder label label' with
  | lt => exact absurd hle h
  | eq => rfl
  | gt => rfl

/-! ## Sorting -/

theorem insertNatural_perm (label : String) (labels : List String) :
    (insertNatural label labels).Perm (label :: labels) := by
  induction labels with
  | nil => exact .refl _
  | cons l labels ih =>
    rw [insertNatural]
    split
    · exact (ih.cons l).trans (.swap label l labels)
    · exact .refl _

/-- Labels with the largest first. -/
def largestFirst (labels : List String) : List String :=
  labels.foldl (fun sorted label => insertNatural label sorted) []

theorem largestFirst_append (labels : List String) (label : String) :
    largestFirst (labels ++ [label]) = insertNatural label (largestFirst labels) := by
  unfold largestFirst
  rw [List.foldl_append]
  rfl

theorem largestFirst_perm (labels : List String) : (largestFirst labels).Perm labels := by
  induction labels using List.reverseRecOn with
  | nil => exact .refl _
  | append_singleton labels label ih =>
    rw [largestFirst_append]
    exact (insertNatural_perm label _).trans ((ih.cons label).trans
      (List.perm_append_singleton label labels).symm)

/-- Sorting keeps the labels. -/
theorem naturalSort_perm (labels : List String) : (naturalSort labels).Perm labels :=
  (List.reverse_perm _).trans (largestFirst_perm labels)

/-- Putting a label into its place keeps the largest first. -/
theorem insertNatural_pairwise
    (hall : ∀ a ∈ label :: labels, ∀ b ∈ label :: labels, Commensurable a b)
    (h : labels.Pairwise fun a b => (naturalOrder b a).isLE = true) :
    (insertNatural label labels).Pairwise fun a b => (naturalOrder b a).isLE = true := by
  induction labels with
  | nil => exact List.pairwise_singleton _ label
  | cons l labels ih =>
    obtain ⟨hfirst, hrest⟩ := List.pairwise_cons.mp h
    rw [insertNatural]
    split
    · rename_i hlt
      have hsub : label :: labels ⊆ label :: l :: labels :=
        List.cons_subset_cons label (List.subset_cons_self l labels)
      refine List.pairwise_cons.mpr ⟨fun a ha => ?_,
        ih (fun a ha b hb => hall a (hsub ha) b (hsub hb)) hrest⟩
      rcases List.mem_cons.mp ((insertNatural_perm label labels).mem_iff.mp ha) with rfl | ha
      · rw [hlt]
        rfl
      · exact hfirst a ha
    · rename_i hnot
      have hle := isLE_naturalOrder_of_ne_lt hnot
      refine List.pairwise_cons.mpr ⟨fun a ha => ?_, h⟩
      rcases List.mem_cons.mp ha with rfl | ha'
      · exact hle
      · have hmem : ∀ b ∈ l :: labels, b ∈ label :: l :: labels :=
          fun b => List.mem_cons_of_mem label
        exact naturalOrder_trans (hall a (hmem a ha) l (hmem l List.mem_cons_self))
          (hall l (hmem l List.mem_cons_self) label List.mem_cons_self)
          (hall a (hmem a ha) label List.mem_cons_self) (hfirst a ha') hle

theorem largestFirst_pairwise (h : ∀ a ∈ labels, ∀ b ∈ labels, Commensurable a b) :
    (largestFirst labels).Pairwise fun a b => (naturalOrder b a).isLE = true := by
  induction labels using List.reverseRecOn with
  | nil => exact .nil
  | append_singleton labels label ih =>
    have hleft : ∀ a ∈ labels, a ∈ labels ++ [label] := fun a => List.mem_append_left [label]
    have hmem : ∀ a ∈ label :: largestFirst labels, a ∈ labels ++ [label] := by
      intro a ha
      rcases List.mem_cons.mp ha with rfl | ha
      · exact List.mem_append_right labels (List.mem_singleton_self a)
      · exact hleft a ((largestFirst_perm labels).mem_iff.mp ha)
    rw [largestFirst_append]
    exact insertNatural_pairwise (fun a ha b hb => h a (hmem a ha) b (hmem b hb))
      (ih fun a ha b hb => h a (hleft a ha) b (hleft b hb))

/-! ## The greatest label -/

/-- The largest label is the one put in last or the one that was it before. -/
theorem head?_insertNatural (label best : String) (rest : List String) :
    (insertNatural label (best :: rest)).head?
      = some (if naturalOrder best label = .gt then best else label) := by
  have hswap : naturalOrder label best = .lt ↔ naturalOrder best label = .gt := by
    rw [naturalOrder_swap best label]
    cases naturalOrder best label <;> decide
  rw [insertNatural]
  by_cases hlt : naturalOrder label best = .lt
  · rw [if_pos hlt, if_pos (hswap.mp hlt)]
    rfl
  · rw [if_neg hlt, if_neg (hswap.not.mp hlt)]
    rfl

/-- The greatest of some labels is the first of them with the largest first. -/
theorem naturalMax?_eq (labels : List String) : naturalMax? labels = (largestFirst labels).head? := by
  have hfold : ∀ (labels sorted : List String) (best : String), sorted.head? = some best →
      (labels.foldl (fun sorted label => insertNatural label sorted) sorted).head?
        = some (labels.foldl (fun best l => if naturalOrder best l = .gt then best else l) best) := by
    intro labels
    induction labels with
    | nil => exact fun sorted best h => h
    | cons label labels ih =>
      intro sorted best h
      obtain ⟨rest, rfl⟩ := List.head?_eq_some_iff.mp h
      exact ih _ _ (head?_insertNatural label best rest)
  cases labels with
  | nil => rfl
  | cons label labels => exact (hfold labels [label] label rfl).symm

theorem getLast?_naturalSort (labels : List String) :
    (naturalSort labels).getLast? = naturalMax? labels := by
  rw [naturalMax?_eq]
  exact List.getLast?_reverse

/-- **No label exceeds the greatest one.** -/
theorem le_of_naturalMax? (h : ∀ a ∈ labels, ∀ b ∈ labels, Commensurable a b)
    (hmax : naturalMax? labels = some label) :
    label ∈ labels ∧ ∀ a ∈ labels, (naturalOrder a label).isLE = true := by
  rw [naturalMax?_eq] at hmax
  obtain ⟨rest, hrest⟩ := List.head?_eq_some_iff.mp hmax
  have hperm := hrest ▸ largestFirst_perm labels
  have hpairwise := hrest ▸ largestFirst_pairwise h
  refine ⟨hperm.mem_iff.mp List.mem_cons_self, fun a ha => ?_⟩
  rcases List.mem_cons.mp (hperm.mem_iff.mpr ha) with rfl | ha
  · rw [naturalOrder_self]
    rfl
  · exact (List.pairwise_cons.mp hpairwise).1 a ha

/--
**Labels have a newest one.**

Every label compares equal to itself, and two labels compare the other way round in the other
order. Among labels in which no run of digits that has a value meets one that has none, what does
not exceed a label does not exceed what that label does not exceed. Sorting such labels keeps them
and puts each before those it does not exceed, the last of the sorted labels is the one chosen as
the greatest, none exceeds it, and whatever order the labels are listed in, what is chosen compares
equal.
-/
theorem newest_of_commensurable (labels : List String)
    (h : ∀ a ∈ labels, ∀ b ∈ labels, Commensurable a b) :
    (∀ a, naturalOrder a a = .eq)
      ∧ (∀ a b, naturalOrder b a = (naturalOrder a b).swap)
      ∧ (∀ a ∈ labels, ∀ b ∈ labels, ∀ c ∈ labels, (naturalOrder a b).isLE = true →
          (naturalOrder b c).isLE = true → (naturalOrder a c).isLE = true)
      ∧ (naturalSort labels).Perm labels
      ∧ ((naturalSort labels).Pairwise fun a b => (naturalOrder a b).isLE = true)
      ∧ (naturalSort labels).getLast? = naturalMax? labels
      ∧ (labels ≠ [] → ∃ newest ∈ labels, naturalMax? labels = some newest
          ∧ ∀ a ∈ labels, (naturalOrder a newest).isLE = true)
      ∧ ∀ listed newest newest', listed.Perm labels → naturalMax? labels = some newest →
          naturalMax? listed = some newest' → naturalOrder newest newest' = .eq := by
  refine ⟨naturalOrder_self, naturalOrder_swap,
    fun a ha b hb c hc => naturalOrder_trans (h a ha b hb) (h b hb c hc) (h a ha c hc),
    naturalSort_perm labels, List.pairwise_reverse.mpr (largestFirst_pairwise h),
    getLast?_naturalSort labels, fun hne => ?_, fun listed newest newest' hperm hmax hmax' => ?_⟩
  · obtain ⟨label, rest, rfl⟩ := List.exists_cons_of_ne_nil hne
    obtain ⟨hmem, hle⟩ := le_of_naturalMax? h rfl
    exact ⟨_, hmem, rfl, hle⟩
  · have h' : ∀ a ∈ listed, ∀ b ∈ listed, Commensurable a b :=
      fun a ha b hb => h a (hperm.mem_iff.mp ha) b (hperm.mem_iff.mp hb)
    obtain ⟨hmem, hle⟩ := le_of_naturalMax? h hmax
    obtain ⟨hmem', hle'⟩ := le_of_naturalMax? h' hmax'
    have hback := hle newest' (hperm.mem_iff.mp hmem')
    rw [naturalOrder_swap newest newest'] at hback
    have hforth := hle' newest (hperm.mem_iff.mpr hmem)
    cases horder : naturalOrder newest newest' with
    | eq => rfl
    | lt =>
      rw [horder] at hback
      cases hback
    | gt =>
      rw [horder] at hforth
      cases hforth

/-- Of three releases the one with the greatest number is the newest, though its text is not. -/
theorem newest_of_commensurable_releases :
    let labels := ["rel_1_10", "rel_1_9", "rel_1_09"]
    (∀ a ∈ labels, ∀ b ∈ labels, Commensurable a b)
      ∧ naturalMax? labels = some "rel_1_10"
      ∧ (∀ a ∈ labels, (naturalOrder a "rel_1_10").isLE = true)
      ∧ naturalOrder "rel_1_9" "rel_1_09" = .eq := by
  intro labels
  have h : ∀ a ∈ labels, ∀ b ∈ labels, Commensurable a b := by decide +kernel
  have hmax : naturalMax? labels = some "rel_1_10" := by decide +kernel
  obtain ⟨-, -, -, -, -, -, hnewest, -⟩ := newest_of_commensurable labels h
  obtain ⟨newest, -, hsome, hle⟩ := hnewest (List.cons_ne_nil _ _)
  obtain rfl : newest = "rel_1_10" := Option.some.inj (hsome.symm.trans hmax)
  exact ⟨h, hmax, hle, by decide +kernel⟩

/-- A run of digits without a value stands between two that have one, against their order. So the
order goes round in a circle, and which label is chosen depends on how they are listed. -/
theorem naturalOrder_cycle :
    naturalOrder "9" "10" = .lt ∧ naturalOrder "10" "18446744073709551616" = .lt
      ∧ naturalOrder "18446744073709551616" "9" = .lt
      ∧ naturalMax? ["10", "18446744073709551616", "9"] = some "9"
      ∧ naturalMax? ["9", "10", "18446744073709551616"] = some "18446744073709551616" := by
  decide +kernel

end ApiModels.Text
