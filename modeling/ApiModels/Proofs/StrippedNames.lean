import ApiModels.DefinitionKey
import ApiModels.Proofs.Segments

/-!
# Names without group and version

The id of an operation holds its group and version as an infix between the verb and what the
operation is about. The group may be written in full, without the ending that many groups share, or
as its first label only. What comes off is the longest of these infixes that stands behind the verb
and ends at a word.

The verb is told from the rest by its letters: it goes up to the first ASCII capital. So an infix is
found if it begins with one. And an id can be read with two infixes, if what the longer form of the
group has more begins with the version again; then the longer one comes off.
-/

namespace ApiModels

namespace Text

theorem dropEnd?_eq_some_iff {ending text rest : String} :
    dropEnd? ending text = some rest ↔ text = rest ++ ending := by
  unfold dropEnd?
  rw [Option.map_eq_some_iff]
  constructor
  · rintro ⟨cs, hcs, rfl⟩
    have hreverse := congrArg List.reverse (afterStart?_eq_some hcs)
    rw [List.reverse_reverse, List.reverse_append, List.reverse_reverse] at hreverse
    rw [← String.toList_inj, hreverse, String.toList_append, String.toList_ofList]
  · rintro rfl
    refine ⟨rest.toList.reverse, ?_, by rw [List.reverse_reverse, String.ofList_toList]⟩
    rw [String.toList_append, List.reverse_append, afterStart?_append_self]

/-! ## Words of a dotted name -/

/-- A letter or digit begins a run, which goes on if the next character is one, too. -/
theorem runs_cons (c : Char) (rest : List Char) :
    runs (c :: rest) = if isAlphanumeric c then
      if rest.head?.any isAlphanumeric then (c :: (runs rest).headD []) :: (runs rest).tail
      else [c] :: runs rest
    else runs rest := by
  rw [runs.eq_def]
  dsimp only
  by_cases hc : isAlphanumeric c = true
  · rw [if_pos hc, if_pos hc]
    cases rest with
    | nil => rfl
    | cons d rest =>
      cases runs (d :: rest) with
      | nil => simp
      | cons r rs => simp
  · rw [if_neg hc, if_neg hc]

/-- No run goes on behind a character that is neither letter nor digit. -/
theorem runs_append {sep : Char} (hsep : isAlphanumeric sep = false) (a b : List Char) :
    runs (a ++ sep :: b) = runs a ++ runs b := by
  induction a with
  | nil => rw [List.nil_append, runs_cons, hsep, if_neg Bool.false_ne_true, runs, List.nil_append]
  | cons c a ih =>
    have hhead : (a ++ sep :: b).head?.any isAlphanumeric = a.head?.any isAlphanumeric := by
      cases a with
      | nil => simpa using hsep
      | cons d a => rfl
    rw [List.cons_append, runs_cons, runs_cons, hhead, ih]
    by_cases hc : isAlphanumeric c = true
    · rw [if_pos hc, if_pos hc]
      by_cases hnext : a.head?.any isAlphanumeric = true
      · -- the run that goes on is the first one of what follows
        obtain ⟨r, rs, hr⟩ : ∃ r rs, runs a = r :: rs := by
          cases a with
          | nil => cases hnext
          | cons d a =>
            rw [runs_cons, if_pos (show isAlphanumeric d = true from hnext)]
            split
            · exact ⟨_, _, rfl⟩
            · exact ⟨_, _, rfl⟩
        rw [if_pos hnext, if_pos hnext, hr]
        rfl
      · rw [if_neg hnext, if_neg hnext]
        rfl
    · rw [if_neg hc, if_neg hc]

/-- A dotted name is capitalized label by label. -/
theorem pascalCase_dot (a b : String) : pascalCase (a ++ "." ++ b) = pascalCase a ++ pascalCase b := by
  have hdot : isAlphanumeric '.' = false := by decide
  unfold pascalCase words
  rw [String.toList_append, String.toList_append, show ".".toList = ['.'] from rfl,
    List.append_assoc, List.singleton_append, runs_append hdot, List.flatMap_append,
    List.flatMap_append, String.ofList_append]

end Text

/-! ## Infixes -/

/-- The first label of a dotted text. -/
def IsFirstLabel (label text : String) : Prop :=
  '.' ∉ label.toList ∧ (text = label ∨ ∃ rest, text = label ++ "." ++ rest)

/-- The infixes for a group and version. -/
inductive IsInfix (group version : String) : String → Prop
  | core : group = "" → IsInfix group version ("Core" ++ Text.pascalCase version)
  | whole : group ≠ "" → IsInfix group version (Text.pascalCase group ++ Text.pascalCase version)
  | shared {rest : String} : group = rest ++ ".k8s.io" →
      IsInfix group version (Text.pascalCase rest ++ Text.pascalCase version)
  | label {label : String} : group ≠ "" → IsFirstLabel label group →
      IsInfix group version (Text.pascalCase label ++ Text.pascalCase version)

variable {group version label i j id verb text tail rest : String}

theorem shortGroup_of_isFirstLabel (h : group ≠ "") (hlabel : IsFirstLabel label group) :
    shortGroup group = label := by
  rw [shortGroup, if_neg (by rwa [String.isEmpty_iff]), Text.split]
  obtain ⟨hdot, rfl | ⟨rest, rfl⟩⟩ := hlabel
  · rw [Text.pieces_single hdot, List.map_singleton, String.ofList_toList]
    rfl
  · rw [String.append_assoc, String.toList_append, String.toList_append,
      show ".".toList = ['.'] from rfl, List.singleton_append, Text.pieces_first hdot,
      List.map_cons, String.ofList_toList]
    rfl

theorem exists_isFirstLabel (text : String) : ∃ label, IsFirstLabel label text := by
  rcases Text.cut_cases '.' text.toList with hdot | ⟨first, after, hdot, hcut⟩
  · exact ⟨text, hdot, .inl rfl⟩
  · refine ⟨String.ofList first, by rwa [String.toList_ofList], .inr ⟨String.ofList after, ?_⟩⟩
    rw [← String.toList_inj, hcut]
    simp

theorem isFirstLabel_shortGroup (h : group ≠ "") : IsFirstLabel (shortGroup group) group := by
  obtain ⟨label, hlabel⟩ := exists_isFirstLabel group
  rwa [shortGroup_of_isFirstLabel h hlabel]

theorem append_shared_ne_empty (rest : String) : rest ++ ".k8s.io" ≠ "" := by
  intro hnil
  have hlist := congrArg String.toList hnil
  rw [String.toList_append] at hlist
  exact absurd (List.append_eq_nil_iff.mp hlist).2 (by decide)

/-- The first label stands before the ending that groups share. -/
theorem IsFirstLabel.of_shared (h : IsFirstLabel label (rest ++ ".k8s.io")) :
    IsFirstLabel label rest := by
  have hne := append_shared_ne_empty rest
  have hending : ".k8s.io" = "." ++ "k8s.io" := rfl
  obtain ⟨first, hdot, hfirst⟩ := exists_isFirstLabel rest
  have hwhole : IsFirstLabel first (rest ++ ".k8s.io") := by
    refine ⟨hdot, .inr ?_⟩
    rcases hfirst with rfl | ⟨more, rfl⟩
    · exact ⟨"k8s.io", by rw [hending, String.append_assoc]⟩
    · exact ⟨more ++ ".k8s.io", by rw [String.append_assoc]⟩
  rw [← shortGroup_of_isFirstLabel hne h, shortGroup_of_isFirstLabel hne hwhole]
  exact ⟨hdot, hfirst⟩

/-- A first label is capitalized as the beginning of the whole. -/
theorem IsFirstLabel.length_le (h : IsFirstLabel label text) :
    (Text.pascalCase label).length ≤ (Text.pascalCase text).length := by
  obtain ⟨-, rfl | ⟨rest, rfl⟩⟩ := h
  · exact Nat.le_refl _
  · rw [Text.pascalCase_dot, String.length_append]
    exact Nat.le_add_right _ _

theorem length_pascalCase_shared (rest : String) :
    (Text.pascalCase rest).length ≤ (Text.pascalCase (rest ++ ".k8s.io")).length := by
  rw [show ".k8s.io" = "." ++ "k8s.io" from rfl, ← String.append_assoc, Text.pascalCase_dot,
    String.length_append]
  exact Nat.le_add_right _ _

/-- **The infixes that are looked for** are those there are. -/
theorem mem_groupVersionInfixes : i ∈ groupVersionInfixes group version ↔ IsInfix group version i := by
  unfold groupVersionInfixes
  by_cases hgroup : group = ""
  · rw [if_pos (by rwa [String.isEmpty_iff]), List.mem_singleton]
    constructor
    · rintro rfl
      exact .core hgroup
    · rintro (_ | hne | hshared | ⟨hne, -⟩)
      · rfl
      · exact absurd hgroup hne
      · exact absurd (hshared.symm.trans hgroup) (append_shared_ne_empty _)
      · exact absurd hgroup hne
  · rw [if_neg (by rwa [String.isEmpty_iff])]
    simp only [List.mem_append, List.mem_singleton, Option.mem_toList, Option.map_eq_some_iff]
    constructor
    · rintro ((rfl | ⟨rest, hrest, rfl⟩) | rfl)
      · exact .whole hgroup
      · exact .shared (Text.dropEnd?_eq_some_iff.mp hrest)
      · exact .label hgroup (isFirstLabel_shortGroup hgroup)
    · rintro (hempty | _ | hshared | ⟨_, hlabel⟩)
      · exact absurd hempty hgroup
      · exact .inl (.inl rfl)
      · exact .inl (.inr ⟨_, Text.dropEnd?_eq_some_iff.mpr hshared, rfl⟩)
      · exact .inr (by rw [shortGroup_of_isFirstLabel hgroup hlabel])

/-- Longer infixes are looked for first. -/
theorem pairwise_groupVersionInfixes (group version : String) :
    (groupVersionInfixes group version).Pairwise fun i j => j.length ≤ i.length := by
  unfold groupVersionInfixes
  by_cases hgroup : group = ""
  · rw [if_pos (by rwa [String.isEmpty_iff])]
    exact List.pairwise_singleton _ _
  · rw [if_neg (by rwa [String.isEmpty_iff])]
    have hlabel := isFirstLabel_shortGroup hgroup
    have hwhole := hlabel.length_le
    cases hshared : Text.dropEnd? ".k8s.io" group with
    | none => simpa using hwhole
    | some rest =>
      obtain rfl := Text.dropEnd?_eq_some_iff.mp hshared
      have hrest := hlabel.of_shared.length_le
      have hending := length_pascalCase_shared rest
      simp [hwhole, hrest, hending]

/-! ## Taking an infix off -/

/-- A text that is empty or begins with an ASCII capital. -/
def StartsWord (text : String) : Prop := ∀ c, text.toList.head? = some c → c.isUpper = true

/-- A text without ASCII capitals. -/
def NoCapital (text : String) : Prop := ∀ c ∈ text.toList, c.isUpper = false

/-- A text begins with an infix for the group and version that ends at a word. -/
structure BeginsWith (group version text i tail : String) : Prop where
  isInfix : IsInfix group version i
  text_eq : text = i ++ tail
  word : StartsWord tail

/-- The longest infix that a text begins with. -/
structure TakenOff (group version text i tail : String) : Prop
    extends BeginsWith group version text i tail where
  longest : ∀ j rest, BeginsWith group version text j rest → j.length ≤ i.length

theorem startsWord_iff : StartsWord text ↔ startsWord text.toList = true := by
  unfold StartsWord
  cases text.toList with
  | nil => simp [startsWord]
  | cons c rest => simp [startsWord]

theorem noCapital_iff : NoCapital text ↔ (text.toList.all fun c => !c.isUpper) = true := by
  simp [NoCapital]

theorem StartsWord.append (h : StartsWord text) (htail : StartsWord tail) :
    StartsWord (text ++ tail) := by
  intro c hc
  rw [String.toList_append] at hc
  cases hlist : text.toList with
  | nil =>
    rw [hlist] at hc
    exact htail c hc
  | cons d rest =>
    rw [hlist] at hc
    exact h c (by rw [hlist]; exact hc)

/-- Two infixes of one length at the beginning of a text are one. -/
theorem BeginsWith.eq_of_length_eq (h : BeginsWith group version text i tail)
    (h' : BeginsWith group version text j rest) (hlength : i.length = j.length) :
    i = j ∧ tail = rest := by
  have heq := h.text_eq.symm.trans h'.text_eq
  rw [← String.toList_inj, String.toList_append, String.toList_append] at heq
  obtain ⟨hi, htail⟩ := List.append_inj heq (by rwa [String.length_toList, String.length_toList])
  exact ⟨String.toList_inj.mp hi, String.toList_inj.mp htail⟩

/-- One infix at most is taken off a text. -/
theorem TakenOff.unique (h : TakenOff group version text i tail)
    (h' : TakenOff group version text j rest) : i = j ∧ tail = rest :=
  h.toBeginsWith.eq_of_length_eq h'.toBeginsWith
    (Nat.le_antisymm (h'.longest i tail h.toBeginsWith) (h.longest j rest h'.toBeginsWith))

theorem dropInfix?_eq_some_iff : dropInfix? i.toList text.toList = some tail.toList
    ↔ text = i ++ tail ∧ StartsWord tail := by
  unfold dropInfix?
  rw [Option.filter_eq_some_iff, startsWord_iff]
  refine and_congr_left' ?_
  constructor
  · intro h
    rw [← String.toList_inj, String.toList_append]
    exact Text.afterStart?_eq_some h
  · rintro rfl
    rw [String.toList_append, Text.afterStart?_append_self]

/-- The longest infix is the first one found. -/
theorem exists_takenOff (h : BeginsWith group version text i tail) :
    ∃ j rest, TakenOff group version text j rest
      ∧ (groupVersionInfixes group version).findSome?
          (fun i => dropInfix? i.toList text.toList) = some rest.toList := by
  cases hfind : (groupVersionInfixes group version).findSome?
      fun i => dropInfix? i.toList text.toList with
  | none =>
    have hi := List.findSome?_eq_none_iff.mp hfind i (mem_groupVersionInfixes.mpr h.isInfix)
    rw [dropInfix?_eq_some_iff.mpr ⟨h.text_eq, h.word⟩] at hi
    cases hi
  | some cs =>
    obtain ⟨before, j, after, hlist, hj, hbefore⟩ := List.findSome?_eq_some_iff.mp hfind
    have hmem : j ∈ groupVersionInfixes group version := by rw [hlist]; simp
    rw [← String.toList_ofList (l := cs)] at hj
    obtain ⟨htext, hword⟩ := dropInfix?_eq_some_iff.mp hj
    refine ⟨j, String.ofList cs, ⟨⟨mem_groupVersionInfixes.mp hmem, htext, hword⟩, ?_⟩,
      by rw [String.toList_ofList]⟩
    intro k rest hk
    have hk' := mem_groupVersionInfixes.mpr hk.isInfix
    have hpairwise := pairwise_groupVersionInfixes group version
    rw [hlist] at hk' hpairwise
    rcases List.mem_append.mp hk' with hk' | hk'
    · -- what is listed before does not end at a word there
      have hnone := hbefore k hk'
      rw [dropInfix?_eq_some_iff.mpr ⟨hk.text_eq, hk.word⟩] at hnone
      cases hnone
    · rcases List.mem_cons.mp hk' with rfl | hk'
      · exact Nat.le_refl _
      · exact (List.pairwise_cons.mp (List.pairwise_append.mp hpairwise).2.1).1 k hk'

section

variable (hverb : NoCapital verb) (htext : StartsWord text)

include hverb htext

theorem stripGroupVersion_append : stripGroupVersion (verb ++ text) (some group) version
    = if text = "" then verb else
      (((groupVersionInfixes group version).findSome? fun i =>
        dropInfix? i.toList text.toList).map fun cs => verb ++ String.ofList cs).getD
          (verb ++ text) := by
  have hcapital : ∀ c ∈ verb.toList, (!c.isUpper) = true := fun c hc => by rw [hverb c hc]; rfl
  -- the id is cut where the text begins, at its first capital or at the end
  have hsplit : text.toList.takeWhile (fun c => !c.isUpper) = []
      ∧ text.toList.dropWhile (fun c => !c.isUpper) = text.toList := by
    unfold StartsWord at htext
    cases hlist : text.toList with
    | nil => exact ⟨rfl, rfl⟩
    | cons c rest =>
      have hc : c.isUpper = true := htext c (by rw [hlist]; rfl)
      exact ⟨List.takeWhile_cons_of_neg (by simp [hc]), List.dropWhile_cons_of_neg (by simp [hc])⟩
  unfold stripGroupVersion
  dsimp only
  rw [String.toList_append, List.takeWhile_append_of_pos hcapital,
    List.dropWhile_append_of_pos hcapital, hsplit.1, hsplit.2, List.append_nil]
  by_cases hempty : text = ""
  · rw [if_pos hempty, if_pos (by rw [hempty]; rfl), hempty, String.append_empty]
  · rw [if_neg hempty, if_neg (by rwa [List.isEmpty_iff, String.toList_eq_nil_iff])]
    cases (groupVersionInfixes group version).findSome?
        fun i => dropInfix? i.toList text.toList with
    | none => rfl
    | some cs =>
      dsimp only
      rw [String.ofList_append, String.ofList_toList, Option.map_some, Option.getD_some]

theorem stripGroupVersion_of_takenOff (h : TakenOff group version text i tail) :
    stripGroupVersion (verb ++ text) (some group) version = verb ++ tail := by
  rw [stripGroupVersion_append hverb htext]
  by_cases hempty : text = ""
  · have htail : tail = "" := by
      have hlist := congrArg String.toList (h.text_eq.symm.trans hempty)
      rw [String.toList_append] at hlist
      exact String.toList_eq_nil_iff.mp (List.append_eq_nil_iff.mp hlist).2
    rw [if_pos hempty, htail, String.append_empty]
  · obtain ⟨j, rest, hj, hfind⟩ := exists_takenOff h.toBeginsWith
    rw [if_neg hempty, hfind, (h.unique hj).2, Option.map_some, Option.getD_some,
      String.ofList_toList]

theorem stripGroupVersion_of_not_beginsWith
    (h : ∀ i tail, ¬ BeginsWith group version text i tail) :
    stripGroupVersion (verb ++ text) (some group) version = verb ++ text := by
  rw [stripGroupVersion_append hverb htext]
  by_cases hempty : text = ""
  · rw [if_pos hempty, hempty, String.append_empty]
  · have hnone : (groupVersionInfixes group version).findSome?
        (fun i => dropInfix? i.toList text.toList) = none := by
      refine List.findSome?_eq_none_iff.mpr fun i hi => ?_
      refine Option.eq_none_iff_forall_ne_some.mpr fun cs hcs => ?_
      rw [← String.toList_ofList (l := cs)] at hcs
      obtain ⟨htext, hword⟩ := dropInfix?_eq_some_iff.mp hcs
      exact h i _ ⟨mem_groupVersionInfixes.mp hi, htext, hword⟩
    rw [if_neg hempty, hnone]
    rfl

end

/-- An id is a verb and what begins with the first capital. -/
theorem exists_verb (id : String) : ∃ verb text, id = verb ++ text ∧ NoCapital verb
    ∧ StartsWord text := by
  refine ⟨String.ofList (id.toList.takeWhile fun c => !c.isUpper),
    String.ofList (id.toList.dropWhile fun c => !c.isUpper), ?_, fun c hc => ?_, fun c hc => ?_⟩
  · rw [← String.ofList_append, List.takeWhile_append_dropWhile, String.ofList_toList]
  · rw [String.toList_ofList] at hc
    simpa using List.mem_takeWhile_imp hc
  · rw [String.toList_ofList] at hc
    have hhead := List.head?_dropWhile_not (fun c => !c.isUpper) id.toList
    rw [hc] at hhead
    simpa using hhead

/--
**Group and version come off an id where they stand behind its verb.**

Let an infix for the group and version stand behind a verb, and begin with a capital, and let nothing
or another capital follow. Then the longest such infix that stands there comes off; so it is this one,
unless a longer form of the group can be read there as well. From any id at all, at most one infix
comes off, the longest that stands where the first capital is and has nothing or a capital behind it.
Without a group none does.
-/
theorem group_version_stripped (group version : String) :
    (∀ verb i tail, NoCapital verb → IsInfix group version i → StartsWord i → StartsWord tail →
        (∃ j rest, TakenOff group version (i ++ tail) j rest
          ∧ stripGroupVersion (verb ++ (i ++ tail)) (some group) version = verb ++ rest)
        ∧ (stripGroupVersion (verb ++ (i ++ tail)) (some group) version = verb ++ tail
          ↔ TakenOff group version (i ++ tail) i tail))
      ∧ (∀ id, stripGroupVersion id (some group) version = id
          ∨ ∃ verb i tail, id = verb ++ (i ++ tail) ∧ NoCapital verb ∧ StartsWord (i ++ tail)
            ∧ TakenOff group version (i ++ tail) i tail
            ∧ stripGroupVersion id (some group) version = verb ++ tail)
      ∧ ∀ id, stripGroupVersion id none version = id := by
  refine ⟨fun verb i tail hverb hi hcapital htail => ?_, fun id => ?_, fun id => rfl⟩
  · have htext : StartsWord (i ++ tail) := hcapital.append htail
    obtain ⟨j, rest, hj, -⟩ := exists_takenOff ⟨hi, rfl, htail⟩
    have hstrip := stripGroupVersion_of_takenOff hverb htext hj
    refine ⟨⟨j, rest, hj, hstrip⟩, fun h => ?_, stripGroupVersion_of_takenOff hverb htext⟩
    obtain rfl : rest = tail := (String.append_right_inj verb).mp (hstrip.symm.trans h)
    obtain rfl : i = j := (String.append_left_inj rest).mp hj.text_eq
    exact hj
  · obtain ⟨verb, text, rfl, hverb, htext⟩ := exists_verb id
    by_cases h : ∃ i tail, BeginsWith group version text i tail
    · obtain ⟨i, tail, hi⟩ := h
      obtain ⟨j, rest, hj, -⟩ := exists_takenOff hi
      have hstrip := stripGroupVersion_of_takenOff hverb htext hj
      obtain rfl := hj.text_eq
      exact .inr ⟨verb, j, rest, rfl, hverb, htext, hj, hstrip⟩
    · refine .inl (stripGroupVersion_of_not_beginsWith hverb htext fun i tail hi => ?_)
      exact h ⟨i, tail, hi⟩

/-- A group that is written with two of its labels. -/
theorem group_version_stripped_clusterRole :
    let group := "rbac.authorization.k8s.io"
    NoCapital "create" ∧ IsInfix group "v1" "RbacAuthorizationV1"
      ∧ StartsWord "RbacAuthorizationV1" ∧ StartsWord "ClusterRole"
      ∧ TakenOff group "v1" ("RbacAuthorizationV1" ++ "ClusterRole") "RbacAuthorizationV1"
          "ClusterRole"
      ∧ stripGroupVersion "createRbacAuthorizationV1ClusterRole" (some group) "v1"
          = "createClusterRole" := by
  intro group
  have hverb : NoCapital "create" := noCapital_iff.mpr (by decide)
  have hi : IsInfix group "v1" "RbacAuthorizationV1" :=
    mem_groupVersionInfixes.mp (by decide +kernel)
  have hcapital : StartsWord "RbacAuthorizationV1" := startsWord_iff.mpr (by decide)
  have htail : StartsWord "ClusterRole" := startsWord_iff.mpr (by decide)
  have hstrip : stripGroupVersion ("create" ++ ("RbacAuthorizationV1" ++ "ClusterRole"))
      (some group) "v1" = "create" ++ "ClusterRole" := by
    decide +kernel
  obtain ⟨hbehind, -, -⟩ := group_version_stripped group "v1"
  exact ⟨hverb, hi, hcapital, htail,
    (hbehind "create" _ "ClusterRole" hverb hi hcapital htail).2.mp hstrip, hstrip⟩

/-- Not every infix that stands behind a verb comes off. Where the longer form of the group has the
version in it, that one may be read, too; and one that does not begin with an ASCII capital is taken
for a part of the verb. -/
theorem stripGroupVersion_ne :
    (NoCapital "create" ∧ IsInfix "a.v1" "v1" "AV1" ∧ StartsWord "V1Item"
        ∧ stripGroupVersion ("create" ++ ("AV1" ++ "V1Item")) (some "a.v1") "v1"
          ≠ "create" ++ "V1Item")
      ∧ NoCapital "create" ∧ IsInfix "1password" "v1" "1passwordV1" ∧ StartsWord "Item"
        ∧ stripGroupVersion ("create" ++ ("1passwordV1" ++ "Item")) (some "1password") "v1"
          ≠ "create" ++ "Item" := by
  have hverb : NoCapital "create" := noCapital_iff.mpr (by decide)
  have hlabel : IsInfix "a.v1" "v1" "AV1" := mem_groupVersionInfixes.mp (by decide +kernel)
  have hdigit : IsInfix "1password" "v1" "1passwordV1" :=
    mem_groupVersionInfixes.mp (by decide +kernel)
  exact ⟨⟨hverb, hlabel, startsWord_iff.mpr (by decide), by decide +kernel⟩,
    hverb, hdigit, startsWord_iff.mpr (by decide), by decide +kernel⟩

end ApiModels
