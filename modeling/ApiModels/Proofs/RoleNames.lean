import ApiModels.CrudPlan
import ApiModels.Proofs.Segments

/-!
# Names that give a role

The name of an operation says what it does to a kind: `createPod`, or within a namespace
`createNamespacedPod`, creates a `Pod`. No role is the beginning of another one, so no name says two.

A name is read from the left. What follows the role loses the word for the scope if it begins with
it, and is compared with the kind then. So a kind that begins with that word itself is not found
right behind a role, but only behind the word put there once more. Every other kind is found in all
the names that say a role of it.
-/

namespace ApiModels

namespace Text

theorem dropStart?_eq_none_iff {start text : String} :
    dropStart? start text = none ↔ ¬ start.toList <+: text.toList := by
  refine ⟨?_, dropStart?_eq_none⟩
  rintro hdrop ⟨rest, hrest⟩
  rw [← String.toList_ofList (l := rest), ← String.toList_append, String.toList_inj] at hrest
  rw [← hrest, dropStart?_append] at hdrop
  cases hdrop

/-- What is left of a text once an opening is dropped. -/
theorem dropStart_eq_iff {start text rest : String} : dropStart start text = rest
    ↔ text = start ++ rest ∨ text = rest ∧ ¬ start.toList <+: rest.toList := by
  unfold dropStart
  cases hdrop : dropStart? start text with
  | some after =>
    have htext := dropStart?_eq_some hdrop
    rw [Option.getD_some]
    constructor
    · rintro rfl
      exact .inl htext
    · rintro (h | ⟨rfl, hnot⟩)
      · exact String.append_right_inj start |>.mp (htext.symm.trans h)
      · rw [htext, String.toList_append] at hnot
        exact absurd (List.prefix_append _ _) hnot
  | none =>
    have hnot := dropStart?_eq_none_iff.mp hdrop
    rw [Option.getD_none]
    constructor
    · rintro rfl
      exact .inr ⟨rfl, hnot⟩
    · rintro (rfl | ⟨h, -⟩)
      · rw [String.toList_append] at hnot
        exact absurd (List.prefix_append _ _) hnot
      · exact h

end Text

namespace Role

variable {role other : Role} {kind kind' name : String}

/-- The names that say what an operation does to a kind, whether within a namespace or not. -/
def Says (role : Role) (kind name : String) : Prop :=
  name = role.text ++ kind ∨ name = role.text ++ ("Namespaced" ++ kind)

/-- The kind begins with the word that stands for a scope in the names of operations. -/
def BeginsScoped (kind : String) : Prop := "Namespaced".toList <+: kind.toList

theorem not_prefix_text (h : role ≠ other) : ¬ role.text.toList <+: other.text.toList := by
  revert h
  cases role <;> cases other <;> decide

theorem Says.prefix_toList (h : Says role kind name) : role.text.toList <+: name.toList := by
  rcases h with rfl | rfl
  · rw [String.toList_append]
    exact List.prefix_append _ _
  · rw [String.toList_append]
    exact List.prefix_append _ _

/-- **No name says two roles**, be it of one kind or of two. -/
theorem Says.unique (h : Says role kind name) (h' : Says other kind' name) : role = other := by
  by_contra hne
  rcases List.prefix_or_prefix_of_prefix h.prefix_toList h'.prefix_toList with hprefix | hprefix
  · exact not_prefix_text hne hprefix
  · exact not_prefix_text (Ne.symm hne) hprefix

/-- What such a name has after the role is the kind, once the scope is dropped. -/
theorem Says.exists_rest (hscope : ¬ BeginsScoped kind) (h : Says role kind name) :
    ∃ rest, name = role.text ++ rest ∧ Text.dropStart "Namespaced" rest = kind := by
  rcases h with rfl | rfl
  · exact ⟨kind, rfl, Text.dropStart_eq_iff.mpr (.inr ⟨rfl, hscope⟩)⟩
  · exact ⟨_, rfl, Text.dropStart_eq_iff.mpr (.inl rfl)⟩

/-- How a name is matched against a role and a kind. -/
theorem matches_iff : (match Text.dropStart? role.text name with
      | some rest => Text.dropStart "Namespaced" rest == kind
      | none => false) = true
    ↔ Says role kind name ∧ (BeginsScoped kind → name ≠ role.text ++ kind) := by
  cases hdrop : Text.dropStart? role.text name with
  | none =>
    exact iff_of_false Bool.false_ne_true fun h =>
      Text.dropStart?_eq_none_iff.mp hdrop h.1.prefix_toList
  | some rest =>
    obtain rfl := Text.dropStart?_eq_some hdrop
    have hinj : ∀ t, role.text ++ rest = role.text ++ t ↔ rest = t :=
      fun t => String.append_right_inj role.text
    have hlonger : "Namespaced" ++ kind ≠ kind := by
      intro h
      have hlength := congrArg String.length h
      rw [String.length_append, show "Namespaced".length = 10 from rfl] at hlength
      omega
    -- both sides are now about what follows the role
    rw [beq_iff_eq, Text.dropStart_eq_iff, Says, hinj, hinj, ne_eq, hinj, ← BeginsScoped]
    constructor
    · rintro (rfl | ⟨rfl, hscope⟩)
      · exact ⟨.inr rfl, fun _ => hlonger⟩
      · exact ⟨.inl rfl, fun h => absurd h hscope⟩
    · rintro ⟨rfl | rfl, hscope⟩
      · exact .inr ⟨rfl, fun h => hscope h rfl⟩
      · exact .inl rfl

/-- **The names that give a role.** -/
theorem of?_eq_some_iff : of? name kind = some role
    ↔ Says role kind name ∧ (BeginsScoped kind → name ≠ role.text ++ kind) := by
  have hfound : ∀ r, of? name kind = some r
      → Says r kind name ∧ (BeginsScoped kind → name ≠ r.text ++ kind) := by
    intro r hr
    unfold of? at hr
    have hmatches := List.find?_some hr
    exact matches_iff.mp hmatches
  refine ⟨hfound role, fun h => ?_⟩
  have hmem : role ∈ all := by cases role <;> decide
  obtain ⟨r, hr⟩ : ∃ r, of? name kind = some r := by
    unfold of?
    rw [← Option.isSome_iff_exists, List.find?_isSome]
    exact ⟨role, hmem, matches_iff.mpr h⟩
  rw [hr, h.1.unique (hfound r hr).1]

/-- A kind that does not begin with the word for a scope is found in every name that says a role of
it. -/
theorem of?_eq_some (hscope : ¬ BeginsScoped kind) (h : Says role kind name) :
    of? name kind = some role :=
  of?_eq_some_iff.mpr ⟨h, fun hbegins => absurd hbegins hscope⟩

/--
**Which names give a role for a kind.**

A name gives a role if it says the role of the kind, unless the kind begins with the word for a scope
and stands right behind the role. It says one role at most, and without any it gives none. So all the
names that say a role give it exactly if the kind does not begin with that word.
-/
theorem of?_iff_says (kind : String) :
    (∀ name role, of? name kind = some role
        ↔ Says role kind name ∧ (BeginsScoped kind → name ≠ role.text ++ kind))
      ∧ (∀ name role other, Says role kind name → Says other kind name → role = other)
      ∧ (∀ name, of? name kind = none
          ↔ ∀ role, Says role kind name → BeginsScoped kind ∧ name = role.text ++ kind)
      ∧ ((∀ name role, of? name kind = some role ↔ Says role kind name) ↔ ¬ BeginsScoped kind) := by
  refine ⟨fun name role => of?_eq_some_iff, fun name role other => Says.unique, fun name => ?_, ?_⟩
  · rw [Option.eq_none_iff_forall_ne_some]
    refine forall_congr' fun role => ?_
    rw [ne_eq, of?_eq_some_iff, not_and, not_forall, not_not]
    simp only [exists_prop]
  · constructor
    · intro hall hscope
      have hsaid : Says .create kind (Role.create.text ++ kind) := .inl rfl
      exact (of?_eq_some_iff.mp ((hall _ _).mpr hsaid)).2 hscope rfl
    · intro hscope name role
      exact ⟨fun h => (of?_eq_some_iff.mp h).1, of?_eq_some hscope⟩

/-- A name that creates a kind, without a scope, and does not give the role: the beginning of the
kind is taken for the scope. Within a namespace the kind is found. -/
theorem of?_iff_says_namespacedWidget :
    Says .create "NamespacedWidget" "createNamespacedWidget"
      ∧ of? "createNamespacedWidget" "NamespacedWidget" = none
      ∧ of? "createNamespacedNamespacedWidget" "NamespacedWidget" = some .create := by
  obtain ⟨hgives, hunique, hnone, -⟩ := of?_iff_says "NamespacedWidget"
  have hsaid : Says .create "NamespacedWidget" "createNamespacedWidget" := .inl (by decide)
  refine ⟨hsaid, (hnone _).mpr fun role hrole => ?_, (hgives _ _).mpr ⟨.inr (by decide), ?_⟩⟩
  · obtain rfl := hunique _ _ _ hrole hsaid
    exact ⟨⟨"Widget".toList, by decide⟩, by decide⟩
  · exact fun _ => by decide

end Role

end ApiModels
