import ApiModels.Proofs.GeneratedOperations

/-!
# The order of methods

Operations are bound version by version, in the order of the names of versions, and those of one
version in source order. A class lists its methods as they were bound. Usually all of them are of one
version, but a body or a response may name a class of another one, and then the versions come first:
an operation that stands earlier in the document is listed later if its version is a later one.

What is first among the methods is what a plan takes for a role. So a plan, too, goes by version
before it goes by source.
-/

namespace ApiModels

/-! ## Taking operations -/

namespace ReleaseModel

variable {m : ReleaseModel} {x y : OperationId} {version : String} {ops : List OperationId}

/-- The order in which operations are taken: by the names of their versions, and those of one version
in source order. -/
def TakenBefore (m : ReleaseModel) (x y : OperationId) : Prop :=
  (m.operation x).version < (m.operation y).version
    ∨ (m.operation x).version = (m.operation y).version ∧ x < y

theorem TakenBefore.asymm (h : m.TakenBefore x y) : ¬ m.TakenBefore y x := by
  rintro (hback | ⟨heq, hback⟩)
  · rcases h with h | ⟨heq, -⟩
    · exact String.lt_asymm h hback
    · exact String.lt_irrefl _ (heq ▸ hback)
  · rcases h with h | ⟨-, h⟩
    · exact String.lt_irrefl _ (heq ▸ h)
    · exact Nat.lt_asymm h hback

theorem pairwise_takenBefore (m : ReleaseModel) :
    (m.versions.flatMap m.operationsOf).Pairwise m.TakenBefore := by
  rw [List.pairwise_flatMap]
  constructor
  · intro version _
    refine List.Pairwise.imp_of_mem ?_ pairwise_operationsOf
    intro x y hx hy hlt
    exact .inr ⟨(mem_operationsOf.mp hx).2.trans (mem_operationsOf.mp hy).2.symm, hlt⟩
  · refine pairwise_versions.imp fun hlt x hx y hy => .inl ?_
    rw [(mem_operationsOf.mp hx).2, (mem_operationsOf.mp hy).2]
    exact hlt

/-- Operations listed as they are taken are in source order exactly if their versions are, too. -/
theorem pairwise_lt_iff (h : ops.Pairwise m.TakenBefore) : ops.Pairwise (· < ·)
    ↔ ∀ x ∈ ops, ∀ y ∈ ops, x < y → (m.operation x).version ≤ (m.operation y).version := by
  constructor
  · intro hlt x hx y hy hxy
    -- whichever of two members is first in the source is listed first, and so it is taken first
    have hordered : ops.Pairwise fun x y =>
        (x < y → m.TakenBefore x y) ∧ (y < x → m.TakenBefore y x) :=
      (h.and hlt).imp fun h => ⟨fun _ => h.1, fun hyx => absurd hyx (Nat.lt_asymm h.2)⟩
    have : Std.Symm fun x y : OperationId =>
        (x < y → m.TakenBefore x y) ∧ (y < x → m.TakenBefore y x) := ⟨fun _ _ => And.symm⟩
    rcases (hordered.forall hx hy (Nat.ne_of_lt hxy)).1 hxy with hversion | ⟨heq, -⟩
    · exact String.lt_asymm hversion
    · exact heq ▸ String.lt_irrefl _
  · intro hversions
    refine List.Pairwise.imp_of_mem ?_ h
    rintro x y hx hy (hversion | ⟨-, hlt⟩)
    · rcases Nat.lt_trichotomy x y with hlt | rfl | hgt
      · exact hlt
      · exact absurd hversion (String.lt_irrefl _)
      · exact absurd hversion (hversions y hy x hx hgt)
    · exact hlt

end ReleaseModel

namespace Build

open ReleaseModel Binding

variable {b : Build} {d t : TypeId} {op : OperationId} {role : Role} {plan : CrudPlan}

/-- An operation of a document is in a role. -/
def InRole (b : Build) (d : TypeId) (role : Role) (op : OperationId) : Prop :=
  ∃ mb ∈ b.bindings.methods d, HasRole b d role mb ∧ mb.operation = op

/-- The operation in a role that is taken before all others in it. -/
structure FirstTaken (b : Build) (d : TypeId) (role : Role) (op : OperationId) : Prop where
  inRole : b.InRole d role op
  first : ∀ other, b.InRole d role other → other ≠ op → b.model.TakenBefore op other

theorem FirstTaken.unique {other : OperationId} (h : b.FirstTaken d role op)
    (h' : b.FirstTaken d role other) : other = op := by
  by_contra hne
  exact (h.first other h'.inRole hne).asymm (h'.first op h.inRole (Ne.symm hne))

/-- The first of the methods in a role is the one taken first. -/
theorem firstIn_iff
    (h : ((b.bindings.methods d).map (·.operation)).Pairwise b.model.TakenBefore) :
    b.FirstIn d role op ↔ b.FirstTaken d role op := by
  have hfirst : ∀ op, b.FirstIn d role op → b.FirstTaken d role op := by
    rintro op ⟨before, mb, after, hmethods, rfl, hrole, hbefore⟩
    refine ⟨⟨mb, by rw [hmethods]; simp, hrole, rfl⟩, ?_⟩
    rintro other ⟨mb', hmb', hrole', rfl⟩ hne
    rw [hmethods] at hmb' h
    rw [List.map_append, List.map_cons, List.pairwise_append, List.pairwise_cons] at h
    rcases List.mem_append.mp hmb' with hmem | hmem
    · exact absurd hrole' (hbefore mb' hmem)
    · rcases List.mem_cons.mp hmem with rfl | hmem
      · exact absurd rfl hne
      · exact h.2.1.1 _ (List.mem_map_of_mem hmem)
  refine ⟨hfirst op, fun htaken => ?_⟩
  -- something is found in the role, and nothing but this can be taken first
  obtain ⟨mb, hmb, hrole, -⟩ := htaken.inRole
  obtain ⟨first, hsome⟩ := Option.isSome_iff_exists.mp (isSome_inRole?_iff.mpr ⟨mb, hmb, hrole⟩)
  have hin := inRole?_eq_some_iff.mp hsome
  exact htaken.unique (hfirst first hin) ▸ hin

/-- What is taken first is first in the source exactly if whatever is of a later version is also
later in the source. -/
theorem FirstTaken.le_iff (h : b.FirstTaken d role op) :
    (∀ other, b.InRole d role other → op ≤ other) ↔ ∀ other, b.InRole d role other →
      (b.model.operation op).version < (b.model.operation other).version → op < other := by
  constructor
  · intro hle other hother hversion
    refine lt_of_le_of_ne (hle other hother) ?_
    rintro rfl
    exact String.lt_irrefl _ hversion
  · intro hlater other hother
    by_cases hne : other = op
    · exact le_of_eq hne.symm
    · rcases h.first other hother hne with hversion | ⟨-, hlt⟩
      · exact (hlater other hother hversion).le
      · exact hlt.le

/-- What is bound is bound in the order in which operations are taken. -/
theorem methods_takenBefore (config : ReleaseConfig) (doc : Swagger.Document) (t : TypeId) :
    (((ofDocument config doc).bindings.methods t).map (·.operation)).Pairwise
      (ofDocument config doc).model.TakenBefore :=
  (pairwise_takenBefore _).sublist
    ((List.filter_sublist.map _).trans (ofDocument_bound config doc).operations)

/-- The methods of a class are the operations that have it for their class. -/
theorem mem_operations_methods (config : ReleaseConfig) (doc : Swagger.Document) :
    op ∈ ((ofDocument config doc).bindings.methods t).map (·.operation)
      ↔ op < (ofDocument config doc).model.operations.size ∧ ∃ kind rule,
        classOf (ofDocument config doc).model (ofDocument config doc).names
          (ofDocument config doc).order ((ofDocument config doc).model.operation op)
            = .ok (t, kind, rule) := by
  have hbound := ofDocument_bound config doc
  have hdivided := ofDocument_divided config doc
  rw [List.mem_map]
  constructor
  · rintro ⟨mb, hmb, rfl⟩
    obtain ⟨hmem, rfl⟩ := Bindings.mem_methods.mp hmb
    refine ⟨List.mem_range.mp (hdivided.operations.mem_iff.mp ?_), _, _, hbound.classes mb hmem⟩
    exact List.mem_append_right _ (List.mem_map_of_mem hmem)
  · rintro ⟨hlt, kind, rule, hclass⟩
    obtain ⟨hbindable, hkept, hfound⟩ := classOf_eq_ok hclass
    exact exists_mem_methods config doc ⟨hlt, hbindable, hkept⟩ hfound

/--
**Methods are listed by version, and by source within a version.**

The methods of a class are the operations that have it for their class, each once. Those of an
earlier version come first, and those of one version are in source order; so the list is in source
order exactly if no operation of the class precedes, in the document, one of an earlier version. The
operations of a plan are those that are taken first in their roles. Such an operation is also the
first of its role in the document exactly if those of later versions all come after it there.
-/
theorem order_of_methods (config : ReleaseConfig) (doc : Swagger.Document) (t : TypeId) :
    let b := ofDocument config doc
    let ops := (b.bindings.methods t).map (·.operation)
    (∀ op, op ∈ ops ↔ op < b.model.operations.size ∧ ∃ kind rule,
        classOf b.model b.names b.order (b.model.operation op) = .ok (t, kind, rule))
      ∧ ops.Pairwise b.model.TakenBefore
      ∧ (ops.Pairwise (· < ·) ↔ ∀ x ∈ ops, ∀ y ∈ ops, x < y →
          (b.model.operation x).version ≤ (b.model.operation y).version)
      ∧ (∀ plan ∈ b.plans, plan.target = t →
          b.FirstTaken t .create plan.create
            ∧ b.FirstTaken t .delete plan.delete
            ∧ (∀ op, plan.read = some op ↔ b.FirstTaken t .read op)
            ∧ (∀ op, plan.update = some (op, .mergePatch) ↔ b.FirstTaken t .patch op)
            ∧ ∀ op, plan.update = some (op, .replace) ↔
                b.FirstTaken t .replace op ∧ ∀ other, ¬ b.InRole t .patch other)
      ∧ ∀ role op, b.FirstTaken t role op →
          ((∀ other, b.InRole t role other → op ≤ other) ↔ ∀ other, b.InRole t role other →
            (b.model.operation op).version < (b.model.operation other).version → op < other) := by
  intro b ops
  have htaken := methods_takenBefore config doc t
  refine ⟨fun op => mem_operations_methods config doc, htaken, pairwise_lt_iff htaken, ?_,
    fun role op h => h.le_iff⟩
  rintro plan hplan rfl
  have hmade : MadeFor b.model b.order b.bindings plan.target plan :=
    madeFor_of_for? (Generated.for?_target config doc hplan).2
  have hfound : ∀ role op, CrudPlan.inRole? b.model b.bindings plan.target role = some op
      ↔ b.FirstTaken plan.target role op :=
    fun role op => inRole?_eq_some_iff.trans (firstIn_iff htaken)
  have hnone : ∀ role, CrudPlan.inRole? b.model b.bindings plan.target role = none
      ↔ ∀ other, ¬ b.InRole plan.target role other := by
    intro role
    rw [inRole?_eq_none_iff]
    exact ⟨fun h other ⟨mb, hmb, hrole, _⟩ => h mb hmb hrole,
      fun h mb hmb hrole => h _ ⟨mb, hmb, hrole, rfl⟩⟩
  refine ⟨(hfound _ _).mp hmade.create, (hfound _ _).mp hmade.delete, fun op => ?_, fun op => ?_,
    fun op => ?_⟩
  · rw [← hmade.read, hfound]
  · rw [hmade.patch, hfound]
  · rw [hmade.replace, hfound, hnone]

/-- Widgets of one version. The first operation that creates them in the document is of a later
version than the second one and the one that deletes them. -/
def widgets : Swagger.Document :=
  let kind (version : String) : Swagger.GroupVersionKind := ⟨"apps", version, "Widget"⟩
  let text : Swagger.Schema := .mk { type := some "string" } [] none none
  let widget : Swagger.Schema :=
    .mk { type := some "object", kinds := [kind "v1"] } [("apiVersion", text), ("kind", text)]
      none none
  let toWidget : Swagger.Schema :=
    .mk { reference := some "#/definitions/io.k8s.api.apps.v1.Widget" } [] none none
  let body : Swagger.Parameter := { name := "body", location := "body", schema := some toWidget }
  let operation (id version : String) (parameters : List Swagger.ParameterUse) :
      Swagger.Operation :=
    { id := some id, kind := some (kind version), parameters }
  { definitions := [("io.k8s.api.apps.v1.Widget", widget)],
    paths :=
      [ ("/apis/apps/v1beta1/namespaces/\x7bnamespace\x7d/widgets",
          { operations :=
              [(.post, operation "createAppsV1beta1NamespacedWidget" "v1beta1" [.inline body])] }),
        ("/apis/apps/v1/widgets",
          { operations := [(.post, operation "createAppsV1Widget" "v1" [.inline body])] }),
        ("/apis/apps/v1/widgets/\x7bname\x7d",
          { operations := [(.delete, operation "deleteAppsV1Widget" "v1" [])] }) ] }

/-- The methods of widgets are not in source order, and their plan does not create them by the first
operation of the document that is in the role. -/
theorem order_of_methods_widgets :
    let b := ofDocument
      { label := "rel", semver := "1.0.0", defaultVersion := "v1", preferences := {},
        deprecations := {} } widgets
    let plan : CrudPlan := ⟨0, 1, none, none, 2⟩
    (b.bindings.methods 0).map (·.operation) = [1, 2, 0]
      ∧ plan ∈ b.plans
      ∧ b.InRole 0 .create 0 ∧ b.FirstTaken 0 .create plan.create := by
  intro b plan
  have hplan : plan ∈ b.plans := by decide +kernel
  have hcreate : ∃ mb ∈ b.bindings.methods 0, HasRole b 0 .create mb ∧ mb.operation = 0 := by
    unfold HasRole
    decide +kernel
  obtain ⟨-, -, -, hplans, -⟩ := order_of_methods
    { label := "rel", semver := "1.0.0", defaultVersion := "v1", preferences := {},
      deprecations := {} } widgets 0
  exact ⟨by decide +kernel, hplan, hcreate, (hplans plan hplan rfl).1⟩

end Build

end ApiModels
