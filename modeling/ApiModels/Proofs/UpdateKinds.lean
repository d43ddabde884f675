import ApiModels.Proofs.GeneratedOperations
import ApiModels.Proofs.ItemPaths
import ApiModels.Proofs.Requests

/-!
# How updates are sent

The plan of a document says how its update is sent, as a merge patch or as a replacement, and takes
that from the name of the operation. The runtime never asks the plan: it sends the body of a patch
as a merge patch, and takes that from the verb. So the two agree on an update exactly if its name
and its verb do, and nothing in a schema makes them.
-/

namespace ApiModels

namespace UpdateKind

/-- The role of the operation that an update of the kind is made with. -/
def role : UpdateKind → Role
  | mergePatch => .patch
  | replace => .replace

/-- A request is sent as an update of the kind: a merge patch and nothing else is sent as a merge
patch, and a replacement and nothing else as plain JSON. -/
structure SentAs (kind : UpdateKind) (request : Http.Request) : Prop where
  mergePatch : request.contentType = some mergePatchType ↔ kind = .mergePatch
  replace : request.contentType = some jsonType ↔ kind = .replace

/-- With the content type of its verb, a request is sent as an update of the kind if the verb and
the kind say the same. -/
theorem sentAs_iff {kind : UpdateKind} {request : Http.Request} {verb : Verb}
    (h : request.contentType = some (Call.bodyType verb)) :
    kind.SentAs request ↔ (verb = .patch ↔ kind = .mergePatch) := by
  have hpatch : request.contentType = some mergePatchType ↔ verb = .patch := by
    rw [h]
    cases verb <;> decide
  have hjson : request.contentType = some jsonType ↔ ¬ verb = .patch := by
    rw [h]
    cases verb <;> decide
  constructor
  · intro hsent
    exact hpatch.symm.trans hsent.mergePatch
  · intro hagree
    refine ⟨hpatch.trans hagree, hjson.trans (hagree.not.trans ?_)⟩
    cases kind <;> decide

end UpdateKind

namespace Crud

/-- A call has the verb of its operation. -/
theorem callFor_verb (op : OpSpec) (ns name : Option String) :
    (callFor op ns name).verb = op.verb := by
  cases ns with
  | none => cases name <;> rfl
  | some ns => cases name <;> rfl

/-- A body that could not be written is all that keeps its call from having its content type. -/
theorem contentType_jsonBody {op : OpSpec} {ns name : Option String}
    {value : Except EncodeError Json} (h : ((callFor op ns name).jsonBody value).deferred = none) :
    ((callFor op ns name).jsonBody value).verb = op.verb
      ∧ ((callFor op ns name).jsonBody value).contentType = some (Call.bodyType op.verb) := by
  cases value with
  | error e => cases h
  | ok v =>
    have htype : ((callFor op ns name).jsonBody (.ok v)).contentType
        = (callFor op ns name).contentType.or
          (some (Call.bodyType (callFor op ns name).verb)) := rfl
    refine ⟨callFor_verb op ns name, ?_⟩
    rw [htype, callFor_contentType, callFor_verb]
    rfl

namespace ItemOperation

variable {α σ : Type} (t : DocumentType α)

/-- **An update has the verb of its operation and the content type of that verb.** -/
theorem contentType_of_update {op : OpSpec} {kind : UpdateKind}
    (hop : t.ops.update = some (op, kind)) (client : Client (StateM σ)) (s : σ) (x : α) :
    ∀ e ∈ (update x).sent t client s, e.request.verb = op.verb
      ∧ e.request.contentType = some (Call.bodyType op.verb) := by
  intro e he
  rw [sent_eq] at he
  obtain ⟨c, hc, hr⟩ : ∃ c, updating t x = .ok c ∧ c.request = .ok e.request :=
    mem_exchangesOf he
  obtain ⟨u, name, ns, hu, -, -, rfl⟩ := prepared_eq_ok t hc
  obtain rfl : (op, kind) = u := Option.some.inj (hop.symm.trans hu)
  obtain ⟨hdeferred, hverb, htype⟩ := Call.request_fields hr
  rw [hverb, htype]
  exact contentType_jsonBody hdeferred

end ItemOperation

end Crud

namespace Build

open Crud ReleaseModel

variable {b : Build} {d : TypeId} {plan : CrudPlan} {op : OperationId} {kind : UpdateKind}

/-- The update of a plan is the first method in the role of its kind. -/
theorem firstIn_of_update (hfor : CrudPlan.for? b.model b.order b.bindings d = some plan)
    (hupdate : plan.update = some (op, kind)) : b.FirstIn d kind.role op := by
  have hmade := madeFor_of_for? hfor
  cases kind with
  | mergePatch => exact inRole?_eq_some_iff.mp ((hmade.patch op).mp hupdate)
  | replace => exact inRole?_eq_some_iff.mp ((hmade.replace op).mp hupdate).1

/--
**An update is sent as its plan says exactly if the name and the verb of its operation agree.**

The update of a plan is the first method of the document whose name gives it the role of the kind,
and the generated code tells the runtime of both. Whatever the instance and the client, the request
has the verb of the operation, and is sent as an update of the kind if the operation is a patch by
its name and its verb or by neither.
-/
theorem update_sentAs_iff (config : ReleaseConfig) (doc : Swagger.Document) :
    let b := ofDocument config doc
    ∀ plan ∈ b.plans, ∀ op kind, plan.update = some (op, kind) →
      b.FirstIn plan.target kind.role op
        ∧ (∃ e ∈ Generated.opsConstants (Generated.typeIdent b plan.target)
            (Generated.versionModule b (b.model.type plan.target).version).items,
          e.ops? = some (plan.ops b.model))
        ∧ ∀ (α σ : Type) (t : DocumentType α) (client : Client (StateM σ)) (s : σ) (x : α),
          ∀ e ∈ (ItemOperation.update x).sent (t.withOps (plan.ops b.model)) client s,
            e.request.verb = (b.model.operation op).verb
              ∧ (kind.SentAs e.request
                ↔ ((b.model.operation op).verb = .patch ↔ kind = .mergePatch)) := by
  intro b plan hplan op kind hupdate
  refine ⟨firstIn_of_update (Generated.for?_target config doc hplan).2 hupdate,
    Generated.exists_mem_opsConstants config doc hplan, fun α σ t client s x e he => ?_⟩
  have hops : (t.withOps (plan.ops b.model)).ops.update
      = some ((b.model.operation op).spec, kind) := by
    unfold DocumentType.withOps CrudPlan.ops
    rw [hupdate]
    rfl
  obtain ⟨hverb, htype⟩ := ItemOperation.contentType_of_update _ hops client s x e he
  exact ⟨hverb, UpdateKind.sentAs_iff htype⟩

/-- A document with pods that are also updated, by an operation that is a patch by its name and is
declared under another verb. -/
def patchedPods : Swagger.Document :=
  let kind : Swagger.GroupVersionKind := ⟨"", "v1", "Pod"⟩
  let toPod : Swagger.Schema :=
    .mk { reference := some "#/definitions/io.k8s.api.core.v1.Pod" } [] none none
  let body : Swagger.Parameter := { name := "body", location := "body", schema := some toPod }
  let patch : Swagger.Operation :=
    { id := some "patchCoreV1Pod", kind := some kind, parameters := [.inline body] }
  let patched (path : String × Swagger.PathItem) : String × Swagger.PathItem :=
    if path.1 = "/api/v1/pods/\x7bname\x7d" then
      (path.1, { path.2 with operations := (.put, patch) :: path.2.operations })
    else path
  { pods with paths := pods.paths.map patched }

/-- The update of such a pod is planned as a merge patch and sent as plain JSON. -/
theorem update_sentAs_iff_pod :
    let config : ReleaseConfig :=
      { label := "rel", semver := "1.0.0", defaultVersion := "v1", preferences := {},
        deprecations := {} }
    let b := ofDocument config patchedPods
    let pod : Samples.Widget := { metadata := some { name := some "p" } }
    ∃ plan ∈ b.plans, plan.update = some (1, .mergePatch)
      ∧ let sent := (ItemOperation.update pod).sent
          (Samples.gadgets.withOps (plan.ops b.model)) Script.client ⟨[.ok ⟨200, []⟩], []⟩
        sent.map (fun e => (e.request.verb, e.request.contentType)) = [(.put, some jsonType)]
          ∧ ∀ e ∈ sent, ¬ UpdateKind.mergePatch.SentAs e.request := by
  intro config b pod
  have hplans : b.plans = [⟨0, 0, none, some (1, .mergePatch), 2⟩] := by decide +kernel
  have hplan : (⟨0, 0, none, some (1, .mergePatch), 2⟩ : CrudPlan) ∈ b.plans := by
    rw [hplans]
    exact List.mem_singleton_self _
  refine ⟨_, hplan, rfl, by decide +kernel, fun e he hsent => ?_⟩
  obtain ⟨-, -, hsends⟩ := update_sentAs_iff config patchedPods _ hplan 1 .mergePatch rfl
  have hverb : (b.model.operation 1).verb = .put := by decide +kernel
  have hagree := ((hsends _ _ _ _ _ _ e he).2.mp hsent).mpr rfl
  rw [hverb] at hagree
  cases hagree

end Build

end ApiModels
