import ApiModels.Proofs.ItemPaths
import ApiModels.Proofs.Requests

/-!
# Where a modification goes

A modification is given a name and perhaps a namespace, and reads the object that has them. Its
update is given neither. It goes to the object that the metadata of what was read and then changed
says, and both the answer and the change decide what that is. So the update reaches another object
when they say another one, and is refused for want of a namespace when they say none, whatever
namespace the object was read in. That the two contradict each other is never noticed.
-/

namespace ApiModels

namespace OpSpec

/-- What stands in an address for the name and the namespace are the name and the namespace of an
object. -/
structure Names (op : OpSpec) (name : String) (ns : Option String) (address : String) : Prop where
  name : ∀ segment ∈ inPlaceOf "name" op.path address, segment = Text.encodeSegment name
  ns : op.namespaced = true →
    ∀ segment ∈ inPlaceOf "namespace" op.path address, some segment = ns.map Text.encodeSegment

/-- A request of an operation goes to the object that has a name and, within namespaces, a
namespace. If the template addresses one object, the request names it and no other. -/
structure GoesTo (op : OpSpec) (name : String) (ns : Option String) (request : Http.Request) :
    Prop where
  address : Http.address (Crud.callFor op (if op.namespaced then ns else none) (some name)).path
    = .ok request.address
  names : op.AddressesItem → ∀ name' ns', op.Names name' ns' request.address
    ↔ name = name' ∧ (op.namespaced = true → ns = ns')

end OpSpec

namespace Crud

/-- An address that is filled in with a name and a namespace names what they name. -/
theorem names_iff {op : OpSpec} (hop : op.AddressesItem) {ns : Option String}
    (hns : ns.isSome = op.namespaced) {name address : String}
    (h : Http.address (callFor op ns (some name)).path = .ok address) (name' : String)
    (ns' : Option String) :
    op.Names name' ns' address ↔ name = name' ∧ (op.namespaced = true → ns = ns') := by
  have hsegments := pathSegments_of_address hop.rooted h
  have hname : (∀ segment ∈ inPlaceOf "name" op.path address, segment = Text.encodeSegment name')
      ↔ name = name' := by
    rw [forall_mem_inPlaceOf hsegments hop.name (· = Text.encodeSegment name'), filledIn_name,
      Text.encodeSegment_inj]
  have hnamespace : op.namespaced = true →
      ((∀ segment ∈ inPlaceOf "namespace" op.path address,
        some segment = ns'.map Text.encodeSegment) ↔ ns = ns') := by
    intro hnamespaced
    obtain ⟨n, rfl⟩ := Option.isSome_iff_exists.mp (hns.trans hnamespaced)
    rw [forall_mem_inPlaceOf hsegments (hop.ns hnamespaced)
      (fun segment => some segment = ns'.map Text.encodeSegment), filledIn_namespace]
    cases ns' with
    | none => exact iff_of_false (fun h => nomatch h) (fun h => nomatch h)
    | some n' => simp only [Option.map_some, Option.some.injEq, Text.encodeSegment_inj]
  constructor
  · intro hnames
    exact ⟨hname.mp hnames.name, fun h => (hnamespace h).mp (hnames.ns h)⟩
  · rintro ⟨heq, hns'⟩
    exact ⟨hname.mpr heq, fun h => (hnamespace h).mpr (hns' h)⟩

variable {α σ τ β : Type} (t : DocumentType α)

/-- **A request for an object goes to the name and the namespace that its operation is given.** -/
theorem ItemOperation.goesTo (client : Client (StateM σ)) (s : σ) (o : ItemOperation α) :
    ∀ e ∈ o.sent t client s, ∃ op name, o.spec? t = some op ∧ o.name? t = some name
      ∧ op.GoesTo name (o.ns? t) e.request := by
  intro e he
  rw [sent_eq] at he
  obtain ⟨c, hc, hr⟩ := mem_exchangesOf he
  obtain ⟨op, ns, name, -, hop, hname, hsome, hns, hpath, hquery⟩ := call_eq_ok t hc
  have haddress := Call.request_eq_ok hr
  rw [Call.pathAndQuery_of_query hquery, hpath] at haddress
  refine ⟨op, name, hop, hname, hns ▸ haddress, fun hitem name' ns' => ?_⟩
  rw [names_iff hitem hsome haddress]
  refine and_congr_right fun _ => forall_congr' fun hnamespaced => ?_
  rw [hns, if_pos hnamespaced]

/-! ## Refusals of a modification -/

section

variable {client : Client (StateM τ)}

/-- An operation of one call is refused when its call is. -/
theorem asked_refused_iff {call : Except CrudError Call}
    {take : Except ClientError Response → Except CrudError β}
    (htake : ∀ result, ¬ Refused (take result)) {e : CrudError} (he : e.isRefusal = true) (s : τ) :
    (asked client call take s).1 = .error e ↔ call = .error e := by
  cases call with
  | error err => simp only [asked, Except.error.injEq]
  | ok c => exact iff_of_false (fun h => htake _ ⟨e, h, he⟩) (fun h => nomatch h)

/-- Two steps fail when one of them does. -/
theorem bind_eq_error_iff {ε γ δ : Type} {r : Except ε γ} {f : γ → Except ε δ} {e : ε} :
    r >>= f = .error e ↔ r = .error e ∨ ∃ a, r = .ok a ∧ f a = .error e := by
  refine ⟨bind_eq_error, ?_⟩
  rintro (rfl | ⟨a, rfl, h⟩)
  · rfl
  · exact h

theorem pure_eq_error_iff {ε γ : Type} {a : γ} {e : ε} :
    (pure a : Except ε γ) = .error e ↔ False :=
  iff_false_intro fun h => nomatch h

theorem assigned_eq_error_iff {x : α} {result : Except CrudError α} {e : CrudError} :
    (assigned x result).1 = .error e ↔ result = .error e := by
  cases result with
  | error err => simp [assigned]
  | ok y => simp [assigned]

theorem supported_eq_ok_iff {role : String} {op : Option β} {b : β} :
    supported t role op = .ok b ↔ op = some b :=
  ⟨supported_eq_ok t, fun h => by rw [h]; rfl⟩

theorem supported_eq_error_iff {role : String} {op : Option β} {e : CrudError} :
    supported t role op = .error e ↔ op = none ∧ e = .unsupported t.kind role := by
  cases op with
  | none => simp [supported, eq_comm]
  | some op => simp [supported]

theorem nameOf_eq_ok_iff {x : α} {name : String} : nameOf t x = .ok name ↔ t.name x = some name :=
  ⟨nameOf_eq_ok t, fun h => by unfold nameOf; rw [h]⟩

theorem nameOf_eq_error_iff {x : α} {e : CrudError} :
    nameOf t x = .error e ↔ t.name x = none ∧ e = .missingName t.kind := by
  unfold nameOf
  cases t.name x with
  | none => simp [eq_comm]
  | some name => simp

/-- Nothing can be wrong with a namespace that is given in one way only but its absence. -/
theorem resolveNamespace_eq_error_iff {kind : String} {namespaced : Bool}
    {explicit metadata : Option String} (hone : explicit = none ∨ metadata = none)
    {e : CrudError} : resolveNamespace kind namespaced explicit metadata = .error e
      ↔ namespaced = true ∧ explicit.or metadata = none ∧ e = .missingNamespace kind := by
  unfold resolveNamespace
  rcases hone with rfl | rfl
  · cases namespaced with
    | false => simp
    | true => cases metadata <;> simp [eq_comm]
  · cases namespaced with
    | false => simp
    | true => cases explicit <;> simp [eq_comm]

/-- A reading is refused when there is no operation for it, or no namespace that it needs. -/
theorem reading_eq_error_iff {name : String} {explicit : Option String} {e : CrudError} :
    reading t name explicit = .error e
      ↔ (t.ops.read = none ∧ e = .unsupported t.kind "read")
        ∨ ∃ op, t.ops.read = some op ∧ op.namespaced = true ∧ explicit = none
          ∧ e = .missingNamespace t.kind := by
  unfold reading
  simp only [bind_eq_error_iff, pure_eq_error_iff, supported_eq_error_iff, supported_eq_ok_iff,
    resolveNamespace_eq_error_iff (.inr rfl), Option.or_none, and_false, exists_false, or_false]

/-- An update is refused when there is no operation for it, or no name or no namespace that it
needs in the metadata. -/
theorem updating_eq_error_iff {x : α} {e : CrudError} :
    updating t x = .error e
      ↔ (t.ops.update = none ∧ e = .unsupported t.kind "update")
        ∨ ∃ u, t.ops.update = some u
          ∧ ((t.name x = none ∧ e = .missingName t.kind)
            ∨ ∃ n, t.name x = some n ∧ u.1.namespaced = true ∧ t.ns x = none
              ∧ e = .missingNamespace t.kind) := by
  unfold updating prepared
  simp only [bind_eq_error_iff, pure_eq_error_iff, supported_eq_error_iff, supported_eq_ok_iff,
    nameOf_eq_error_iff, nameOf_eq_ok_iff, resolveNamespace_eq_error_iff (.inl rfl), Option.none_or,
    and_false, exists_false, or_false]

/-- An update is refused for want of a namespace when the metadata have a name and none. -/
theorem updating_missingNamespace_iff {x : α} :
    updating t x = .error (.missingNamespace t.kind) ↔ ∃ u, t.ops.update = some u
      ∧ u.1.namespaced = true ∧ (t.name x).isSome = true ∧ t.ns x = none := by
  rw [updating_eq_error_iff]
  simp only [reduceCtorEq, and_false, false_or, and_true, Option.isSome_iff_exists]
  refine exists_congr fun u => and_congr_right fun _ => ?_
  constructor
  · rintro ⟨n, hn, hnamespaced, hns⟩
    exact ⟨hnamespaced, ⟨n, hn⟩, hns⟩
  · rintro ⟨hnamespaced, ⟨n, hn⟩, hns⟩
    exact ⟨n, hn, hnamespaced, hns⟩

/-- A modification is refused when its reading is, or else when the update of what was read and
changed is. -/
theorem modify_refused_iff {e : CrudError} (he : e.isRefusal = true) (name : String)
    (explicit : Option String) (change : α → Except String α) (s : τ) :
    (ending (modify t client name explicit change) s).1 = .error e
      ↔ (ending (read t client name explicit) s).1 = .error e
        ∨ ∃ y z, (ending (read t client name explicit) s).1 = .ok y ∧ change y = .ok z
          ∧ updating t z = .error e := by
  rw [modify_ending]
  rcases ending (read t client name explicit) s with ⟨err | y, s'⟩
  · simp
  · dsimp only
    cases hchange : change y with
    | error reason =>
      have hne : CrudError.aborted reason ≠ e := by
        rintro rfl
        cases he
      simp [hne, hchange]
    | ok z =>
      have hright : (∃ y' z', (.ok y : Except CrudError α) = .ok y' ∧ change y' = .ok z'
          ∧ updating t z' = .error e) ↔ (outcome (update t client) z s').1.1 = .error e := by
        rw [update_outcome, attempted_eq, assigned_eq_error_iff,
          asked_refused_iff (not_refused_answered t z) he]
        simp [hchange]
      rw [hright]
      dsimp only
      rcases outcome (update t client) z s' with ⟨⟨_ | _, z'⟩, s''⟩
      · simp
      · simp

end

/-! ## Modifications -/

/-- The update of a modification is that of what was read and changed. -/
theorem mem_sentAfter {client : Client (StateM σ)} {change : α → Except String α}
    {reading : Except CrudError α × σ × List Exchange} {e : Exchange}
    (h : e ∈ sentAfter t client change reading) :
    ∃ y z, reading.1 = .ok y ∧ change y = .ok z
      ∧ e ∈ (ItemOperation.update z).sent t client reading.2.1 := by
  unfold sentAfter at h
  split at h
  · cases h
  · rename_i y hy
    split at h
    · cases h
    · rename_i z hz
      exact ⟨y, z, hy, hz, h⟩

/--
**A modification reads what it is told to, and updates what the metadata say.**

Its reading goes to the name and the namespace that it is given. Its update goes to those that are
in the metadata of what was read, once this is changed: it is for the object that was read if these
are the same, and for another one if they are not. For want of a namespace a modification is refused
with its reading, or else when those metadata have a name and no namespace, even if it was given
one. No contradiction of namespaces is ever reported.
-/
theorem modify_goesTo (client : Client (StateM σ)) (name : String) (explicit : Option String)
    (change : α → Except String α) (s : σ) :
    let reading := ending (read t client.watched name explicit) (s, [])
    let o := ending (modify t client.watched name explicit change) (s, [])
    o.2.2 = reading.2.2 ++ sentAfter t client change reading
      ∧ (∀ e ∈ reading.2.2, ∃ op, t.ops.read = some op ∧ op.GoesTo name explicit e.request)
      ∧ (∀ e ∈ sentAfter t client change reading, ∃ y z u n, reading.1 = .ok y
          ∧ change y = .ok z ∧ t.ops.update = some u ∧ t.name z = some n
          ∧ u.1.GoesTo n (t.ns z) e.request)
      ∧ (o.1 = .error (.missingNamespace t.kind) ↔ reading.1 = .error (.missingNamespace t.kind)
          ∨ ∃ y z, reading.1 = .ok y ∧ change y = .ok z ∧ ∃ u, t.ops.update = some u
            ∧ u.1.namespaced = true ∧ (t.name z).isSome = true ∧ t.ns z = none)
      ∧ ∀ e m, o.1 ≠ .error (.namespaceMismatch e m) := by
  intro reading o
  refine ⟨modify_exchanges t name explicit change (s, []), fun e he => ?_, fun e he => ?_, ?_,
    fun e m h => ?_⟩
  · obtain ⟨op, n, hop, hname, hgoes⟩ :=
      ItemOperation.goesTo t client s (.read name explicit) e he
    cases hname
    exact ⟨op, hop, hgoes⟩
  · obtain ⟨y, z, hy, hz, he⟩ := mem_sentAfter t he
    obtain ⟨op, n, hop, hname, hgoes⟩ := ItemOperation.goesTo t client _ (.update z) e he
    obtain ⟨u, hu, rfl⟩ := Option.map_eq_some_iff.mp hop
    exact ⟨y, z, u, n, hy, hz, hu, hname, hgoes⟩
  · rw [modify_refused_iff t rfl]
    simp only [updating_missingNamespace_iff]
    rfl
  · -- with one namespace at hand there is nothing that it could contradict
    rcases (modify_refused_iff t rfl name explicit change _).mp h with h | ⟨y, z, -, -, h⟩
    · rw [read_ending, asked_refused_iff (not_refused_parsed t) rfl, reading_eq_error_iff] at h
      simp at h
    · rw [updating_eq_error_iff] at h
      simp at h

/-- A widget that is read in a namespace and answered without one cannot be modified. One that is
answered in another namespace is modified there. -/
example :
    let answer (metadata : String) : Except String Http.Answer :=
      .ok ⟨200, ("\x7b\"metadata\":" ++ metadata ++ "\x7d").toUTF8.data.toList⟩
    let modified (metadata : String) :=
      ending (modify Samples.widgets Script.client.watched "web" (some "prod") .ok)
        (⟨[answer metadata, answer metadata], []⟩, [])
    let sent (metadata : String) :=
      (modified metadata).2.2.map fun e => (e.request.verb, e.request.address)
    let path (ns : String) := "/apis/example.io/v1/namespaces/" ++ ns ++ "/widgets/web"
    (modified "\x7b\"name\":\"web\"\x7d").1.map (fun _ => ())
        = .error (.missingNamespace "Widget")
      ∧ sent "\x7b\"name\":\"web\"\x7d" = [(.get, path "prod")]
      ∧ sent "\x7b\"name\":\"web\",\"namespace\":\"dev\"\x7d"
        = [(.get, path "prod"), (.patch, path "dev")] := by
  decide +kernel

end Crud

end ApiModels
