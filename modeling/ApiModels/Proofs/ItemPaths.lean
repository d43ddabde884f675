import ApiModels.Proofs.Exchanges
import ApiModels.Proofs.Queries
import ApiModels.Proofs.Segments
import ApiModels.Samples.Widget

/-!
# The paths that objects are addressed by

What is read, updated or deleted is one object, and the path says which: the template of such an
operation has a segment for its name, and one for its namespace where there are namespaces. What
stands there in a request is what was given, and only its absence is checked on the way. So an
object that is named by the empty text is not nameless, and is addressed by a path that ends where
its name should begin.
-/

namespace ApiModels

open Text (pathSegments)

/-- The segments of an address that stand where a template has a parameter. -/
def inPlaceOf (parameter template address : String) : List String :=
  (((pathSegments template).zip (pathSegments address)).filter
    fun p => p.1 = Call.placeholder parameter).map Prod.snd

namespace OpSpec

/-- The template addresses one object: it has a segment for the name, and one for the namespace
where there are namespaces. -/
structure AddressesItem (op : OpSpec) : Prop where
  rooted : op.path.toList.head? = some '/'
  name : Call.placeholder "name" ∈ pathSegments op.path
  ns : op.namespaced = true → Call.placeholder "namespace" ∈ pathSegments op.path

/-- Nothing that stands in place of the name is empty, nor what stands in place of the namespace
where there are namespaces. -/
def Filled (op : OpSpec) (address : String) : Prop :=
  (∀ segment ∈ inPlaceOf "name" op.path address, segment ≠ "")
    ∧ (op.namespaced = true → ∀ segment ∈ inPlaceOf "namespace" op.path address, segment ≠ "")

end OpSpec

namespace Call

theorem jsonBody_path (c : Call) (v : Except EncodeError Json) : (c.jsonBody v).path = c.path := by
  cases v <;> rfl

theorem jsonBody_query (c : Call) (v : Except EncodeError Json) :
    (c.jsonBody v).query = c.query := by
  cases v <;> rfl

theorem request_eq_ok {c : Call} {r : Http.Request} (h : c.request = .ok r) :
    Http.address c.pathAndQuery = .ok r.address := by
  unfold request at h
  cases hd : c.deferred with
  | some e =>
    rw [hd] at h
    cases h
  | none =>
    rw [hd] at h
    obtain ⟨address, haddress, h⟩ := bind_eq_ok h
    obtain ⟨contentType, -, h⟩ := bind_eq_ok h
    cases h
    exact mapError_eq_ok haddress

/-- A header is carried as it stands. -/
theorem header_eq_ok {s carried : String} (h : Http.header s = .ok carried) : carried = s := by
  unfold Http.header at h
  split at h
  · cases h
    rfl
  · cases h

/-- A request says what its call does, and a call whose body could not be written makes none. -/
theorem request_fields {c : Call} {r : Http.Request} (h : c.request = .ok r) :
    c.deferred = none ∧ r.verb = c.verb ∧ r.contentType = c.contentType := by
  unfold request at h
  cases hd : c.deferred with
  | some e =>
    rw [hd] at h
    cases h
  | none =>
    rw [hd] at h
    obtain ⟨address, -, h⟩ := bind_eq_ok h
    obtain ⟨contentType, htype, h⟩ := bind_eq_ok h
    cases h
    refine ⟨rfl, rfl, ?_⟩
    cases hc : c.contentType with
    | none =>
      rw [hc] at htype
      cases htype
      rfl
    | some type =>
      rw [hc] at htype
      obtain ⟨carried, hcarried, htype⟩ := bind_eq_ok htype
      cases htype
      exact congrArg some (header_eq_ok (mapError_eq_ok hcarried))

/-- What a call exchanges goes to its path. -/
theorem address_of_mem_exchanges {σ : Type} {c : Call} {client : Client (StateM σ)} {s : σ}
    {e : Exchange} (h : e ∈ c.exchanges client s) :
    Http.address c.pathAndQuery = .ok e.request.address := by
  unfold exchanges at h
  split at h
  · rename_i r hr
    rw [List.mem_singleton.mp h]
    exact request_eq_ok hr
  · cases h

end Call

namespace Crud

/-! ## Filling in a template -/

/-- A text with a namespace, if there is one, and a name filled in. -/
def filledIn (ns : Option String) (name text : String) : String :=
  Text.replace (Call.placeholder "name") (Text.encodeSegment name)
    (match ns with
    | some ns => Text.replace (Call.placeholder "namespace") (Text.encodeSegment ns) text
    | none => text)

theorem callFor_path (op : OpSpec) (ns : Option String) (name : String) :
    (callFor op ns (some name)).path = filledIn ns name op.path := by
  cases ns with
  | none => rfl
  | some ns => rfl

theorem callFor_query (op : OpSpec) (ns name : Option String) : (callFor op ns name).query = [] := by
  cases ns with
  | none => cases name <;> rfl
  | some ns => cases name <;> rfl

theorem placeholder_ne_empty (parameter : String) : Call.placeholder parameter ≠ "" := by
  intro h
  have hlist := congrArg String.toList h
  simp [Call.placeholder] at hlist

/-- A parameter is inside of one segment. -/
theorem inPath_of_mem_placeholder {parameter : String}
    (h : parameter = "name" ∨ parameter = "namespace") :
    ∀ c ∈ (Call.placeholder parameter).toList, Text.isInPath c = true ∧ c ≠ '/' := by
  rcases h with rfl | rfl
  · simp [Call.placeholder, Text.isInPath]
  · simp [Call.placeholder, Text.isInPath]

/-- A path is filled in segment by segment. -/
theorem pathSegments_filledIn (ns : Option String) (name template : String) :
    pathSegments (filledIn ns name template)
      = (pathSegments template).map (filledIn ns name) := by
  unfold filledIn
  rw [Text.pathSegments_replace (placeholder_ne_empty _) (inPath_of_mem_placeholder (.inl rfl))]
  cases ns with
  | none => rfl
  | some ns =>
    dsimp only
    rw [Text.pathSegments_replace (placeholder_ne_empty _)
      (inPath_of_mem_placeholder (.inr rfl)), List.map_map]
    rfl

theorem head?_filledIn (ns : Option String) (name : String) {template : String}
    (h : template.toList.head? = some '/') :
    (filledIn ns name template).toList.head? = some '/' := by
  unfold filledIn
  refine Text.head?_replace (placeholder_ne_empty _) (by decide) _ ?_
  cases ns with
  | none => exact h
  | some ns => exact Text.head?_replace (placeholder_ne_empty _) (by decide) _ h

/-- The segment for the name becomes the name. -/
theorem filledIn_name (ns : Option String) (name : String) :
    filledIn ns name (Call.placeholder "name") = Text.encodeSegment name := by
  unfold filledIn
  cases ns with
  | none => exact Text.replace_self (placeholder_ne_empty _) _
  | some ns =>
    have hkept : Text.replace (Call.placeholder "namespace") (Text.encodeSegment ns)
        (Call.placeholder "name") = Call.placeholder "name" :=
      Text.replace_of_notMem (c := 's') (by decide) (by decide) _
    dsimp only
    rw [hkept]
    exact Text.replace_self (placeholder_ne_empty _) _

/-- The segment for the namespace becomes the namespace, in which no parameter is left. -/
theorem filledIn_namespace (ns name : String) :
    filledIn (some ns) name (Call.placeholder "namespace") = Text.encodeSegment ns := by
  unfold filledIn
  dsimp only
  rw [Text.replace_self (placeholder_ne_empty _)]
  exact Text.replace_of_notMem (c := '\x7b') (by decide)
    (Text.notMem_encodeSegment (by decide) ns) _

section

variable {template address : String} {fill : String → String}

/-- What stands in place of a parameter is what its segments become. -/
theorem inPlaceOf_eq (h : pathSegments address = (pathSegments template).map fill)
    (parameter : String) : inPlaceOf parameter template address
      = ((pathSegments template).filter (· = Call.placeholder parameter)).map fill := by
  unfold inPlaceOf
  rw [h, ← List.map_prod_left_eq_zip, List.filter_map, List.map_map]
  rfl

theorem forall_mem_inPlaceOf (h : pathSegments address = (pathSegments template).map fill)
    {parameter : String} (hmem : Call.placeholder parameter ∈ pathSegments template)
    (P : String → Prop) : (∀ segment ∈ inPlaceOf parameter template address, P segment)
      ↔ P (fill (Call.placeholder parameter)) := by
  rw [inPlaceOf_eq h]
  constructor
  · intro hall
    exact hall _ (List.mem_map_of_mem (List.mem_filter.mpr ⟨hmem, by simp⟩))
  · intro hfill segment hsegment
    obtain ⟨s, hs, rfl⟩ := List.mem_map.mp hsegment
    rw [of_decide_eq_true (List.mem_filter.mp hs).2]
    exact hfill

end

/-- The segments of an address are those of the template, filled in one by one. -/
theorem pathSegments_of_address {op : OpSpec} (hop : op.path.toList.head? = some '/')
    {ns : Option String} {name address : String}
    (h : Http.address (callFor op ns (some name)).path = .ok address) :
    pathSegments address = (pathSegments op.path).map (filledIn ns name) := by
  rw [callFor_path] at h
  rw [Text.pathSegments_address (head?_filledIn ns name hop) h, pathSegments_filledIn]

/-- The address of a request that an operation on an object makes is filled in unless what it is
filled in with is empty. -/
theorem filled_iff {op : OpSpec} (hop : op.AddressesItem) {ns : Option String}
    (hns : ns.isSome = op.namespaced) {name address : String}
    (h : Http.address (callFor op ns (some name)).path = .ok address) :
    op.Filled address ↔ name ≠ "" ∧ ns ≠ some "" := by
  have hsegments := pathSegments_of_address hop.rooted h
  unfold OpSpec.Filled
  refine and_congr ?_ ?_
  · rw [forall_mem_inPlaceOf hsegments hop.name (· ≠ ""), filledIn_name, ne_eq,
      Text.encodeSegment_eq_empty]
  · cases ns with
    | none =>
      rw [Option.isSome_none] at hns
      rw [← hns]
      exact iff_of_true (fun h => nomatch h) (fun h => nomatch h)
    | some ns =>
      rw [Option.isSome_some] at hns
      rw [forall_mem_inPlaceOf hsegments (hop.ns hns.symm) (· ≠ ""), filledIn_namespace, ne_eq,
        Text.encodeSegment_eq_empty, ← hns]
      simp

/-! ## Operations on one object -/

/-- An operation on an object that has a name. -/
inductive ItemOperation (α : Type) where
  | read (name : String) (explicit : Option String)
  | readInto (x : α) (explicit : Option String)
  | update (x : α)
  | delete (x : α) (explicit : Option String)

namespace ItemOperation

variable {α σ : Type} (t : DocumentType α)

/-- The operation of the document type that is used. -/
def spec? : ItemOperation α → Option OpSpec
  | read .. | readInto .. => t.ops.read
  | update _ => t.ops.update.map Prod.fst
  | delete .. => some t.ops.delete

/-- The name that the object is addressed by. -/
def name? : ItemOperation α → Option String
  | read name _ => some name
  | readInto x _ | update x | delete x _ => t.name x

/-- The namespace that the object is in. -/
def ns? : ItemOperation α → Option String
  | read _ explicit => explicit
  | readInto x explicit | delete x explicit => explicit.or (t.ns x)
  | update x => t.ns x

/-- What is sent through a client in some state. -/
def sent (client : Client (StateM σ)) (s : σ) : ItemOperation α → List Exchange
  | read name explicit => (ending (Crud.read t client.watched name explicit) (s, [])).2.2
  | readInto x explicit => (outcome (Crud.readInto t client.watched explicit) x (s, [])).2.2
  | update x => (outcome (Crud.update t client.watched) x (s, [])).2.2
  | delete x explicit => (ending (Crud.delete t client.watched x explicit) (s, [])).2.2

/-- The call that is made once what it needs has been checked. -/
def call : ItemOperation α → Except CrudError Call
  | read name explicit => reading t name explicit
  | readInto x explicit => rereading t explicit x
  | update x => updating t x
  | delete x explicit => deleting t explicit x

theorem sent_eq (client : Client (StateM σ)) (s : σ) (o : ItemOperation α) :
    o.sent t client s = exchangesOf client (o.call t) s := by
  cases o with
  | read name explicit =>
    simp only [sent, read_ending, asked_exchanges]
    rfl
  | readInto x explicit =>
    simp only [sent, readInto_outcome, attempted_eq, asked_exchanges]
    rfl
  | update x =>
    simp only [sent, update_outcome, attempted_eq, asked_exchanges]
    rfl
  | delete x explicit =>
    simp only [sent, delete_ending, asked_exchanges]
    rfl

/-- The call that is made has the path of its operation, filled in with the name and the namespace
of the object, and no query. -/
theorem call_eq_ok {o : ItemOperation α} {c : Call} (h : o.call t = .ok c) :
    ∃ op ns name, op ∈ itemSpecs t ∧ o.spec? t = some op ∧ o.name? t = some name
      ∧ ns.isSome = op.namespaced ∧ (ns = if op.namespaced then o.ns? t else none)
      ∧ c.path = (callFor op ns (some name)).path ∧ c.query = [] := by
  cases o with
  | read name explicit =>
    obtain ⟨op, ns, hop, hns, rfl⟩ := reading_eq_ok t h
    obtain ⟨hsome, hns⟩ := resolveNamespace_eq_ok hns
    rw [Option.or_none] at hns
    exact ⟨op, ns, name, read_mem_itemSpecs t hop, hop, rfl, hsome, hns, rfl, callFor_query ..⟩
  | readInto x explicit =>
    obtain ⟨op, name, ns, hop, hname, hns, rfl⟩ := prepared_eq_ok t h
    obtain ⟨hsome, hns⟩ := resolveNamespace_eq_ok hns
    exact ⟨op, ns, name, read_mem_itemSpecs t hop, hop, hname, hsome, hns, rfl, callFor_query ..⟩
  | update x =>
    have h : updating t x = .ok c := h
    obtain ⟨op, name, ns, hop, hname, hns, rfl⟩ := prepared_eq_ok t h
    obtain ⟨hsome, hns⟩ := resolveNamespace_eq_ok hns
    rw [Option.none_or] at hns
    refine ⟨op.1, ns, name, update_mem_itemSpecs t hop, ?_, hname, hsome, hns, ?_, ?_⟩
    · unfold spec?
      rw [hop]
      rfl
    · exact Call.jsonBody_path ..
    · rw [Call.jsonBody_query, callFor_query]
  | delete x explicit =>
    obtain ⟨op, name, ns, hop, hname, hns, rfl⟩ := prepared_eq_ok t h
    obtain ⟨hsome, hns⟩ := resolveNamespace_eq_ok hns
    cases hop
    exact ⟨_, ns, name, delete_mem_itemSpecs t, rfl, hname, hsome, hns, rfl, callFor_query ..⟩

/-- **What addresses an object is filled in unless its name or its namespace is empty.** Nothing else
can leave a segment empty, whatever the instance, the arguments, the client and its answers are. An
object whose name is the empty text is not taken for one without a name, though: its deletion is
sent, and where the name should stand there is nothing. -/
theorem filled_iff_named (ht : ∀ op ∈ itemSpecs t, op.AddressesItem) (client : Client (StateM σ))
    (s : σ) (o : ItemOperation α) :
    ∀ e ∈ o.sent t client s, ∃ op name, o.spec? t = some op ∧ o.name? t = some name
      ∧ (op.Filled e.request.address
        ↔ name ≠ "" ∧ (op.namespaced = true → o.ns? t ≠ some "")) := by
  intro e he
  rw [sent_eq] at he
  cases hc : o.call t with
  | error err =>
    rw [hc] at he
    cases he
  | ok c =>
    rw [hc] at he
    obtain ⟨op, ns, name, hmem, hop, hname, hsome, hns, hpath, hquery⟩ := call_eq_ok t hc
    refine ⟨op, name, hop, hname, ?_⟩
    have haddress := Call.address_of_mem_exchanges he
    rw [Call.pathAndQuery_of_query hquery, hpath] at haddress
    rw [filled_iff (ht op hmem) hsome haddress]
    refine and_congr_right fun _ => ?_
    rw [hns]
    -- outside namespaces there is no namespace to be empty
    cases op.namespaced with
    | false => exact iff_of_true (fun h => nomatch h) (fun h => nomatch h)
    | true => simp

/-- A gadget named by the empty text is deleted at the path of all gadgets. -/
theorem filled_iff_named_gadget :
    let gadget : Samples.Widget := { metadata := some { name := some "" } }
    let sent := (delete gadget none).sent Samples.gadgets Script.client ⟨[.ok ⟨200, []⟩], []⟩
    (∀ op ∈ itemSpecs Samples.gadgets, op.AddressesItem)
      ∧ sent.map (fun e => (e.request.verb, e.request.address)) = [(.delete, "/api/v1/gadgets/")]
      ∧ ∀ e ∈ sent, ¬ Samples.gadgets.ops.delete.Filled e.request.address := by
  intro gadget sent
  have hpaths : ∀ op ∈ itemSpecs Samples.gadgets,
      op.path.toList.head? = some '/' ∧ Call.placeholder "name" ∈ pathSegments op.path
        ∧ op.namespaced = false := by
    decide +kernel
  have ht : ∀ op ∈ itemSpecs Samples.gadgets, op.AddressesItem := by
    intro op hop
    obtain ⟨hrooted, hname, hns⟩ := hpaths op hop
    exact ⟨hrooted, hname, fun h => absurd h (by simp [hns])⟩
  refine ⟨ht, by decide +kernel, fun e he hfilled => ?_⟩
  obtain ⟨op, name, hop, hname, hiff⟩ := filled_iff_named Samples.gadgets ht _ _ _ e he
  cases hop
  cases hname
  exact (hiff.mp hfilled).1 rfl

end ItemOperation

end Crud

end ApiModels
