import ApiModels.Proofs.Exchanges
import ApiModels.Samples.Widget
import Mathlib.Logic.Basic

/-!
# What is sent

A request that was sent cannot be taken back, so what is checked is checked first. An operation that
is refused, because it does not exist or because a name or a namespace is missing or contradicts
another, sends nothing. One that is not refused sends its one request, whatever comes of it.

Only two operations send more. A creation that meets a conflict reads what exists, if that can be
addressed, and a modification sends its update after its reading, if the change was made.
-/

namespace ApiModels

variable {σ : Type}

/-- Of two steps that fail, one failed. -/
theorem bind_eq_error {ε α β : Type} {r : Except ε α} {f : α → Except ε β} {e : ε}
    (h : r >>= f = .error e) : r = .error e ∨ ∃ a, r = .ok a ∧ f a = .error e := by
  cases r with
  | error e' =>
    cases h
    exact .inl rfl
  | ok a => exact .inr ⟨a, rfl, h⟩

/-- An error that was reworded was an error before. -/
theorem mapError_eq_error {ε ε' α : Type} {f : ε → ε'} {r : Except ε α} {e : ε'}
    (h : r.mapError f = .error e) : ∃ e', r = .error e' ∧ e = f e' := by
  cases r with
  | error e' =>
    cases h
    exact ⟨e', rfl, rfl⟩
  | ok a => cases h

namespace Call

/-- The result of a call that makes a request is what its answer makes of it. -/
theorem send_result {c : Call} {r : Http.Request} (h : c.request = .ok r)
    (client : Client (StateM σ)) (s : σ × List Exchange) :
    (c.send client.watched s).1 = match (client.execute r s.1).1 with
      | .ok answer => Response.ofAnswer answer
      | .error reason => .error (.transport (.failed reason)) := by
  unfold send
  simp only [h, Client.watched, bind, StateT.bind, pure]
  rcases client.execute r s.1 with ⟨_ | _, _⟩ <;> rfl

/-- The content type of a body can be sent. -/
theorem header_bodyType (verb : Verb) : Http.header (bodyType verb) = .ok (bodyType verb) := by
  unfold bodyType
  split
  · rfl
  · rfl

/-- A call makes a request with a body if it makes one without. -/
theorem request_jsonBody {c : Call} {r : Http.Request} (h : c.request = .ok r)
    (hnone : c.contentType = none) (v : Json) :
    ∃ r', (c.jsonBody (.ok v)).request = .ok r' := by
  have hdeferred : (c.jsonBody (.ok v)).deferred = c.deferred := rfl
  have hpath : (c.jsonBody (.ok v)).pathAndQuery = c.pathAndQuery := rfl
  have htype : (c.jsonBody (.ok v)).contentType = c.contentType.or (some (bodyType c.verb)) := rfl
  unfold request at h ⊢
  rw [hdeferred, hpath, htype]
  rw [hnone] at h ⊢
  cases hd : c.deferred with
  | some e =>
    rw [hd] at h
    cases h
  | none =>
    cases ha : Http.address c.pathAndQuery with
    | error f =>
      rw [hd, ha] at h
      cases h
    | ok address =>
      exact ⟨_, by simp only [Option.none_or, Option.mapM_some, header_bodyType]; rfl⟩

end Call

/-- Whether an operation was refused before anything was sent. -/
def CrudError.isRefusal : CrudError → Bool
  | .unsupported .. | .missingName _ | .missingNamespace _ | .namespaceMismatch .. => true
  | .client _ | .decode _ | .aborted _ => false

/-- The answer of an exchange says that the object exists already. -/
def Exchange.Conflicts (e : Exchange) : Prop :=
  ∃ answer, e.answer = .ok answer ∧ answer.status = Http.conflict

namespace Crud

variable {α β γ τ : Type} (t : DocumentType α)

/-! ## Refusals -/

/-- The operation was refused. -/
def Refused (result : Except CrudError β) : Prop := ∃ e, result = .error e ∧ e.isRefusal = true

theorem not_refused_ok (b : β) : ¬ Refused (.ok b : Except CrudError β) := by
  rintro ⟨e, he, -⟩
  cases he

theorem refused_error {e : CrudError} :
    Refused (.error e : Except CrudError β) ↔ e.isRefusal = true := by
  constructor
  · rintro ⟨e', he, hr⟩
    cases he
    exact hr
  · exact fun hr => ⟨e, rfl, hr⟩

theorem refused_assigned {x : α} {result : Except CrudError α} :
    Refused (assigned x result).1 ↔ Refused result := by
  cases result with
  | ok y => exact iff_of_false (not_refused_ok ()) (not_refused_ok y)
  | error e => exact refused_error.trans refused_error.symm

theorem refused_supported {role : String} {op : Option β} {e : CrudError}
    (h : supported t role op = .error e) : e.isRefusal = true := by
  cases op with
  | some op => cases h
  | none =>
    cases h
    rfl

theorem refused_nameOf {x : α} {e : CrudError} (h : nameOf t x = .error e) :
    e.isRefusal = true := by
  unfold nameOf at h
  split at h
  · cases h
  · cases h
    rfl

theorem refused_resolveNamespace {kind : String} {namespaced : Bool}
    {explicit metadata : Option String} {e : CrudError}
    (h : resolveNamespace kind namespaced explicit metadata = .error e) : e.isRefusal = true := by
  unfold resolveNamespace at h
  split at h
  · split at h
    · cases h
      rfl
    · cases h
  · split at h
    · split at h
      · cases h
      · cases h
        rfl
    · cases h

/-- What is checked before a call is sent refuses the operation. -/
theorem refused_prepared {role : String} {op : Option β} {spec : β → OpSpec}
    {explicit : Option String} {withBody : Call → Call} {x : α} {e : CrudError}
    (h : prepared t role op spec explicit withBody x = .error e) : e.isRefusal = true := by
  rcases bind_eq_error h with hop | ⟨op, -, h⟩
  · exact refused_supported t hop
  · rcases bind_eq_error h with hname | ⟨name, -, h⟩
    · exact refused_nameOf t hname
    · rcases bind_eq_error h with hns | ⟨ns, -, h⟩
      · exact refused_resolveNamespace hns
      · cases h

theorem refused_reading {name : String} {explicit : Option String} {e : CrudError}
    (h : reading t name explicit = .error e) : e.isRefusal = true := by
  rcases bind_eq_error h with hop | ⟨op, -, h⟩
  · exact refused_supported t hop
  · rcases bind_eq_error h with hns | ⟨ns, -, h⟩
    · exact refused_resolveNamespace hns
    · cases h

/-- No answer refuses an operation. -/
theorem not_refused_valueOf (result : Except ClientError Response) :
    ¬ Refused (valueOf result) := by
  rintro ⟨e, he, hr⟩
  unfold valueOf at he
  split at he
  · obtain ⟨f, -, rfl⟩ := mapError_eq_error he
    cases hr
  · cases he
    cases hr

theorem not_refused_parsed (result : Except ClientError Response) :
    ¬ Refused (parsed t result) := by
  rintro ⟨e, he, hr⟩
  unfold parsed at he
  split at he
  · obtain ⟨f, -, rfl⟩ := mapError_eq_error he
    cases hr
  · cases he
    cases hr

theorem not_refused_deleted (result : Except ClientError Response) :
    ¬ Refused (deleted result) := by
  rintro ⟨e, he, hr⟩
  unfold deleted at he
  cases hv : valueOf result with
  | ok v =>
    rw [hv] at he
    cases he
  | error f =>
    rw [hv] at he
    cases he
    exact not_refused_valueOf result ⟨_, hv, hr⟩

theorem not_refused_merged (x : α) (said : Json) : ¬ Refused (merged t x said) := by
  rintro ⟨e, he, hr⟩
  unfold merged at he
  split at he
  · cases he
  · split at he
    · cases he
      cases hr
    · obtain ⟨f, -, rfl⟩ := mapError_eq_error he
      cases hr

theorem not_refused_answered (x : α) (result : Except ClientError Response) :
    ¬ Refused (answered t x result) := by
  rintro ⟨e, he, hr⟩
  rcases bind_eq_error he with hv | ⟨v, -, hm⟩
  · exact not_refused_valueOf result ⟨e, hv, hr⟩
  · exact not_refused_merged t x v ⟨e, hm, hr⟩

/-! ## One request or none -/

/-- An operation sends one request, that of its call, unless it is refused, and then it sends
nothing. -/
inductive SendsOnce (call : Except CrudError Call) : Except CrudError β → List Exchange → Prop
  | refused {e : CrudError} (refused : call = .error e) (isRefusal : e.isRefusal = true) :
      SendsOnce call (.error e) []
  | sent {c : Call} {result : Except CrudError β} {exchange : Exchange} (made : call = .ok c)
      (request : c.request = .ok exchange.request) (notRefused : ¬ Refused result) :
      SendsOnce call result [exchange]

variable {client : Client (StateM σ)} {call : Except CrudError Call}
  {take : Except ClientError Response → Except CrudError β}

/-- **An operation of one call sends one request unless it is refused.** -/
theorem asked_sendsOnce (hcall : ∀ e, call = .error e → e.isRefusal = true)
    (htake : ∀ result, ¬ Refused (take result))
    (hbuilt : ∀ c, call = .ok c → ∃ r, c.request = .ok r) (s : σ) :
    SendsOnce call (asked client.watched call take (s, [])).1
      (asked client.watched call take (s, [])).2.2 := by
  rw [asked_exchanges, List.nil_append]
  cases hc : call with
  | error e => exact .refused rfl (hcall e hc)
  | ok c =>
    obtain ⟨r, hr⟩ := hbuilt c hc
    have hone : exchangesOf client (.ok c) s = [⟨r, (client.execute r s).1⟩] := by
      unfold exchangesOf Call.exchanges
      dsimp only
      rw [hr]
    rw [hone]
    exact .sent rfl hr (htake _)

theorem SendsOnce.assigned {x : α} {result : Except CrudError α} {sent : List Exchange}
    (h : SendsOnce call result sent) : SendsOnce call (assigned x result).1 sent := by
  cases h with
  | refused hcall hr => exact .refused hcall hr
  | sent hcall hr hresult => exact .sent hcall hr fun h => hresult (refused_assigned.mp h)

/-! ## Names and namespaces in use -/

/-- The namespace is in use, and there is one exactly within namespaces. -/
def Placed (texts : String → Prop) (op : OpSpec) (ns : Option String) : Prop :=
  ns.isSome = op.namespaced ∧ ∀ n ∈ ns, texts n

/-- Every operation makes a request for the names and the namespaces in use. No operation does for
all of them, since an address cannot be longer than some length. -/
structure Sendable (texts : String → Prop) : Prop where
  /-- Every instance can be written. -/
  written : ∀ x, ∃ v, t.encode x = .ok v
  /-- The template of the creation makes an address once it is filled in. -/
  collection : ∀ ns, Placed texts t.ops.create ns →
    ∃ r, (callFor t.ops.create ns none).request = .ok r
  /-- So do those of the other operations, which are filled in with a name as well. -/
  item : ∀ op ∈ itemSpecs t, ∀ ns name, Placed texts op ns → texts name →
    ∃ r, (callFor op ns (some name)).request = .ok r

/-- The name and the namespace of an instance are in use. -/
structure Known (texts : String → Prop) (x : α) : Prop where
  name : ∀ n ∈ t.name x, texts n
  ns : ∀ n ∈ t.ns x, texts n

theorem callFor_contentType (op : OpSpec) (ns name : Option String) :
    (callFor op ns name).contentType = none := by
  cases ns with
  | none => cases name <;> rfl
  | some ns => cases name <;> rfl

section

variable {t} {texts : String → Prop} {x : α} {c : Call} {explicit : Option String}

/-- The namespace that an operation goes to is in use if those that it may come from are. -/
theorem placed_of_resolved {op : OpSpec} {metadata ns : Option String}
    (hexplicit : ∀ n ∈ explicit, texts n) (hmetadata : ∀ n ∈ metadata, texts n)
    (h : resolveNamespace t.kind op.namespaced explicit metadata = .ok ns) :
    Placed texts op ns := by
  obtain ⟨hsome, hfrom⟩ := resolveNamespace_eq_ok h
  refine ⟨hsome, fun n hn => ?_⟩
  rw [hfrom] at hn
  split at hn
  · rcases Option.or_eq_some_iff.mp hn with he | ⟨-, hm⟩
    · exact hexplicit n he
    · exact hmetadata n hm
  · cases hn

theorem reading_built (ht : Sendable t texts) {name : String} (hname : texts name)
    (hexplicit : ∀ n ∈ explicit, texts n) (h : reading t name explicit = .ok c) :
    ∃ r, c.request = .ok r := by
  obtain ⟨op, ns, hop, hns, rfl⟩ := reading_eq_ok t h
  exact ht.item op (read_mem_itemSpecs t hop) ns name
    (placed_of_resolved hexplicit (by simp) hns) hname

theorem rereading_built (ht : Sendable t texts) (hx : Known t texts x)
    (hexplicit : ∀ n ∈ explicit, texts n) (h : rereading t explicit x = .ok c) :
    ∃ r, c.request = .ok r := by
  obtain ⟨op, name, ns, hop, hname, hns, rfl⟩ := prepared_eq_ok t h
  exact ht.item op (read_mem_itemSpecs t hop) ns name
    (placed_of_resolved hexplicit hx.ns hns) (hx.name name hname)

theorem deleting_built (ht : Sendable t texts) (hx : Known t texts x)
    (hexplicit : ∀ n ∈ explicit, texts n) (h : deleting t explicit x = .ok c) :
    ∃ r, c.request = .ok r := by
  obtain ⟨op, name, ns, hop, hname, hns, rfl⟩ := prepared_eq_ok t h
  cases hop
  exact ht.item _ (delete_mem_itemSpecs t) ns name
    (placed_of_resolved hexplicit hx.ns hns) (hx.name name hname)

/-- A call makes a request with the instance as its body if it makes one without. -/
theorem jsonBody_built (ht : Sendable t texts) {op : OpSpec} {ns name : Option String}
    {r : Http.Request} (hr : (callFor op ns name).request = .ok r) (x : α) :
    ∃ r', ((callFor op ns name).jsonBody (t.encode x)).request = .ok r' := by
  obtain ⟨v, hv⟩ := ht.written x
  rw [hv]
  exact Call.request_jsonBody hr (callFor_contentType op ns name) v

theorem updating_built (ht : Sendable t texts) (hx : Known t texts x)
    (h : updating t x = .ok c) : ∃ r, c.request = .ok r := by
  obtain ⟨op, name, ns, hop, hname, hns, rfl⟩ := prepared_eq_ok t h
  obtain ⟨r, hr⟩ := ht.item op.1 (update_mem_itemSpecs t hop) ns name
    (placed_of_resolved (by simp) hx.ns hns) (hx.name name hname)
  exact jsonBody_built ht hr x

theorem creating_built (ht : Sendable t texts) (hx : Known t texts x)
    (h : creating t x = .ok c) : ∃ r, c.request = .ok r := by
  obtain ⟨ns, hns, h⟩ := bind_eq_ok h
  cases h
  obtain ⟨r, hr⟩ := ht.collection ns (placed_of_resolved (by simp) hx.ns hns)
  exact jsonBody_built ht hr x

end

/-! ## Namespaces that contradict each other -/

theorem resolveNamespace_mismatch (kind : String) (namespaced : Bool) {e m : String} (h : e ≠ m) :
    resolveNamespace kind namespaced (some e) (some m) = .error (.namespaceMismatch e m) := by
  unfold resolveNamespace
  exact if_pos h

/-- Nothing is prepared for an instance in another namespace, even if the operation has none. -/
theorem prepared_mismatch {role : String} {op : Option β} {spec : β → OpSpec}
    {withBody : Call → Call} {x : α} {e m : String} (hm : t.ns x = some m) (h : e ≠ m) :
    ∃ err, prepared t role op spec (some e) withBody x = .error err := by
  unfold prepared
  cases supported t role op with
  | error err => exact ⟨err, rfl⟩
  | ok op =>
    cases nameOf t x with
    | error err => exact ⟨err, rfl⟩
    | ok name =>
      refine ⟨.namespaceMismatch e m, ?_⟩
      simp only [bind, Except.bind, hm, resolveNamespace_mismatch t.kind _ h]

/-! ## Creation -/

/-- Without an explicit namespace, an operation within namespaces needs that of the metadata. -/
theorem resolveNamespace_isOk (kind : String) (namespaced : Bool) (metadata : Option String) :
    (∃ ns, resolveNamespace kind namespaced none metadata = .ok ns)
      ↔ namespaced = false ∨ metadata.isSome = true := by
  cases namespaced with
  | false => exact iff_of_true ⟨none, rfl⟩ (.inl rfl)
  | true =>
    cases metadata with
    | none => exact iff_of_false (fun ⟨_, h⟩ => nomatch h) (by simp)
    | some m => exact iff_of_true ⟨some m, rfl⟩ (.inr rfl)

/-- The object that an instance is can be read: there is an operation for it, and the instance has
what that needs. -/
def CanBeRead (x : α) : Prop :=
  ∃ op, t.ops.read = some op ∧ (t.name x).isSome = true
    ∧ (op.namespaced = false ∨ (t.ns x).isSome = true)

theorem rereading_isOk (x : α) : (∃ c, rereading t none x = .ok c) ↔ CanBeRead t x := by
  constructor
  · rintro ⟨c, h⟩
    obtain ⟨op, name, ns, hop, hname, hns, -⟩ := prepared_eq_ok t h
    refine ⟨op, hop, ?_, (resolveNamespace_isOk t.kind _ _).mp ⟨ns, hns⟩⟩
    rw [hname]
    rfl
  · rintro ⟨op, hop, hname, hns⟩
    obtain ⟨ns, hns⟩ := (resolveNamespace_isOk t.kind _ _).mpr hns
    obtain ⟨name, hname⟩ := Option.isSome_iff_exists.mp hname
    refine ⟨callFor op ns (some name), ?_⟩
    simp only [prepared, hop, supported, nameOf, hname, bind, Except.bind, id, hns]
    rfl

/-- A creation is refused when it needs a namespace that is not there. -/
theorem creating_isOk (x : α) : (∃ c, creating t x = .ok c)
    ↔ ¬ (t.ops.create.namespaced = true ∧ t.ns x = none) := by
  rw [not_and_or, Bool.not_eq_true, ← ne_eq, Option.ne_none_iff_isSome,
    ← resolveNamespace_isOk t.kind t.ops.create.namespaced (t.ns x)]
  constructor
  · rintro ⟨c, h⟩
    obtain ⟨ns, hns, -⟩ := bind_eq_ok h
    exact ⟨ns, hns⟩
  · rintro ⟨ns, hns⟩
    refine ⟨(callFor t.ops.create ns none).jsonBody (t.encode x), ?_⟩
    simp only [creating, hns, bind, Except.bind]
    rfl

theorem conflicts_ofAnswer (answer : Http.Answer) :
    conflicts (Response.ofAnswer answer) = true ↔ answer.status = Http.conflict := by
  refine ⟨status_of_conflicts, fun h => ?_⟩
  have hfailure : Http.isSuccess answer.status = false := by
    rw [h]
    rfl
  unfold Response.ofAnswer
  rw [hfailure]
  simp [conflicts, ClientError.isConflict, ClientError.status?, h]

/-- What a call that makes a request is told is a conflict if that is what was answered. -/
theorem conflicts_send {c : Call} {r : Http.Request} (h : c.request = .ok r)
    (s : σ × List Exchange) :
    conflicts (c.send client.watched s).1 = true
      ↔ Exchange.Conflicts ⟨r, (client.execute r s.1).1⟩ := by
  rw [Call.send_result h]
  unfold Exchange.Conflicts
  dsimp only
  cases (client.execute r s.1).1 with
  | error reason =>
    refine iff_of_false (fun h => ?_) (fun ⟨_, h, _⟩ => nomatch h)
    simp [conflicts, ClientError.isConflict, ClientError.status?] at h
  | ok answer => simp [conflicts_ofAnswer]

/-- What the creation of an instance sends once it is not refused: its call, and the reading of the
object if that exists already and can be read. -/
inductive SendsCreation (x : α) : List Exchange → Prop
  | created {c : Call} {first : Exchange} (made : creating t x = .ok c)
      (request : c.request = .ok first.request)
      (alone : ¬ (Exchange.Conflicts first ∧ CanBeRead t x)) : SendsCreation x [first]
  | reread {c c' : Call} {first second : Exchange} (made : creating t x = .ok c)
      (request : c.request = .ok first.request) (conflict : Exchange.Conflicts first)
      (readable : CanBeRead t x) (reading : rereading t none x = .ok c')
      (request' : c'.request = .ok second.request) : SendsCreation x [first, second]

/-- The outcome of a creation, call by call. -/
theorem create_outcome_eq (client : Client (StateM τ)) (x : α) (s : τ) :
    outcome (create t client) x s = match creating t x with
      | .error e => ((.error e, x), s)
      | .ok call =>
        if conflicts (call.send client s).1 then reread t client x (call.send client s).2
        else exchanged t client call x s := by
  rw [create_outcome]
  unfold creating
  cases resolveNamespace t.kind t.ops.create.namespaced none (t.ns x) with
  | error e => rfl
  | ok ns => rfl

/-- What is kept of a rereading is the exchange of its call. -/
theorem reread_exchanges (x : α) (s : σ × List Exchange) :
    (reread t client.watched x s).2.2 = s.2 ++ exchangesOf client (rereading t none x) s.1 := by
  unfold reread
  split
  · rw [readInto_outcome, attempted_eq]
    exact asked_exchanges s
  · rename_i hread
    have hnone : t.ops.read = none := by simpa using hread
    have hrefused : rereading t none x = .error (.unsupported t.kind "read") := by
      unfold rereading prepared
      rw [hnone]
      rfl
    rw [hrefused]
    exact (List.append_nil _).symm

variable {t} {texts : String → Prop}

/-- A creation that is not refused sends its call, and reads what exists already. -/
theorem create_sends (ht : Sendable t texts) {x : α} (hx : Known t texts x) {c : Call}
    (hc : creating t x = .ok c) (s : σ) :
    SendsCreation t x (outcome (create t client.watched) x (s, [])).2.2 := by
  obtain ⟨r, hr⟩ := creating_built ht hx hc
  have hfirst : (c.send client.watched (s, [])).2.2 = [⟨r, (client.execute r s).1⟩] := by
    rw [Call.send_exchanges]
    unfold Call.exchanges
    rw [hr]
    rfl
  rw [create_outcome_eq, hc]
  dsimp only
  split
  · rename_i hconflict
    have hconflict := (conflicts_send hr (s, [])).mp hconflict
    rw [reread_exchanges, hfirst]
    cases hreading : rereading t none x with
    | error e =>
      -- the refusal to read is the result, and the creation was all that was sent
      refine .created hc hr fun ⟨_, hreadable⟩ => ?_
      obtain ⟨c', hc'⟩ := (rereading_isOk t x).mpr hreadable
      rw [hreading] at hc'
      cases hc'
    | ok c' =>
      obtain ⟨r', hr'⟩ := rereading_built ht hx (by simp) hreading
      unfold exchangesOf Call.exchanges
      dsimp only
      rw [hr']
      exact .reread hc hr hconflict ((rereading_isOk t x).mp ⟨c', hreading⟩) hreading hr'
  · rename_i hconflict
    have hconflict := fun h => hconflict ((conflicts_send hr (s, [])).mpr h)
    unfold exchanged
    rw [hfirst]
    exact .created hc hr fun ⟨h, _⟩ => hconflict h

/-- A creation sends nothing when it is refused, and only then. -/
theorem create_sends_nothing (ht : Sendable t texts) {x : α} (hx : Known t texts x) (s : σ) :
    (outcome (create t client.watched) x (s, [])).2.2 = []
      ↔ t.ops.create.namespaced = true ∧ t.ns x = none := by
  rw [← not_iff_not, ← creating_isOk]
  constructor
  · intro h
    cases hc : creating t x with
    | ok c => exact ⟨c, rfl⟩
    | error e =>
      refine absurd ?_ h
      rw [create_outcome_eq, hc]
  · rintro ⟨c, hc⟩ h
    have hsends : SendsCreation t x (outcome (create t client.watched) x (s, [])).2.2 :=
      create_sends ht hx hc s
    rw [h] at hsends
    cases hsends

/-! ## Modification -/

/-- What a modification sends after its reading: the update of what was read and changed, from where
the reading left the client. -/
def sentAfter (t : DocumentType α) (client : Client (StateM σ)) (change : α → Except String α)
    (reading : Except CrudError α × σ × List Exchange) : List Exchange :=
  match reading.1 with
  | .error _ => []
  | .ok y => match change y with
    | .error _ => []
    | .ok z => (outcome (update t client.watched) z (reading.2.1, [])).2.2

theorem modify_exchanges (t : DocumentType α) (name : String) (explicit : Option String)
    (change : α → Except String α) (s : σ × List Exchange) :
    (ending (modify t client.watched name explicit change) s).2.2
      = (ending (read t client.watched name explicit) s).2.2
        ++ sentAfter t client change (ending (read t client.watched name explicit) s) := by
  rw [modify_ending]
  unfold sentAfter
  rcases ending (read t client.watched name explicit) s with ⟨_ | y, s'⟩
  · exact (List.append_nil _).symm
  · dsimp only
    cases change y with
    | error reason => exact (List.append_nil _).symm
    | ok z =>
      rw [← update_exchanges t client]
      dsimp only
      rcases outcome (update t client.watched) z s' with ⟨⟨_ | _, z'⟩, s''⟩
      · rfl
      · rfl

/-! ## All operations -/

/-- What the operations of a type send through a client, whatever its state is. The operations are
those of the client itself, since watching it changes nothing. -/
structure Sends (t : DocumentType α) (texts : String → Prop) (client : Client (StateM σ)) :
    Prop where
  read : ∀ name explicit s, texts name → (∀ n ∈ explicit, texts n) →
    let o := ending (read t client.watched name explicit) (s, [])
    unwatched o = ending (Crud.read t client name explicit) s
      ∧ SendsOnce (reading t name explicit) o.1 o.2.2
  readInto : ∀ x explicit s, Known t texts x → (∀ n ∈ explicit, texts n) →
    let o := outcome (readInto t client.watched explicit) x (s, [])
    unwatched o = outcome (Crud.readInto t client explicit) x s
      ∧ SendsOnce (rereading t explicit x) o.1.1 o.2.2
  update : ∀ x s, Known t texts x →
    let o := outcome (update t client.watched) x (s, [])
    unwatched o = outcome (Crud.update t client) x s ∧ SendsOnce (updating t x) o.1.1 o.2.2
  delete : ∀ x explicit s, Known t texts x → (∀ n ∈ explicit, texts n) →
    let o := ending (delete t client.watched x explicit) (s, [])
    unwatched o = ending (Crud.delete t client x explicit) s
      ∧ SendsOnce (deleting t explicit x) o.1 o.2.2
  /-- Two namespaces that contradict each other are refused, also outside namespaces. -/
  mismatch : ∀ x e m s, t.ns x = some m → e ≠ m →
    let reading := outcome (Crud.readInto t client.watched (some e)) x (s, [])
    let deletion := ending (Crud.delete t client.watched x (some e)) (s, [])
    (∃ err, reading.1.1 = .error err) ∧ reading.2.2 = []
      ∧ (∃ err, deletion.1 = .error err) ∧ deletion.2.2 = []
  create : ∀ x s, Known t texts x →
    let o := outcome (create t client.watched) x (s, [])
    unwatched o = outcome (Crud.create t client) x s
      ∧ (o.2.2 = [] ↔ t.ops.create.namespaced = true ∧ t.ns x = none)
      ∧ (o.2.2 ≠ [] → SendsCreation t x o.2.2)
  modify : ∀ name explicit change s,
    let o := ending (modify t client.watched name explicit change) (s, [])
    let reading := ending (Crud.read t client.watched name explicit) (s, [])
    unwatched o = ending (Crud.modify t client name explicit change) s
      ∧ o.2.2 = reading.2.2 ++ sentAfter t client change reading

/-- **An operation that is refused sends nothing, and one that is not sends its request.** Creating
what exists already sends a second one, to read it, if the instance has what that needs. A
modification sends its update only after the reading and the change have gone through. -/
theorem requests_sent (ht : Sendable t texts) (client : Client (StateM σ)) :
    Sends t texts client where
  read name explicit s hname hexplicit := by
    refine ⟨read_watched t client name explicit (s, []), ?_⟩
    rw [read_ending]
    exact asked_sendsOnce (fun _ => refused_reading t) (not_refused_parsed t)
      (fun _ => reading_built ht hname hexplicit) s
  readInto x explicit s hx hexplicit := by
    refine ⟨run_watched t client (.readInto explicit) x (s, []), ?_⟩
    rw [readInto_outcome, attempted_eq]
    exact (asked_sendsOnce (fun _ => refused_prepared t) (not_refused_answered t x)
      (fun _ => rereading_built ht hx hexplicit) s).assigned
  update x s hx := by
    refine ⟨run_watched t client .update x (s, []), ?_⟩
    rw [update_outcome, attempted_eq]
    exact (asked_sendsOnce (fun _ => refused_prepared t) (not_refused_answered t x)
      (fun _ => updating_built ht hx) s).assigned
  delete x explicit s hx hexplicit := by
    refine ⟨delete_watched t client x explicit (s, []), ?_⟩
    rw [delete_ending]
    exact asked_sendsOnce (fun _ => refused_prepared t) not_refused_deleted
      (fun _ => deleting_built ht hx hexplicit) s
  mismatch x e m s hm h := by
    obtain ⟨err, hreading⟩ :
        ∃ err, prepared t "read" t.ops.read id (some e) id x = .error err :=
      prepared_mismatch t hm h
    obtain ⟨err', hdeleting⟩ : ∃ err, deleting t (some e) x = .error err :=
      prepared_mismatch t hm h
    rw [readInto_outcome, delete_ending, hreading, hdeleting]
    exact ⟨⟨err, rfl⟩, rfl, ⟨err', rfl⟩, rfl⟩
  create x s hx := by
    refine ⟨run_watched t client .create x (s, []), create_sends_nothing ht hx s, fun hne => ?_⟩
    have hmade := (creating_isOk t x).mpr fun h => hne ((create_sends_nothing ht hx s).mpr h)
    obtain ⟨c, hc⟩ := hmade
    exact create_sends ht hx hc s
  modify name explicit change s :=
    ⟨modify_watched t client name explicit change (s, []),
      modify_exchanges t name explicit change (s, [])⟩

/-- One gadget is in use. If it exists already, it is read after its creation was refused. -/
theorem requests_sent_gadget :
    let texts := fun n => n = "g"
    let gadget : Samples.Widget := { metadata := some { name := some "g" } }
    let script : Script := ⟨[.ok ⟨409, []⟩, .ok ⟨200, []⟩], []⟩
    let sent := (outcome (create Samples.gadgets Script.client.watched) gadget (script, [])).2.2
    Sendable Samples.gadgets texts ∧ Sends Samples.gadgets texts Script.client
      ∧ sent.map (fun e => (e.request.verb, e.request.address))
        = [(.post, "/api/v1/gadgets"), (.get, "/api/v1/gadgets/g")] := by
  intro texts gadget script sent
  have hclustered : ∀ op ∈ Samples.gadgets.ops.create :: itemSpecs Samples.gadgets,
      op.namespaced = false := by
    decide
  have hitems : ∀ op ∈ itemSpecs Samples.gadgets,
      (callFor op none (some "g")).request.isOk = true := by
    decide +kernel
  have hnone : ∀ op ∈ Samples.gadgets.ops.create :: itemSpecs Samples.gadgets, ∀ ns,
      Placed texts op ns → ns = none := by
    intro op hop ns hns
    have hsome := hns.1
    rw [hclustered op hop] at hsome
    exact Option.isNone_iff_eq_none.mp (Option.isSome_eq_false_iff.mp hsome)
  have ht : Sendable Samples.gadgets texts := by
    refine ⟨fun _ => ⟨_, rfl⟩, fun ns hns => ?_, fun op hop ns name hns hname => ?_⟩
    · rw [hnone _ List.mem_cons_self ns hns]
      exact ⟨_, rfl⟩
    · cases hname
      rw [hnone op (List.mem_cons_of_mem _ hop) ns hns]
      have h := hitems op hop
      cases hr : (callFor op none (some "g")).request with
      | ok r => exact ⟨r, rfl⟩
      | error e =>
        rw [hr] at h
        cases h
  exact ⟨ht, requests_sent ht Script.client, by decide +kernel⟩

end Crud

end ApiModels
