import ApiModels.Proofs.Edits

/-!
# Operations call by call

Reading, updating and deleting are one call each. What is checked first decides which call it is,
and the answer decides how the operation ends. What is kept of such an operation is the exchange of
its call; a modification is a reading and, perhaps, an update.
-/

namespace ApiModels

variable {σ : Type}

namespace Call

/-- The exchanges of a call with a client in some state. A call that makes no request has none. -/
def exchanges (c : Call) (client : Client (StateM σ)) (s : σ) : List Exchange :=
  match c.request with
  | .ok request => [⟨request, (client.execute request s).1⟩]
  | .error _ => []

/-- What is kept of a call is its exchanges, after those kept before. -/
theorem send_exchanges (c : Call) (client : Client (StateM σ)) (s : σ × List Exchange) :
    (c.send client.watched s).2.2 = s.2 ++ c.exchanges client s.1 := by
  unfold send exchanges
  cases c.request with
  | error e => exact (List.append_nil _).symm
  | ok request =>
    simp only [Client.watched, bind, StateT.bind, pure]
    rcases client.execute request s.1 with ⟨_ | _, _⟩ <;> rfl

end Call

namespace Crud

variable {α β γ τ : Type} (t : DocumentType α)

/-! ## Computations without an instance -/

/-- How a computation that has no instance at hand ends, and the state of the client. -/
def ending (e : ExceptT CrudError (StateM τ) β) (s : τ) : Except CrudError β × τ := e.run s

section

variable (s : τ)

theorem ending_bind (e : ExceptT CrudError (StateM τ) β) (f : β → ExceptT CrudError (StateM τ) γ) :
    ending (e >>= f) s = match ending e s with
      | (.ok b, s') => ending (f b) s'
      | (.error err, s') => (.error err, s') := by
  simp only [ending, ExceptT.run, bind, ExceptT.bind, ExceptT.mk, StateT.bind]
  rcases e s with ⟨_ | _, _⟩ <;> rfl

theorem ending_pure (b : β) :
    ending (pure b : ExceptT CrudError (StateM τ) β) s = (.ok b, s) := rfl

theorem ending_except (r : Except CrudError β) :
    ending (liftM r : ExceptT CrudError (StateM τ) β) s = (r, s) := rfl

theorem ending_lift (a : StateM τ β) :
    ending (liftM a : ExceptT CrudError (StateM τ) β) s = (.ok (a s).1, (a s).2) := rfl

end

/-! ## Operations call by call -/

/-- The outcome of a call whose result is taken in some way; one that was refused is not sent. -/
def asked (client : Client (StateM τ)) (call : Except CrudError Call)
    (take : Except ClientError Response → Except CrudError β) (s : τ) : Except CrudError β × τ :=
  match call with
  | .ok call => (take (call.send client s).1, (call.send client s).2)
  | .error e => (.error e, s)

/-- The call that reads the object of a name. -/
def reading (name : String) (explicit : Option String) : Except CrudError Call := do
  let op ← supported t "read" t.ops.read
  let ns ← resolveNamespace t.kind op.namespaced explicit none
  return callFor op ns (some name)

/-- The call that reads the object that an instance is. -/
abbrev rereading (explicit : Option String) (x : α) : Except CrudError Call :=
  prepared t "read" t.ops.read id explicit id x

/-- The call that updates the object that an instance is. -/
abbrev updating (x : α) : Except CrudError Call :=
  prepared t "update" t.ops.update Prod.fst none (·.jsonBody (t.encode x)) x

/-- The call that deletes the object that an instance is. -/
abbrev deleting (explicit : Option String) (x : α) : Except CrudError Call :=
  prepared t "delete" (some t.ops.delete) id explicit id x

/-- The call that creates an instance. -/
def creating (x : α) : Except CrudError Call := do
  let ns ← resolveNamespace t.kind t.ops.create.namespaced none (t.ns x)
  return (callFor t.ops.create ns none).jsonBody (t.encode x)

/-- What the answer to a deletion says. -/
def deleted (result : Except ClientError Response) : Except CrudError DeleteAnswer :=
  (valueOf result).map DeleteAnswer.ofJson

theorem read_ending (client : Client (StateM τ)) (name : String) (explicit : Option String)
    (s : τ) :
    ending (read t client name explicit) s
      = asked client (reading t name explicit) (parsed t) s := by
  unfold read reading ask asked
  simp only [ending_bind, ending_except, ending_lift]
  cases supported t "read" t.ops.read with
  | error e => rfl
  | ok op =>
    simp only [bind, Except.bind]
    cases resolveNamespace t.kind op.namespaced explicit none with
    | error e => rfl
    | ok ns => rfl

theorem delete_ending (client : Client (StateM τ)) (x : α) (explicit : Option String) (s : τ) :
    ending (delete t client x explicit) s = asked client (deleting t explicit x) deleted s := by
  have hop : supported t "delete" (some t.ops.delete) = .ok t.ops.delete := rfl
  unfold delete deleting prepared ask
  rw [hop]
  simp only [ending_bind, ending_except, ending_lift]
  cases nameOf t x with
  | error e => rfl
  | ok name =>
    dsimp only
    cases hns : resolveNamespace t.kind t.ops.delete.namespaced explicit (t.ns x) with
    | error e =>
      simp only [bind, Except.bind, id, hns]
      rfl
    | ok ns =>
      simp only [bind, Except.bind, id, hns]
      unfold asked deleted
      dsimp only [pure, Except.pure]
      cases valueOf (Call.send client (callFor t.ops.delete ns (some name)) s).1 with
      | error e => rfl
      | ok v => rfl

/-- Nothing is sent after a change that was refused, and after one that was made the update is
sent. -/
theorem modify_ending (client : Client (StateM τ)) (name : String) (explicit : Option String)
    (change : α → Except String α) (s : τ) :
    ending (modify t client name explicit change) s
      = match ending (read t client name explicit) s with
        | (.error e, s') => (.error e, s')
        | (.ok y, s') => match change y with
          | .error reason => (.error (.aborted reason), s')
          | .ok z => match outcome (update t client) z s' with
            | ((.error e, _), s'') => (.error e, s'')
            | ((.ok _, z'), s'') => (.ok z', s'') := by
  unfold modify
  simp only [ending_bind, ending_except, ending_lift, ending_pure]
  rcases ending (read t client name explicit) s with ⟨_ | y, s'⟩
  · rfl
  · dsimp only
    cases change y with
    | error reason => rfl
    | ok z =>
      dsimp only [Except.mapError]
      rw [show edited (update t client) z s' = outcome (update t client) z s' from rfl]
      rcases outcome (update t client) z s' with ⟨⟨_ | _, z'⟩, s''⟩
      · rfl
      · rfl

/-- An edit of one call is that call, and replaces the instance if it succeeds. -/
theorem attempted_eq (client : Client (StateM τ)) (call : Except CrudError Call) (x : α) (s : τ) :
    attempted t client call x s
      = (assigned x (asked client call (answered t x) s).1,
          (asked client call (answered t x) s).2) := by
  cases call with
  | error e => rfl
  | ok call => rfl

/-! ## What is checked first -/

theorem supported_eq_ok {role : String} {op : Option β} {b : β} (h : supported t role op = .ok b) :
    op = some b := by
  cases op with
  | none => cases h
  | some op =>
    cases h
    rfl

theorem nameOf_eq_ok {x : α} {name : String} (h : nameOf t x = .ok name) :
    t.name x = some name := by
  unfold nameOf at h
  split at h
  · rename_i hname
    cases h
    exact hname
  · cases h

/-- An operation within namespaces goes to the explicit one or else to that of the metadata, and an
operation outside namespaces to none. -/
theorem resolveNamespace_eq_ok {kind : String} {namespaced : Bool}
    {explicit metadata ns : Option String}
    (h : resolveNamespace kind namespaced explicit metadata = .ok ns) :
    ns.isSome = namespaced ∧ ns = if namespaced then explicit.or metadata else none := by
  unfold resolveNamespace at h
  cases namespaced with
  | false =>
    split at h
    · split at h
      · cases h
      · cases h
        exact ⟨rfl, rfl⟩
    · cases h
      exact ⟨rfl, rfl⟩
  | true =>
    split at h
    · split at h
      · cases h
      · cases h
        exact ⟨rfl, rfl⟩
    · rw [if_pos rfl] at h
      split at h
      · rename_i hor
        cases h
        exact ⟨rfl, hor.symm⟩
      · cases h

/-- What is prepared is the call of the operation, to the object that the instance is. -/
theorem prepared_eq_ok {role : String} {op : Option β} {spec : β → OpSpec}
    {explicit : Option String} {withBody : Call → Call} {x : α} {c : Call}
    (h : prepared t role op spec explicit withBody x = .ok c) :
    ∃ b name ns, op = some b ∧ t.name x = some name
      ∧ resolveNamespace t.kind (spec b).namespaced explicit (t.ns x) = .ok ns
      ∧ c = withBody (callFor (spec b) ns (some name)) := by
  obtain ⟨b, hop, h⟩ := bind_eq_ok h
  obtain ⟨name, hname, h⟩ := bind_eq_ok h
  obtain ⟨ns, hns, h⟩ := bind_eq_ok h
  cases h
  exact ⟨b, name, ns, supported_eq_ok t hop, nameOf_eq_ok t hname, hns, rfl⟩

theorem reading_eq_ok {name : String} {explicit : Option String} {c : Call}
    (h : reading t name explicit = .ok c) :
    ∃ op ns, t.ops.read = some op
      ∧ resolveNamespace t.kind op.namespaced explicit none = .ok ns
      ∧ c = callFor op ns (some name) := by
  obtain ⟨op, hop, h⟩ := bind_eq_ok h
  obtain ⟨ns, hns, h⟩ := bind_eq_ok h
  cases h
  exact ⟨op, ns, supported_eq_ok t hop, hns, rfl⟩

/-- The operations on an object that has a name, whatever their roles. -/
def itemSpecs : List OpSpec :=
  t.ops.delete :: (t.ops.read.toList ++ (t.ops.update.map Prod.fst).toList)

theorem delete_mem_itemSpecs : t.ops.delete ∈ itemSpecs t := List.mem_cons_self

theorem read_mem_itemSpecs {op : OpSpec} (h : t.ops.read = some op) : op ∈ itemSpecs t := by
  simp [itemSpecs, h]

theorem update_mem_itemSpecs {op : OpSpec × UpdateKind} (h : t.ops.update = some op) :
    op.1 ∈ itemSpecs t := by
  simp [itemSpecs, h]

/-! ## What is kept -/

/-- The exchanges of a call, if there is one. -/
def exchangesOf (client : Client (StateM σ)) (call : Except CrudError Call) (s : σ) :
    List Exchange :=
  match call with
  | .ok c => c.exchanges client s
  | .error _ => []

/-- What was exchanged is the request of the call. -/
theorem mem_exchangesOf {client : Client (StateM σ)} {call : Except CrudError Call} {s : σ}
    {e : Exchange} (h : e ∈ exchangesOf client call s) :
    ∃ c, call = .ok c ∧ c.request = .ok e.request := by
  cases call with
  | error err => cases h
  | ok c =>
    unfold exchangesOf Call.exchanges at h
    dsimp only at h
    split at h
    · rename_i r hr
      rw [List.mem_singleton.mp h]
      exact ⟨c, rfl, hr⟩
    · cases h

section

variable {client : Client (StateM σ)} {call : Except CrudError Call}
  {take : Except ClientError Response → Except CrudError β}

/-- What is kept of an operation of one call are the exchanges of that call. -/
theorem asked_exchanges (s : σ × List Exchange) :
    (asked client.watched call take s).2.2 = s.2 ++ exchangesOf client call s.1 := by
  cases call with
  | error e => exact (List.append_nil _).symm
  | ok c => exact c.send_exchanges client s

theorem asked_watched (s : σ × List Exchange) :
    unwatched (asked client.watched call take s) = asked client call take s.1 := by
  cases call with
  | error e => rfl
  | ok c =>
    unfold asked unwatched
    dsimp only
    rw [← c.send_watched client s]

end

variable (client : Client (StateM σ))

theorem read_watched (name : String) (explicit : Option String)
    (s : σ × List Exchange) :
    unwatched (ending (read t client.watched name explicit) s)
      = ending (read t client name explicit) s.1 := by
  rw [read_ending, read_ending]
  exact asked_watched s

theorem delete_watched (x : α) (explicit : Option String)
    (s : σ × List Exchange) :
    unwatched (ending (delete t client.watched x explicit) s)
      = ending (delete t client x explicit) s.1 := by
  rw [delete_ending, delete_ending]
  exact asked_watched s

theorem modify_watched (name : String) (explicit : Option String)
    (change : α → Except String α) (s : σ × List Exchange) :
    unwatched (ending (modify t client.watched name explicit change) s)
      = ending (modify t client name explicit change) s.1 := by
  rw [modify_ending, modify_ending, ← read_watched t client name explicit s]
  rcases ending (read t client.watched name explicit) s with ⟨_ | y, s'⟩
  · rfl
  · dsimp only [unwatched]
    cases change y with
    | error reason => rfl
    | ok z =>
      have hupdate := run_watched t client .update z s'
      dsimp only [Edit.run, unwatched] at hupdate ⊢
      rw [← hupdate]
      rcases outcome (update t client.watched) z s' with ⟨⟨_ | _, z'⟩, s''⟩
      · rfl
      · rfl

/-- What an update sends does not depend on what was sent before. -/
theorem update_exchanges (x : α) (s : σ × List Exchange) :
    (outcome (update t client.watched) x s).2.2
      = s.2 ++ (outcome (update t client.watched) x (s.1, [])).2.2 := by
  simp only [update_outcome, attempted_eq, asked_exchanges, List.nil_append]

end Crud

end ApiModels
