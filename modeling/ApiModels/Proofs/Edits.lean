import ApiModels.Crud

/-!
# What an edit leaves behind

Creating, reading and updating change the instance at hand. Each of them fails without a trace, or
leaves what the last answer makes of the instance: the instance itself where the answer says
nothing, its merge with the answer otherwise.

The client is any whose answers depend on a state of its own, so it may answer anything at any
time. To speak of the last answer, the client is watched: it answers as before, and what it was
asked and answered is kept.
-/

namespace ApiModels

/-- A request and what came of it. -/
structure Exchange where
  request : Http.Request
  answer : Except String Http.Answer

variable {σ : Type}

/-- A client that keeps its exchanges, the last one at the end. -/
def Client.watched (client : Client (StateM σ)) : Client (StateM (σ × List Exchange)) :=
  ⟨fun request s =>
    let (answer, s') := client.execute request s.1
    (answer, s', s.2 ++ [⟨request, answer⟩])⟩

/-- What comes out of two steps went through both. -/
theorem bind_eq_ok {ε α β : Type} {r : Except ε α} {f : α → Except ε β} {b : β}
    (h : r >>= f = .ok b) : ∃ a, r = .ok a ∧ f a = .ok b := by
  cases r with
  | error e => cases h
  | ok a => exact ⟨a, rfl, h⟩

/-- Rewording an error does not make a success. -/
theorem mapError_eq_ok {ε ε' α : Type} {f : ε → ε'} {r : Except ε α} {a : α}
    (h : r.mapError f = .ok a) : r = .ok a := by
  cases r with
  | error e => cases h
  | ok b =>
    cases h
    rfl

namespace Response

theorem ofAnswer_eq_ok {answer : Http.Answer} {r : Response} (h : ofAnswer answer = .ok r) :
    Http.isSuccess answer.status ∧ r = ⟨answer.status, answer.body⟩ := by
  unfold ofAnswer at h
  split at h
  · rename_i hs
    cases h
    exact ⟨hs, rfl⟩
  · cases h

/-- The value of a body is null because there is nothing in it, or what it holds. -/
theorem value_eq_ok {r : Response} {v : Json} (h : r.value = .ok v) :
    r.body.all isBlankByte ∧ v = .null ∨ Json.Reader.ofBytes Json.Reader.json r.body = .ok v := by
  unfold value at h
  split at h
  · rename_i hb
    cases h
    exact .inl ⟨hb, rfl⟩
  · exact .inr (mapError_eq_ok h)

end Response

namespace Call

/-- The request of a call fails in a way that is no conflict, if it does. -/
theorem request_cases (c : Call) :
    (∃ e, c.request = .error e ∧ e.isConflict = false) ∨ ∃ request, c.request = .ok request := by
  unfold request
  cases c.deferred with
  | some e => exact .inl ⟨_, rfl, rfl⟩
  | none =>
    cases Http.address c.pathAndQuery with
    | error f => exact .inl ⟨_, rfl, rfl⟩
    | ok address =>
      cases c.contentType with
      | none => exact .inr ⟨_, rfl⟩
      | some type =>
        cases h : Http.header type with
        | error f => exact .inl ⟨_, by simp only [Option.mapM_some, h]; rfl, rfl⟩
        | ok type => exact .inr ⟨_, by simp only [Option.mapM_some, h]; rfl⟩

/-- Watching a client does not change how a call ends. -/
theorem send_watched (c : Call) (client : Client (StateM σ)) (s : σ × List Exchange) :
    ((c.send client.watched s).1, (c.send client.watched s).2.1) = c.send client s.1 := by
  unfold send
  cases c.request with
  | error e => rfl
  | ok request =>
    simp only [Client.watched, bind, StateT.bind, pure]
    rcases client.execute request s.1 with ⟨_ | _, _⟩ <;> rfl

/-- A call either gets an answer, which is then the last, or fails in a way that is no conflict. -/
theorem send_cases (c : Call) (client : Client (StateM σ)) (s : σ × List Exchange) :
    (∃ request answer,
        (c.send client.watched s).2.2.getLast? = some ⟨request, .ok answer⟩
          ∧ (c.send client.watched s).1 = Response.ofAnswer answer)
      ∨ ∃ e, (c.send client.watched s).1 = .error e ∧ e.isConflict = false := by
  unfold send
  obtain ⟨e, he, hc⟩ | ⟨request, hr⟩ := c.request_cases
  · exact .inr ⟨e, by rw [he]; rfl, hc⟩
  · simp only [hr, Client.watched, bind, StateT.bind, pure]
    rcases client.execute request s.1 with ⟨reason | answer, s'⟩
    · exact .inr ⟨_, rfl, rfl⟩
    · exact .inl ⟨request, answer, List.getLast?_concat, rfl⟩

end Call

namespace Crud

variable {α β γ τ : Type} (t : DocumentType α)

/-! ## Computations with an instance at hand -/

/-- How a computation ends, what it leaves of the instance, and the state of the client. -/
def outcome (e : Editing (StateM τ) α β) (x : α) (s : τ) : (Except CrudError β × α) × τ :=
  e.run.run x s

section

variable (x y : α) (s : τ)

theorem outcome_bind (e : Editing (StateM τ) α β) (f : β → Editing (StateM τ) α γ) :
    outcome (e >>= f) x s = match outcome e x s with
      | ((.ok b, y), s') => outcome (f b) y s'
      | ((.error err, y), s') => ((.error err, y), s') := by
  simp only [outcome, ExceptT.run, bind, ExceptT.bind, ExceptT.mk, StateT.run, StateT.bind]
  rcases e x s with ⟨⟨_ | _, _⟩, _⟩ <;> rfl

theorem outcome_pure (b : β) :
    outcome (pure b : Editing (StateM τ) α β) x s = ((.ok b, x), s) := rfl

theorem outcome_get : outcome (get : Editing (StateM τ) α α) x s = ((.ok x, x), s) := rfl

theorem outcome_set : outcome (set y : Editing (StateM τ) α PUnit) x s = ((.ok (), y), s) := rfl

theorem outcome_throw (err : CrudError) :
    outcome (throw err : Editing (StateM τ) α β) x s = ((.error err, x), s) := rfl

theorem outcome_ite (c : Prop) [Decidable c] (e f : Editing (StateM τ) α β) :
    outcome (if c then e else f) x s = if c then outcome e x s else outcome f x s := by
  split <;> rfl

theorem outcome_except (r : Except CrudError β) :
    outcome (liftM r : Editing (StateM τ) α β) x s = ((r, x), s) := rfl

theorem outcome_lift (a : StateM τ β) :
    outcome (liftM a : Editing (StateM τ) α β) x s = ((.ok (a s).1, x), (a s).2) := rfl

end

/-! ## What an answer makes of an instance -/

/-- The instance replaced, unless that failed. -/
def assigned (x : α) : Except CrudError α → Except CrudError Unit × α
  | .ok y => (.ok (), y)
  | .error e => (.error e, x)

/-- The instance that the result of a call makes of another. -/
def answered (x : α) (result : Except ClientError Response) : Except CrudError α := do
  merged t x (← valueOf result)

/-- What is merged is nothing, or something the merge with which can be read back. -/
theorem merged_eq_ok {x y : α} {said : Json} (h : merged t x said = .ok y) :
    said = .null ∧ y = x ∨ said ≠ .null ∧ ∃ current, t.encode x = .ok current
      ∧ Json.decode t.reader (Json.merge current said) = .ok y := by
  unfold merged at h
  split at h
  · cases h
    exact .inl ⟨rfl, rfl⟩
  · rename_i hsaid
    cases hc : t.encode x with
    | error e =>
      rw [hc] at h
      cases h
    | ok current =>
      rw [hc] at h
      exact .inr ⟨hsaid, current, rfl, mapError_eq_ok h⟩

/-- Taking the result of a call into the instance either replaces it or fails and leaves it. -/
theorem absorb_outcome (x : α) (result : Except ClientError Response) (s : τ) :
    outcome (do absorb t (← valueOf result)) x s = (assigned x (answered t x result), s) := by
  unfold absorb answered
  simp only [outcome_bind, outcome_get, outcome_except, outcome_set]
  cases valueOf result with
  | error e => rfl
  | ok v =>
    simp only [bind, Except.bind]
    cases merged t x v <;> rfl

/-! ## The three edits, call by call -/

/-- The call to the object that an instance is, once it is known to have what the call needs. -/
def prepared (role : String) (op : Option β) (spec : β → OpSpec) (explicit : Option String)
    (withBody : Call → Call) (x : α) : Except CrudError Call := do
  let op ← supported t role op
  let name ← nameOf t x
  let ns ← resolveNamespace t.kind (spec op).namespaced explicit (t.ns x)
  return withBody (callFor (spec op) ns (some name))

/-- The outcome of sending one call and taking its result into the instance. -/
def exchanged (client : Client (StateM τ)) (call : Call) (x : α) (s : τ) :
    (Except CrudError Unit × α) × τ :=
  (assigned x (answered t x (call.send client s).1), (call.send client s).2)

/-- The outcome of a prepared call; one that was not prepared is not sent. -/
def attempted (client : Client (StateM τ)) (call : Except CrudError Call) (x : α) (s : τ) :
    (Except CrudError Unit × α) × τ :=
  match call with
  | .ok call => exchanged t client call x s
  | .error e => ((.error e, x), s)

/-- What fails before the call is sent leaves the instance, and what comes after depends on the call
only. -/
theorem prepared_outcome (client : Client (StateM τ)) (role : String) (op : Option β)
    (spec : β → OpSpec) (explicit : Option String) (withBody : Call → Call) (x : α) (s : τ) :
    let computation : Editing (StateM τ) α Unit := do
      let op ← supported t role op
      let name ← nameOf t x
      let ns ← resolveNamespace t.kind (spec op).namespaced explicit (t.ns x)
      let result ← ask (m := StateM τ) client (withBody (callFor (spec op) ns (some name)))
      absorb t (← valueOf result)
    outcome computation x s
      = attempted t client (prepared t role op spec explicit withBody x) x s := by
  intro computation
  unfold computation prepared ask
  simp only [outcome_bind, outcome_except, outcome_lift]
  -- the computation and the preparation fail at the same three steps
  cases supported t role op with
  | error e => rfl
  | ok op =>
    cases nameOf t x with
    | error e => rfl
    | ok name =>
      dsimp only
      cases hns : resolveNamespace t.kind (spec op).namespaced explicit (t.ns x) with
      | error e =>
        simp only [bind, Except.bind, hns]
        rfl
      | ok ns =>
        simp only [bind, Except.bind, hns]
        exact (outcome_bind _ _ _ _).symm.trans (absorb_outcome t x _ _)

theorem readInto_outcome (client : Client (StateM τ)) (explicit : Option String) (x : α) (s : τ) :
    outcome (readInto t client explicit) x s
      = attempted t client (prepared t "read" t.ops.read id explicit id x) x s := by
  unfold readInto
  rw [outcome_bind, outcome_get]
  exact prepared_outcome t client "read" t.ops.read id explicit id x s

theorem update_outcome (client : Client (StateM τ)) (x : α) (s : τ) :
    outcome (update t client) x s
      = attempted t client
          (prepared t "update" t.ops.update Prod.fst none (·.jsonBody (t.encode x)) x) x s := by
  unfold update
  rw [outcome_bind, outcome_get]
  exact prepared_outcome t client "update" t.ops.update Prod.fst none
    (fun call => call.jsonBody (t.encode x)) x s

/-- Whether the server says that the object exists already. -/
def conflicts : Except ClientError Response → Bool
  | .ok _ => false
  | .error e => e.isConflict

/-- What happens when the object exists already: it is read, if it can be. -/
def reread (client : Client (StateM τ)) (x : α) (s : τ) : (Except CrudError Unit × α) × τ :=
  if t.ops.read.isSome then outcome (readInto t client none) x s else ((.ok (), x), s)

theorem create_outcome (client : Client (StateM τ)) (x : α) (s : τ) :
    outcome (create t client) x s
      = match resolveNamespace t.kind t.ops.create.namespaced none (t.ns x) with
        | .error e => ((.error e, x), s)
        | .ok ns =>
          let call := (callFor t.ops.create ns none).jsonBody (t.encode x)
          if conflicts (call.send client s).1 then reread t client x (call.send client s).2
          else exchanged t client call x s := by
  unfold create ask exchanged reread
  simp only [outcome_bind, outcome_get, outcome_except, outcome_lift]
  cases resolveNamespace t.kind t.ops.create.namespaced none (t.ns x) with
  | error e => rfl
  | ok ns =>
    dsimp only
    cases h : (Call.send client ((callFor t.ops.create ns none).jsonBody (t.encode x)) s).1 with
    | ok response => exact absorb_outcome t x _ _
    | error e =>
      simp only [conflicts, outcome_ite, outcome_pure, outcome_throw]
      rfl

/-! ## The edits as a family -/

/-- What changes an instance. A reading may be given a namespace. -/
inductive Edit where
  | create
  | readInto (explicit : Option String)
  | update

/-- The computation of an edit. -/
def Edit.run {m : Type → Type} [Monad m] (client : Client m) : Edit → Editing m α Unit
  | create => Crud.create t client
  | readInto explicit => Crud.readInto t client explicit
  | update => Crud.update t client

/-- What the last answer makes of an instance when an edit succeeds. -/
inductive Settled (x : α) : Edit → Http.Answer → α → Prop
  /-- It exists already and cannot be read. -/
  | conflict {answer : Http.Answer} (unread : t.ops.read = none)
      (status : answer.status = Http.conflict) : Settled x .create answer x
  /-- There is nothing to merge. -/
  | blank {edit : Edit} {answer : Http.Answer} (success : Http.isSuccess answer.status)
      (body : answer.body.all Response.isBlankByte) : Settled x edit answer x
  | null {edit : Edit} {answer : Http.Answer} (success : Http.isSuccess answer.status)
      (body : Json.Reader.ofBytes Json.Reader.json answer.body = .ok .null) :
      Settled x edit answer x
  /-- What the answer says is merged into what the instance is written as. -/
  | merged {edit : Edit} {answer : Http.Answer} {current said : Json} {y : α}
      (success : Http.isSuccess answer.status)
      (body : Json.Reader.ofBytes Json.Reader.json answer.body = .ok said) (speaks : said ≠ .null)
      (written : t.encode x = .ok current)
      (read : Json.decode t.reader (Json.merge current said) = .ok y) : Settled x edit answer y

/-- What holds of an edit: one that fails leaves the instance as it was, and one that succeeds has an
answer and leaves what that makes of the instance. -/
def Kept (x : α) (edit : Edit) (o : (Except CrudError Unit × α) × σ × List Exchange) : Prop :=
  match o with
  | ((.error _, after), _) => after = x
  | ((.ok _, after), _, exchanges) => ∃ request answer,
      exchanges.getLast? = some ⟨request, .ok answer⟩ ∧ Settled t x edit answer after

theorem settled_of_answered {x y : α} {answer : Http.Answer} (edit : Edit)
    (h : answered t x (Response.ofAnswer answer) = .ok y) : Settled t x edit answer y := by
  obtain ⟨v, hv, hm⟩ := bind_eq_ok h
  cases hr : Response.ofAnswer answer with
  | error e =>
    rw [hr] at hv
    cases hv
  | ok r =>
    obtain ⟨success, rfl⟩ := Response.ofAnswer_eq_ok hr
    rw [hr] at hv
    have hval := Response.value_eq_ok (mapError_eq_ok hv)
    obtain ⟨rfl, rfl⟩ | ⟨speaks, current, written, read⟩ := merged_eq_ok t hm
    · rcases hval with ⟨hblank, -⟩ | hbody
      · exact .blank success hblank
      · exact .null success hbody
    · -- what is merged is not null, so the body is not blank
      rcases hval with ⟨-, rfl⟩ | hbody
      · exact absurd rfl speaks
      · exact .merged success hbody speaks written read

theorem exchanged_kept (client : Client (StateM σ)) (call : Call) (x : α)
    (s : σ × List Exchange) (edit : Edit) :
    Kept t x edit (exchanged t client.watched call x s) := by
  unfold exchanged
  cases h : answered t x (call.send client.watched s).1 with
  | error e => exact rfl
  | ok y =>
    obtain ⟨request, answer, hlast, hr⟩ | ⟨e, he, -⟩ := call.send_cases client s
    · exact ⟨request, answer, hlast, settled_of_answered t edit (hr ▸ h)⟩
    · rw [he] at h
      cases h

theorem attempted_kept (client : Client (StateM σ)) (call : Except CrudError Call) (x : α)
    (s : σ × List Exchange) (edit : Edit) :
    Kept t x edit (attempted t client.watched call x s) := by
  cases call with
  | error e => exact rfl
  | ok call => exact exchanged_kept t client call x s edit

/-- An answer that says that the object exists already has the status for it. -/
theorem status_of_conflicts {answer : Http.Answer}
    (h : conflicts (Response.ofAnswer answer) = true) : answer.status = Http.conflict := by
  unfold Response.ofAnswer at h
  split at h
  · cases h
  · simpa [conflicts, ClientError.isConflict, ClientError.status?] using h

theorem create_kept (client : Client (StateM σ)) (x : α) (s : σ × List Exchange) :
    Kept t x .create (outcome (create t client.watched) x s) := by
  rw [create_outcome]
  cases resolveNamespace t.kind t.ops.create.namespaced none (t.ns x) with
  | error e => exact rfl
  | ok ns =>
    dsimp only
    split
    · rename_i hc
      unfold reread
      split
      · -- the reading sends a call of its own, and its answer is the last
        rw [readInto_outcome]
        exact attempted_kept t client _ x _ .create
      · rename_i unread
        -- a conflict comes from an answer, never from the call itself
        obtain ⟨request, answer, hlast, hr⟩ | ⟨e, he, hne⟩ := Call.send_cases _ client s
        · rw [hr] at hc
          exact ⟨request, answer, hlast,
            .conflict (by simpa using unread) (status_of_conflicts hc)⟩
        · rw [he] at hc
          exact absurd hc (by simp [conflicts, hne])
    · exact exchanged_kept t client _ x s .create

/-- However an edit ends, the instance is accounted for. -/
theorem run_kept (client : Client (StateM σ)) (edit : Edit) (x : α) (s : σ × List Exchange) :
    Kept t x edit (outcome (edit.run t client.watched) x s) := by
  cases edit with
  | create => exact create_kept t client x s
  | readInto explicit =>
    simp only [Edit.run, readInto_outcome]
    exact attempted_kept t client _ x s _
  | update =>
    simp only [Edit.run, update_outcome]
    exact attempted_kept t client _ x s _

/-! ## Watching changes nothing -/

/-- What a watched outcome is without the exchanges. -/
def unwatched (o : β × σ × List Exchange) : β × σ := (o.1, o.2.1)

theorem exchanged_watched (client : Client (StateM σ)) (call : Call) (x : α)
    (s : σ × List Exchange) :
    unwatched (exchanged t client.watched call x s) = exchanged t client call x s.1 := by
  unfold exchanged unwatched
  rw [← call.send_watched client s]

theorem attempted_watched (client : Client (StateM σ)) (call : Except CrudError Call) (x : α)
    (s : σ × List Exchange) :
    unwatched (attempted t client.watched call x s) = attempted t client call x s.1 := by
  cases call with
  | error e => exact rfl
  | ok call => exact exchanged_watched t client call x s

theorem reread_watched (client : Client (StateM σ)) (x : α) (s : σ × List Exchange) :
    unwatched (reread t client.watched x s) = reread t client x s.1 := by
  unfold reread
  split
  · simp only [readInto_outcome]
    exact attempted_watched t client _ x s
  · rfl

theorem create_watched (client : Client (StateM σ)) (x : α) (s : σ × List Exchange) :
    unwatched (outcome (create t client.watched) x s) = outcome (create t client) x s.1 := by
  simp only [create_outcome]
  cases resolveNamespace t.kind t.ops.create.namespaced none (t.ns x) with
  | error e => rfl
  | ok ns =>
    dsimp only
    rw [← Call.send_watched _ client s]
    dsimp only
    split
    · exact reread_watched t client x _
    · exact exchanged_watched t client _ x s

/-- Watching a client does not change what an edit does. -/
theorem run_watched (client : Client (StateM σ)) (edit : Edit) (x : α) (s : σ × List Exchange) :
    unwatched (outcome (edit.run t client.watched) x s) = outcome (edit.run t client) x s.1 := by
  cases edit with
  | create => exact create_watched t client x s
  | readInto explicit =>
    simp only [Edit.run, readInto_outcome]
    exact attempted_watched t client _ x s
  | update =>
    simp only [Edit.run, update_outcome]
    exact attempted_watched t client _ x s

/-- **An edit that fails leaves the instance as it was, and one that succeeds leaves what the last
answer makes of it.** The failure may come before anything is sent, from the client, from an answer
that does not report success, or from a body that cannot be taken in, and it may come after a
refused creation has led to a reading; the instance is never caught halfway. The exchanges are those
of the edit itself: watching them changes neither how it ends nor what it leaves. -/
theorem unchanged_or_settled (client : Client (StateM σ)) (edit : Edit) (x : α) (s : σ) :
    let watched := edited (edit.run t client.watched) x (s, [])
    unwatched watched = edited (edit.run t client) x s ∧ Kept t x edit watched :=
  ⟨run_watched t client edit x (s, []), run_kept t client edit x (s, [])⟩

end Crud

end ApiModels
