import ApiModels.Proofs.GeneratedOperations
import ApiModels.Proofs.Modifications

/-!
# Parameters that stay in a path

The roles of operations are found by their names, whatever their paths are, and the runtime fills in
two parameters, the name and the namespace. A path that has no others is filled in completely. One
that has another, such as a cluster, is sent with that parameter in it.
-/

namespace ApiModels

namespace Text

/-! ## Filling in one parameter -/

/-- A name that stands between braces and has none. -/
def IsParameter (x : String) : Prop := '\x7b' ∉ x.toList ∧ '\x7d' ∉ x.toList

/-- Every opening brace of a text is that of one of some parameters. -/
def OpensOnly (parameters : List String) (text : List Char) : Prop :=
  ∀ before after, text = before ++ '\x7b' :: after →
    ∃ p ∈ parameters, p.toList ++ ['\x7d'] <+: after

theorem placeholder_toList (x : String) :
    (Call.placeholder x).toList = '\x7b' :: (x.toList ++ ['\x7d']) := by
  simp [Call.placeholder]

theorem opensOnly_nil {text : List Char} : OpensOnly [] text ↔ '\x7b' ∉ text := by
  constructor
  · intro h hmem
    obtain ⟨before, after, rfl⟩ := List.append_of_mem hmem
    obtain ⟨p, hp, -⟩ := h before after rfl
    cases hp
  · rintro h before after rfl
    exact absurd (List.mem_append_right _ List.mem_cons_self) h

theorem OpensOnly.of_append {parameters : List String} {first rest : List Char}
    (h : OpensOnly parameters (first ++ rest)) : OpensOnly parameters rest := by
  rintro before after rfl
  exact h (first ++ before) after (List.append_assoc ..).symm

theorem OpensOnly.of_cons {parameters : List String} {c : Char} {rest : List Char}
    (h : OpensOnly parameters (c :: rest)) : OpensOnly parameters rest := by
  rintro before after rfl
  exact h (c :: before) after rfl

theorem OpensOnly.append {parameters : List String} {first rest : List Char}
    (hfirst : '\x7b' ∉ first) (h : OpensOnly parameters rest) :
    OpensOnly parameters (first ++ rest) := by
  intro before after heq
  rcases List.append_eq_append_iff.mp heq with ⟨more, -, hrest⟩ | ⟨more, hmore, hafter⟩
  · exact h more after hrest
  · cases more with
    | nil => exact h [] after hafter.symm
    | cons c more =>
      obtain ⟨rfl, -⟩ := List.cons.inj hafter
      refine absurd ?_ hfirst
      rw [hmore]
      exact List.mem_append_right _ List.mem_cons_self

section

variable {c : Char} {tail new : List Char}

/-- What does not have the first character of `old` stays as it is. -/
theorem replaced_skip {first : List Char} (h : c ∉ first) (rest : List Char) :
    replaced (c :: tail) new (first ++ rest) = first ++ replaced (c :: tail) new rest := by
  induction first with
  | nil => rfl
  | cons d first ih =>
    rw [List.mem_cons, not_or] at h
    rw [List.cons_append, List.cons_append, ← ih h.2]
    exact replaced_cons (List.cons_ne_nil c tail) (if_neg h.1)

/-- No occurrence of `old` reaches beyond where another could begin. -/
theorem replaced_apart (h : c ∉ tail) (first rest : List Char) :
    replaced (c :: tail) new (first ++ c :: rest)
      = replaced (c :: tail) new first ++ replaced (c :: tail) new (c :: rest) := by
  have hold : c :: tail ≠ [] := List.cons_ne_nil c tail
  induction first using replaced_induction hold with
  | nil => rfl
  | start first after hafter ih =>
    have hfirst := afterStart?_eq_some hafter
    rw [replaced_start hold hafter, List.append_assoc, ← ih, hfirst, List.append_assoc]
    exact replaced_start hold (afterStart?_append_self _ _)
  | cons d first hnone ih =>
    rw [replaced_cons hold hnone, List.cons_append, List.cons_append, ← ih]
    refine replaced_cons hold ?_
    unfold afterStart? at hnone ⊢
    split
    · rename_i hd
      rw [if_pos hd] at hnone
      rw [afterStart?_append h, hnone]
      rfl
    · rfl

end

section

variable {p : String} {new text : List Char}

/-- Once a parameter is filled in, only the others are left. -/
theorem OpensOnly.replaced {ps : List String} (hps : ∀ q ∈ ps, '\x7b' ∉ q.toList)
    (hnew : '\x7b' ∉ new) (h : OpensOnly (p :: ps) text) :
    OpensOnly ps (replaced (Call.placeholder p).toList new text) := by
  rw [placeholder_toList]
  have hold : '\x7b' :: (p.toList ++ ['\x7d']) ≠ [] := List.cons_ne_nil _ _
  induction text using replaced_induction hold with
  | nil =>
    intro before after heq
    cases before <;> cases heq
  | start text rest hrest ih =>
    rw [replaced_start hold hrest]
    rw [afterStart?_eq_some hrest] at h
    exact .append hnew (ih h.of_append)
  | cons d text hnone ih =>
    rw [replaced_cons hold hnone]
    intro before after heq
    cases before with
    | cons d' before => exact ih h.of_cons before after (List.cons.inj heq).2
    | nil =>
      obtain ⟨rfl, rfl⟩ := List.cons.inj heq
      obtain ⟨q, hq, rest, rfl⟩ := h [] text rfl
      rcases List.mem_cons.mp hq with rfl | hq
      · -- the brace would be that of an occurrence
        have hsome : afterStart? ('\x7b' :: (q.toList ++ ['\x7d']))
            ('\x7b' :: (q.toList ++ ['\x7d'] ++ rest)) = some rest :=
          afterStart?_append_self ('\x7b' :: (q.toList ++ ['\x7d'])) rest
        rw [hsome] at hnone
        cases hnone
      · have hclosed : '\x7b' ∉ q.toList ++ ['\x7d'] := by simp [hps q hq]
        exact ⟨q, hq, _, (replaced_skip hclosed rest).symm⟩

/-- A parameter does not begin with another one. -/
theorem afterStart?_of_ne {x : String} (hx : IsParameter x) (hp : IsParameter p) (hne : x ≠ p)
    (after : List Char) :
    afterStart? ('\x7b' :: (p.toList ++ ['\x7d'])) ('\x7b' :: (x.toList ++ ['\x7d'] ++ after))
      = none := by
  cases hafter : afterStart? ('\x7b' :: (p.toList ++ ['\x7d']))
      ('\x7b' :: (x.toList ++ ['\x7d'] ++ after)) with
  | none => rfl
  | some rest =>
    -- both parameters are what stands before the first closing brace
    have hfound := afterStart?_eq_some hafter
    rw [List.cons_append] at hfound
    have hpieces := congrArg (pieces '\x7d') (List.cons.inj hfound).2
    rw [List.append_assoc, List.append_assoc, List.singleton_append, List.singleton_append,
      pieces_first hx.2, pieces_first hp.2] at hpieces
    exact absurd (String.toList_inj.mp (List.cons.inj hpieces).1) hne

/-- A parameter that is not the one that is filled in is left. -/
theorem isInfix_replaced {x : String} (hx : IsParameter x) (hp : IsParameter p) (hne : x ≠ p)
    (h : (Call.placeholder x).toList <:+: text) :
    (Call.placeholder x).toList <:+: Text.replaced (Call.placeholder p).toList new text := by
  obtain ⟨before, after, rfl⟩ := h
  have hnone := afterStart?_of_ne hx hp hne after
  have hpnew : '\x7b' ∉ p.toList ++ ['\x7d'] := by simp [hp.1]
  have hxnew : '\x7b' ∉ x.toList ++ ['\x7d'] := by simp [hx.1]
  rw [placeholder_toList, placeholder_toList, List.append_assoc, List.cons_append,
    replaced_apart hpnew, replaced_cons (List.cons_ne_nil _ _) hnone, replaced_skip hxnew]
  simpa only [List.append_assoc, List.cons_append] using
    List.infix_append (Text.replaced ('\x7b' :: (p.toList ++ ['\x7d'])) new before)
      ('\x7b' :: (x.toList ++ ['\x7d']))
      (Text.replaced ('\x7b' :: (p.toList ++ ['\x7d'])) new after)

end

/-! ## Whether a parameter occurs -/

theorem occurs_of_isInfix {part text : List Char} (h : part <:+: text) : occurs part text = true := by
  induction text with
  | nil =>
    rw [List.eq_nil_of_infix_nil h]
    rfl
  | cons c text ih =>
    unfold occurs
    rw [Bool.or_eq_true]
    rcases List.infix_cons_iff.mp h with hstart | hlater
    · obtain ⟨rest, hrest⟩ := hstart
      rw [← hrest, afterStart?_append_self]
      exact .inl rfl
    · exact .inr (ih hlater)

/-- What does not occur opens nothing. -/
theorem OpensOnly.of_not_contains {p text : String} {ps : List String}
    (hnot : contains (Call.placeholder p) text = false) (h : OpensOnly (p :: ps) text.toList) :
    OpensOnly ps text.toList := by
  intro before after heq
  obtain ⟨q, hq, hstart⟩ := h before after heq
  rcases List.mem_cons.mp hq with rfl | hq
  · obtain ⟨rest, hrest⟩ := hstart
    have hpart : (Call.placeholder q).toList <:+: text.toList := by
      rw [heq, placeholder_toList, ← hrest]
      exact ⟨before, rest, by simp⟩
    rw [contains, occurs_of_isInfix hpart] at hnot
    cases hnot
  · exact ⟨q, hq, hstart⟩

end Text

/-! ## Addresses -/

namespace Http

theorem pathAndQuery_eq_ok {cs kept : List Char} (h : pathAndQuery cs = .ok kept) :
    kept = beforeFragment cs := by
  unfold pathAndQuery at h
  dsimp only at h
  split at h
  · cases h
    rfl
  · cases h

theorem mem_rooted {c : Char} {cs : List Char} (h : c ∈ rooted cs) : c = '/' ∨ c ∈ cs := by
  unfold rooted at h
  split at h
  · exact .inr h
  · exact List.mem_cons.mp h

theorem notMem_keptScheme {cs : List Char} (h : '\x7b' ∉ cs) : '\x7b' ∉ (keptScheme cs).toList := by
  have hknown : ∀ s ∈ knownSchemes, '\x7b' ∉ s.toList := by decide
  unfold keptScheme
  dsimp only
  split
  · rename_i hlower
    exact hknown _ (List.contains_iff_mem.mp hlower)
  · rwa [String.toList_ofList]

theorem splitScheme?_eq_ok {cs rest : List Char} {scheme : String}
    (h : splitScheme? cs = .ok (some (scheme, rest))) :
    scheme = keptScheme (cs.takeWhile isSchemeChar) ∧ rest <:+ cs := by
  unfold splitScheme? at h
  dsimp only at h
  split at h
  · rename_i after hdrop
    split at h
    · cases h
    · cases h
      refine ⟨rfl, ?_⟩
      have hsuffix := List.drop_suffix (cs.takeWhile isSchemeChar).length cs
      rw [hdrop] at hsuffix
      exact (List.suffix_append [':', '/', '/'] rest).trans hsuffix
  · cases h

theorem absoluteAddress_eq_ok {scheme a : String} {cs : List Char}
    (h : absoluteAddress scheme cs = .ok a) : ∃ path,
      pathAndQuery (cs.drop (beforePath cs).length) = .ok path
        ∧ a = scheme ++ "://" ++ String.ofList (beforePath cs ++ rooted path) := by
  unfold absoluteAddress at h
  split at h
  · cases h
  · obtain ⟨-, -, h⟩ := bind_eq_ok h
    dsimp only at h
    split at h
    · cases h
    · obtain ⟨path, hpath, h⟩ := bind_eq_ok h
      cases h
      exact ⟨path, hpath, rfl⟩

theorem serverAddress_eq_ok {a : String} {cs : List Char} (h : serverAddress cs = .ok a) :
    a = String.ofList cs := by
  unfold serverAddress at h
  obtain ⟨-, -, h⟩ := bind_eq_ok h
  split at h
  · cases h
  · cases h
    rfl

/-- An address has no brace that the text has not. -/
theorem notMem_address {s a : String} (h : '\x7b' ∉ s.toList) (ha : address s = .ok a) :
    '\x7b' ∉ a.toList := by
  have hpath : ∀ {cs kept}, '\x7b' ∉ cs → pathAndQuery cs = .ok kept → '\x7b' ∉ kept := by
    intro cs kept hcs hkept hmem
    rw [pathAndQuery_eq_ok hkept] at hmem
    exact hcs (List.takeWhile_subset _ hmem)
  unfold address at ha
  split at ha
  · cases ha
  · split at ha
    · cases ha
    · cases ha
      exact h
    · rename_i cs hcs
      rw [hcs] at h
      cases hkept : pathAndQuery ('/' :: cs) with
      | error e =>
        rw [hkept] at ha
        cases ha
      | ok kept =>
        rw [hkept] at ha
        cases ha
        rw [String.toList_ofList]
        exact hpath h hkept
    · rename_i cs _ _ _
      obtain ⟨split, hsplit, ha⟩ := bind_eq_ok ha
      split at ha
      · rename_i scheme rest
        obtain ⟨rfl, hrest⟩ := splitScheme?_eq_ok hsplit
        obtain ⟨path, hkept, rfl⟩ := absoluteAddress_eq_ok ha
        have hcs : '\x7b' ∉ rest := fun hmem => h (hrest.subset hmem)
        intro hmem
        simp only [String.toList_append, String.toList_ofList, List.mem_append] at hmem
        rcases hmem with (hscheme | hslashes) | hserver | hpath'
        · exact notMem_keptScheme (fun hmem => h (List.takeWhile_subset _ hmem)) hscheme
        · revert hslashes
          decide
        · exact hcs (List.takeWhile_subset _ hserver)
        · rcases mem_rooted hpath' with hslash | hpath'
          · cases hslash
          · exact hpath (fun hmem => hcs (List.drop_subset _ _ hmem)) hkept hpath'
      · rw [serverAddress_eq_ok ha, String.toList_ofList]
        exact h

end Http

namespace Call

open Text

/-- Filling in a parameter leaves only the others. -/
theorem opensOnly_pathParam {c : Call} {p : String} {ps : List String}
    (hps : ∀ q ∈ ps, '\x7b' ∉ q.toList) (h : OpensOnly (p :: ps) c.path.toList) (value : String) :
    OpensOnly ps (c.pathParam p value).path.toList := by
  unfold pathParam
  rw [replace_eq, String.toList_ofList]
  exact h.replaced hps (notMem_encodeSegment (by decide) value)

/-- Filling in the name or the namespace leaves the others. -/
theorem isInfix_pathParam {c : Call} {p x : String} (hp : p = "name" ∨ p = "namespace")
    (hx : IsParameter x) (hne : x ≠ p) (h : (placeholder x).toList <:+: pathPart c.path)
    (value : String) : (placeholder x).toList <:+: pathPart (c.pathParam p value).path := by
  have hbraces : IsParameter p := by
    rcases hp with rfl | rfl <;> exact ⟨by decide, by decide⟩
  unfold pathParam pathPart
  rw [replace_eq, String.toList_ofList,
    takeWhile_replaced (fun hnil => Crud.placeholder_ne_empty p (String.toList_eq_nil_iff.mp hnil))
      (fun d hd => (Crud.inPath_of_mem_placeholder hp d hd).1) (isInPath_encodeSegment value)]
  exact isInfix_replaced hx hbraces hne h

end Call

namespace Crud

open Text

/-! ## Requests -/

/-- The parameters that a request fills in: the namespace, and the name if it is for an object. -/
def filledParameters (name : Option String) : List String :=
  if name.isSome then ["namespace", "name"] else ["namespace"]

variable {α σ : Type} (t : DocumentType α)

/-- A request is made from an operation: that of the creation, or one on an object, which has a
name. It is filled in with a namespace if the operation is within namespaces. -/
structure MadeFrom (op : OpSpec) (ns name : Option String) (request : Http.Request) : Prop where
  spec : if name.isSome then op ∈ itemSpecs t else op = t.ops.create
  placed : ns.isSome = op.namespaced
  address : Http.address (callFor op ns name).path = .ok request.address

section

variable {t} {op : OpSpec} {ns name : Option String} {request : Http.Request}

theorem callFor_some_name (op : OpSpec) (ns : Option String) (name : String) :
    callFor op ns (some name) = (callFor op ns none).pathParam "name" name := by
  cases ns <;> rfl

/-- A namespace is filled in if there is a parameter for it. -/
theorem opensOnly_callFor {ps : List String} (hps : ∀ q ∈ ps, '\x7b' ∉ q.toList)
    (hns : ns.isSome = contains (Call.placeholder "namespace") op.path)
    (h : OpensOnly ("namespace" :: ps) op.path.toList) :
    OpensOnly ps (callFor op ns none).path.toList := by
  cases ns with
  | none => exact h.of_not_contains hns.symm
  | some ns => exact Call.opensOnly_pathParam (c := Call.new op.verb op.path) hps h ns

/-- **A path with no other parameters is filled in completely.** -/
theorem MadeFrom.notMem (h : MadeFrom t op ns name request)
    (hns : op.namespaced = contains (Call.placeholder "namespace") op.path)
    (hopens : OpensOnly (filledParameters name) op.path.toList) :
    '\x7b' ∉ request.address.toList := by
  refine Http.notMem_address (opensOnly_nil.mp ?_) h.address
  have hplaced := h.placed.trans hns
  cases name with
  | none => exact opensOnly_callFor (by simp) hplaced hopens
  | some name =>
    rw [callFor_some_name]
    exact Call.opensOnly_pathParam (by simp)
      (opensOnly_callFor (by decide) hplaced hopens) name

theorem head?_callFor (h : op.path.toList.head? = some '/') (ns name : Option String) :
    (callFor op ns name).path.toList.head? = some '/' := by
  cases name with
  | some name =>
    rw [callFor_path]
    exact head?_filledIn ns name h
  | none =>
    cases ns with
    | none => exact h
    | some ns => exact head?_replace (placeholder_ne_empty _) (by decide) _ h

/-- **Every other parameter of a path stays in it.** -/
theorem MadeFrom.kept (h : MadeFrom t op ns name request)
    (hrooted : op.path.toList.head? = some '/') {x : String} (hx : IsParameter x)
    (hne : x ∉ filledParameters name)
    (hpart : (Call.placeholder x).toList <:+: pathPart op.path) :
    (Call.placeholder x).toList <:+: pathPart request.address := by
  have hnamespace : (Call.placeholder x).toList <:+: pathPart (callFor op ns none).path := by
    cases ns with
    | none => exact hpart
    | some ns =>
      refine Call.isInfix_pathParam (c := Call.new op.verb op.path) (.inr rfl) hx ?_ hpart ns
      rintro rfl
      cases name <;> simp [filledParameters] at hne
  have hname : (Call.placeholder x).toList <:+: pathPart (callFor op ns name).path := by
    cases name with
    | none => exact hnamespace
    | some name =>
      rw [callFor_some_name]
      refine Call.isInfix_pathParam (.inl rfl) hx ?_ hnamespace name
      rintro rfl
      simp [filledParameters] at hne
  rwa [pathPart_address (head?_callFor hrooted ns name) h.address]

end

/-- Whatever can be done with the documents of a type. -/
inductive Action (α : Type) where
  | create (x : α)
  | item (o : ItemOperation α)
  | modify (name : String) (explicit : Option String) (change : α → Except String α)

namespace Action

/-- What is sent through a client in some state. -/
def sent (client : Client (StateM σ)) (s : σ) : Action α → List Exchange
  | create x => (outcome (Crud.create t client.watched) x (s, [])).2.2
  | item o => o.sent t client s
  | modify name explicit change =>
    (ending (Crud.modify t client.watched name explicit change) (s, [])).2.2

end Action

/-- What a call that is ready for an object exchanges is made from its operation. -/
theorem ItemOperation.madeFrom {o : ItemOperation α} {c : Call} {request : Http.Request}
    (hc : o.call t = .ok c) (hr : c.request = .ok request) :
    ∃ op ns name, MadeFrom t op ns name request := by
  obtain ⟨op, ns, name, hop, -, -, hsome, -, hpath, hquery⟩ := call_eq_ok t hc
  have haddress := Call.request_eq_ok hr
  rw [Call.pathAndQuery_of_query hquery, hpath] at haddress
  exact ⟨op, ns, some name, hop, hsome, haddress⟩

theorem creating_madeFrom {x : α} {c : Call} {request : Http.Request}
    (hc : creating t x = .ok c) (hr : c.request = .ok request) :
    ∃ op ns name, MadeFrom t op ns name request := by
  obtain ⟨ns, hns, hc⟩ := bind_eq_ok hc
  cases hc
  have haddress := Call.request_eq_ok hr
  rw [Call.pathAndQuery_of_query (by rw [Call.jsonBody_query, callFor_query]),
    Call.jsonBody_path] at haddress
  exact ⟨t.ops.create, ns, none, rfl, (resolveNamespace_eq_ok hns).1, haddress⟩

/-- What a creation exchanges is that of its call, or of the call that reads what exists. -/
theorem mem_create_exchanges {client : Client (StateM σ)} {x : α} {s : σ} {e : Exchange}
    (h : e ∈ (outcome (Crud.create t client.watched) x (s, [])).2.2) :
    ∃ c, (creating t x = .ok c ∨ rereading t none x = .ok c) ∧ c.request = .ok e.request := by
  rw [create_outcome_eq] at h
  cases hc : creating t x with
  | error err =>
    rw [hc] at h
    cases h
  | ok c =>
    rw [hc] at h
    have hfirst : ∀ {e}, e ∈ (c.send client.watched (s, [])).2.2 → c.request = .ok e.request := by
      intro e he
      rw [Call.send_exchanges] at he
      have he : e ∈ exchangesOf client (.ok c) s := he
      obtain ⟨c', hc', hr⟩ := mem_exchangesOf he
      cases hc'
      exact hr
    dsimp only at h
    split at h
    · rw [reread_exchanges] at h
      rcases List.mem_append.mp h with h | h
      · exact ⟨c, .inl rfl, hfirst h⟩
      · obtain ⟨c', hc', hr⟩ := mem_exchangesOf h
        exact ⟨c', .inr hc', hr⟩
    · exact ⟨c, .inl rfl, hfirst h⟩

/-- **Every request is made from an operation of the type.** -/
theorem Action.madeFrom (client : Client (StateM σ)) (s : σ) (a : Action α) :
    ∀ e ∈ a.sent t client s, ∃ op ns name, MadeFrom t op ns name e.request := by
  intro e he
  have hitem : ∀ {o : ItemOperation α} {s}, e ∈ o.sent t client s →
      ∃ op ns name, MadeFrom t op ns name e.request := by
    intro o s he
    rw [ItemOperation.sent_eq] at he
    obtain ⟨c, hc, hr⟩ := mem_exchangesOf he
    exact ItemOperation.madeFrom t hc hr
  cases a with
  | create x =>
    obtain ⟨c, hc | hc, hr⟩ := mem_create_exchanges t he
    · exact creating_madeFrom t hc hr
    · exact ItemOperation.madeFrom t (o := .readInto x none) hc hr
  | item o => exact hitem he
  | modify name explicit change =>
    have he : e ∈ (ending (Crud.modify t client.watched name explicit change) (s, [])).2.2 := he
    rw [modify_exchanges] at he
    rcases List.mem_append.mp he with he | he
    · exact hitem (o := .read name explicit) he
    · obtain ⟨y, z, -, -, he⟩ := mem_sentAfter t he
      exact hitem he

end Crud

/-! ## Plans -/

/-- An operation is within namespaces exactly if its path has a parameter for them. -/
theorem Ingest.namespaced_operation (label : String) (doc : Swagger.Document) (id : OperationId) :
    ((ingest label doc).1.operation id).namespaced
      = Text.contains (Call.placeholder "namespace") ((ingest label doc).1.operation id).path := by
  by_cases hid : id < (ingest label doc).1.operations.size
  · obtain ⟨path, uses, verb, op, ho⟩ := mem_operations (Array.getElem_mem hid)
    rw [ReleaseModel.operation_of_lt hid, ho]
    rfl
  · rw [ReleaseModel.operation, Array.getD, dif_neg hid]
    rfl

namespace Build

open Crud Text

theorem exists_spec {α : Type} {t : DocumentType α} {m : ReleaseModel} {plan : CrudPlan}
    {op : OpSpec} {ns name : Option String} {request : Http.Request}
    (h : MadeFrom (t.withOps (plan.ops m)) op ns name request) :
    ∃ id, op = (m.operation id).spec := by
  have hspec := h.spec
  cases name with
  | none => exact ⟨_, hspec⟩
  | some name =>
    rcases List.mem_cons.mp hspec with rfl | hspec
    · exact ⟨_, rfl⟩
    · rcases List.mem_append.mp hspec with hread | hupdate
      · obtain ⟨id, -, rfl⟩ := Option.map_eq_some_iff.mp (Option.mem_toList.mp hread)
        exact ⟨id, rfl⟩
      · obtain ⟨u, hu, rfl⟩ := Option.map_eq_some_iff.mp (Option.mem_toList.mp hupdate)
        obtain ⟨v, -, rfl⟩ := Option.map_eq_some_iff.mp hu
        exact ⟨v.1, rfl⟩

/--
**A request keeps the parameters of its path that are neither a name nor a namespace.**

The generated code tells the runtime of the operations of a plan, and every request is made from one
of them. If all braces of its path open a namespace or, where an object is addressed, a name, no
brace is left. If another parameter stands in the path, it stands in the path of the request.
-/
theorem parameters_of_requests (config : ReleaseConfig) (doc : Swagger.Document) :
    let b := ofDocument config doc
    ∀ plan ∈ b.plans,
      (∃ e ∈ Generated.opsConstants (Generated.typeIdent b plan.target)
          (Generated.versionModule b (b.model.type plan.target).version).items,
        e.ops? = some (plan.ops b.model))
      ∧ ∀ (α σ : Type) (t : DocumentType α) (client : Client (StateM σ)) (s : σ) (a : Action α),
        ∀ e ∈ a.sent (t.withOps (plan.ops b.model)) client s,
          ∃ op ns name, MadeFrom (t.withOps (plan.ops b.model)) op ns name e.request
            ∧ (OpensOnly (filledParameters name) op.path.toList →
              '\x7b' ∉ e.request.address.toList)
            ∧ (op.path.toList.head? = some '/' → ∀ x, IsParameter x → x ∉ filledParameters name →
              (Call.placeholder x).toList <:+: pathPart op.path →
                (Call.placeholder x).toList <:+: pathPart e.request.address) := by
  intro b plan hplan
  refine ⟨Generated.exists_mem_opsConstants config doc hplan, fun α σ t client s a e he => ?_⟩
  obtain ⟨op, ns, name, hmade⟩ := Action.madeFrom _ client s a e he
  refine ⟨op, ns, name, hmade, fun hopens => ?_, fun hrooted x hx hne hpart =>
    hmade.kept hrooted hx hne hpart⟩
  obtain ⟨id, rfl⟩ := exists_spec hmade
  exact hmade.notMem (Ingest.namespaced_operation _ _ id) hopens

/-- A document with pods of clusters, which are in the paths of their operations. -/
def clusteredPods : Swagger.Document :=
  { pods with paths := pods.paths.map fun p => ("/clusters/\x7bcluster\x7d" ++ p.1, p.2) }

/-- Such a pod is deleted with the parameter for its cluster in the path. -/
theorem parameters_of_requests_pod :
    let config : ReleaseConfig :=
      { label := "rel", semver := "1.0.0", defaultVersion := "v1", preferences := {},
        deprecations := {} }
    let b := ofDocument config clusteredPods
    let pod : Samples.Widget := { metadata := some { name := some "p" } }
    ∃ plan ∈ b.plans,
      let sent := (Action.item (.delete pod none)).sent
        (Samples.gadgets.withOps (plan.ops b.model)) Script.client ⟨[.ok ⟨200, []⟩], []⟩
      sent.map (fun e => (e.request.verb, e.request.address))
          = [(.delete, "/clusters/\x7bcluster\x7d/api/v1/pods/p")]
        ∧ ∀ e ∈ sent, (Call.placeholder "cluster").toList <:+: pathPart e.request.address := by
  intro config b pod
  have hplans : b.plans = [⟨0, 0, none, none, 1⟩] := by decide +kernel
  have hplan : (⟨0, 0, none, none, 1⟩ : CrudPlan) ∈ b.plans := by
    rw [hplans]
    exact List.mem_singleton_self _
  refine ⟨_, hplan, by decide +kernel, fun e he => ?_⟩
  obtain ⟨-, hrequests⟩ := parameters_of_requests config clusteredPods _ hplan
  obtain ⟨op, ns, name, hmade, -, hkept⟩ := hrequests _ _ _ _ _ _ e he
  have hpaths : ∀ id ∈ [0, 1], (b.model.operation id).spec.path.toList.head? = some '/'
      ∧ (Call.placeholder "cluster").toList <:+: pathPart (b.model.operation id).spec.path := by
    decide +kernel
  have hop : ∃ id ∈ [0, 1], op = (b.model.operation id).spec := by
    have hspec := hmade.spec
    cases name with
    | none => exact ⟨0, by decide, hspec⟩
    | some name => exact ⟨1, by decide, List.mem_singleton.mp hspec⟩
  obtain ⟨id, hid, rfl⟩ := hop
  obtain ⟨hrooted, hpart⟩ := hpaths id hid
  refine hkept hrooted "cluster" ⟨by decide, by decide⟩ ?_ hpart
  cases name <;> simp [filledParameters]

end Build

end ApiModels
