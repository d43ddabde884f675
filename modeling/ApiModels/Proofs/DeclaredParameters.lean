import ApiModels.Proofs.WellFormedModel

/-!
# Parameters as they are declared

An operation has the parameters that its path shares and its own, written out or as references to
parameters of the document. Several may have one name and place; then the last one counts, and it
stands where it was declared. So the parameters of an operation are found by their indices among the
declared ones. A reference to no parameter is reported and has no other effect.
-/

namespace ApiModels

namespace Swagger

/-- The operations of a document as its paths list them. -/
def Document.listed (doc : Document) : List Listed :=
  doc.paths.flatMap fun p => p.2.operations.map fun o => ⟨p.1, p.2.parameters, o.1, o.2⟩

/-- What an operation declares: the parameters of its path, then its own. -/
def Listed.uses (l : Listed) : List ParameterUse := l.parameters ++ l.operation.parameters

/-- The operation with only some of what it declares. -/
def Listed.filterUses (keep : ParameterUse → Bool) (l : Listed) : Listed :=
  { l with
    parameters := l.parameters.filter keep,
    operation := { l.operation with parameters := l.operation.parameters.filter keep } }

/-- Whether two parameters have one name and place. -/
def Parameter.Same (p q : Parameter) : Prop := p.name = q.name ∧ p.location = q.location

end Swagger

namespace Ingest

open Swagger

variable {doc : Document} {label reference : String} {i : Nat} {p q : Parameter}
  {ps : List Parameter} {l : Listed} {use : ParameterUse}

/-! ## References to shared parameters -/

/-- The parameter that a use declares: one written out, or the shared one of a name. -/
def parameter? (doc : Document) : ParameterUse → Option Parameter
  | .inline p => some p
  | .ref reference => sharedParameter? doc.parameters (parameterKey reference)

/-- The reference that a use is, if no parameter of the document has its name. -/
def unresolved? (doc : Document) : ParameterUse → Option String
  | .inline _ => none
  | .ref reference =>
    if parameterKey reference ∈ doc.parameters.map Prod.fst then none else some reference

theorem sharedParameter?_eq_none_iff (doc : Document) (name : String) :
    sharedParameter? doc.parameters name = none ↔ name ∉ doc.parameters.map Prod.fst := by
  unfold sharedParameter?
  rw [List.lookup_eq_none_iff]
  simp only [List.mem_reverse, List.mem_map, not_exists, not_and, bne_iff_ne, ne_eq]
  exact forall₂_congr fun e _ => ⟨fun h heq => h heq.symm, fun h heq => h heq.symm⟩

/-- A use either declares a parameter or is a reference to none. -/
theorem unresolved?_eq_none_iff (doc : Document) (use : ParameterUse) :
    unresolved? doc use = none ↔ (parameter? doc use).isSome = true := by
  cases use with
  | inline p => simp [unresolved?, parameter?]
  | ref reference =>
    have hshared := sharedParameter?_eq_none_iff doc (parameterKey reference)
    rw [Option.isSome_iff_ne_none, parameter?, ne_eq, hshared, not_not, unresolved?]
    simp

/-- The parameters that an operation declares, those whose references resolve. -/
def declared (doc : Document) (l : Listed) : List Parameter := l.uses.filterMap (parameter? doc)

/-- To gather parameters is to go over those declared, and to list the references to none. -/
theorem gatherParameters_eq (doc : Document) (uses : List ParameterUse) :
    gatherParameters (sharedParameter? doc.parameters) uses
      = ((uses.filterMap (parameter? doc)).foldl override [],
        uses.filterMap (unresolved? doc)) := by
  unfold gatherParameters
  induction uses using List.reverseRecOn with
  | nil => rfl
  | append_singleton uses use ih =>
    rw [List.foldl_append, ih, List.filterMap_append, List.filterMap_append, List.foldl_append,
      List.foldl_cons, List.foldl_nil]
    cases use with
    | inline p => simp [parameter?, unresolved?]
    | ref reference =>
      have hresolved := unresolved?_eq_none_iff doc (.ref reference)
      dsimp only
      cases hshared : sharedParameter? doc.parameters (parameterKey reference) with
      | some p =>
        have hsome : parameter? doc (.ref reference) = some p := hshared
        have hnone : unresolved? doc (.ref reference) = none := hresolved.mpr (by rw [hsome]; rfl)
        simp [hsome, hnone]
      | none =>
        have hnone : parameter? doc (.ref reference) = none := hshared
        have hunresolved : unresolved? doc (.ref reference) = some reference :=
          if_neg ((sharedParameter?_eq_none_iff doc _).mp hshared)
        simp [hnone, hunresolved]

theorem gathered_eq (doc : Document) (l : Listed) :
    gathered doc l = (declared doc l).foldl override [] :=
  congrArg Prod.fst (gatherParameters_eq doc l.uses)

/-! ## The last of each name and place -/

/-- No parameter behind the one at an index has its name and place. -/
def IsLast (ps : List Parameter) (i : Nat) : Prop :=
  ∃ p, ps[i]? = some p ∧ ∀ j q, i < j → ps[j]? = some q → ¬ p.Same q

theorem IsLast.lt_length (h : IsLast ps i) : i < ps.length := by
  obtain ⟨p, hp, -⟩ := h
  exact (List.getElem?_eq_some_iff.mp hp).1

/-- One more parameter is the last of its name and place, and takes nothing from the others. -/
theorem isLast_concat : IsLast (ps ++ [p]) i
    ↔ i = ps.length ∨ IsLast ps i ∧ ∀ q, ps[i]? = some q → ¬ q.Same p := by
  constructor
  · rintro ⟨q, hq, hlater⟩
    rcases Nat.lt_or_ge i ps.length with hlt | hge
    · rw [List.getElem?_append_left hlt] at hq
      refine .inr ⟨⟨q, hq, fun j r hj hr => hlater j r hj ?_⟩, fun q' hq' => ?_⟩
      · rw [List.getElem?_append_left (List.getElem?_eq_some_iff.mp hr).1]
        exact hr
      · obtain rfl := Option.some.inj (hq.symm.trans hq')
        exact hlater ps.length p hlt List.getElem?_concat_length
    · have hlt := (List.getElem?_eq_some_iff.mp hq).1
      rw [List.length_append, List.length_singleton] at hlt
      exact .inl (by omega)
  · rintro (rfl | ⟨⟨q, hq, hlater⟩, hnew⟩)
    · refine ⟨p, List.getElem?_concat_length, fun j r hj hr => ?_⟩
      have hlt := (List.getElem?_eq_some_iff.mp hr).1
      rw [List.length_append, List.length_singleton] at hlt
      omega
    · have hlt := (List.getElem?_eq_some_iff.mp hq).1
      refine ⟨q, by rw [List.getElem?_append_left hlt]; exact hq, fun j r hj hr => ?_⟩
      rcases Nat.lt_or_ge j ps.length with hj' | hj'
      · rw [List.getElem?_append_left hj'] at hr
        exact hlater j r hj hr
      · have hle := (List.getElem?_eq_some_iff.mp hr).1
        rw [List.length_append, List.length_singleton] at hle
        obtain rfl : j = ps.length := by omega
        rw [List.getElem?_concat_length] at hr
        obtain rfl := Option.some.inj hr
        exact hnew q hq

/-- **Overriding keeps the last of each name and place, in their order.** By induction on the
parameters, the last of them first. -/
theorem exists_lastPlaces (ps : List Parameter) :
    ∃ places : List Nat, places.Pairwise (· < ·) ∧ (∀ i, i ∈ places ↔ IsLast ps i)
      ∧ List.Forall₂ (fun i p => ps[i]? = some p) places (ps.foldl override []) := by
  induction ps using List.reverseRecOn with
  | nil => exact ⟨[], .nil, fun i => by simp [IsLast], .nil⟩
  | append_singleton ps p ih =>
    obtain ⟨places, hincreasing, hmem, hplaces⟩ := ih
    have hbelow : ∀ i ∈ places, i < ps.length := fun i hi => ((hmem i).mp hi).lt_length
    -- The places that are kept are those of parameters with another name or place.
    let keeps := fun i : Nat =>
      !(ps[i]?.any fun q : Parameter => q.name == p.name && q.location == p.location)
    have hkeeps : ∀ i, keeps i = true ↔ ∀ q, ps[i]? = some q → ¬ q.Same p := by
      intro i
      cases hq : ps[i]? with
      | none => simp [keeps, hq]
      | some q => simpa [keeps, hq, Parameter.Same] using imp_iff_not_or.symm
    refine ⟨places.filter keeps ++ [ps.length], ?_, fun i => ?_, ?_⟩
    · rw [List.pairwise_append]
      refine ⟨hincreasing.filter _, List.pairwise_singleton _ _, fun i hi j hj => ?_⟩
      rw [List.mem_singleton.mp hj]
      exact hbelow i (List.mem_filter.mp hi).1
    · rw [isLast_concat, List.mem_append, List.mem_filter, List.mem_singleton, hmem, hkeeps, or_comm]
    · have hkept : List.Forall₂ (fun i q => ps[i]? = some q) (places.filter keeps)
          ((ps.foldl override []).filter fun q => !(q.name == p.name && q.location == p.location)) :=
        List.rel_filter (fun i q hq => by simp [keeps, hq]) hplaces
      rw [List.foldl_append, List.foldl_cons, List.foldl_nil, override]
      refine List.rel_append (hkept.imp fun i q hq => ?_)
        (.cons List.getElem?_concat_length .nil)
      rw [List.getElem?_append_left (List.getElem?_eq_some_iff.mp hq).1]
      exact hq

/-- Among the parameters of one name and place one is the last, by induction from the end. -/
theorem exists_isLast (hp : p ∈ ps) :
    ∃ i, IsLast ps i ∧ ∃ q, ps[i]? = some q ∧ q.Same p := by
  induction ps using List.reverseRecOn with
  | nil => cases hp
  | append_singleton ps last ih =>
    by_cases hsame : last.Same p
    · exact ⟨ps.length, isLast_concat.mpr (.inl rfl), last, List.getElem?_concat_length, hsame⟩
    · have hmem : p ∈ ps := by
        refine (List.mem_append.mp hp).resolve_right fun hlast => hsame ?_
        rw [List.mem_singleton.mp hlast]
        exact ⟨rfl, rfl⟩
      obtain ⟨i, hlast, q, hq, hqp⟩ := ih hmem
      refine ⟨i, isLast_concat.mpr (.inr ⟨hlast, fun q' hq' hnew => hsame ?_⟩), q, ?_, hqp⟩
      · obtain rfl := Option.some.inj (hq.symm.trans hq')
        exact ⟨hnew.1.symm.trans hqp.1, hnew.2.symm.trans hqp.2⟩
      · rw [List.getElem?_append_left hlast.lt_length]
        exact hq

/-- **Exactly one of the parameters of one name and place is the last.** -/
theorem existsUnique_isLast (hp : p ∈ ps) :
    ∃! i, IsLast ps i ∧ ∃ q, ps[i]? = some q ∧ q.Same p := by
  have hlater : ∀ {i j : Nat} {q r : Parameter}, IsLast ps i → ps[i]? = some q → ps[j]? = some r →
      q.Same p → r.Same p → j ≤ i := by
    rintro i j q r ⟨q', hq', hlater⟩ hq hr hqp hrp
    obtain rfl := Option.some.inj (hq.symm.trans hq')
    by_contra hlt
    exact hlater j r (Nat.lt_of_not_le hlt) hr ⟨hqp.1.trans hrp.1.symm, hqp.2.trans hrp.2.symm⟩
  obtain ⟨i, hlast, q, hq, hqp⟩ := exists_isLast hp
  refine ⟨i, ⟨hlast, q, hq, hqp⟩, ?_⟩
  rintro j ⟨hlast', r, hr, hrp⟩
  exact Nat.le_antisymm (hlater hlast hq hr hqp hrp) (hlater hlast' hr hq hrp hqp)

/-! ## Operations with what they declare -/

/-- The anomaly of a reference to no parameter. -/
def unresolvedAnomaly (l : Listed) (reference : String) : Anomaly :=
  ⟨.undefinedReference, (groupVersionOf l.path l.operation).2,
    operationIdOf l.path l.verb l.operation,
    "parameter reference " ++ reference ++ " is undefined"⟩

/-- The operation that a document lists, with the anomalies found in it. -/
def found (doc : Document) (l : Listed) : ApiModels.Operation × Diagnostics :=
  operationOf (definitionId? doc.definitions) (sharedParameter? doc.parameters) l.path l.parameters
    l.verb l.operation

/-- Anomalies of definitions come first, then those of one operation after the other. -/
theorem ingest_eq (label : String) (doc : Document) :
    (ingest label doc).1.operations.toList = (doc.listed.map (found doc)).map Prod.fst
      ∧ (ingest label doc).2
        = doc.definitions.flatMap (fun d =>
            definitionAnomalies (definitionId? doc.definitions) d.1 d.2)
          ++ (doc.listed.map (found doc)).flatMap Prod.snd := by
  have hfounds : (doc.paths.flatMap fun p => p.2.operations.map fun o =>
      operationOf (definitionId? doc.definitions) (sharedParameter? doc.parameters) p.1
        p.2.parameters o.1 o.2) = doc.listed.map (found doc) := by
    unfold Document.listed
    rw [List.map_flatMap]
    simp only [List.map_map]
    rfl
  rw [operations_ingest, ← hfounds, List.map_flatMap]
  simp only [List.map_map]
  exact ⟨rfl, rfl⟩

/-- What names without a definition are reported as is not said of parameters. -/
theorem missingAnomaly_ne (version subject name : String) :
    missingAnomaly version subject name ≠ unresolvedAnomaly l reference := by
  have hhead : ((missingAnomaly version subject name).reason).toList.head? = some 'r' := by
    unfold missingAnomaly
    split <;> simp [String.toList_append]
  have hhead' : ((unresolvedAnomaly l reference).reason).toList.head? = some 'p' := by
    simp [unresolvedAnomaly, String.toList_append]
  intro heq
  rw [heq, hhead'] at hhead
  exact absurd hhead (by decide)

/-- What becomes of the parameters that an operation declares. -/
structure Declares (doc : Document) (l : Listed) (o : ApiModels.Operation) (anomalies : Diagnostics) :
    Prop where
  /-- The operation has the last of each name and place, in the order in which they are declared. -/
  params : ∃ places : List Nat, places.Pairwise (· < ·)
    ∧ (∀ i, i ∈ places ↔ IsLast (declared doc l) i)
    ∧ List.Forall₂ (fun i param => ∃ p, (declared doc l)[i]? = some p
        ∧ param = parameter (definitionId? doc.definitions) p) places o.params
  /-- There is one such parameter for each name and place that is declared. -/
  once : ∀ p ∈ declared doc l,
    ∃! i, IsLast (declared doc l) i ∧ ∃ q, (declared doc l)[i]? = some q ∧ q.Same p
  /-- Each reference to no parameter is reported, as often as it is declared, and nothing else is
  reported in this way. -/
  reported : ∃ others, anomalies = (l.uses.filterMap (unresolved? doc)).map (unresolvedAnomaly l)
      ++ others ∧ ∀ a ∈ others, ∀ reference, a ≠ unresolvedAnomaly l reference
  /-- Without these references the operation would be the same: they do not make it unbindable. -/
  skipped : o = (found doc (l.filterUses fun use => (parameter? doc use).isSome)).1

theorem declares_found (doc : Document) (l : Listed) :
    Declares doc l (found doc l).1 (found doc l).2 where
  params := by
    obtain ⟨places, hincreasing, hmem, hplaces⟩ := exists_lastPlaces (declared doc l)
    refine ⟨places, hincreasing, hmem, ?_⟩
    have hparams : (found doc l).1.params
        = ((declared doc l).foldl override []).map (parameter (definitionId? doc.definitions)) := by
      rw [← gathered_eq]
      rfl
    rw [hparams]
    exact List.forall₂_map_right_iff.mpr (hplaces.imp fun i p hp => ⟨p, hp, rfl⟩)
  once := fun p hp => existsUnique_isLast hp
  reported := by
    refine ⟨_, congrArg (·.map (unresolvedAnomaly l) ++ _)
      (congrArg Prod.snd (gatherParameters_eq doc l.uses)), fun a ha reference => ?_⟩
    obtain ⟨name, -, rfl⟩ := List.mem_map.mp ha
    exact missingAnomaly_ne _ _ name
  skipped := by
    have hkept : ∀ uses : List ParameterUse,
        (uses.filter fun use => (parameter? doc use).isSome).filterMap (parameter? doc)
          = uses.filterMap (parameter? doc) := by
      intro uses
      rw [List.filterMap_filter]
      refine List.filterMap_congr fun use _ => ?_
      cases parameter? doc use <;> rfl
    unfold found operationOf Listed.filterUses
    dsimp only
    simp only [gatherParameters_eq, List.filterMap_append, hkept]
    rfl

/--
**An operation has the last declared of its parameters.**

Path and operation may declare several of one name and place. Of these the operation has exactly one,
that which is declared last; so its own overrides that of its path, and the order is that of the
last declarations. A reference that names no parameter of the document is skipped: it is reported
with one anomaly, and the operation is what it would be without it.
-/
theorem last_declared_parameters (label : String) (doc : Document) :
    (∀ reference, unresolved? doc (.ref reference) = some reference
        ↔ parameterKey reference ∉ doc.parameters.map Prod.fst)
      ∧ ∃ founds : List (ApiModels.Operation × Diagnostics),
        (ingest label doc).1.operations.toList = founds.map Prod.fst
          ∧ (ingest label doc).2
            = doc.definitions.flatMap (fun d =>
                definitionAnomalies (definitionId? doc.definitions) d.1 d.2)
              ++ founds.flatMap Prod.snd
          ∧ List.Forall₂ (fun l f => Declares doc l f.1 f.2) doc.listed founds := by
  refine ⟨fun reference => ?_, doc.listed.map (found doc), ?_⟩
  · simp [unresolved?]
  · obtain ⟨hoperations, hanomalies⟩ := ingest_eq label doc
    refine ⟨hoperations, hanomalies, ?_⟩
    exact List.forall₂_map_right_iff.mpr (List.forall₂_same.mpr fun l _ => declares_found doc l)

end Ingest

end ApiModels
