import ApiModels.Proofs.GeneratedMethods
import ApiModels.Proofs.SnakeCase

/-!
# Signatures

The arguments of a generated function get names that differ from each other and from the receiver,
and so do the methods of a version. These names are compared before they are made identifiers, and
letters beyond ASCII are not in an identifier: two names that differ in such letters only make one
identifier. Names in ASCII do not.
-/

namespace ApiModels.Generated

open ReleaseModel Binding
open Source (Ident)
open Text (InAscii IsSpelled)

variable {b : Build} {version : String} {id : TypeId} {name : Ident} {mb : MethodBinding}
  {taken wires : List String}

/-! ## Arguments -/

/-- Arguments of the function of a method, in the order in which it declares them. -/
def argsOf (b : Build) (version : String) (mb : MethodBinding) : List Arg :=
  let op := b.model.operation mb.operation
  pathArgs b op ++ (bodyArgs b version op mb.kind ++ queryArgs b op)

/-- The identifier of a parameter other than the receiver. -/
def Param.ident? : Param → Option Ident
  | .receiver _ => none
  | .typed ident _ => some ident

/-- Identifiers of the arguments that a function declares, without its receiver. -/
def argIdents (f : Function) : List Ident := f.params.filterMap Param.ident?

/-- The name that an argument is given unless it is taken. -/
def argBase (wire : String) : String :=
  if (Text.snakeCase wire).isEmpty then "arg" else Text.snakeCase wire

/-- The names that arguments are given, before they are made identifiers. -/
def assignNames : (taken : List String) → List String → List String
  | _, [] => []
  | taken, wire :: wires =>
    let name := Text.firstFree taken.contains (Text.numbered (argBase wire)) taken.length
    name :: assignNames (name :: taken) wires

theorem assignArgs_eq (taken wires : List String) :
    assignArgs taken wires = (assignNames taken wires).map Ident.ofName := by
  induction wires generalizing taken with
  | nil => rfl
  | cons wire wires ih => exact congrArg (_ :: ·) (ih _)

/-- A name that is found for an argument is not taken. -/
theorem firstFree_notMem (wire : String) :
    Text.firstFree taken.contains (Text.numbered (argBase wire)) taken.length ∉ taken := by
  have hinj : Function.Injective (id ∘ Text.numbered (argBase wire)) :=
    Text.numbered_injective (argBase wire)
  exact Text.part_firstFree_notMem hinj (Nat.le_refl _)

theorem notMem_of_mem_assignNames {name : String} (h : name ∈ assignNames taken wires) :
    name ∉ taken := by
  induction wires generalizing taken with
  | nil => cases h
  | cons wire wires ih =>
    rcases List.mem_cons.mp h with rfl | h
    · exact firstFree_notMem wire
    · exact fun hmem => ih h (List.mem_cons_of_mem _ hmem)

theorem nodup_assignNames (taken wires : List String) : (assignNames taken wires).Nodup := by
  induction wires generalizing taken with
  | nil => exact List.nodup_nil
  | cons wire wires ih =>
    exact List.nodup_cons.mpr ⟨fun h => notMem_of_mem_assignNames h List.mem_cons_self, ih _⟩

/-- Each name is that of its argument, numbered if need be. -/
theorem assignNames_numbered (taken wires : List String) :
    List.Forall₂ (fun wire name => ∃ n, name = Text.numbered (argBase wire) n) wires
      (assignNames taken wires) := by
  induction wires generalizing taken with
  | nil => exact .nil
  | cons wire wires ih => exact .cons ⟨_, rfl⟩ (ih _)

theorem length_assignNames (taken wires : List String) :
    (assignNames taken wires).length = wires.length :=
  (assignNames_numbered taken wires).length_eq.symm

theorem argIdents_methodOf : argIdents (methodOf b version mb)
    = (assignNames ["self"] ((argsOf b version mb).map Arg.wire)).map Ident.ofName := by
  have hlength : (assignArgs ["self"] ((argsOf b version mb).map Arg.wire)).length
      ≤ (argsOf b version mb).length := by
    rw [assignArgs_eq, List.length_map, length_assignNames, List.length_map]
  have hargs : (((argsOf b version mb).zip (assignArgs ["self"] ((argsOf b version mb).map
      Arg.wire))).map fun a => Param.typed a.2 a.1.type).filterMap Param.ident?
      = assignArgs ["self"] ((argsOf b version mb).map Arg.wire) := by
    rw [List.filterMap_map]
    exact (congrFun List.filterMap_eq_map _).trans (List.map_snd_zip hlength)
  rw [← assignArgs_eq]
  unfold argIdents methodOf
  dsimp only
  rw [List.filterMap_append]
  refine (congrArg₂ (· ++ ·) ?_ hargs).trans (List.nil_append _)
  cases mb.kind <;> rfl

/-- The identifiers of the arguments with the names given. -/
structure ArgsNamed (wires : List String) (idents : List Ident) : Prop where
  /-- They are made of names that differ from each other and from the receiver, each that of its
  argument, numbered if need be. -/
  names : ∃ names : List String, idents = names.map Ident.ofName ∧ names.Nodup ∧ "self" ∉ names
    ∧ List.Forall₂ (fun wire name => ∃ n, name = Text.numbered (argBase wire) n) wires names
  /-- None is the receiver. -/
  receiver : ∀ ident ∈ idents, ident.text ≠ "self"
  /-- Those of arguments in ASCII are distinct. -/
  distinct : (((wires.zip idents).filter fun x => InAscii x.1).map (·.2.text)).Nodup

/-- A name in ASCII gives names that an identifier can hold. -/
theorem isSpelled_argBase {wire : String} (h : InAscii wire) (n : Nat) :
    IsSpelled (Text.numbered (argBase wire) n).toList := by
  refine Text.isSpelled_numbered ?_ n
  unfold argBase
  split
  · have hletters : "arg".toList.all Char.isAlphanum = true := by decide
    exact Text.isSpelled_of_isAlphanum (by decide) (List.all_eq_true.mp hletters)
  · rename_i hne
    refine Text.isSpelled_snakeCase h fun hwords => hne ?_
    rw [Text.snakeCase, hwords]
    rfl

theorem ArgsNamed.of_names {names : List String} (hnodup : names.Nodup) (hself : "self" ∉ names)
    (hnumbered : List.Forall₂ (fun wire name => ∃ n, name = Text.numbered (argBase wire) n) wires
      names) : ArgsNamed wires (names.map Ident.ofName) where
  names := ⟨names, rfl, hnodup, hself, hnumbered⟩
  receiver := by
    intro ident hident
    obtain ⟨name, -, rfl⟩ := List.mem_map.mp hident
    exact Source.text_ne_self name
  distinct := by
    obtain ⟨hlength, hzip⟩ := List.forall₂_iff_zip.mp hnumbered
    have hnames : (((wires.zip names).filter fun x => InAscii x.1).map Prod.snd).Nodup := by
      refine (List.filter_sublist.map Prod.snd).nodup ?_
      rwa [List.map_snd_zip hlength.ge]
    have hidents : ((wires.zip (names.map Ident.ofName)).filter fun x => InAscii x.1).map (·.2.text)
        = (((wires.zip names).filter fun x => InAscii x.1).map Prod.snd).map
          fun name => (Ident.ofName name).text := by
      rw [List.zip_map_right, List.filter_map, List.map_map, List.map_map]
      simp only [Function.comp_def, Prod.map_fst, Prod.map_snd, id_eq]
    -- the name of an argument in ASCII can be read off its identifier
    have hspelled : ∀ name ∈ ((wires.zip names).filter fun x => InAscii x.1).map Prod.snd,
        IsSpelled name.toList := by
      intro name hname
      obtain ⟨⟨wire, name⟩, hmem, rfl⟩ := List.mem_map.mp hname
      obtain ⟨hmem, hascii⟩ := List.mem_filter.mp hmem
      obtain ⟨n, rfl⟩ := hzip hmem
      exact isSpelled_argBase (of_decide_eq_true hascii) n
    rw [hidents]
    exact hnames.map_on fun s hs t ht h => Source.eq_of_text_eq (hspelled s hs) (hspelled t ht) h

theorem argsNamed_methodOf (b : Build) (version : String) (mb : MethodBinding) :
    ArgsNamed ((argsOf b version mb).map Arg.wire) (argIdents (methodOf b version mb)) := by
  rw [argIdents_methodOf]
  exact .of_names (nodup_assignNames _ _)
    (fun h => notMem_of_mem_assignNames h (List.mem_singleton_self _)) (assignNames_numbered _ _)

/-- Letters beyond ASCII are not in an identifier, and two names made of them may clash. -/
example : assignArgs ["self"] ["é", "ü", "self", "Self"]
    = [⟨"__", false⟩, ⟨"__", false⟩, ⟨"self_2", false⟩, ⟨"self_3", false⟩] := by
  decide +kernel

/-! ## Methods -/

/-- The id of an operation is in ASCII, and its name without group and version has a letter or
digit. -/
def NamedInAscii (op : Operation) : Prop :=
  InAscii op.operationId ∧ ∃ c ∈ op.methodName.toList, Text.isAlphanumeric c = true

instance (op : Operation) : Decidable (NamedInAscii op) := inferInstanceAs (Decidable (_ ∧ _))

/-- What is left of the id of an operation without group and version is part of it. -/
theorem mem_of_mem_stripGroupVersion {operationId group : String} {apiGroup : Option String}
    {c : Char} (h : c ∈ (stripGroupVersion operationId apiGroup group).toList) :
    c ∈ operationId.toList := by
  unfold stripGroupVersion at h
  split at h
  · exact h
  · dsimp only at h
    split at h
    · exact h
    · split at h
      · rename_i tail htail
        rw [String.toList_ofList, List.mem_append] at h
        rcases h with h | h
        · exact List.takeWhile_sublist _ |>.subset h
        · obtain ⟨i, -, hi⟩ := List.exists_of_findSome?_eq_some htail
          have hrest := Text.afterStart?_eq_some (Option.filter_eq_some_iff.mp hi).1
          refine (List.dropWhile_sublist fun c => !c.isUpper).subset ?_
          rw [hrest]
          exact List.mem_append_right _ h
      · exact h

theorem mem_operationId_of_mem_methodName {label : String} {doc : Swagger.Document}
    {op : OperationId} {c : Char}
    (h : c ∈ ((Ingest.ingest label doc).1.operation op).methodName.toList) :
    c ∈ ((Ingest.ingest label doc).1.operation op).operationId.toList := by
  by_cases hop : op < (Ingest.ingest label doc).1.operations.size
  · obtain ⟨path, uses, verb, o, ho⟩ := Ingest.mem_operations (Array.getElem_mem hop)
    rw [ReleaseModel.operation_of_lt hop, ho] at h ⊢
    exact mem_of_mem_stripGroupVersion h
  · rw [ReleaseModel.operation, Array.getD, dif_neg hop] at h
    cases h

/-- A method whose operation is named in ASCII has a name that an identifier can hold. -/
theorem isSpelled_of_isMethodName {op : Operation} {used : String → Prop} {name : String}
    (hop : NamedInAscii op) (hchars : ∀ c ∈ op.methodName.toList, c ∈ op.operationId.toList)
    (h : IsMethodName op used name) : IsSpelled name.toList := by
  obtain ⟨hascii, c, hc, halphanumeric⟩ := hop
  rcases h with ⟨-, rfl⟩ | ⟨-, n, rfl, -⟩
  · exact Text.isSpelled_snakeCase (fun c hc => hascii c (hchars c hc))
      (Text.words_ne_nil ⟨c, hc, halphanumeric⟩)
  · exact Text.isSpelled_numbered
      (Text.isSpelled_snakeCase hascii (Text.words_ne_nil ⟨c, hchars c hc, halphanumeric⟩)) n

/-- The functions that every document may have are some of three, in this order. -/
theorem names_documentItems (b : Build) (id : TypeId) (name : Ident) :
    ((functionsFor name (documentItems b id)).map (·.name.text)).Sublist
      ["name", "namespace", "new"] := by
  unfold documentItems accessors
  split
  · exact List.nil_sublist _
  · by_cases hname : typeIdent b id = name
    · cases metadata? b id with
      | none => simp [functionsFor, hname, textConstant]
      | some holder =>
        -- there is an accessor for each of the two fields that is a text
        cases hfirst : textAccessor? b holder.1 holder.2 "name" with
        | none =>
          cases hsecond : textAccessor? b holder.1 holder.2 "namespace" with
          | none => simp [functionsFor, hname, textConstant, hfirst, hsecond]
          | some _ => simp [functionsFor, hname, textConstant, borrowing, hfirst, hsecond]
        | some _ =>
          cases hsecond : textAccessor? b holder.1 holder.2 "namespace" with
          | none => simp [functionsFor, hname, textConstant, borrowing, hfirst, hsecond]
          | some _ => simp [functionsFor, hname, textConstant, borrowing, hfirst, hsecond]
    · simp [functionsFor, hname]

/-- The identifier of a method is not that of a function that every document may have. -/
theorem text_methodIdent_notMem (h : mb.methodName ∉ reserved) :
    (methodIdent mb).text ∉ ["name", "namespace", "new"] := by
  have hplain : ∀ text ∈ ["name", "namespace", "new"],
      '_' ∉ text.toList ∧ text ≠ "unknown" ∧ text ∈ reserved := by
    decide
  intro hmem
  obtain ⟨hunderscore, hne, hreserved⟩ := hplain _ hmem
  have hname : mb.methodName = (methodIdent mb).text :=
    Source.eq_of_text_ofName hunderscore hne rfl
  exact h (hname ▸ hreserved)

/-- The functions of a class. -/
def classFunctions (b : Build) (id : TypeId) : List Function :=
  functionsFor (typeIdent b id)
    (documentItems b id ++ methodItems b (b.model.type id).version id)

/-- The functions that a class has as a document, and those for its operations that are named in
ASCII. -/
def plainFunctions (b : Build) (id : TypeId) : List Function :=
  functionsFor (typeIdent b id) (documentItems b id)
    ++ ((b.bindings.methods id).filter fun mb => NamedInAscii (b.model.operation mb.operation)).map
      (methodOf b (b.model.type id).version)

theorem classFunctions_eq (b : Build) (id : TypeId) :
    classFunctions b id = functionsFor (typeIdent b id) (documentItems b id)
      ++ (b.bindings.methods id).map (methodOf b (b.model.type id).version) := by
  rw [classFunctions, functionsFor_append, functionsFor_methodItems, if_pos rfl]

section

variable (hnamed : Named b.model b.bindings.bound)
  (hchars : ∀ op, ∀ c ∈ (b.model.operation op).methodName.toList,
    c ∈ (b.model.operation op).operationId.toList)

include hnamed

theorem isMethodName_of_mem_bound (hmb : mb ∈ b.bindings.bound) :
    ∃ used, IsMethodName (b.model.operation mb.operation) used mb.methodName
      ∧ mb.methodName ∉ reserved := by
  obtain ⟨before, after, heq⟩ := List.append_of_mem hmb
  have hname := hnamed.found before mb after heq
  exact ⟨_, hname, fun hmem => hname.not_taken (.inr hmem)⟩

include hchars

/-- **Methods of a version that are named in ASCII have different identifiers**, for what they are
named can be read off them. -/
theorem eq_of_methodIdent_eq {mb' : MethodBinding} (hmb : mb ∈ b.bindings.bound)
    (hmb' : mb' ∈ b.bindings.bound)
    (hversion : (b.model.type mb.target).version = (b.model.type mb'.target).version)
    (hascii : NamedInAscii (b.model.operation mb.operation))
    (hascii' : NamedInAscii (b.model.operation mb'.operation))
    (h : (methodIdent mb).text = (methodIdent mb').text) : mb = mb' := by
  obtain ⟨used, hname, -⟩ := isMethodName_of_mem_bound hnamed hmb
  obtain ⟨used', hname', -⟩ := isMethodName_of_mem_bound hnamed hmb'
  have heq : mb.methodName = mb'.methodName :=
    Source.eq_of_text_eq (isSpelled_of_isMethodName hascii (hchars _) hname)
      (isSpelled_of_isMethodName hascii' (hchars _) hname') h
  exact List.inj_on_of_nodup_map hnamed.distinct hmb hmb' (Prod.ext hversion heq)

theorem nodup_plainFunctions (id : TypeId) : ((plainFunctions b id).map (·.name.text)).Nodup := by
  have hdocument := names_documentItems b id (typeIdent b id)
  have hnodup : b.bindings.bound.Nodup := hnamed.distinct.of_map _
  have hmethods : ∀ mb ∈ (b.bindings.methods id).filter fun mb =>
      NamedInAscii (b.model.operation mb.operation),
      mb ∈ b.bindings.bound ∧ mb.target = id
        ∧ NamedInAscii (b.model.operation mb.operation) := by
    intro mb hmb
    obtain ⟨hmb, hascii⟩ := List.mem_filter.mp hmb
    obtain ⟨hbound, htarget⟩ := Bindings.mem_methods.mp hmb
    exact ⟨hbound, htarget, of_decide_eq_true hascii⟩
  rw [plainFunctions, List.map_append, List.map_map, List.nodup_append]
  refine ⟨hdocument.nodup (by decide), ((hnodup.filter _).filter _).map_on ?_, ?_⟩
  · intro mb hmb mb' hmb' h
    obtain ⟨hbound, htarget, hascii⟩ := hmethods mb hmb
    obtain ⟨hbound', htarget', hascii'⟩ := hmethods mb' hmb'
    exact eq_of_methodIdent_eq hnamed hchars hbound hbound' (by rw [htarget, htarget']) hascii
      hascii' h
  · rintro text htext _ hmethod rfl
    obtain ⟨mb, hmb, rfl⟩ := List.mem_map.mp hmethod
    obtain ⟨-, -, hreserved⟩ := isMethodName_of_mem_bound hnamed (hmethods mb hmb).1
    exact text_methodIdent_notMem hreserved (hdocument.subset htext)

end

/-! ## Builds -/

/--
**Signatures in ASCII are free of clashes.**

The arguments of a function are given names that differ from each other and from the receiver, and
none of them is made into the receiver. Those whose names on the wire are in ASCII have different
identifiers, whatever these names are: keywords, texts that begin with a digit or have no letter, or
several that are one in snake case. A class has the functions of a document and those of its
operations; the first and those of operations named in ASCII have different identifiers.

Only letters and digits beyond ASCII make one identifier of different names of arguments. They do so
with methods too, and so does a name without letters and digits.
-/
theorem signatures_distinct (config : ReleaseConfig) (doc : Swagger.Document) :
    let b := Build.ofDocument config doc
    (∀ version mb,
        ArgsNamed ((argsOf b version mb).map Arg.wire) (argIdents (methodOf b version mb)))
      ∧ ∀ id, classFunctions b id = functionsFor (typeIdent b id) (documentItems b id)
            ++ (b.bindings.methods id).map (methodOf b (b.model.type id).version)
          ∧ ((plainFunctions b id).map (·.name.text)).Nodup := by
  intro b
  have hnamed : Named b.model b.bindings.bound := Build.ofDocument_named config doc
  have hchars : ∀ op, ∀ c ∈ (b.model.operation op).methodName.toList,
      c ∈ (b.model.operation op).operationId.toList := fun _ _ hc =>
    mem_operationId_of_mem_methodName hc
  exact ⟨fun version mb => argsNamed_methodOf b version mb, fun id =>
    ⟨classFunctions_eq b id, nodup_plainFunctions hnamed hchars id⟩⟩

end ApiModels.Generated
