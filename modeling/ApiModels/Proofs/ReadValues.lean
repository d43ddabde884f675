import ApiModels.Proofs.Edits
import ApiModels.Proofs.MergedJson
import ApiModels.Swagger.Reading

/-!
# What is read holds

A reader that succeeds has gone through every part of its draft. So what holds of the parts as they
are read holds of the whole. Two things that no type says of what is read come about in this way:
objects hold each name once, and a path lists its operations in the order of verbs, each verb once.
-/

namespace ApiModels

namespace Json

variable {α β ε σ : Type} {levels : Nat} {d : Draft} {r : Reader α} {v : Json}

/-! ## Parts of what is read -/

/-- What comes out of a run over a list comes out of a step. -/
theorem exists_of_mem_mapM {f : α → Except ε β} {as : List α} {bs : List β} {b : β}
    (h : as.mapM f = .ok bs) (hb : b ∈ bs) : ∃ a ∈ as, f a = .ok b := by
  induction as generalizing bs with
  | nil =>
      cases h
      cases hb
  | cons a as ih =>
      rw [List.mapM_cons] at h
      obtain ⟨first, hfirst, h⟩ := bind_eq_ok h
      obtain ⟨rest, hrest, h⟩ := bind_eq_ok h
      cases h
      rcases List.mem_cons.mp hb with rfl | hb
      · exact ⟨a, List.mem_cons_self, hfirst⟩
      · obtain ⟨a', ha', hstep⟩ := ih hrest hb
        exact ⟨a', List.mem_cons_of_mem _ ha', hstep⟩

/-- What comes under a name out of fields that are read is what a field was read as. -/
theorem exists_of_mem_named {ι : Type} {read : ι → Except ε α} {fields : List (Except ε String × ι)}
    {named : List (String × α)} {p : String × α}
    (h : (fields.mapM fun f => do
      let name ← f.1
      let value ← read f.2
      pure (name, value)) = .ok named) (hp : p ∈ named) : ∃ f ∈ fields, read f.2 = .ok p.2 := by
  obtain ⟨f, hf, hstep⟩ := exists_of_mem_mapM h hp
  obtain ⟨name, -, hstep⟩ := bind_eq_ok hstep
  obtain ⟨value, hvalue, hstep⟩ := bind_eq_ok hstep
  cases hstep
  exact ⟨f, hf, hvalue⟩

theorem Reader.closed_eq_ok {failure : Option Break} {a b : α} (h : closed failure a = .ok b) :
    b = a := by
  cases failure with
  | none =>
      cases h
      rfl
  | some _ => cases h

/-- What is under a name of an object read was read itself. -/
theorem Reader.exists_of_mem_pairs {ps : List (String × α)} {p : String × α}
    (h : pairs r levels d = .ok ps) (hp : p ∈ ps) : ∃ levels d, r levels d = .ok p.2 := by
  cases d with
  | object start fields failure =>
      cases levels with
      | zero => cases h
      | succ levels =>
          obtain ⟨named, hnamed, h⟩ := bind_eq_ok h
          obtain rfl := closed_eq_ok h
          obtain ⟨f, -, hread⟩ := exists_of_mem_named hnamed hp
          exact ⟨levels, f.2, hread⟩
  | _ => cases levels <;> cases h

theorem Reader.of_whole {draft : (Nat × Draft) × Option Fault} {a : α}
    (h : r.whole draft = .ok a) : r maxLevels draft.1.2 = .ok a := by
  unfold whole at h
  split at h
  · cases h
  · cases h
  · rename_i hread _
    cases h
    exact hread

/-! ## Values -/

theorem namesOnce_ofPairs {pairs : Fields} (h : ∀ p ∈ pairs, p.2.NamesOnce) :
    (ofPairs pairs).NamesOnce := by
  have hfold : ∀ (pairs fields : Fields), (∀ p ∈ pairs, p.2.NamesOnce) →
      (Json.object fields).NamesOnce →
      (Json.object (pairs.foldl (fun fields p => setField p.1 p.2 fields) fields)).NamesOnce := by
    intro pairs
    induction pairs with
    | nil => exact fun _ _ hfields => hfields
    | cons p pairs ih =>
        intro fields hpairs hfields
        refine ih _ (fun q hq => hpairs q (List.mem_cons_of_mem _ hq)) ?_
        cases hfields with
        | object hnodup hvalues =>
            refine .object (nodup_setField hnodup) fun f hf => ?_
            rcases mem_setField hf with rfl | hf
            · exact hpairs p List.mem_cons_self
            · exact hvalues f hf
  exact hfold pairs [] h (.object List.nodup_nil (by simp))

/-- **A value that is read holds each name once in each of its objects.** -/
theorem namesOnce_of_read (h : Reader.json levels d = .ok v) : v.NamesOnce := by
  fun_induction Reader.json levels d generalizing v with
  | case1 =>
      cases h
      exact .null
  | case2 =>
      cases h
      exact .bool _
  | case3 _ n =>
      cases n <;> cases h
      exact .number _
  | case4 _ s =>
      cases s <;> cases h
      exact .string _
  | case5 => cases h
  | case6 => cases h
  | case7 => cases h
  | case8 _ _ items failure ih =>
      obtain ⟨values, hvalues, h⟩ := bind_eq_ok h
      obtain rfl := Reader.closed_eq_ok h
      refine .array fun v hv => ?_
      obtain ⟨item, -, hitem⟩ := exists_of_mem_mapM hvalues hv
      exact ih item hitem
  | case9 _ _ fields failure ih =>
      obtain ⟨named, hnamed, h⟩ := bind_eq_ok h
      obtain rfl := Reader.closed_eq_ok h
      refine namesOnce_ofPairs fun p hp => ?_
      obtain ⟨f, -, hvalue⟩ := exists_of_mem_named hnamed hp
      exact ih f hvalue

theorem namesOnce_of_parse {text : String} (h : parse text = .ok v) : v.NamesOnce :=
  namesOnce_of_read (Reader.of_whole h)

/-! ## Records -/

namespace Reader

/-- Reading a field that was not met yet keeps what holds of the names met and the record so far. -/
def Keeps (holds : List String → σ → Prop) (field : RecordField σ) : Prop :=
  ∀ levels d seen s s', field.name ∉ seen → holds seen s → field.read levels d s = .ok s' →
    holds (field.name :: seen) s'

variable {holds : List String → σ → Prop} {fields : List (RecordField σ)}
  {seen seen' : List String} {s s' : σ}

/-- What every field keeps holds of a record read from an object, by induction on the fields of the
object. -/
theorem holds_of_objectFields (hkeeps : ∀ f ∈ fields, Keeps holds f) (hs : holds seen s)
    {values : List (Except Fault String × Draft)}
    (h : objectFields fields levels seen s values = .ok (seen', s')) : holds seen' s' := by
  induction values generalizing seen s with
  | nil =>
      cases h
      exact hs
  | cons value values ih =>
      obtain ⟨_ | name, d⟩ := value
      · cases h
      rw [objectFields] at h
      split at h
      · -- a name that the record does not have is skipped
        split at h
        · cases h
        · exact ih hs h
      · rename_i field hfind
        have hmem : field ∈ fields := List.mem_of_find?_eq_some hfind
        have hname : field.name = name := by simpa using List.find?_some hfind
        by_cases hseen : seen.contains name = true
        · rw [if_pos hseen] at h
          cases h
        · rw [if_neg hseen] at h
          split at h
          · cases h
          · rename_i next hread
            have hnew : field.name ∉ seen := by simpa [hname] using hseen
            have hnext : holds (field.name :: seen) next :=
              hkeeps field hmem _ _ _ _ _ hnew hs hread
            rw [hname] at hnext
            exact ih hnext h

/-- What every field keeps holds of a record read from an array, by induction on the fields of the
record. -/
theorem holds_of_arrayFields (hkeeps : ∀ f ∈ fields, Keeps holds f)
    (hnames : (fields.map (·.name)).Nodup) (hnew : ∀ f ∈ fields, f.name ∉ seen) (hs : holds seen s)
    {failure : Option Break} {items : List (Nat × Draft)}
    (h : arrayFields levels s failure fields items = .ok s') : ∃ seen', holds seen' s' := by
  induction fields generalizing seen s items with
  | nil =>
      cases items with
      | nil =>
          obtain rfl := closed_eq_ok h
          exact ⟨seen, hs⟩
      | cons item items => cases h
  | cons field fields ih =>
      obtain ⟨hfirst, hrest⟩ := List.nodup_cons.mp hnames
      have hkeepsRest : ∀ f ∈ fields, Keeps holds f :=
        fun f hf => hkeeps f (List.mem_cons_of_mem _ hf)
      have hnewRest : ∀ f ∈ fields, f.name ∉ seen :=
        fun f hf => hnew f (List.mem_cons_of_mem _ hf)
      cases items with
      | nil =>
          cases failure with
          | some _ => cases h
          | none =>
              rw [arrayFields] at h
              by_cases hdefaulted : field.presence = .defaulted
              · rw [if_pos hdefaulted] at h
                exact ih hkeepsRest hrest hnewRest hs h
              · rw [if_neg hdefaulted] at h
                cases h
      | cons item items =>
          rw [arrayFields] at h
          split at h
          · cases h
          · rename_i next hread
            have hnext : holds (field.name :: seen) next :=
              hkeeps field List.mem_cons_self _ _ _ _ _ (hnew field List.mem_cons_self) hs hread
            refine ih hkeepsRest hrest (fun f hf hmem => ?_) hnext h
            rcases List.mem_cons.mp hmem with heq | hmem
            · exact hfirst (List.mem_map.mpr ⟨f, hf, heq⟩)
            · exact hnewRest f hf hmem

/-- **What holds before any field is read and is kept by every field holds of a record.** -/
theorem exists_holds_of_record (hkeeps : ∀ f ∈ fields, Keeps holds f)
    (hnames : (fields.map (·.name)).Nodup) (hs : holds [] s)
    (h : record fields s levels d = .ok s') : ∃ seen, holds seen s' := by
  cases d with
  | array start items failure =>
      cases levels with
      | zero => cases h
      | succ levels => exact holds_of_arrayFields hkeeps hnames (by simp) hs h
  | object start values failure =>
      cases levels with
      | zero => cases h
      | succ levels =>
          obtain ⟨⟨seen, read⟩, hread, hrest⟩ := bind_eq_ok h
          obtain ⟨complete, hclosed, hcomplete⟩ := bind_eq_ok hrest
          obtain rfl := closed_eq_ok hclosed
          have heq : s' = complete := by
            split at hcomplete
            · cases hcomplete
              rfl
            · cases hcomplete
          rw [heq]
          exact ⟨seen, holds_of_objectFields hkeeps hs hread⟩
  | _ => cases levels <;> cases h

/-- What comes out of a step that is changed afterwards is a change of what the step gave. -/
theorem map_eq_ok {f : α → β} {read : Except ε α} {b : β} (h : f <$> read = .ok b) :
    ∃ a, read = .ok a ∧ b = f a := by
  cases read with
  | error e => cases h
  | ok a =>
      cases h
      exact ⟨a, rfl, rfl⟩

end Reader

end Json

/-! ## Paths -/

namespace Swagger

open Json Json.Reader

/-- The operations of every path stand in the order of verbs, each verb at most once. -/
def Document.InVerbOrder (doc : Document) : Prop :=
  ∀ p ∈ doc.paths, (p.2.operations.map Prod.fst).Sublist Verb.all

/-- Going through a list and keeping or dropping each element gives a part of the list in order. -/
theorem sublist_of_flatMap {α : Type} {f : α → List α} (h : ∀ a, (f a).Sublist [a])
    (as : List α) : (as.flatMap f).Sublist as := by
  induction as with
  | nil => exact .slnil
  | cons a as ih =>
      rw [List.flatMap_cons]
      exact (h a).append ih

theorem PathItem.inVerbOrder_sublist {p : PathItem} (h : (p.operations.map Prod.fst).Nodup) :
    (p.inVerbOrder.operations.map Prod.fst).Sublist Verb.all := by
  unfold inVerbOrder
  rw [List.map_flatMap]
  refine sublist_of_flatMap (fun v => ?_) Verb.all
  have hfilter : (p.operations.filter fun o => o.1 = v).map Prod.fst
      = (p.operations.map Prod.fst).filter fun w => w = v := by
    rw [List.filter_map]
    rfl
  have hcount : (p.operations.map Prod.fst).count v ≤ 1 := List.nodup_iff_count_le_one.mp h v
  rw [hfilter, List.filter_eq, ← List.replicate_one]
  exact (List.replicate_sublist_replicate v).mpr hcount

/-- The operations read so far are of different verbs, whose names were met. -/
def PathItem.Distinct (seen : List String) (p : PathItem) : Prop :=
  (p.operations.map Prod.fst).Nodup ∧ ∀ v ∈ p.operations.map Prod.fst, v.key ∈ seen

theorem PathItem.keeps_distinct {field : RecordField PathItem} (h : field ∈ pathItemFields) :
    Keeps Distinct field := by
  intro levels d seen p p' hnew hp hread
  rcases List.mem_cons.mp h with rfl | h
  · -- the parameters leave the operations alone
    obtain ⟨parameters, -, rfl⟩ := map_eq_ok hread
    exact ⟨hp.1, fun v hv => List.mem_cons_of_mem _ (hp.2 v hv)⟩
  · obtain ⟨verb, -, rfl⟩ := List.mem_map.mp h
    obtain ⟨operation, -, rfl⟩ := map_eq_ok hread
    cases operation with
    | none =>
        refine ⟨?_, fun v hv => List.mem_cons_of_mem _ (hp.2 v ?_)⟩
        · simpa using hp.1
        · simpa using hv
    | some operation =>
        have hverb : verb ∉ p.operations.map Prod.fst := fun hmem => hnew (hp.2 verb hmem)
        have hverbs : (p.operations ++ [(verb, operation)]).map Prod.fst
            = p.operations.map Prod.fst ++ [verb] := by
          rw [List.map_append, List.map_singleton]
        constructor
        · change ((p.operations ++ [(verb, operation)]).map Prod.fst).Nodup
          rw [hverbs, List.nodup_append]
          refine ⟨hp.1, List.nodup_singleton verb, fun v hv w hw heq => hverb ?_⟩
          rwa [← List.mem_singleton.mp hw, ← heq]
        · intro v hv
          change v ∈ (p.operations ++ [(verb, operation)]).map Prod.fst at hv
          rw [hverbs] at hv
          rcases List.mem_append.mp hv with hv | hv
          · exact List.mem_cons_of_mem _ (hp.2 v hv)
          · rw [List.mem_singleton.mp hv]
            exact List.mem_cons_self

theorem sublist_of_readPathItem {levels : Nat} {d : Draft} {p : PathItem}
    (h : readPathItem levels d = .ok p) : (p.operations.map Prod.fst).Sublist Verb.all := by
  obtain ⟨read, hread, rfl⟩ := map_eq_ok h
  have hnames : (pathItemFields.map (·.name)).Nodup := by decide +kernel
  have hstart : PathItem.Distinct [] default := ⟨List.nodup_nil, fun v hv => nomatch hv⟩
  obtain ⟨seen, hdistinct, -⟩ :=
    exists_holds_of_record (fun _ hf => PathItem.keeps_distinct hf) hnames hstart hread
  exact PathItem.inVerbOrder_sublist hdistinct

/-- **Every document that is read lists its operations in the order of verbs.** -/
theorem Document.inVerbOrder_of_ofText {text : String} {doc : Document}
    (h : Document.ofText text = .ok doc) : doc.InVerbOrder := by
  have hkeeps : ∀ field ∈ documentFields, Keeps (fun _ doc => doc.InVerbOrder) field := by
    intro field hfield levels d seen doc doc' _ hdoc hread
    simp only [documentFields, List.mem_cons, List.not_mem_nil, or_false] at hfield
    rcases hfield with rfl | rfl | rfl | rfl | rfl
    · obtain ⟨_, -, rfl⟩ := map_eq_ok hread
      exact hdoc
    · obtain ⟨_, -, rfl⟩ := map_eq_ok hread
      exact hdoc
    · obtain ⟨_, -, rfl⟩ := map_eq_ok hread
      exact hdoc
    · obtain ⟨paths, hpaths, rfl⟩ := map_eq_ok hread
      intro p hp
      obtain ⟨_, _, hpath⟩ := exists_of_mem_pairs hpaths hp
      exact sublist_of_readPathItem hpath
    · obtain ⟨_, -, rfl⟩ := map_eq_ok hread
      exact hdoc
  have hnames : (documentFields.map (·.name)).Nodup := by decide +kernel
  have hstart : (default : Document).InVerbOrder := by
    intro p hp
    cases hp
  obtain ⟨-, hdoc⟩ := exists_holds_of_record hkeeps hnames hstart (of_whole h)
  exact hdoc

end Swagger

end ApiModels
