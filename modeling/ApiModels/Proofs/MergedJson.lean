import ApiModels.Json.Value
import ApiModels.Proofs.Table
import Mathlib.Data.List.Nodup

/-!
# Merged values

A value is taken apart by key paths: names of fields, one inside of the other. Merging a patch into
a target goes down both along the same names as long as both hold objects. Where they do, the fields
of the target come first and keep their order, and the new ones of the patch follow in theirs.
Wherever else the patch has a value, it replaces what was there, and null is a value like any other.
What the patch does not mention stays as it was.

That objects hold each name once is no accident of a type here: it is said by `NamesOnce`, merging
keeps it, and whatever is read has it. That they keep the order in which names were set is assumed
of the maps that hold them, as for all JSON values here. What is said of values at paths does not
rest on it, what is said of the order of names does.
-/

namespace ApiModels.Json

/-- The value at a key path: the fields to go through, the outermost first. -/
def at? : List String → Json → Option Json
  | [], v => some v
  | name :: path, v => (v.field? name).bind (at? path)

/-- Every object in a value holds each name once. -/
inductive NamesOnce : Json → Prop
  | null : NamesOnce .null
  | bool (b : Bool) : NamesOnce (.bool b)
  | number (n : Number) : NamesOnce (.number n)
  | string (s : String) : NamesOnce (.string s)
  | array {items : List Json} : (∀ v ∈ items, NamesOnce v) → NamesOnce (.array items)
  | object {fields : Fields} : (fields.map Prod.fst).Nodup → (∀ f ∈ fields, NamesOnce f.2) →
      NamesOnce (.object fields)

variable {name n : String} {value v w t p : Json} {fields target patch : Fields}
  {path rest : List String}

/-! ## Setting a field -/

theorem lookup_setField :
    (setField name value fields).lookup n = if n = name then some value else fields.lookup n := by
  induction fields with
  | nil => rw [setField, Table.lookup_cons_eq]
  | cons f fields ih =>
      obtain ⟨n', v⟩ := f
      rw [setField]
      by_cases hname : n' = name
      · subst hname
        rw [if_pos rfl, Table.lookup_cons_eq, Table.lookup_cons_eq]
        by_cases hn : n = n'
        · rw [if_pos hn, if_pos hn]
        · rw [if_neg hn, if_neg hn, if_neg hn]
      · rw [if_neg hname, Table.lookup_cons_eq, Table.lookup_cons_eq, ih]
        by_cases hn : n = n'
        · subst hn
          rw [if_pos rfl, if_neg hname, if_pos rfl]
        · rw [if_neg hn, if_neg hn]

/-- A name that is there keeps its place, a new one comes last. -/
theorem map_fst_setField : (setField name value fields).map Prod.fst
    = if name ∈ fields.map Prod.fst then fields.map Prod.fst
      else fields.map Prod.fst ++ [name] := by
  induction fields with
  | nil => rfl
  | cons f fields ih =>
      obtain ⟨n, v⟩ := f
      rw [setField]
      by_cases hname : n = name
      · subst hname
        rw [if_pos rfl, if_pos (by simp)]
        rfl
      · rw [if_neg hname, List.map_cons, ih, List.map_cons]
        by_cases hmem : name ∈ fields.map Prod.fst
        · rw [if_pos hmem, if_pos (List.mem_cons_of_mem _ hmem)]
        · have hnot : name ∉ n :: fields.map Prod.fst := by
            rw [List.mem_cons, not_or]
            exact ⟨fun h => hname h.symm, hmem⟩
          rw [if_neg hmem, if_neg hnot]
          rfl

/-- A field set to what it holds is left alone. -/
theorem setField_of_lookup (h : fields.lookup name = some value) :
    setField name value fields = fields := by
  induction fields with
  | nil => cases h
  | cons f fields ih =>
      obtain ⟨n, v⟩ := f
      rw [Table.lookup_cons_eq] at h
      rw [setField]
      by_cases hname : n = name
      · subst hname
        rw [if_pos rfl] at h
        cases h
        exact if_pos rfl
      · rw [if_neg fun heq => hname heq.symm] at h
        rw [if_neg hname, ih h]

theorem mem_setField {f : String × Json} (h : f ∈ setField name value fields) :
    f = (name, value) ∨ f ∈ fields := by
  induction fields with
  | nil => exact .inl (List.mem_singleton.mp h)
  | cons g fields ih =>
      obtain ⟨n, v⟩ := g
      rw [setField] at h
      by_cases hname : n = name
      · subst hname
        rw [if_pos rfl] at h
        rcases List.mem_cons.mp h with rfl | h
        · exact .inl rfl
        · exact .inr (List.mem_cons_of_mem _ h)
      · rw [if_neg hname] at h
        rcases List.mem_cons.mp h with rfl | h
        · exact .inr List.mem_cons_self
        · exact (ih h).imp id (List.mem_cons_of_mem _)

theorem nodup_setField (h : (fields.map Prod.fst).Nodup) :
    ((setField name value fields).map Prod.fst).Nodup := by
  rw [map_fst_setField]
  by_cases hmem : name ∈ fields.map Prod.fst
  · rwa [if_pos hmem]
  · rw [if_neg hmem, List.nodup_append]
    refine ⟨h, List.nodup_singleton name, fun a ha b hb heq => hmem ?_⟩
    rwa [← List.mem_singleton.mp hb, ← heq]

/-- A value with what a patch says of it: the merge of the old one, if there is one. -/
def patched (old : Option Json) (value : Json) : Json :=
  match old with
  | some old => merge old value
  | none => value

theorem mergeFields_cons : mergeFields target ((name, value) :: patch)
    = mergeFields (setField name (patched (target.lookup name) value) target) patch := by
  rw [mergeFields]
  rfl

theorem merge_object : merge (.object target) (.object patch)
    = .object (mergeFields target patch) := by
  rw [merge]

/-- Where not both are objects, the patch is what is left. -/
theorem merge_of_not (h : ∀ target patch, ¬ (t = .object target ∧ p = .object patch)) :
    merge t p = p := by
  cases t with
  | object target =>
      cases p with
      | object patch => exact absurd ⟨rfl, rfl⟩ (h target patch)
      | _ => rw [merge]; simp
  | _ => cases p <;> rw [merge] <;> simp

theorem merge_leaf (h : ∀ patch, p ≠ .object patch) (t : Json) : merge t p = p :=
  merge_of_not fun _ patch hp => h patch hp.2

/-- **The names of merged fields**: those of the target, then the new ones of the patch. -/
theorem map_fst_mergeFields (h : (patch.map Prod.fst).Nodup) :
    (mergeFields target patch).map Prod.fst
      = target.map Prod.fst ++ (patch.map Prod.fst).filter (· ∉ target.map Prod.fst) := by
  induction patch generalizing target with
  | nil => simp [mergeFields]
  | cons f patch ih =>
      obtain ⟨name, value⟩ := f
      obtain ⟨hnew, hrest⟩ := List.nodup_cons.mp h
      rw [mergeFields_cons, ih hrest, map_fst_setField, List.map_cons]
      by_cases hmem : name ∈ target.map Prod.fst
      · rw [if_pos hmem, List.filter_cons_of_neg (by simpa using hmem)]
      · rw [if_neg hmem, List.filter_cons_of_pos (by simpa using hmem), List.append_assoc,
          List.singleton_append]
        congr 2
        refine List.filter_congr fun n hn => ?_
        have hne : n ≠ name := fun heq => hnew (heq ▸ hn)
        simp [hne]

/-- **The fields of the patch win, the others stay.** -/
theorem lookup_mergeFields (h : (patch.map Prod.fst).Nodup) :
    (mergeFields target patch).lookup n
      = ((patch.lookup n).map (patched (target.lookup n))).or (target.lookup n) := by
  induction patch generalizing target with
  | nil => rw [mergeFields]; rfl
  | cons f patch ih =>
      obtain ⟨name, value⟩ := f
      obtain ⟨hnew, hrest⟩ := List.nodup_cons.mp h
      rw [mergeFields_cons, ih hrest, lookup_setField, Table.lookup_cons_eq]
      by_cases hn : n = name
      · subst hn
        rw [Table.lookup_eq_none hnew, if_pos rfl, if_pos rfl]
        rfl
      · rw [if_neg hn, if_neg hn]

/-- Fields that already are what the patch makes of them stay as they are. -/
theorem mergeFields_of_absorbed
    (h : ∀ f ∈ patch, ∃ w, target.lookup f.1 = some w ∧ merge w f.2 = w) :
    mergeFields target patch = target := by
  induction patch with
  | nil => rw [mergeFields]
  | cons f patch ih =>
      obtain ⟨w, hlookup, hmerge⟩ := h f List.mem_cons_self
      have hset : setField f.1 (patched (target.lookup f.1) f.2) target = target := by
        rw [hlookup]
        exact setField_of_lookup (hlookup.trans (congrArg some hmerge.symm))
      rw [mergeFields_cons, hset]
      exact ih fun g hg => h g (List.mem_cons_of_mem _ hg)

/-! ## Merging again -/

theorem merge_merge_of_leaf (h : ∀ patch, p ≠ .object patch) (t : Json) :
    merge (merge t p) p = merge t p := by
  rw [merge_leaf h, merge_leaf h]

/-- **Merging a patch again changes nothing**, by induction on the patch. -/
theorem merge_merge (hp : p.NamesOnce) (t : Json) : merge (merge t p) p = merge t p := by
  induction hp generalizing t with
  | null => exact merge_merge_of_leaf (by simp) t
  | bool b => exact merge_merge_of_leaf (by simp) t
  | number n => exact merge_merge_of_leaf (by simp) t
  | string s => exact merge_merge_of_leaf (by simp) t
  | array _ _ => exact merge_merge_of_leaf (by simp) t
  | @object patch hnodup _ ih =>
      -- a field has the patch in it already, whatever was there before
      have hagain : ∀ f ∈ patch, ∀ old, merge (patched old f.2) f.2 = patched old f.2 := by
        intro f hf old
        cases old with
        | some old => exact ih f hf old
        | none =>
            have hnull : merge .null f.2 = f.2 := merge_of_not fun _ _ h => nomatch h.1
            have hself := ih f hf .null
            rwa [hnull] at hself
      have hlookup : ∀ f ∈ patch, patch.lookup f.1 = some f.2 :=
        fun f hf => Table.lookup_of_mem hnodup hf
      by_cases ht : ∃ target, t = .object target
      · obtain ⟨target, rfl⟩ := ht
        rw [merge_object, merge_object, mergeFields_of_absorbed fun f hf => ?_]
        refine ⟨patched (target.lookup f.1) f.2, ?_, hagain f hf _⟩
        rw [lookup_mergeFields hnodup, hlookup f hf]
        rfl
      · have hreplaced : merge t (.object patch) = .object patch :=
          merge_of_not fun target _ h => ht ⟨target, h.1⟩
        rw [hreplaced, merge_object, mergeFields_of_absorbed fun f hf => ?_]
        exact ⟨f.2, hlookup f hf, hagain f hf none⟩

/-! ## Key paths -/

theorem at?_cons : at? (name :: path) v = (v.field? name).bind (at? path) := rfl

/-- A path that goes on goes through an object. -/
theorem at?_cons_eq_some : at? (name :: path) v = some w
    ↔ ∃ fields inner, v = .object fields ∧ fields.lookup name = some inner
      ∧ at? path inner = some w := by
  constructor
  · intro h
    obtain ⟨inner, hfield, hinner⟩ := Option.bind_eq_some_iff.mp h
    cases v with
    | object fields => exact ⟨fields, inner, rfl, hfield, hinner⟩
    | _ => cases hfield
  · rintro ⟨fields, inner, rfl, hfield, hinner⟩
    exact Option.bind_eq_some_iff.mpr ⟨inner, hfield, hinner⟩

theorem NamesOnce.nodup (h : (Json.object fields).NamesOnce) : (fields.map Prod.fst).Nodup := by
  cases h with
  | object hnodup _ => exact hnodup

theorem NamesOnce.of_lookup (h : (Json.object fields).NamesOnce) (hv : fields.lookup n = some v) :
    v.NamesOnce := by
  cases h with
  | object _ hfields => exact hfields (n, v) (Table.mem_of_lookup hv)

/-- What merged objects hold under a name. -/
theorem field?_merge_object (hp : (Json.object patch).NamesOnce) :
    (merge (.object target) (.object patch)).field? name
      = ((patch.lookup name).map (patched (target.lookup name))).or (target.lookup name) := by
  rw [merge_object]
  exact lookup_mergeFields hp.nodup

/-- **Where both hold objects, fields are put together.** -/
theorem at?_merge_of_objects (hp : p.NamesOnce) (ht : at? path t = some (.object target))
    (hpatch : at? path p = some (.object patch)) :
    ∃ fields, at? path (merge t p) = some (.object fields)
      ∧ fields.map Prod.fst
        = target.map Prod.fst ++ (patch.map Prod.fst).filter (· ∉ target.map Prod.fst) := by
  induction path generalizing t p with
  | nil =>
      cases ht
      cases hpatch
      exact ⟨_, congrArg some merge_object, map_fst_mergeFields hp.nodup⟩
  | cons name path ih =>
      obtain ⟨_, t', rfl, ht', ht⟩ := at?_cons_eq_some.mp ht
      obtain ⟨_, p', rfl, hp', hpatch⟩ := at?_cons_eq_some.mp hpatch
      rw [at?_cons, field?_merge_object hp, hp', ht']
      exact ih (hp.of_lookup hp') ht hpatch

/-- **Wherever else the patch has a value, it is the value that is left.** -/
theorem at?_merge_of_patch (hp : p.NamesOnce) (hv : at? path p = some v)
    (hnot : ∀ target patch, ¬ (at? path t = some (.object target) ∧ v = .object patch)) :
    at? path (merge t p) = some v := by
  induction path generalizing t p with
  | nil =>
      cases hv
      refine congrArg some (merge_of_not fun target patch h => hnot target patch ⟨?_, h.2⟩)
      exact congrArg some h.1
  | cons name path ih =>
      obtain ⟨patch, p', rfl, hp', hv'⟩ := at?_cons_eq_some.mp hv
      by_cases ht : ∃ target, t = .object target
      · obtain ⟨target, rfl⟩ := ht
        rw [at?_cons, field?_merge_object hp, hp']
        cases ht' : target.lookup name with
        | none => exact hv'
        | some t' =>
            refine ih (hp.of_lookup hp') hv' fun target' patch' h => hnot target' patch' ⟨?_, h.2⟩
            exact at?_cons_eq_some.mpr ⟨target, t', rfl, ht', h.1⟩
      · rwa [merge_of_not fun target _ h => ht ⟨target, h.1⟩]

/-- **What the patch does not mention stays.** The path leaves the patch at an object that has no
field of the next name. -/
theorem at?_merge_of_target (hp : p.NamesOnce) (hpatch : at? path p = some (.object patch))
    (hnone : patch.lookup name = none) (hv : at? (path ++ name :: rest) t = some v) :
    at? (path ++ name :: rest) (merge t p) = some v := by
  induction path generalizing t p with
  | nil =>
      cases hpatch
      obtain ⟨target, t', rfl, ht', hv'⟩ := at?_cons_eq_some.mp hv
      rw [List.nil_append, at?_cons, field?_merge_object hp, hnone, ht']
      exact hv'
  | cons n path ih =>
      obtain ⟨target, t', rfl, ht', hv'⟩ := at?_cons_eq_some.mp hv
      obtain ⟨_, p', rfl, hp', hpatch'⟩ := at?_cons_eq_some.mp hpatch
      rw [List.cons_append, at?_cons, field?_merge_object hp, hp', ht']
      exact ih (hp.of_lookup hp') hpatch' hv'

/-! ## Names -/

theorem namesOnce_merge_leaf (hp : p.NamesOnce) (h : ∀ patch, p ≠ .object patch) (t : Json) :
    (merge t p).NamesOnce := by
  rwa [merge_leaf h]

/-- **A merge holds each name once** where both values do. -/
theorem NamesOnce.merge (ht : t.NamesOnce) (hp : p.NamesOnce) : (merge t p).NamesOnce := by
  induction hp generalizing t with
  | null => exact namesOnce_merge_leaf .null (by simp) t
  | bool b => exact namesOnce_merge_leaf (.bool b) (by simp) t
  | number n => exact namesOnce_merge_leaf (.number n) (by simp) t
  | string s => exact namesOnce_merge_leaf (.string s) (by simp) t
  | array hitems _ => exact namesOnce_merge_leaf (.array hitems) (by simp) t
  | @object patch hnodup hfields ih =>
      by_cases htarget : ∃ target, t = .object target
      · obtain ⟨target, rfl⟩ := htarget
        have hnames : ((mergeFields target patch).map Prod.fst).Nodup := by
          rw [map_fst_mergeFields hnodup]
          refine List.nodup_append.mpr ⟨ht.nodup, hnodup.filter _, fun n hn n' hn' heq => ?_⟩
          exact of_decide_eq_true (List.mem_filter.mp hn').2 (heq ▸ hn)
        rw [merge_object]
        refine .object hnames fun f hf => ?_
        -- a field is one that the patch does not mention, or new, or merged
        have hlookup := Table.lookup_of_mem hnames hf
        rw [lookup_mergeFields hnodup] at hlookup
        cases hpatch : patch.lookup f.1 with
        | none =>
            rw [hpatch] at hlookup
            exact ht.of_lookup hlookup
        | some value =>
            have hmem := Table.mem_of_lookup hpatch
            rw [hpatch] at hlookup
            have hvalue : patched (target.lookup f.1) value = f.2 := Option.some.inj hlookup
            rw [← hvalue]
            cases hold : target.lookup f.1 with
            | none => exact hfields _ hmem
            | some old => exact ih _ hmem (ht.of_lookup hold)
      · rw [merge_of_not fun target _ h => htarget ⟨target, h.1⟩]
        exact .object hnodup hfields

/--
**What a merge holds.**

Merging a patch again changes nothing. At every key path of the patch, the merge holds the value of
the patch. Only where both values hold objects, along the path and at its end, it holds an object: it
has the names of the target in their order, then the new names of the patch in theirs, as objects
keep insertion order. A path of the target that leaves the patch at an object, by a name that the
object lacks, still leads to the value it led to. Null in a patch is what is left as well, and takes
nothing away.
-/
theorem merge_at (hp : p.NamesOnce) (t : Json) :
    merge (merge t p) p = merge t p
      ∧ (∀ path v, at? path p = some v →
          (∀ target patch, at? path t = some (.object target) → v = .object patch →
              ∃ fields, at? path (merge t p) = some (.object fields)
                ∧ fields.map Prod.fst = target.map Prod.fst
                    ++ (patch.map Prod.fst).filter (· ∉ target.map Prod.fst))
            ∧ ((∀ target patch, ¬ (at? path t = some (.object target) ∧ v = .object patch)) →
              at? path (merge t p) = some v))
      ∧ (∀ path name rest patch v, at? path p = some (.object patch) →
          name ∉ patch.map Prod.fst → at? (path ++ name :: rest) t = some v →
          at? (path ++ name :: rest) (merge t p) = some v)
      ∧ ∀ path, at? path p = some .null → at? path (merge t p) = some .null := by
  refine ⟨merge_merge hp t, fun path v hv => ⟨fun target patch ht hpatch => ?_, fun hnot => ?_⟩,
    fun path name rest patch v hpatch hname hv => ?_, fun path hnull => ?_⟩
  · subst hpatch
    exact at?_merge_of_objects hp ht hv
  · exact at?_merge_of_patch hp hv hnot
  · exact at?_merge_of_target hp hpatch (Table.lookup_eq_none hname) hv
  · exact at?_merge_of_patch hp hnull fun _ _ h => nomatch h.2

/-- A widget at hand. -/
def widgetAtHand : Json :=
  .object [("metadata", .object [("name", .string "web"), ("labels", .object [])]),
    ("size", .number (.int 1))]

/-- What a server answers about it. -/
def widgetAnswer : Json :=
  .object [("metadata", .object [("uid", .string "u1"), ("labels", .null)]),
    ("tags", .array [.string "x"])]

/-- The name stays, the labels become null, and merging the answer once more changes nothing. -/
theorem merge_at_widget :
    widgetAnswer.NamesOnce
      ∧ merge (merge widgetAtHand widgetAnswer) widgetAnswer = merge widgetAtHand widgetAnswer
      ∧ at? ["metadata", "name"] (merge widgetAtHand widgetAnswer) = some (.string "web")
      ∧ at? ["metadata", "labels"] (merge widgetAtHand widgetAnswer) = some .null
      ∧ at? ["tags"] (merge widgetAtHand widgetAnswer) = some (.array [.string "x"])
      ∧ ∃ fields, at? ["metadata"] (merge widgetAtHand widgetAnswer) = some (.object fields)
        ∧ fields.map Prod.fst = ["name", "labels", "uid"] := by
  have hanswer : widgetAnswer.NamesOnce := by
    refine .object (by decide) fun f hf => ?_
    simp only [List.mem_cons, List.not_mem_nil, or_false] at hf
    rcases hf with rfl | rfl
    · refine .object (by decide) fun f hf => ?_
      simp only [List.mem_cons, List.not_mem_nil, or_false] at hf
      rcases hf with rfl | rfl
      · exact .string _
      · exact .null
    · exact .array fun v hv => List.mem_singleton.mp hv ▸ .string "x"
  obtain ⟨hagain, hpatch, htarget, hnull⟩ := merge_at hanswer widgetAtHand
  refine ⟨hanswer, hagain, ?_, hnull _ rfl, ?_, ?_⟩
  · exact htarget ["metadata"] "name" [] _ _ rfl (by decide) rfl
  · exact (hpatch ["tags"] _ rfl).2 fun _ _ h => nomatch h.2
  · exact (hpatch ["metadata"] _ rfl).1 _ _ rfl rfl

end ApiModels.Json
