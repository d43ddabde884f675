import ApiModels.Proofs.PercentDecoding
import ApiModels.Proofs.Placeholders

/-!
# Filling in templates

A call fills in its parameters one after the other, each in the text that the others have left.
The outcome is that of filling them in at once: an encoded value holds no brace, so no value is
looked into and none makes a parameter that was not there. Nor does it hold a separator, so what is
sent has the segments of the template, and one that was a parameter alone is read back as the value.
-/

namespace ApiModels.Call

open Text

/-- A part of a template: a character other than a brace, or a parameter between braces. -/
inductive TemplatePart where
  | plain (c : Char) (h : c ≠ '\x7b' ∧ c ≠ '\x7d')
  | parameter (name : String) (h : IsParameter name)

/-- A template whose braces are those of its parameters. -/
abbrev Template := List TemplatePart

/-- What a part is when some parameters are filled in at once. -/
def TemplatePart.chars (values : List (String × String)) : TemplatePart → List Char
  | plain c _ => [c]
  | parameter name _ => ((values.lookup name).elim (placeholder name) encodeSegment).toList

theorem TemplatePart.chars_parameter (values : List (String × String)) (name : String)
    (h : IsParameter name) : (parameter name h).chars values
      = ((values.lookup name).elim (placeholder name) encodeSegment).toList := rfl

/-- Whether a part separates segments. A slash between braces belongs to a name. -/
def TemplatePart.isSlash : TemplatePart → Bool
  | plain c _ => c = '/'
  | parameter _ _ => false

namespace Template

/-- The text of a template with some parameters filled in at once. -/
def filled (values : List (String × String)) (t : Template) : String :=
  String.ofList (t.flatMap (·.chars values))

/-- The text of a template as it is. -/
def text (t : Template) : String := t.filled []

/-- The names of the parameters. -/
def parameters (t : Template) : List String :=
  t.filterMap fun
    | .plain _ _ => none
    | .parameter name _ => some name

/-- What stands between the slashes. -/
def segments (t : Template) : List Template := t.splitOnP TemplatePart.isSlash

end Template

/-! ## Texts of templates -/

/-- Whether a character opens or closes a parameter. -/
def isBrace (c : Char) : Bool := c = '\x7b' || c = '\x7d'

namespace Template

theorem toList_text (t : Template) : t.text.toList = t.flatMap (·.chars []) := String.toList_ofList

theorem filter_isBrace_of_isParameter {x : String} (h : IsParameter x) :
    x.toList.filter isBrace = [] := by
  refine List.filter_eq_nil_iff.mpr fun c hc hbrace => ?_
  rcases Bool.or_eq_true_iff.mp hbrace with hopen | hclose
  · exact h.1 (of_decide_eq_true hopen ▸ hc)
  · exact h.2 (of_decide_eq_true hclose ▸ hc)

theorem exists_of_plain {text : List Char} (h : ∀ c ∈ text, ¬ isBrace c = true) :
    ∃ t : Template, t.flatMap (·.chars []) = text := by
  induction text with
  | nil => exact ⟨[], rfl⟩
  | cons c text ih =>
    obtain ⟨t, rfl⟩ := ih fun d hd => h d (List.mem_cons_of_mem c hd)
    have hc : c ≠ '\x7b' ∧ c ≠ '\x7d' := by simpa [isBrace] using h c List.mem_cons_self
    exact ⟨.plain c hc :: t, rfl⟩

/-- Braces that open and close in turn. -/
def pairedBraces (n : Nat) : List Char := (List.replicate n ['\x7b', '\x7d']).flatten

theorem exists_filter_isBrace (t : Template) :
    ∃ n, t.text.toList.filter isBrace = pairedBraces n := by
  rw [toList_text]
  induction t with
  | nil => exact ⟨0, rfl⟩
  | cons part t ih =>
    obtain ⟨n, hn⟩ := ih
    rw [List.flatMap_cons, List.filter_append, hn]
    cases part with
    | plain c h => exact ⟨n, by simp [TemplatePart.chars, isBrace, h]⟩
    | parameter name h =>
      refine ⟨n + 1, ?_⟩
      rw [TemplatePart.chars_parameter, List.lookup_nil, Option.elim_none, placeholder_toList,
        List.filter_cons_of_pos rfl, List.filter_append, filter_isBrace_of_isParameter h]
      rfl

theorem exists_of_filter_isBrace {n : Nat} {text : List Char}
    (h : text.filter isBrace = pairedBraces n) :
    ∃ t : Template, t.flatMap (·.chars []) = text := by
  induction n generalizing text with
  | zero => exact exists_of_plain (List.filter_eq_nil_iff.mp h)
  | succ n ih =>
    -- the first two braces are those of a parameter
    obtain ⟨first, rest, rfl, hfirst, -, hrest⟩ := List.filter_eq_cons_iff.mp h
    obtain ⟨name, after, rfl, hname, -, hafter⟩ := List.filter_eq_cons_iff.mp hrest
    obtain ⟨plain, rfl⟩ := exists_of_plain hfirst
    obtain ⟨t, rfl⟩ := ih hafter
    have hparameter : IsParameter (String.ofList name) := by
      unfold IsParameter
      rw [String.toList_ofList]
      exact ⟨fun h => hname _ h rfl, fun h => hname _ h rfl⟩
    refine ⟨plain ++ .parameter (String.ofList name) hparameter :: t, ?_⟩
    rw [List.flatMap_append, List.flatMap_cons, TemplatePart.chars_parameter, List.lookup_nil,
      Option.elim_none, placeholder_toList, String.toList_ofList, List.cons_append,
      List.append_assoc]
    rfl

/-- The texts of templates are those in which the braces open and close in turn. -/
theorem exists_text_iff (s : String) : (∃ t : Template, t.text = s)
    ↔ ∃ n, s.toList.filter isBrace = pairedBraces n := by
  constructor
  · rintro ⟨t, rfl⟩
    exact exists_filter_isBrace t
  · rintro ⟨n, hn⟩
    obtain ⟨t, ht⟩ := exists_of_filter_isBrace hn
    exact ⟨t, String.toList_inj.mp ((toList_text t).trans ht)⟩

end Template

/-- Fills in a parameter with its value. -/
def fillIn (c : Call) (v : String × String) : Call := c.pathParam v.1 v.2

/-! ## One after the other -/

section

variable {values order : List (String × String)} {p value : String}

/-- Filling in one more parameter goes part by part. What has been filled in is not looked into. -/
theorem replaced_chars (hp : IsParameter p) (hnew : values.lookup p = none) (part : TemplatePart)
    (rest : List Char) :
    replaced (placeholder p).toList (encodeSegment value).toList (part.chars values ++ rest)
      = part.chars (values ++ [(p, value)])
        ++ replaced (placeholder p).toList (encodeSegment value).toList rest := by
  rw [placeholder_toList]
  cases part with
  | plain c h =>
    have hopen : '\x7b' ∉ [c] := by simpa using h.1.symm
    exact replaced_skip hopen rest
  | parameter name h =>
    rw [TemplatePart.chars_parameter, TemplatePart.chars_parameter, List.lookup_append]
    cases hname : values.lookup name with
    | some given =>
      -- an encoded value has no brace, so it is passed over
      exact replaced_skip (notMem_encodeSegment (by decide) given) rest
    | none =>
      -- of the parameters that are left, only the one of this name begins with what is looked for
      by_cases heq : name = p
      · subst heq
        have hvalue : [(name, value)].lookup name = some value := List.lookup_cons_self
        rw [hvalue, Option.none_or]
        refine replaced_start (List.cons_ne_nil _ _) ?_
        rw [← placeholder_toList]
        exact afterStart?_append_self _ rest
      · have hother : [(p, value)].lookup name = none := by
          rw [Table.lookup_cons_eq, if_neg heq]
          rfl
        have hopen : '\x7b' ∉ name.toList ++ ['\x7d'] := by simp [h.1]
        rw [hother, Option.none_or]
        show replaced _ _ ((placeholder name).toList ++ rest) = (placeholder name).toList ++ _
        rw [placeholder_toList, List.cons_append,
          replaced_cons (List.cons_ne_nil _ _) (afterStart?_of_ne h hp heq rest),
          replaced_skip hopen, List.cons_append]

theorem replace_filled (hp : IsParameter p) (hnew : values.lookup p = none) (t : Template) :
    replace (placeholder p) (encodeSegment value) (t.filled values)
      = t.filled (values ++ [(p, value)]) := by
  have hparts : ∀ parts : Template,
      replaced (placeholder p).toList (encodeSegment value).toList (parts.flatMap (·.chars values))
        = parts.flatMap (·.chars (values ++ [(p, value)])) := by
    intro parts
    induction parts with
    | nil => rfl
    | cons part parts ih =>
      rw [List.flatMap_cons, List.flatMap_cons, replaced_chars hp hnew, ih]
  unfold Template.filled
  rw [replace_eq, String.toList_ofList, hparts]

/-- **Parameters filled in one after the other are filled in as if at once.** -/
theorem path_foldl_fillIn {t : Template} (hnames : ∀ v ∈ order, IsParameter v.1)
    (hnodup : ((values ++ order).map Prod.fst).Nodup) {c : Call} (hc : c.path = t.filled values) :
    (order.foldl fillIn c).path = t.filled (values ++ order) := by
  induction order generalizing values c with
  | nil => rw [List.append_nil, List.foldl_nil, hc]
  | cons v order ih =>
    have hnew : values.lookup v.1 = none := by
      rw [List.map_append, List.map_cons] at hnodup
      refine Table.lookup_eq_none fun hmem => ?_
      exact List.disjoint_of_nodup_append hnodup hmem List.mem_cons_self
    have hstep : (fillIn c v).path = t.filled (values ++ [v]) := by
      show replace (placeholder v.1) (encodeSegment v.2) c.path = _
      rw [hc]
      exact replace_filled (hnames v List.mem_cons_self) hnew t
    have hassoc : values ++ v :: order = values ++ [v] ++ order := by simp
    rw [hassoc] at hnodup ⊢
    exact ih (fun w hw => hnames w (List.mem_cons_of_mem v hw)) hnodup hstep

/-- The order of the values does not matter. -/
theorem filled_perm (hnodup : (values.map Prod.fst).Nodup) (h : order.Perm values) (t : Template) :
    t.filled order = t.filled values := by
  have hlookup := Table.lookup_perm hnodup h.symm
  have hchars (part : TemplatePart) : part.chars order = part.chars values := by
    cases part with
    | plain c h => rfl
    | parameter name h => rw [TemplatePart.chars_parameter, TemplatePart.chars_parameter, hlookup]
  unfold Template.filled
  rw [funext hchars]

end

/-! ## Segments -/

namespace Template

variable {t : Template} {values : List (String × String)}

theorem chars_of_isSlash {part : TemplatePart} (h : part.isSlash) : part.chars values = ['/'] := by
  cases part with
  | plain c hc => exact congrArg (fun c => [c]) (of_decide_eq_true h)
  | parameter name hname => cases h

theorem intercalate_segments (t : Template) :
    ['/'].intercalate (t.segments.map (·.flatMap (·.chars values)))
      = t.flatMap (·.chars values) := by
  induction t with
  | nil => rfl
  | cons part t ih =>
    obtain ⟨s, rest, hsegments⟩ :=
      List.exists_cons_of_ne_nil (List.splitOnP_ne_nil TemplatePart.isSlash t)
    unfold segments at ih ⊢
    rw [List.splitOnP_cons_eq_if_modifyHead, List.flatMap_cons, ← ih, hsegments]
    split
    · rename_i hslash
      rw [chars_of_isSlash hslash]
      exact List.intercalate_cons_cons
    · cases rest with
      | nil => simp
      | cons next rest => simp [List.intercalate_cons_cons]

/-- Filled in, a template is its segments, filled in one by one. -/
theorem filled_eq_intercalate (t : Template) :
    t.filled values = "/".intercalate (t.segments.map (·.filled values)) := by
  rw [← String.toList_inj, String.toList_intercalate, List.map_map]
  unfold filled
  rw [String.toList_ofList, ← intercalate_segments]
  simp only [Function.comp_def, String.toList_ofList]
  rfl

theorem of_mem_segments {segment : Template} (h : segment ∈ t.segments) {part : TemplatePart}
    (hpart : part ∈ segment) : part ∈ t ∧ part.isSlash = false := by
  induction t generalizing segment with
  | nil =>
    cases List.mem_singleton.mp h
    cases hpart
  | cons first t ih =>
    obtain ⟨s, rest, hsegments⟩ :=
      List.exists_cons_of_ne_nil (List.splitOnP_ne_nil TemplatePart.isSlash t)
    unfold segments at h ih
    rw [List.splitOnP_cons_eq_if_modifyHead, hsegments] at h
    rw [hsegments] at ih
    split at h
    · rcases List.mem_cons.mp h with rfl | h
      · cases hpart
      · exact (ih h hpart).imp_left (List.mem_cons_of_mem first)
    · rename_i hslash
      rcases List.mem_cons.mp h with rfl | h
      · rcases List.mem_cons.mp hpart with rfl | hpart
        · exact ⟨List.mem_cons_self, by simpa using hslash⟩
        · exact (ih List.mem_cons_self hpart).imp_left (List.mem_cons_of_mem first)
      · exact (ih (List.mem_cons_of_mem s h) hpart).imp_left (List.mem_cons_of_mem first)

/-- Nothing in a segment is a separator, unless it is in a name that is left. -/
theorem slash_notMem_filled {segment : Template} (h : segment ∈ t.segments)
    (hleft : ∀ x ∈ t.parameters, values.lookup x = none → '/' ∉ x.toList) :
    '/' ∉ (segment.filled values).toList := by
  unfold filled
  rw [String.toList_ofList]
  intro hmem
  obtain ⟨part, hpart, hmem⟩ := List.mem_flatMap.mp hmem
  obtain ⟨hpart, hslash⟩ := of_mem_segments h hpart
  cases part with
  | plain c hc => exact of_decide_eq_false hslash (List.mem_singleton.mp hmem).symm
  | parameter name hname =>
    rw [TemplatePart.chars_parameter] at hmem
    cases hvalue : values.lookup name with
    | some value =>
      rw [hvalue] at hmem
      exact notMem_encodeSegment (by decide) value hmem
    | none =>
      rw [hvalue] at hmem
      have hname := hleft name (List.mem_filterMap.mpr ⟨_, hpart, rfl⟩) hvalue
      revert hmem
      simp [placeholder, hname]

/-- What is cut out between the slashes are the segments of the template, filled in one by one. -/
theorem split_filled (hleft : ∀ x ∈ t.parameters, values.lookup x = none → '/' ∉ x.toList) :
    split '/' (t.filled values) = t.segments.map (·.filled values) := by
  have hparts : ∀ part ∈ t.segments.map (·.filled values), '/' ∉ part.toList := by
    intro part hpart
    obtain ⟨segment, hsegment, rfl⟩ := List.mem_map.mp hpart
    exact slash_notMem_filled hsegment hleft
  have hne : t.segments.map (·.filled values) ≠ [] := by
    simp [segments, List.splitOnP_ne_nil]
  rw [filled_eq_intercalate]
  exact split_intercalate rfl hparts hne

/-- A segment that is a parameter alone is read back as its value. -/
theorem percentDecode?_filled {x value : String} (hx : IsParameter x)
    (h : values.lookup x = some value) :
    percentDecode? (filled values [.parameter x hx]) = some value := by
  have hfilled : filled values [.parameter x hx] = encodeSegment value := by
    unfold filled
    rw [List.flatMap_singleton, TemplatePart.chars_parameter, h, String.ofList_toList]
    rfl
  rw [hfilled]
  exact percentDecode?_encodeSegment value

/-! ## Slashes in names -/

theorem count_placeholder (x : String) :
    (placeholder x).toList.count '/' = x.toList.count '/' := by
  rw [placeholder_toList, List.count_cons_of_ne (by decide), List.count_append,
    List.count_eq_zero_of_not_mem (by decide : '/' ∉ ['\x7d']), Nat.add_zero]

/-- The slashes of a template are those of what it is filled in to, and those in the names that are
filled in: no value brings one along. -/
theorem count_slash_text (values : List (String × String)) (t : Template) :
    t.text.toList.count '/' = (t.filled values).toList.count '/'
      + ((t.parameters.filter fun x => (values.lookup x).isSome).map (·.toList.count '/')).sum := by
  -- part by part; only a parameter that is filled in has another text than before
  rw [toList_text, filled, String.toList_ofList]
  induction t with
  | nil => rfl
  | cons part t ih =>
    rw [List.flatMap_cons, List.flatMap_cons, List.count_append, List.count_append, ih]
    cases part with
    | plain c hc => exact (Nat.add_assoc _ _ _).symm
    | parameter name hname =>
      have hnames : parameters (.parameter name hname :: t) = name :: parameters t := rfl
      rw [hnames, TemplatePart.chars_parameter, TemplatePart.chars_parameter, List.lookup_nil,
        Option.elim_none, count_placeholder]
      cases hvalue : values.lookup name with
      | some value =>
        have hencoded : (encodeSegment value).toList.count '/' = 0 :=
          List.count_eq_zero_of_not_mem (notMem_encodeSegment (by decide) value)
        rw [List.filter_cons_of_pos (by rw [hvalue]; rfl), List.map_cons, List.sum_cons,
          Option.elim_some, hencoded]
        omega
      | none =>
        rw [List.filter_cons_of_neg (by rw [hvalue]; decide), Option.elim_none, count_placeholder,
          Nat.add_assoc]

/-- **As many segments are left as there were, unless a name with a slash is filled in.** -/
theorem length_split_filled_iff (hnodup : (values.map Prod.fst).Nodup) :
    (split '/' (t.filled values)).length = (split '/' t.text).length
      ↔ ∀ v ∈ values, v.1 ∈ t.parameters → '/' ∉ v.1.toList := by
  rw [length_split, length_split, count_slash_text values, Nat.add_right_cancel_iff, left_eq_add,
    List.sum_eq_zero_iff_forall_eq_nat, List.forall_mem_map]
  constructor
  · intro h v hv hparameter
    have hfilled : (values.lookup v.1).isSome = true := by
      rw [Table.lookup_of_mem hnodup hv]
      rfl
    exact List.count_eq_zero.mp (h v.1 (List.mem_filter.mpr ⟨hparameter, hfilled⟩))
  · intro h x hx
    obtain ⟨hparameter, hfilled⟩ := List.mem_filter.mp hx
    obtain ⟨value, hvalue⟩ := Option.isSome_iff_exists.mp hfilled
    exact List.count_eq_zero.mpr (h (x, value) (Table.mem_of_lookup hvalue) hparameter)

/--
**A template is filled in to its values and nothing else.**

Whatever the values are and in whichever order they are filled in, the path is the template with all
of them put in at once. It is made of the segments of the template, filled in one by one. These are
what stands between the slashes of the path, unless a parameter that is left has a slash in its
name. There are as many of them as in the text of the template exactly if no name that is filled in
has a slash. No value adds a delimiter, and what was a parameter alone is read back as its value.
-/
theorem path_of_values (verb : Verb) (t : Template) {values order : List (String × String)}
    (hnames : ∀ v ∈ values, IsParameter v.1) (hnodup : (values.map Prod.fst).Nodup)
    (horder : order.Perm values) :
    let path := (order.foldl fillIn (Call.new verb t.text)).path
    let pieces := t.segments.map (·.filled values)
    path = t.filled values
      ∧ path = "/".intercalate pieces
      ∧ ((∀ x ∈ t.parameters, values.lookup x = none → '/' ∉ x.toList) → split '/' path = pieces)
      ∧ ((split '/' path).length = (split '/' t.text).length
        ↔ ∀ v ∈ values, v.1 ∈ t.parameters → '/' ∉ v.1.toList)
      ∧ (∀ v ∈ values, ∀ d ∈ delimiters, d ∉ (encodeSegment v.2).toList)
      ∧ ∀ (i : Nat) (x : String) (hx : IsParameter x), t.segments[i]? = some [.parameter x hx] →
        ∀ value, (x, value) ∈ values → pieces[i]?.bind percentDecode? = some value := by
  intro path pieces
  have hpath : path = t.filled values := by
    rw [← filled_perm hnodup horder]
    exact @path_foldl_fillIn [] order t (fun v hv => hnames v (horder.mem_iff.mp hv))
      ((horder.map Prod.fst).nodup_iff.mpr hnodup) (Call.new verb t.text) rfl
  rw [hpath]
  refine ⟨rfl, filled_eq_intercalate t, split_filled, length_split_filled_iff hnodup,
    fun v _ d hd => notMem_encodeSegment hd v.2, fun i x hx hsegment value hvalue => ?_⟩
  rw [List.getElem?_map, hsegment, Option.map_some, Option.bind_some]
  exact percentDecode?_filled hx (Table.lookup_of_mem hnodup hvalue)

/-- Values that look like separators, like the other parameter and like what is encoded already. -/
theorem path_of_values_log :
    let namespace_ : TemplatePart := .parameter "namespace" ⟨by decide, by decide⟩
    let name : TemplatePart := .parameter "name" ⟨by decide, by decide⟩
    let slash : TemplatePart := .plain '/' (by decide)
    let t : Template := [slash, namespace_, slash, name, slash, .plain 'v' (by decide), name]
    let values := [("namespace", "\x7bname\x7d/é?"), ("name", "%2F#")]
    let path := (values.reverse.foldl fillIn (Call.new .get t.text)).path
    t.text = "/\x7bnamespace\x7d/\x7bname\x7d/v\x7bname\x7d"
      ∧ (∀ v ∈ values, IsParameter v.1) ∧ (values.map Prod.fst).Nodup
      ∧ values.reverse.Perm values
      ∧ path = "/%7Bname%7D%2F%C3%A9%3F/%252F%23/v%252F%23"
      ∧ (split '/' path).length = (split '/' t.text).length := by
  intro namespace_ name slash t values path
  have hnames : ∀ v ∈ values, IsParameter v.1 := by
    simp only [values, List.forall_mem_cons]
    exact ⟨⟨by decide, by decide⟩, ⟨by decide, by decide⟩, by simp⟩
  have hnodup : (values.map Prod.fst).Nodup := by decide
  have horder : values.reverse.Perm values := List.reverse_perm values
  obtain ⟨hpath, -, -, hlength, -⟩ := path_of_values .get t hnames hnodup horder
  exact ⟨by decide, hnames, hnodup, horder, hpath.trans (by decide), hlength.mpr (by decide)⟩

/-- A name with a slash in it parts two segments of the text of a template, which are one when it is
filled in. -/
theorem length_split_slashedName :
    let t : Template := [.plain '/' (by decide), .parameter "a/b" ⟨by decide, by decide⟩]
    let path := ([("a/b", "x")].foldl fillIn (Call.new .get t.text)).path
    t.text = "/\x7ba/b\x7d" ∧ IsParameter "a/b" ∧ path = "/x"
      ∧ (split '/' t.text).length = 3 ∧ (split '/' path).length = 2 := by
  intro t path
  exact ⟨by decide, ⟨by decide, by decide⟩, by decide, by decide, by decide⟩

end Template

end ApiModels.Call
