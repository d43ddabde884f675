import ApiModels.Proofs.Selections
import ApiModels.Registry.Interleaving
import Mathlib.Logic.Relation

/-!
# Copies hold what their epoch brought

An epoch comes after the default it stands for: while the slot is ahead of the epoch the lock is held
alone, so no reader sees the two apart. What a reader takes away under the lock is therefore the
default that its epoch brought, however long it takes to keep it and whatever is set meanwhile. An
epoch brings one default only, since epochs grow and no selector comes back.
-/

namespace ApiModels.Overlap

open Selection

variable {o o' : Overlap} {run : List Overlap} {t t' : ThreadId} {id id' : SelectorId}
  {d d' : SharedDefault} {c : CachedDefault} {a : Activity} {epoch : Nat}
  {value value' : Option String}

/-! ## What an epoch brought -/

/-- What has happened stays so. -/
theorem Became.later (h : Became run id epoch value) : Became (o :: run) id epoch value := by
  obtain ⟨before, after, hpair, hepoch, hd⟩ := h
  exact ⟨before, after, List.infix_cons hpair, hepoch, hd⟩

/-- What happens in a step has happened after it. -/
theorem Became.now (hepoch : o.epoch? id ≠ some d.epoch) (hd : o'.selection.shared id = some d) :
    Became (o' :: o :: run) id d.epoch d.value :=
  ⟨o, o', (List.prefix_append [o', o] run).isInfix, hepoch, d, hd, rfl, rfl⟩

/-- What has happened did so in the last step or before it. -/
theorem Became.of_cons (h : Became (o' :: o :: run) id epoch value) :
    (o.epoch? id ≠ some epoch ∧ ∃ d, o'.selection.shared id = some d ∧ d.epoch = epoch
      ∧ d.value = value) ∨ Became (o :: run) id epoch value := by
  obtain ⟨before, after, hpair, hepoch, hd⟩ := h
  rcases List.infix_cons_iff.mp hpair with hfirst | hpair
  · obtain ⟨rfl, hrest⟩ := List.cons_prefix_cons.mp hfirst
    obtain ⟨rfl, -⟩ := List.cons_prefix_cons.mp hrest
    exact .inl ⟨hepoch, hd⟩
  · exact .inr ⟨before, after, hpair, hepoch, hd⟩

theorem not_became_start : ¬ Became [o] id epoch value := by
  rintro ⟨before, after, hpair, -⟩
  have hlength := hpair.length_le
  simp at hlength

theorem epoch?_of_shared (h : o.selection.shared id = some d) : o.epoch? id = some d.epoch := by
  rw [epoch?, h, Option.map_some]

/-! ## What a step does -/

@[simp]
theorem doing_turn_self : (o.turn t a).doing t = a := if_pos rfl

theorem doing_turn_of_ne (h : t' ≠ t) : (o.turn t a).doing t' = o.doing t' := if_neg h

/-- A step is one of its thread. -/
theorem Step.doing_of_ne (h : Step t o o') (hne : t' ≠ t) : o'.doing t' = o.doing t' := by
  cases h with
  | new | clone | drop => rfl
  | lockAlone | setSlot | setEpoch | unlockAlone | look | hit | miss | lockShared | readEpoch
  | readSlot | unlockShared | keep | answer => exact doing_turn_of_ne hne

theorem Step.nextId_le (h : Step t o o') : o.selection.nextId ≤ o'.selection.nextId := by
  cases h with
  | new => exact Nat.le_succ _
  | clone =>
    unfold Selection.clone
    split <;> exact Nat.le_refl _
  | drop =>
    unfold Selection.drop
    split
    · split <;> exact Nat.le_refl _
    · exact Nat.le_refl _
  | lockAlone | setSlot | setEpoch | unlockAlone | look | hit | miss | lockShared | readEpoch
  | readSlot | unlockShared | keep | answer => exact Nat.le_refl _

/-- What a step has made of a selector. -/
inductive Change (t : ThreadId) (o o' : Overlap) (id : SelectorId) (d' : SharedDefault) : Prop
  | made (hid : id = o.selection.nextId) (hnext : o'.selection.nextId = o.selection.nextId + 1)
  | kept {d : SharedDefault} (hd : o.selection.shared id = some d) (hepoch : d'.epoch = d.epoch)
      (hvalue : d'.value = d.value) (hdoing : o.doing t ≠ .renewing id)
  /-- The slot is ahead of the epoch now. -/
  | slot {d : SharedDefault} (hd : o.selection.shared id = some d) (hepoch : d'.epoch = d.epoch)
      (hdoing : o'.doing t = .renewing id)
  | epoch {d : SharedDefault} (hd : o.selection.shared id = some d)
      (hepoch : d'.epoch = d.epoch + 1) (hdoing : o.doing t = .renewing id)

/-- **A step makes a selector, or leaves its epoch and default, or changes one of the two.** -/
theorem Step.change (h : Step t o o') (hd : o'.selection.shared id = some d) :
    Change t o o' id d := by
  cases h with
  | new h =>
    rcases shared_setShared_eq_some hd with ⟨hid, -⟩ | ⟨-, hd⟩
    · exact .made hid rfl
    · exact .kept hd rfl rfl (by rw [h]; nofun)
  | clone h hid =>
    obtain ⟨d₀, hd₀⟩ := exists_shared hid
    dsimp only [Selection.clone] at hd
    rw [hd₀] at hd
    rcases shared_setShared_eq_some hd with ⟨rfl, hnew⟩ | ⟨-, hd⟩
    · cases hnew
      exact .kept hd₀ rfl rfl (by rw [h]; nofun)
    · exact .kept hd rfl rfl (by rw [h]; nofun)
  | @drop dropped _ h hd₀ =>
    dsimp only [Selection.drop] at hd
    rw [hd₀] at hd
    dsimp only at hd
    split at hd
    · have hd : (o.selection.setShared dropped none).shared id = some d := hd
      rcases shared_setShared_eq_some hd with ⟨-, hnone⟩ | ⟨-, hd⟩
      · cases hnone
      · exact .kept hd rfl rfl (by rw [h]; nofun)
    · rcases shared_setShared_eq_some hd with ⟨rfl, hnew⟩ | ⟨-, hd⟩
      · cases hnew
        exact .kept hd₀ rfl rfl (by rw [h]; nofun)
      · exact .kept hd rfl rfl (by rw [h]; nofun)
  | setSlot h hd₀ =>
    rcases shared_setShared_eq_some hd with ⟨rfl, hnew⟩ | ⟨-, hd⟩
    · cases hnew
      exact .slot hd₀ rfl doing_turn_self
    · exact .kept hd rfl rfl (by rw [h]; nofun)
  | setEpoch h hd₀ =>
    rcases shared_setShared_eq_some hd with ⟨rfl, hnew⟩ | ⟨hne, hd⟩
    · cases hnew
      exact .epoch hd₀ rfl h
    · refine .kept hd rfl rfl fun hdoing => ?_
      rw [h] at hdoing
      exact hne (Activity.renewing.inj hdoing).symm
  | lockAlone _ h | unlockAlone h | look h | hit h | miss h | lockShared h | readEpoch h
  | readSlot h | unlockShared h | keep h | answer h =>
    exact .kept hd rfl rfl (by rw [h]; nofun)

/-- A copy that is there after a step was there before, or its thread has just kept it. -/
theorem Step.caches (h : Step t o o') (hc : o'.selection.caches t' id = some c) :
    o.selection.caches t' id = some c ∨ o.doing t = .keeping id c := by
  cases h with
  | clone h hid =>
    dsimp only [Selection.clone] at hc
    split at hc <;> exact .inl hc
  | drop h hd =>
    dsimp only [Selection.drop] at hc
    rw [hd] at hc
    dsimp only at hc
    split at hc
    · rcases caches_setCache_eq_some hc with ⟨-, -, hnone⟩ | hc
      · cases hnone
      · exact .inl hc
    · exact .inl hc
  | keep h =>
    rcases caches_setCache_eq_some hc with ⟨-, rfl, hkept⟩ | hc
    · exact .inr (Option.some.inj hkept ▸ h)
    · exact .inl (caches_prune_eq_some hc)
  | new | lockAlone | setSlot | setEpoch | unlockAlone | look | hit | miss | lockShared | readEpoch
  | readSlot | unlockShared | answer => exact .inl hc

/-! ## Locks -/

/-- A lock that one thread has alone no other has. -/
def Exclusive (doing : ThreadId → Activity) : Prop :=
  ∀ t t' id, (doing t).writes? = some id →
    (doing t').writes? = some id ∨ (doing t').reads? = some id → t' = t

/-- Who has a lock alone after a step had it before, or has found it free. -/
theorem Step.writes (h : Step t o o') (hheld : (o'.doing t).writes? = some id) :
    (o.doing t).writes? = some id
      ∨ ∀ t', (o.doing t').writes? ≠ some id ∧ (o.doing t').reads? ≠ some id := by
  cases h with
  | new | clone | drop => exact .inl hheld
  | lockAlone _ _ _ hfree =>
    rw [doing_turn_self] at hheld
    cases hheld
    exact .inr hfree
  | setSlot h | setEpoch h =>
    rw [h]
    rw [Overlap.change, doing_turn_self] at hheld
    exact .inl hheld
  | unlockAlone | look | hit | miss | lockShared | readEpoch | readSlot | unlockShared | answer =>
    rw [doing_turn_self] at hheld
    cases hheld
  | keep =>
    rw [Overlap.change, doing_turn_self] at hheld
    cases hheld

/-- Who shares a lock after a step did so before, or has found that nobody has it alone. -/
theorem Step.reads (h : Step t o o') (hheld : (o'.doing t).reads? = some id) :
    (o.doing t).reads? = some id ∨ ∀ t', (o.doing t').writes? ≠ some id := by
  cases h with
  | new | clone | drop => exact .inl hheld
  | lockShared _ hfree =>
    rw [doing_turn_self] at hheld
    cases hheld
    exact .inr hfree
  | readEpoch h | readSlot h =>
    rw [h]
    rw [doing_turn_self] at hheld
    exact .inl hheld
  | lockAlone | unlockAlone | look | hit | miss | unlockShared | answer =>
    rw [doing_turn_self] at hheld
    cases hheld
  | setSlot | setEpoch | keep =>
    rw [Overlap.change, doing_turn_self] at hheld
    cases hheld

theorem Exclusive.step (h : Exclusive o.doing) (hs : Step t o o') : Exclusive o'.doing := by
  intro t₁ t₂ id hheld hother
  by_contra hne
  by_cases ht₁ : t₁ = t
  · subst ht₁
    rw [hs.doing_of_ne hne] at hother
    rcases hs.writes hheld with hbefore | hfree
    · exact hne (h _ _ _ hbefore hother)
    · exact hother.elim (hfree t₂).1 (hfree t₂).2
  · rw [hs.doing_of_ne ht₁] at hheld
    by_cases ht₂ : t₂ = t
    · subst ht₂
      rcases hother with hother | hother
      · rcases hs.writes hother with hbefore | hfree
        · exact hne (h _ _ _ hheld (.inl hbefore))
        · exact (hfree t₁).1 hheld
      · rcases hs.reads hother with hbefore | hfree
        · exact hne (h _ _ _ hheld (.inr hbefore))
        · exact hfree t₁ hheld
    · rw [hs.doing_of_ne ht₂] at hother
      exact hne (h _ _ _ hheld hother)

/-! ## What every step keeps -/

/-- What a thread knows of the epochs and defaults it has read. -/
def Knows (run : List Overlap) (s : Selection) : Activity → Prop
  | .readingAt id epoch => ∀ d, s.shared id = some d → d.epoch = epoch
  | .taking id c | .keeping id c | .answering id c => Became run id c.epoch c.value
  | _ => True

/-- What holds all along. Every epoch brought the default that is in the slot, unless the slot is
ahead of it. Copies hold what their epoch brought. -/
structure Sound (run : List Overlap) (o : Overlap) : Prop where
  exclusive : Exclusive o.doing
  used_lt : ∀ {t id}, (o.doing t).selector? = some id → id < o.selection.nextId
  shared_lt : ∀ {id d}, o.selection.shared id = some d → id < o.selection.nextId
  became_lt : ∀ {id epoch value}, Became run id epoch value → id < o.selection.nextId
  became_le : ∀ {id epoch value d}, Became run id epoch value → o.selection.shared id = some d →
    epoch ≤ d.epoch
  settled : ∀ {id d}, o.selection.shared id = some d → (∀ t, o.doing t ≠ .renewing id) →
    Became run id d.epoch d.value
  cached : ∀ {t id c}, o.selection.caches t id = some c → Became run id c.epoch c.value
  knows : ∀ t, Knows run o.selection (o.doing t)

namespace Sound

theorem start : Sound [{}] {} where
  exclusive _ _ _ h := by cases h
  used_lt h := by cases h
  shared_lt h := by cases h
  became_lt h := absurd h not_became_start
  became_le h := absurd h not_became_start
  settled h := by cases h
  cached h := by cases h
  knows _ := trivial

/-- While the slot is ahead of the epoch nobody reads it. -/
theorem not_renewing (h : Sound run o) (hreads : (o.doing t).reads? = some id) (t' : ThreadId) :
    o.doing t' ≠ .renewing id := by
  intro hdoing
  have hwrites : (o.doing t').writes? = some id := by rw [hdoing]; rfl
  have hsame := h.exclusive t' t id hwrites (.inr hreads)
  rw [hsame, hdoing] at hreads
  cases hreads

theorem used_lt_step (h : Sound run o) (hs : Step t o o')
    (hused : (o'.doing t').selector? = some id) : id < o'.selection.nextId := by
  refine Nat.lt_of_lt_of_le ?_ hs.nextId_le
  by_cases ht : t' = t
  · subst ht
    cases hs with
    | new | clone | drop => exact h.used_lt hused
    | lockAlone _ _ hid =>
      rw [doing_turn_self] at hused
      cases hused
      obtain ⟨d, hd⟩ := exists_shared hid
      exact h.shared_lt hd
    | look _ hd =>
      rw [doing_turn_self] at hused
      cases hused
      exact h.shared_lt hd
    | setSlot hdoing | setEpoch hdoing | keep hdoing =>
      rw [Overlap.change, doing_turn_self] at hused
      exact h.used_lt (by rw [hdoing]; exact hused)
    | unlockAlone | answer =>
      rw [doing_turn_self] at hused
      cases hused
    | hit hdoing | miss hdoing | lockShared hdoing | readEpoch hdoing | readSlot hdoing
    | unlockShared hdoing =>
      rw [doing_turn_self] at hused
      exact h.used_lt (by rw [hdoing]; exact hused)
  · rw [hs.doing_of_ne ht] at hused
    exact h.used_lt hused

theorem shared_lt_step (h : Sound run o) (hs : Step t o o')
    (hd : o'.selection.shared id = some d) : id < o'.selection.nextId := by
  cases hs.change hd with
  | made hid hnext => exact hid ▸ hnext ▸ Nat.lt_succ_self _
  | kept hd | slot hd | epoch hd => exact Nat.lt_of_lt_of_le (h.shared_lt hd) hs.nextId_le

/-- An epoch that a step brings is that of the selector after it. -/
theorem became_step (h : Sound (o :: run) o) (hs : Step t o o')
    (hbecame : Became (o' :: o :: run) id epoch value) : id < o'.selection.nextId
      ∧ ∀ d, o'.selection.shared id = some d → epoch ≤ d.epoch := by
  rcases hbecame.of_cons with ⟨-, d', hd', rfl, -⟩ | hbefore
  · refine ⟨h.shared_lt_step hs hd', fun d hd => ?_⟩
    cases hd'.symm.trans hd
    exact Nat.le_refl _
  · refine ⟨Nat.lt_of_lt_of_le (h.became_lt hbefore) hs.nextId_le, fun d hd => ?_⟩
    cases hs.change hd with
    | made hid => exact absurd (hid ▸ h.became_lt hbefore) (Nat.lt_irrefl _)
    | kept hd₀ hepoch | slot hd₀ hepoch => exact hepoch ▸ h.became_le hbefore hd₀
    | epoch hd₀ hepoch => exact hepoch ▸ Nat.le_succ_of_le (h.became_le hbefore hd₀)

/-- A selector starts with the epoch and default that it is made with. A step that changes the epoch
finds the default that it stands for in the slot. -/
theorem settled_step (h : Sound (o :: run) o) (hs : Step t o o')
    (hd : o'.selection.shared id = some d) (hslot : ∀ t, o'.doing t ≠ .renewing id) :
    Became (o' :: o :: run) id d.epoch d.value := by
  cases hs.change hd with
  | made hid =>
    refine .now ?_ hd
    have hnone : o.selection.shared id = none := by
      by_contra hsome
      obtain ⟨d₀, hd₀⟩ := Option.ne_none_iff_exists'.mp hsome
      exact absurd (hid ▸ h.shared_lt hd₀) (Nat.lt_irrefl _)
    rw [epoch?, hnone]
    nofun
  | kept hd₀ hepoch hvalue hdoing =>
    rw [hepoch, hvalue]
    refine (h.settled hd₀ fun t' => ?_).later
    by_cases ht : t' = t
    · exact ht ▸ hdoing
    · exact hs.doing_of_ne ht ▸ hslot t'
  | slot _ _ hdoing => exact absurd hdoing (hslot t)
  | epoch hd₀ hepoch =>
    refine .now ?_ hd
    rw [epoch?_of_shared hd₀, hepoch]
    exact fun heq => Nat.succ_ne_self _ (Option.some.inj heq).symm

theorem cached_step (h : Sound (o :: run) o) (hs : Step t o o')
    (hc : o'.selection.caches t' id = some c) : Became (o' :: o :: run) id c.epoch c.value := by
  rcases hs.caches hc with hbefore | hkeeping
  · exact (h.cached hbefore).later
  · have hknows := h.knows t
    rw [hkeeping] at hknows
    exact hknows.later

/-- What a thread knows stays so while others go on: nobody changes the epoch it has read under the
lock. -/
theorem knows_step_of_ne (h : Sound (o :: run) o) (hs : Step t o o') (ht : t' ≠ t) :
    Knows (o' :: o :: run) o'.selection (o'.doing t') := by
  have hknows := h.knows t'
  rw [hs.doing_of_ne ht]
  cases hdoing : o.doing t' with
  | readingAt id epoch =>
    rw [hdoing] at hknows
    intro d hd
    cases hs.change hd with
    | made hid => exact absurd (hid ▸ h.used_lt (by rw [hdoing]; rfl)) (Nat.lt_irrefl _)
    | kept hd₀ hepoch | slot hd₀ hepoch => exact hepoch.trans (hknows _ hd₀)
    | epoch _ _ hrenewing =>
      exact absurd hrenewing (h.not_renewing (by rw [hdoing]; rfl) t)
  | taking | keeping | answering =>
    rw [hdoing] at hknows
    exact hknows.later
  | idle | setting | renewing | leaving | looking | waiting | reading => trivial

/-- A reader takes away what its epoch brought. -/
theorem knows_step (h : Sound (o :: run) o) (hs : Step t o o') :
    Knows (o' :: o :: run) o'.selection (o'.doing t) := by
  have hknows := h.knows t
  cases hs with
  | new hdoing | clone hdoing | drop hdoing =>
    dsimp only
    rw [hdoing]
    trivial
  | setSlot | setEpoch =>
    rw [Overlap.change, doing_turn_self]
    trivial
  | hit _ hc =>
    rw [doing_turn_self]
    exact (h.cached hc).later
  | readEpoch _ hd =>
    rw [doing_turn_self]
    intro d hd'
    cases hd.symm.trans hd'
    rfl
  | readSlot hdoing hd =>
    rw [doing_turn_self]
    rw [hdoing] at hknows
    have hsettled := h.settled hd fun t' => h.not_renewing (by rw [hdoing]; rfl) t'
    rw [hknows _ hd] at hsettled
    exact hsettled.later
  | unlockShared hdoing =>
    rw [doing_turn_self]
    rw [hdoing] at hknows
    exact hknows.later
  | keep hdoing =>
    rw [Overlap.change, doing_turn_self]
    rw [hdoing] at hknows
    exact hknows.later
  | lockAlone | unlockAlone | look | miss | lockShared | answer =>
    rw [doing_turn_self]
    trivial

/-- **Kept by every step.** -/
theorem step (h : Sound (o :: run) o) (hs : Step t o o') : Sound (o' :: o :: run) o' where
  exclusive := h.exclusive.step hs
  used_lt := h.used_lt_step hs
  shared_lt := h.shared_lt_step hs
  became_lt hbecame := (h.became_step hs hbecame).1
  became_le hbecame := (h.became_step hs hbecame).2 _
  settled := h.settled_step hs
  cached := h.cached_step hs
  knows t' := by
    by_cases ht : t' = t
    · exact ht ▸ h.knows_step hs
    · exact h.knows_step_of_ne hs ht

end Sound

theorem Run.sound (h : Run (o :: run)) : Sound (o :: run) o := by
  generalize hstates : o :: run = states at h
  induction h generalizing o run with
  | start =>
    cases hstates
    exact .start
  | step t _ hs ih =>
    cases hstates
    exact (ih rfl).step hs

/-- **An epoch brings one default.** -/
theorem Became.unique (hrun : Run run) (h : Became run id epoch value)
    (h' : Became run id epoch value') : value = value' := by
  induction hrun with
  | start => exact absurd h not_became_start
  | @step o o' earlier t hbefore hs ih =>
    have hsound := hbefore.sound
    -- Once an epoch was brought, the epoch is that one or a later one, so no step brings it again.
    have hagain : ∀ {value}, Became (o :: earlier) id epoch value → o.epoch? id ≠ some epoch →
        ∀ d, o'.selection.shared id = some d → d.epoch ≠ epoch := by
      rintro value hearlier hepoch d hd rfl
      cases hs.change hd with
      | made hid => exact absurd (hid ▸ hsound.became_lt hearlier) (Nat.lt_irrefl _)
      | kept hd₀ heq | slot hd₀ heq => exact hepoch (heq ▸ epoch?_of_shared hd₀)
      | epoch hd₀ heq =>
        exact absurd (heq ▸ hsound.became_le hearlier hd₀) (Nat.not_succ_le_self _)
    rcases h.of_cons with ⟨hepoch, d, hd, hdepoch, rfl⟩ | hearlier
    · rcases h'.of_cons with ⟨-, d', hd', -, rfl⟩ | hearlier
      · rw [Option.some.inj (hd.symm.trans hd')]
      · exact absurd hdepoch (hagain hearlier hepoch d hd)
    · rcases h'.of_cons with ⟨hepoch, d', hd', hdepoch, rfl⟩ | hearlier'
      · exact absurd hdepoch (hagain hearlier hepoch d' hd')
      · exact ih hearlier hearlier'

/-! ## Calls that are not interrupted -/

theorem change_change (o : Overlap) (s s' : Selection) (t : ThreadId) (a b : Activity) :
    (o.change s t a).change s' t b = o.change s' t b := by
  have hdoing : setAt (setAt o.doing t a) t b = setAt o.doing t b := by
    funext t'
    unfold setAt
    split <;> rfl
  exact congrArg (Overlap.mk s') hdoing

theorem change_of_doing (s : Selection) (h : o.doing t = a) :
    o.change s t a = { o with selection := s } := by
  have hdoing : setAt o.doing t a = o.doing := by
    funext t'
    unfold setAt
    split
    · rw [‹t' = t›, h]
    · rfl
  exact congrArg (Overlap.mk s) hdoing

theorem setShared_setShared (s : Selection) (id : SelectorId) (d d' : Option SharedDefault) :
    (s.setShared id d).setShared id d' = s.setShared id d' := by
  have hshared : setAt (setAt s.shared id d) id d' = setAt s.shared id d' := by
    funext id'
    unfold setAt
    split <;> rfl
  exact congrArg (fun shared => { s with shared }) hshared

/-- **The steps that set a default come to what the call does in one.** -/
theorem steps_setGlobal (release : Option String) (h : o.doing t = .idle)
    (hid : o.selection.isAlive id = true)
    (hfree : ∀ t', (o.doing t').writes? ≠ some id ∧ (o.doing t').reads? ≠ some id) :
    Relation.ReflTransGen (Step t) o { o with selection := o.selection.setGlobal id release } := by
  obtain ⟨d, hd⟩ := exists_shared hid
  let ahead := o.selection.setShared id (some { d with value := release })
  have hahead : ahead.shared id = some { d with value := release } := if_pos rfl
  have hset : o.selection.setGlobal id release
      = ahead.setShared id (some { d with epoch := d.epoch + 1, value := release }) := by
    rw [setShared_setShared]
    unfold Selection.setGlobal
    rw [hd]
  have hlock : Step t o (o.change o.selection t (.setting id release)) :=
    .lockAlone release h hid hfree
  have hslot : Step t (o.change o.selection t (.setting id release))
      (o.change ahead t (.renewing id)) := by
    rw [← change_change o o.selection ahead t (.setting id release) (.renewing id)]
    exact .setSlot doing_turn_self hd
  have hepoch : Step t (o.change ahead t (.renewing id))
      (o.change (o.selection.setGlobal id release) t (.leaving id)) := by
    rw [hset, ← change_change o ahead _ t (.renewing id) (.leaving id)]
    exact .setEpoch (o := o.change ahead t (.renewing id)) doing_turn_self hahead
  have hunlock : Step t (o.change (o.selection.setGlobal id release) t (.leaving id))
      { o with selection := o.selection.setGlobal id release } := by
    rw [← change_of_doing (o.selection.setGlobal id release) h,
      ← change_change o (o.selection.setGlobal id release) _ t (.leaving id) .idle]
    exact .unlockAlone doing_turn_self
  exact (((Relation.ReflTransGen.single hlock).tail hslot).tail hepoch).tail hunlock

/-- **The steps that read a default come to what the call does in one.** -/
theorem steps_global (h : o.doing t = .idle) (hid : o.selection.isAlive id = true)
    (hfree : ∀ t', (o.doing t').writes? ≠ some id) :
    ∃ c : CachedDefault, c.value = (o.selection.global t id).1
      ∧ Relation.ReflTransGen (Step t) o
          (o.change (o.selection.global t id).2 t (.answering id c)) := by
  obtain ⟨d, hd⟩ := exists_shared hid
  have hlook : Step t o (o.change o.selection t (.looking id d.epoch)) := .look h hd
  cases hfresh : o.selection.freshCopy? t id d with
  | some c =>
    obtain ⟨hc, hepoch⟩ := Option.filter_eq_some_iff.mp hfresh
    have hglobal : o.selection.global t id = (c.value, o.selection) := by
      unfold Selection.global
      rw [hd]
      dsimp only
      rw [hfresh]
    have hhit : Step t (o.change o.selection t (.looking id d.epoch))
        (o.change o.selection t (.answering id c)) := by
      rw [← change_change o o.selection _ t (.looking id d.epoch) (.answering id c)]
      exact .hit (doing_turn_self.trans (by rw [of_decide_eq_true hepoch])) hc
    rw [hglobal]
    exact ⟨c, rfl, (Relation.ReflTransGen.single hlook).tail hhit⟩
  | none =>
    have hglobal : o.selection.global t id = (d.value,
        (o.selection.prune t).setCache t id (some ⟨d.epoch, d.value⟩)) := by
      unfold Selection.global
      rw [hd]
      dsimp only
      rw [hfresh]
    have hstale : ∀ c, o.selection.caches t id = some c → c.epoch ≠ d.epoch := by
      intro c hc hepoch
      have hsome : o.selection.freshCopy? t id d = some c :=
        Option.filter_eq_some_iff.mpr ⟨hc, decide_eq_true hepoch⟩
      rw [hfresh] at hsome
      cases hsome
    -- The thread itself holds no lock when it takes this one.
    have hwaiting : ∀ t', ((o.change o.selection t (.waiting id)).doing t').writes? ≠ some id := by
      intro t'
      by_cases ht : t' = t
      · subst ht
        rw [Overlap.change, doing_turn_self]
        nofun
      · rw [Overlap.change, doing_turn_of_ne ht]
        exact hfree t'
    have hmiss : Step t (o.change o.selection t (.looking id d.epoch))
        (o.change o.selection t (.waiting id)) := by
      rw [← change_change o o.selection _ t (.looking id d.epoch) (.waiting id)]
      exact .miss doing_turn_self hstale
    have hlock : Step t (o.change o.selection t (.waiting id))
        (o.change o.selection t (.reading id)) := by
      rw [← change_change o o.selection _ t (.waiting id) (.reading id)]
      exact .lockShared doing_turn_self hwaiting
    have hepoch : Step t (o.change o.selection t (.reading id))
        (o.change o.selection t (.readingAt id d.epoch)) := by
      rw [← change_change o o.selection _ t (.reading id) (.readingAt id d.epoch)]
      exact .readEpoch doing_turn_self hd
    have hslot : Step t (o.change o.selection t (.readingAt id d.epoch))
        (o.change o.selection t (.taking id ⟨d.epoch, d.value⟩)) := by
      rw [← change_change o o.selection _ t (.readingAt id d.epoch) (.taking id ⟨d.epoch, d.value⟩)]
      exact .readSlot doing_turn_self hd
    have hunlock : Step t (o.change o.selection t (.taking id ⟨d.epoch, d.value⟩))
        (o.change o.selection t (.keeping id ⟨d.epoch, d.value⟩)) := by
      rw [← change_change o o.selection _ t (.taking id _) (.keeping id _)]
      exact .unlockShared doing_turn_self
    have hkeep : Step t (o.change o.selection t (.keeping id ⟨d.epoch, d.value⟩))
        (o.change (o.selection.global t id).2 t (.answering id ⟨d.epoch, d.value⟩)) := by
      rw [hglobal, ← change_change o o.selection _ t (.keeping id _) (.answering id _)]
      exact .keep doing_turn_self
    refine ⟨⟨d.epoch, d.value⟩, by rw [hglobal], ?_⟩
    exact ((((((Relation.ReflTransGen.single hlook).tail hmiss).tail hlock).tail hepoch).tail
      hslot).tail hunlock).tail hkeep

/-! ## What threads see -/

/-- **A thread sees what was set last, and copies hold what their epoch brought.** Between calls a
thread sees the default of a selector that was set last, whatever copies there are. While calls
overlap, a copy that is kept or answered with holds the one default that its epoch brought. -/
theorem latest_default_seen :
    (∀ {calls : List SelectorCall} {s : Selection}, Reached calls s → ∀ t id,
      s.isAlive id = true → (s.global t id).1 = latestDefault id calls)
    ∧ ∀ {o : Overlap} {earlier : List Overlap}, Run (o :: earlier) → ∀ t id c,
        (o.selection.caches t id = some c ∨ o.doing t = .answering id c) → ∀ value,
          Became (o :: earlier) id c.epoch value ↔ value = c.value := by
  refine ⟨fun hreached t id hid => hreached.current.global_eq t hid, ?_⟩
  intro o earlier hrun t id c hcopy value
  have hbecame : Became (o :: earlier) id c.epoch c.value := by
    rcases hcopy with hcached | hanswer
    · exact hrun.sound.cached hcached
    · have hknows := hrun.sound.knows t
      rwa [hanswer] at hknows
  exact ⟨fun hvalue => hvalue.unique hrun hbecame, fun heq => heq ▸ hbecame⟩

/-- A copy may be of an older epoch than the slot: here thread 1 has read the first default, none,
and keeps it after thread 0 has changed the slot. And after all calls a thread sees what was set
last, though its own copy is older. -/
theorem latest_default_seen_stale :
    (∃ calls s, Reached calls s ∧ s.caches 1 1 = some ⟨1, some "rel_a"⟩
      ∧ (s.global 1 1).1 = some "rel_b")
    ∧ ∃ o earlier, Run (o :: earlier) ∧ o.selection.caches 1 1 = some ⟨0, none⟩
      ∧ o.selection.shared 1 = some ⟨0, some "rel_a", 1⟩
      ∧ ∀ value, Became (o :: earlier) 1 0 value ↔ value = none := by
  constructor
  · have hreached := ((((Reached.start.call .new rfl).call (.setGlobal 1 (some "rel_a")) rfl).call
      (.global 1 1) rfl).call .new rfl).call (.setGlobal 1 (some "rel_b")) rfl
    exact ⟨_, _, hreached, rfl, latest_default_seen.1 hreached 1 1 rfl⟩
  · have hmade := Run.start.step 0 (.new rfl)
    have hmissed := (hmade.step 1 (@Step.look 1 _ 1 _ rfl rfl)).step 1 (.miss rfl nofun)
    have hread := (((hmissed.step 1 (.lockShared rfl fun t => by
      obtain rfl | ht := eq_or_ne t 1
      · nofun
      · rw [doing_turn_of_ne ht, doing_turn_of_ne ht]
        nofun)).step 1 (.readEpoch rfl rfl)).step 1 (.readSlot rfl rfl)).step 1 (.unlockShared rfl)
    have hahead := (hread.step 0 (@Step.lockAlone 0 _ 1 (some "rel_a") rfl rfl fun t => by
      obtain rfl | ht := eq_or_ne t 1
      · exact ⟨nofun, nofun⟩
      · simp only [doing_turn_of_ne ht]
        exact ⟨nofun, nofun⟩)).step 0 (.setSlot rfl rfl)
    have hkept := hahead.step 1 (@Step.keep 1 _ 1 ⟨0, none⟩ rfl)
    exact ⟨_, _, hkept, rfl, rfl, latest_default_seen.2 hkept 1 1 ⟨0, none⟩ (.inl rfl)⟩

end ApiModels.Overlap
