import ApiModels.Registry.Selector
import Mathlib.Tactic.Common

/-!
# The default that was set last

Calls on selectors come one after another, from any thread. A call needs a handle, so once the last
one is dropped there are no more calls on that selector, and its number is never given again. Copies
of threads may be behind, of selectors long gone, or not there. A copy of the current epoch holds
the current default, and any other is not looked at, so what a thread sees is what was set last.
-/

namespace ApiModels

/-- A call on a selector. Those that touch the copies of a thread say which thread calls. -/
inductive SelectorCall where
  | new
  | clone (id : SelectorId)
  | drop (t : ThreadId) (id : SelectorId)
  | setGlobal (id : SelectorId) (release : Option String)
  | global (t : ThreadId) (id : SelectorId)
deriving DecidableEq, Repr

namespace Selection

variable {s : Selection} {t t' : ThreadId} {id id' : SelectorId} {d d' : SharedDefault}
  {c : CachedDefault} {calls : List SelectorCall}

/-- The selectors after a call. -/
def perform (s : Selection) : SelectorCall → Selection
  | .new => s.new.2
  | .clone id => s.clone id
  | .drop t id => s.drop t id
  | .setGlobal id release => s.setGlobal id release
  | .global t id => (s.global t id).2

/-- Whether there is a handle to make a call with. A new selector needs none. -/
def permits (s : Selection) : SelectorCall → Bool
  | .new => true
  | .clone id | .drop _ id | .setGlobal id _ | .global _ id => s.isAlive id

/-- The selectors after some calls, the latest of them first. -/
inductive Reached : List SelectorCall → Selection → Prop
  | start : Reached [] {}
  | call {calls : List SelectorCall} {s : Selection} (c : SelectorCall) :
      Reached calls s → s.permits c = true → Reached (c :: calls) (s.perform c)

/-- The default that the last of some calls on a selector has set, the latest call first. It is none
if that call has cleared it, or if there was no such call. -/
def latestDefault (id : SelectorId) : List SelectorCall → Option String
  | [] => none
  | .setGlobal id' release :: calls => if id' = id then release else latestDefault id calls
  | _ :: calls => latestDefault id calls

/-! ## Changes in one place -/

theorem exists_shared (h : s.isAlive id = true) : ∃ d, s.shared id = some d :=
  Option.isSome_iff_exists.mp h

/-- What handles share after a change: what was put there, or what there was of another selector. -/
theorem shared_setShared_eq_some {new : Option SharedDefault}
    (h : (s.setShared id new).shared id' = some d) :
    (id' = id ∧ new = some d) ∨ (id' ≠ id ∧ s.shared id' = some d) := by
  unfold setShared setAt at h
  dsimp only at h
  split at h
  · exact .inl ⟨‹_›, h⟩
  · exact .inr ⟨‹_›, h⟩

/-- A copy after a change: what was put there, or an old one of another thread or selector. -/
theorem caches_setCache_eq_some {new : Option CachedDefault}
    (h : (s.setCache t id new).caches t' id' = some c) :
    (t' = t ∧ id' = id ∧ new = some c) ∨ s.caches t' id' = some c := by
  unfold setCache setAt at h
  dsimp only at h
  split at h
  · subst t'
    dsimp only at h
    split at h
    · exact .inl ⟨rfl, ‹_›, h⟩
    · exact .inr h
  · exact .inr h

/-- To prune makes no copies. -/
theorem caches_prune_eq_some (h : (s.prune t).caches t' id' = some c) :
    s.caches t' id' = some c := by
  unfold prune setAt at h
  dsimp only at h
  split at h
  · subst t'
    dsimp only at h
    split at h
    · exact h
    · cases h
  · exact h

/-! ## What every call keeps -/

/-- What holds after some calls. A number not given out stands for nothing, every default is the one
that was set last, and a copy of the current epoch holds the current default. -/
structure Current (calls : List SelectorCall) (s : Selection) : Prop where
  shared_lt : ∀ {id d}, s.shared id = some d → id < s.nextId
  caches_lt : ∀ {t id c}, s.caches t id = some c → id < s.nextId
  latest_lt : ∀ {id}, latestDefault id calls ≠ none → id < s.nextId
  value : ∀ {id d}, s.shared id = some d → d.value = latestDefault id calls
  epoch_le : ∀ {t id c d}, s.caches t id = some c → s.shared id = some d → c.epoch ≤ d.epoch
  cached : ∀ {t id c d}, s.caches t id = some c → s.shared id = some d → c.epoch = d.epoch →
    c.value = d.value

namespace Current

theorem start : Current [] {} where
  shared_lt h := by cases h
  caches_lt h := by cases h
  latest_lt h := absurd rfl h
  value h := by cases h
  epoch_le h := by cases h
  cached h := by cases h

/-- A call that sets no default leaves the one that was set last. -/
theorem mute {call : SelectorCall} (h : Current calls s)
    (hcall : ∀ id, latestDefault id (call :: calls) = latestDefault id calls) :
    Current (call :: calls) s where
  shared_lt := h.shared_lt
  caches_lt := h.caches_lt
  latest_lt hlatest := h.latest_lt (by rwa [← hcall])
  value hd := by rw [hcall, h.value hd]
  epoch_le := h.epoch_le
  cached := h.cached

theorem new (h : Current calls s) : Current calls s.new.2 where
  shared_lt hd := by
    rcases shared_setShared_eq_some hd with ⟨rfl, -⟩ | ⟨-, hd⟩
    · exact Nat.lt_succ_self _
    · exact Nat.lt_succ_of_lt (h.shared_lt hd)
  caches_lt hc := Nat.lt_succ_of_lt (h.caches_lt hc)
  latest_lt hlatest := Nat.lt_succ_of_lt (h.latest_lt hlatest)
  value hd := by
    rcases shared_setShared_eq_some hd with ⟨rfl, hnew⟩ | ⟨-, hd⟩
    · -- No call so far was on this selector.
      cases hnew
      by_contra hne
      exact Nat.lt_irrefl _ (h.latest_lt fun hnone => hne hnone.symm)
    · exact h.value hd
  epoch_le hc hd := by
    rcases shared_setShared_eq_some hd with ⟨rfl, -⟩ | ⟨-, hd⟩
    · exact absurd (h.caches_lt hc) (Nat.lt_irrefl _)
    · exact h.epoch_le hc hd
  cached hc hd := by
    rcases shared_setShared_eq_some hd with ⟨rfl, -⟩ | ⟨-, hd⟩
    · exact absurd (h.caches_lt hc) (Nat.lt_irrefl _)
    · exact h.cached hc hd

/-- Of a selector that is gone nothing has to hold, whatever copies are left of it. -/
theorem gone (h : Current calls s) : Current calls (s.setShared id none) := by
  have hkept : ∀ {id' d}, (s.setShared id none).shared id' = some d → s.shared id' = some d := by
    intro id' d hd
    rcases shared_setShared_eq_some hd with ⟨-, hnone⟩ | ⟨-, hd⟩
    · cases hnone
    · exact hd
  exact ⟨fun hd => h.shared_lt (hkept hd), h.caches_lt, h.latest_lt, fun hd => h.value (hkept hd),
    fun hc hd => h.epoch_le hc (hkept hd), fun hc hd => h.cached hc (hkept hd)⟩

/-- Handles come and go without a change to the default. -/
theorem setHandles (h : Current calls s) (hd : s.shared id = some d) (n : Nat) :
    Current calls (s.setShared id (some { d with handles := n })) := by
  have hkept : ∀ {id' d'}, (s.setShared id (some { d with handles := n })).shared id' = some d' →
      ∃ d₀, s.shared id' = some d₀ ∧ d₀.epoch = d'.epoch ∧ d₀.value = d'.value := by
    intro id' d' hd'
    rcases shared_setShared_eq_some hd' with ⟨rfl, hnew⟩ | ⟨-, hd'⟩
    · cases hnew
      exact ⟨d, hd, rfl, rfl⟩
    · exact ⟨d', hd', rfl, rfl⟩
  refine ⟨fun hd' => ?_, h.caches_lt, h.latest_lt, fun hd' => ?_, fun hc hd' => ?_,
    fun hc hd' hcopy => ?_⟩
  · obtain ⟨d₀, hd₀, -, -⟩ := hkept hd'
    exact h.shared_lt hd₀
  · obtain ⟨d₀, hd₀, -, hvalue⟩ := hkept hd'
    exact hvalue.symm.trans (h.value hd₀)
  · obtain ⟨d₀, hd₀, hepoch, -⟩ := hkept hd'
    exact hepoch ▸ h.epoch_le hc hd₀
  · obtain ⟨d₀, hd₀, hepoch, hvalue⟩ := hkept hd'
    exact (h.cached hc hd₀ (hcopy.trans hepoch.symm)).trans hvalue

theorem prune (h : Current calls s) (t : ThreadId) : Current calls (s.prune t) where
  shared_lt := h.shared_lt
  caches_lt hc := h.caches_lt (caches_prune_eq_some hc)
  latest_lt := h.latest_lt
  value := h.value
  epoch_le hc := h.epoch_le (caches_prune_eq_some hc)
  cached hc := h.cached (caches_prune_eq_some hc)

theorem forget (h : Current calls s) (t : ThreadId) (id : SelectorId) :
    Current calls (s.setCache t id none) := by
  have hkept : ∀ {t' id' c}, (s.setCache t id none).caches t' id' = some c →
      s.caches t' id' = some c := by
    intro t' id' c hc
    rcases caches_setCache_eq_some hc with ⟨-, -, hnone⟩ | hc
    · cases hnone
    · exact hc
  exact ⟨h.shared_lt, fun hc => h.caches_lt (hkept hc), h.latest_lt, h.value,
    fun hc => h.epoch_le (hkept hc), fun hc => h.cached (hkept hc)⟩

/-- A copy of what is there is of the current epoch. -/
theorem copy (h : Current calls s) (t : ThreadId) (hd : s.shared id = some d) :
    Current calls (s.setCache t id (some ⟨d.epoch, d.value⟩)) where
  shared_lt := h.shared_lt
  caches_lt hc := by
    rcases caches_setCache_eq_some hc with ⟨-, rfl, -⟩ | hc
    · exact h.shared_lt hd
    · exact h.caches_lt hc
  latest_lt := h.latest_lt
  value := h.value
  epoch_le hc hd' := by
    rcases caches_setCache_eq_some hc with ⟨-, rfl, hcopy⟩ | hc
    · cases hcopy
      cases hd.symm.trans hd'
      exact Nat.le_refl _
    · exact h.epoch_le hc hd'
  cached hc hd' := by
    rcases caches_setCache_eq_some hc with ⟨-, rfl, hcopy⟩ | hc
    · cases hcopy
      cases hd.symm.trans hd'
      exact fun _ => rfl
    · exact h.cached hc hd'

/-- With a new default comes a new epoch, of which there are no copies yet. -/
theorem set (h : Current calls s) (hd : s.shared id = some d) (release : Option String) :
    Current (.setGlobal id release :: calls)
      (s.setShared id (some { d with epoch := d.epoch + 1, value := release })) where
  shared_lt hd' := by
    rcases shared_setShared_eq_some hd' with ⟨rfl, -⟩ | ⟨-, hd'⟩
    · exact h.shared_lt hd
    · exact h.shared_lt hd'
  caches_lt := h.caches_lt
  latest_lt {id'} hlatest := by
    by_cases hid : id = id'
    · exact hid ▸ h.shared_lt hd
    · rw [latestDefault, if_neg hid] at hlatest
      exact h.latest_lt hlatest
  value hd' := by
    rcases shared_setShared_eq_some hd' with ⟨rfl, hnew⟩ | ⟨hne, hd'⟩
    · cases hnew
      rw [latestDefault, if_pos rfl]
    · rw [latestDefault, if_neg hne.symm, h.value hd']
  epoch_le hc hd' := by
    rcases shared_setShared_eq_some hd' with ⟨rfl, hnew⟩ | ⟨-, hd'⟩
    · cases hnew
      exact Nat.le_succ_of_le (h.epoch_le hc hd)
    · exact h.epoch_le hc hd'
  cached hc hd' hepoch := by
    rcases shared_setShared_eq_some hd' with ⟨rfl, hnew⟩ | ⟨-, hd'⟩
    · cases hnew
      exact absurd (hepoch ▸ h.epoch_le hc hd) (Nat.not_succ_le_self _)
    · exact h.cached hc hd' hepoch

/-- **Kept by every call.** -/
theorem perform (h : Current calls s) {call : SelectorCall} (hcall : s.permits call = true) :
    Current (call :: calls) (s.perform call) := by
  cases call with
  | new => exact h.new.mute fun _ => rfl
  | clone id =>
    obtain ⟨d, hd⟩ := exists_shared hcall
    refine mute (?_ : Current calls (s.clone id)) fun _ => rfl
    unfold Selection.clone
    rw [hd]
    exact h.setHandles hd _
  | drop t id =>
    obtain ⟨d, hd⟩ := exists_shared hcall
    refine mute (?_ : Current calls (s.drop t id)) fun _ => rfl
    unfold Selection.drop
    rw [hd]
    dsimp only
    split
    · exact h.gone.forget t id
    · exact h.setHandles hd _
  | setGlobal id release =>
    obtain ⟨d, hd⟩ := exists_shared hcall
    change Current _ (s.setGlobal id release)
    unfold Selection.setGlobal
    rw [hd]
    exact h.set hd release
  | global t id =>
    obtain ⟨d, hd⟩ := exists_shared hcall
    refine mute (?_ : Current calls (s.global t id).2) fun _ => rfl
    unfold Selection.global
    rw [hd]
    dsimp only
    split
    · exact h
    · exact (h.prune t).copy t hd

/-- What a thread sees of a selector is what was set last. -/
theorem global_eq (h : Current calls s) (t : ThreadId) (hid : s.isAlive id = true) :
    (s.global t id).1 = latestDefault id calls := by
  obtain ⟨d, hd⟩ := exists_shared hid
  unfold global
  rw [hd]
  dsimp only
  cases hfresh : s.freshCopy? t id d with
  | none => exact h.value hd
  | some c =>
    obtain ⟨hc, hepoch⟩ := Option.filter_eq_some_iff.mp hfresh
    exact (h.cached hc hd (of_decide_eq_true hepoch)).trans (h.value hd)

end Current

/-- **After any calls the copies are no obstacle.** -/
theorem Reached.current (h : Reached calls s) : Current calls s := by
  induction h with
  | start => exact .start
  | call _ _ hcall ih => exact ih.perform hcall

end Selection

end ApiModels
