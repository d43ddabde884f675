import ApiModels.Order
import Mathlib.Data.List.Nodup

/-!
# Releasing items

When what every item waits for is pending as well and has less weight, some item waits for nothing:
one of the least weight. So `release` never gets stuck. It hands out every item once, each after all
that it waited for.
-/

namespace ApiModels.Order

variable {weight : Emit → Nat} {before : Emit → Emit → Bool} {pending : List Pending}
  {steps : Nat} {es : List Emit} {e next : Emit}

theorem first?_mem (h : first? before es = some e) : e ∈ es := by
  cases es with
  | nil => simp [first?] at h
  | cons x xs =>
      rw [first?, Option.some.injEq] at h
      subst h
      -- the best so far is the first item or one of those folded in
      induction xs generalizing x with
      | nil => simp
      | cons y ys ih =>
          rw [List.foldl_cons]
          have hmem := ih (if before y x then y else x)
          rw [List.mem_cons] at hmem
          rcases hmem with hmem | hmem
          · rw [hmem]
            split
            · simp
            · simp
          · exact List.mem_cons_of_mem _ (List.mem_cons_of_mem _ hmem)

theorem first?_eq_none : first? before es = none ↔ es = [] := by
  cases es with
  | nil => simp [first?]
  | cons x xs => simp [first?]

/-- Items wait only for items that are pending as well and weigh less. -/
structure Founded (weight : Emit → Nat) (pending : List Pending) : Prop where
  nodup : (pending.map (·.item)).Nodup
  /-- What an item waits for is still to come. -/
  waits : ∀ p ∈ pending, ∀ w ∈ p.waits,
    w ∈ pending.map (·.item) ∧ weight w < weight p.item

/-- What is pending once an item is handed out. -/
def handOut (next : Emit) (pending : List Pending) : List Pending :=
  (pending.filter fun p => p.item ≠ next).map fun p =>
    { p with waits := p.waits.filter (· ≠ next) }

theorem release_succ : release before (steps + 1) pending =
    match first? before ((pending.filter fun p => p.waits.isEmpty).map (·.item)) with
    | none => ([], pending)
    | some next =>
        (next :: (release before steps (handOut next pending)).1,
          (release before steps (handOut next pending)).2) := by
  rw [release]
  rfl

theorem items_handOut :
    (handOut next pending).map (·.item) = (pending.map (·.item)).filter (· ≠ next) := by
  unfold handOut
  rw [List.map_map, List.filter_map]
  rfl

/-- Some item waits for nothing. -/
theorem Founded.exists_ready (h : Founded weight pending) (hne : pending ≠ []) :
    ∃ p ∈ pending, p.waits = [] := by
  obtain ⟨p, hp⟩ := List.exists_mem_of_ne_nil pending hne
  -- as long as an item waits, there is a lighter one
  induction hw : weight p.item using Nat.strongRecOn generalizing p with
  | _ n ih =>
      cases hq : p.waits with
      | nil => exact ⟨p, hp, hq⟩
      | cons w ws =>
          obtain ⟨hmem, hlt⟩ := h.waits p hp w (by rw [hq]; exact List.mem_cons_self)
          obtain ⟨q, hqp, rfl⟩ := List.mem_map.mp hmem
          exact ih (weight q.item) (by omega) q hqp rfl

theorem Founded.handOut (h : Founded weight pending) (next : Emit) :
    Founded weight (handOut next pending) where
  nodup := by
    rw [items_handOut]
    exact h.nodup.filter _
  waits := by
    intro p hp w hw
    unfold Order.handOut at hp
    obtain ⟨q, hq, rfl⟩ := List.mem_map.mp hp
    obtain ⟨hq, -⟩ := List.mem_filter.mp hq
    obtain ⟨hw, hne⟩ := List.mem_filter.mp hw
    obtain ⟨hmem, hlt⟩ := h.waits q hq w hw
    rw [items_handOut]
    exact ⟨List.mem_filter.mpr ⟨hmem, hne⟩, hlt⟩

/-- Every item is handed out once, after all it waits for. -/
structure Released (pending : List Pending) (items : List Emit) : Prop where
  perm : items.Perm (pending.map (·.item))
  after : ∀ p ∈ pending, ∀ w ∈ p.waits, items.idxOf w < items.idxOf p.item

/-- An item that waits for nothing may come first. -/
theorem Released.cons (hnd : (pending.map (·.item)).Nodup) {q : Pending} (hq : q ∈ pending)
    (hready : q.waits = []) (h : Released (handOut q.item pending) es) :
    Released pending (q.item :: es) where
  perm := by
    have hmem : q.item ∈ pending.map (·.item) := List.mem_map_of_mem hq
    refine List.Perm.trans ?_ (List.perm_cons_erase hmem).symm
    rw [List.perm_cons, hnd.erase_eq_filter]
    have hperm := h.perm
    rw [items_handOut] at hperm
    simpa only [bne_iff_ne, ne_eq, decide_not, bne, beq_eq_decide] using hperm
  after := by
    intro p hp w hw
    have hne : p.item ≠ q.item := by
      intro heq
      obtain rfl := List.inj_on_of_nodup_map hnd hp hq heq
      rw [hready] at hw
      simp at hw
    by_cases hwq : w = q.item
    · rw [hwq, List.idxOf_cons_self, List.idxOf_cons_ne _ hne.symm]
      omega
    · have hlt := h.after { p with waits := p.waits.filter (· ≠ q.item) }
        (List.mem_map.mpr ⟨p, List.mem_filter.mpr ⟨hp, by simpa using hne⟩, rfl⟩) w
        (List.mem_filter.mpr ⟨hw, by simpa using hwq⟩)
      rw [List.idxOf_cons_ne _ (Ne.symm hwq), List.idxOf_cons_ne _ hne.symm]
      exact Nat.succ_lt_succ hlt

/-- **Nothing is left** when items wait for lighter pending ones, and the order is right. -/
theorem Founded.release (h : Founded weight pending) (before : Emit → Emit → Bool)
    (hlen : pending.length ≤ steps) :
    (release before steps pending).2 = []
      ∧ Released pending (release before steps pending).1 := by
  induction steps generalizing pending with
  | zero =>
      obtain rfl := List.eq_nil_of_length_eq_zero (Nat.le_zero.mp hlen)
      exact ⟨rfl, by simp [Order.release], by simp⟩
  | succ steps ih =>
      rw [release_succ]
      cases hf : first? before ((pending.filter fun p => p.waits.isEmpty).map (·.item)) with
      | none =>
          -- nothing is ready, so nothing is pending
          have hnil : pending = [] := by
            by_contra hne
            obtain ⟨p, hp, hready⟩ := h.exists_ready hne
            rw [first?_eq_none, List.map_eq_nil_iff, List.filter_eq_nil_iff] at hf
            exact hf p hp (by rw [hready]; rfl)
          subst hnil
          exact ⟨rfl, by simp, by simp⟩
      | some next =>
          obtain ⟨q, hq, rfl⟩ := List.mem_map.mp (first?_mem hf)
          obtain ⟨hq, hready⟩ := List.mem_filter.mp hq
          have hlt : (Order.handOut q.item pending).length < pending.length := by
            unfold Order.handOut
            rw [List.length_map]
            exact List.length_filter_lt_length_iff_exists.mpr ⟨q, hq, by simp⟩
          obtain ⟨hleft, hreleased⟩ := ih (h.handOut q.item) (by omega)
          exact ⟨hleft, hreleased.cons h.nodup hq (List.isEmpty_iff.mp hready)⟩

end ApiModels.Order
