import ApiModels.Graph
import Mathlib.Data.List.Nodup
import Mathlib.Data.List.Perm.Subperm
import Mathlib.Logic.Relation

/-!
# Components are the classes of mutual reachability

The walk of `ApiModels.Graph` never computes what reaches what. It compares numbers, and closes a
component where a node comes back with its own. Why that is right is an invariant of the walk along
the *path*, the nodes that are met but not yet left:

* every node on the stack reaches a node of the path that is no later than itself, and is reached
  from every node of the path that is no later than itself;
* what is met and not on the path has all its edges followed;
* nothing leads out of the closed components.

A node that comes back with its own number has then, together with everything above it on the stack,
no edge down the stack. So it cannot reach the rest of the path, and what is above it cannot be
reached from later nodes either: the component is complete.
-/

namespace ApiModels.Graph

open Relation

/-- A node leads to another along edges, in any number of steps. -/
def Reaches (edges : Nat → List Nat) : Nat → Nat → Prop := ReflTransGen fun u v => v ∈ edges u

/-- Each of two nodes reaches the other. -/
def Mutual (edges : Nat → List Nat) (u v : Nat) : Prop := Reaches edges u v ∧ Reaches edges v u

variable {edges : Nat → List Nat} {nodes path : List Nat} {w w' w'' : Walk} {u v low depth : Nat}

theorem Mutual.symm (h : Mutual edges u v) : Mutual edges v u := ⟨h.2, h.1⟩

theorem Mutual.trans {x : Nat} (h₁ : Mutual edges u v) (h₂ : Mutual edges v x) :
    Mutual edges u x :=
  ⟨ReflTransGen.trans h₁.1 h₂.1, ReflTransGen.trans h₂.2 h₁.2⟩

/-- What nothing leads out of, cannot be left. -/
theorem Reaches.mem_of_closed {s : List Nat} (hs : ∀ x ∈ s, ∀ y ∈ edges x, y ∈ s)
    (h : Reaches edges u v) (hu : u ∈ s) : v ∈ s := by
  induction h with
  | refl => exact hu
  | tail _ hstep ih => exact hs _ ih _ hstep

/-! ## Numbers -/

/-- A later state of a walk. -/
structure Walk.Extends (w w' : Walk) : Prop where
  /-- Nothing met is forgotten, and no number changes. -/
  met : w.met <+: w'.met
  /-- The stack has only grown, by nodes that had not been met. -/
  stack : ∃ top, w'.stack = top ++ w.stack ∧ ∀ x ∈ top, x ∉ w.met

theorem Walk.Extends.refl (w : Walk) : w.Extends w := ⟨List.prefix_rfl, [], rfl, by simp⟩

theorem Walk.Extends.mem_met (h : w.Extends w') (hv : v ∈ w.met) : v ∈ w'.met :=
  h.met.subset hv

theorem Walk.Extends.mem_stack (h : w.Extends w') (hv : v ∈ w.stack) : v ∈ w'.stack := by
  obtain ⟨top, ht, _⟩ := h.stack
  rw [ht]
  exact List.mem_append_right _ hv

theorem Walk.Extends.trans (h₁ : w.Extends w') (h₂ : w'.Extends w'') : w.Extends w'' := by
  obtain ⟨top₁, ht₁, hn₁⟩ := h₁.stack
  obtain ⟨top₂, ht₂, hn₂⟩ := h₂.stack
  refine ⟨h₁.met.trans h₂.met, top₂ ++ top₁, by rw [ht₂, ht₁, List.append_assoc], ?_⟩
  intro x hx
  rcases List.mem_append.mp hx with h | h
  · exact fun hm => hn₂ x h (h₁.mem_met hm)
  · exact hn₁ x h

theorem Walk.extends_meet (w : Walk) (hv : v ∉ w.met) : w.Extends (w.meet v) :=
  ⟨List.prefix_append _ _, [v], rfl, by simpa using hv⟩

theorem Walk.number_lt (hv : v ∈ w.met) : w.number v < w.met.length :=
  List.idxOf_lt_length_of_mem hv

theorem Walk.Extends.number_eq (h : w.Extends w') (hv : v ∈ w.met) : w'.number v = w.number v := by
  obtain ⟨rest, hr⟩ := h.met
  rw [Walk.number, ← hr, List.idxOf_append_of_mem hv, Walk.number]

/-- Nodes met later have later numbers. -/
theorem Walk.Extends.le_number (h : w.Extends w') (hv : v ∉ w.met) :
    w.met.length ≤ w'.number v := by
  obtain ⟨rest, hr⟩ := h.met
  rw [Walk.number, ← hr, List.idxOf_append_of_notMem hv]
  exact Nat.le_add_right _ _

theorem Walk.mem_met_meet : u ∈ (w.meet v).met ↔ u ∈ w.met ∨ u = v := by
  simp [Walk.meet]

theorem Walk.number_meet (hv : v ∉ w.met) : (w.meet v).number v = w.met.length := by
  simp [Walk.number, Walk.meet, List.idxOf_append_of_notMem hv]

/-! ## The invariant -/

/-- What holds of a walk whenever it is about to follow an edge or to start anew. -/
structure Walk.Inv (edges : Nat → List Nat) (nodes path : List Nat) (w : Walk) : Prop where
  /-- Nodes are met once. -/
  nodup : w.met.Nodup
  /-- Only nodes of the graph are met. -/
  known : ∀ v ∈ w.met, v ∈ nodes
  /-- What is met is on the stack or in one closed component. -/
  perm : w.met.Perm (w.stack ++ w.closed.flatten)
  /-- The path is on the stack. -/
  live : ∀ v ∈ path, v ∈ w.stack
  /-- A node of the path reaches all that is above it on the stack. -/
  down : ∀ p ∈ path, ∀ v ∈ w.stack, w.number p ≤ w.number v → Reaches edges p v
  /-- What is on the stack reaches a node of the path that is not above it. -/
  up : ∀ v ∈ w.stack, ∃ p ∈ path, w.number p ≤ w.number v ∧ Reaches edges v p
  /-- What has been left has no edge to a node not met. -/
  left : ∀ v ∈ w.met, v ∉ path → ∀ u ∈ edges v, u ∈ w.met
  /-- No edge leads out of the closed components. -/
  tight : ∀ v ∈ w.closed.flatten, ∀ u ∈ edges v, u ∈ w.closed.flatten
  /-- Each closed component is a class of mutual reachability. -/
  classes : ∀ c ∈ w.closed, c ≠ [] ∧ ∀ v ∈ c, ∀ u, u ∈ c ↔ Mutual edges v u
  /-- No edge leads from a closed component into a later one. -/
  later : w.closed.Pairwise fun c d => ∀ u ∈ c, ∀ v ∈ edges u, v ∉ d

theorem Walk.inv_empty : ({} : Walk).Inv edges nodes [] where
  nodup := List.nodup_nil
  known := by simp
  perm := by simp
  live := by simp
  down := by simp
  up := by simp
  left := by simp
  tight := by simp
  classes := by simp
  later := by simp

namespace Walk.Inv

theorem mem_met (h : w.Inv edges nodes path) : v ∈ w.met ↔ v ∈ w.stack ∨ v ∈ w.closed.flatten := by
  rw [h.perm.mem_iff, List.mem_append]

theorem stack_met (h : w.Inv edges nodes path) (hv : v ∈ w.stack) : v ∈ w.met :=
  h.mem_met.mpr (.inl hv)

theorem notMem_closed (h : w.Inv edges nodes path) (hv : v ∈ w.stack) : v ∉ w.closed.flatten := by
  have hnd := h.perm.nodup_iff.mp h.nodup
  exact fun hc => (List.nodup_append.mp hnd).2.2 v hv v hc rfl

/-- Fewer nodes are met than the graph has while there is one to meet. -/
theorem length_lt (h : w.Inv edges nodes path) (hv : v ∉ w.met) (hn : v ∈ nodes) :
    w.met.length < nodes.length := by
  have hsub : v :: w.met ⊆ nodes := by
    intro x hx
    rcases List.mem_cons.mp hx with rfl | hx
    · exact hn
    · exact h.known x hx
  exact (List.subperm_of_subset (List.nodup_cons.mpr ⟨hv, h.nodup⟩) hsub).length_le

/-- Meeting a node that the path leads to puts it on the path. -/
theorem meet (h : w.Inv edges nodes path) (hn : v ∈ nodes) (hv : v ∉ w.met)
    (hp : ∀ p ∈ path, Reaches edges p v) : (w.meet v).Inv edges nodes (v :: path) := by
  have hext := w.extends_meet hv
  have hnum : ∀ x ∈ w.stack, (w.meet v).number x = w.number x :=
    fun x hx => hext.number_eq (h.stack_met hx)
  have hlt : ∀ x ∈ w.stack, (w.meet v).number x < (w.meet v).number v := by
    intro x hx
    rw [hnum x hx, w.number_meet hv]
    exact number_lt (h.stack_met hx)
  refine
    { nodup := ?_, known := ?_, perm := ?_, live := ?_, down := ?_, up := ?_, left := ?_,
      tight := h.tight, classes := h.classes, later := h.later }
  · exact List.nodup_append.mpr ⟨h.nodup, List.nodup_singleton v, by
      intro a ha b hb
      rw [List.mem_singleton.mp hb]
      exact fun he => hv (he ▸ ha)⟩
  · intro x hx
    rcases mem_met_meet.mp hx with hx | rfl
    · exact h.known x hx
    · exact hn
  · show (w.met ++ [v]).Perm (v :: (w.stack ++ w.closed.flatten))
    exact (List.perm_append_singleton v w.met).trans (h.perm.cons v)
  · intro p hx
    rcases List.mem_cons.mp hx with rfl | hx
    · exact List.mem_cons_self
    · exact List.mem_cons_of_mem _ (h.live p hx)
  · intro p hpv x hx hle
    rcases List.mem_cons.mp hpv with rfl | hpath
    · rcases List.mem_cons.mp hx with rfl | hx
      · exact ReflTransGen.refl
      · have := hlt x hx
        omega
    · rcases List.mem_cons.mp hx with rfl | hx
      · exact hp p hpath
      · rw [hnum p (h.live p hpath), hnum x hx] at hle
        exact h.down p hpath x hx hle
  · intro x hx
    rcases List.mem_cons.mp hx with rfl | hx
    · exact ⟨x, List.mem_cons_self, Nat.le_refl _, ReflTransGen.refl⟩
    · obtain ⟨p, hpath, hle, hr⟩ := h.up x hx
      refine ⟨p, List.mem_cons_of_mem _ hpath, ?_, hr⟩
      rw [hnum p (h.live p hpath), hnum x hx]
      exact hle
  · intro x hx hnp y hy
    rcases mem_met_meet.mp hx with hx | rfl
    · exact mem_met_meet.mpr (.inl (h.left x hx (fun hm => hnp (List.mem_cons_of_mem _ hm)) y hy))
    · exact absurd List.mem_cons_self hnp

end Walk.Inv

/-! ## Visiting a node -/

/-- What a visit of a node that was not met, from a path that leads to it, brings about. -/
structure Visited (edges : Nat → List Nat) (nodes path : List Nat) (w : Walk) (v : Nat)
    (w' : Walk) (low : Nat) : Prop where
  inv : w'.Inv edges nodes path
  ext : w.Extends w'
  met : v ∈ w'.met
  /-- The number it comes back with is its own, or that of a node below it which it reaches. -/
  reach : low = w.met.length ∨ ∃ s ∈ w.stack, w.number s = low ∧ Reaches edges v s
  /-- No edge from what it has put on the stack leads below that number. -/
  bound : ∀ x ∈ w'.stack, x ∉ w.stack → ∀ y ∈ edges x, y ∈ w.stack → low ≤ w.number y

/-- What holds while the edges of a node are followed, `es` being those that have been. -/
structure Following (edges : Nat → List Nat) (nodes path : List Nat) (w : Walk) (v : Nat)
    (es : List Nat) (w' : Walk) (low : Nat) : Prop where
  inv : w'.Inv edges nodes (v :: path)
  ext : (w.meet v).Extends w'
  met : ∀ u ∈ es, u ∈ w'.met
  reach : low = w.met.length ∨ ∃ s ∈ w.stack, w.number s = low ∧ Reaches edges v s
  bound : ∀ x ∈ w'.stack, x ∉ w.stack → x ≠ v → ∀ y ∈ edges x, y ∈ w.stack → low ≤ w.number y
  own : ∀ u ∈ es, u ∈ w.stack → low ≤ w.number u

/-- Visits of nodes not met are right when this much depth is left. -/
def VisitsAt (edges : Nat → List Nat) (nodes : List Nat) (depth : Nat) : Prop :=
  ∀ (path : List Nat) (w : Walk) (v : Nat), w.Inv edges nodes path → v ∈ nodes → v ∉ w.met →
    (∀ p ∈ path, Reaches edges p v) → nodes.length ≤ depth + w.met.length →
    Visited edges nodes path w v (visit edges depth w v).1 (visit edges depth w v).2

theorem Following.init (hI : w.Inv edges nodes path) (hn : v ∈ nodes) (hv : v ∉ w.met)
    (hp : ∀ p ∈ path, Reaches edges p v) :
    Following edges nodes path w v [] (w.meet v) w.met.length where
  inv := hI.meet hn hv hp
  ext := .refl _
  met := by simp
  reach := .inl rfl
  bound := by
    intro x hx hns hne
    rcases List.mem_cons.mp hx with rfl | hx
    · exact absurd rfl hne
    · exact absurd hx hns
  own := by simp

namespace Following

variable {es : List Nat}

theorem ext_outer (hv : v ∉ w.met) (h : Following edges nodes path w v es w' low) :
    w.Extends w' :=
  (w.extends_meet hv).trans h.ext

theorem low_le (hI : w.Inv edges nodes path) (h : Following edges nodes path w v es w' low) :
    low ≤ w.met.length := by
  rcases h.reach with he | ⟨s, hs, hsn, _⟩
  · exact Nat.le_of_eq he
  · rw [← hsn]
    exact Nat.le_of_lt (Walk.number_lt (hI.stack_met hs))

/-- The stack holds what it held before, the node, and what came after it. -/
theorem stack_eq (h : Following edges nodes path w v es w' low) :
    ∃ top, w'.stack = top ++ v :: w.stack ∧ ∀ x ∈ top, x ∉ w.met ∧ x ≠ v := by
  obtain ⟨top, ht, hnew⟩ := h.ext.stack
  refine ⟨top, ht, fun x hx => ?_⟩
  have := hnew x hx
  rw [Walk.mem_met_meet, not_or] at this
  exact this

/-- What is numbered below the node was on the stack before. -/
theorem mem_of_number_lt (h : Following edges nodes path w v es w' low)
    (hv : v ∉ w.met) (hu : u ∈ w'.stack) (hlt : w'.number u < w.met.length) : u ∈ w.stack := by
  obtain ⟨top, ht, hnew⟩ := h.stack_eq
  rw [ht] at hu
  rcases List.mem_append.mp hu with htop | hu
  · have := (h.ext_outer hv).le_number (hnew u htop).1
    omega
  · rcases List.mem_cons.mp hu with rfl | hu
    · have := (h.ext_outer hv).le_number hv
      omega
    · exact hu

/-- An edge to a node on the stack: its number counts where it lies below. -/
theorem step_stack (hI : w.Inv edges nodes path) (hv : v ∉ w.met)
    (h : Following edges nodes path w v es w' low) (hu : u ∈ edges v) (hst : u ∈ w'.stack) :
    Following edges nodes path w v (es ++ [u]) w' (min low (w'.number u)) := by
  have hnum : ∀ s ∈ w.stack, w'.number s = w.number s :=
    fun s hs => (h.ext_outer hv).number_eq (hI.stack_met hs)
  refine ⟨h.inv, h.ext, ?_, ?_, ?_, ?_⟩
  · intro x hx
    rcases List.mem_append.mp hx with hx | hx
    · exact h.met x hx
    · exact List.mem_singleton.mp hx ▸ h.inv.stack_met hst
  · rcases Nat.lt_or_ge (w'.number u) low with hlt | hge
    · have hus := h.mem_of_number_lt hv hst (Nat.lt_of_lt_of_le hlt (h.low_le hI))
      exact .inr ⟨u, hus, by rw [Nat.min_eq_right (Nat.le_of_lt hlt), hnum u hus],
        ReflTransGen.single hu⟩
    · rw [Nat.min_eq_left hge]
      exact h.reach
  · intro x hx hns hne y hy hys
    exact Nat.le_trans (Nat.min_le_left _ _) (h.bound x hx hns hne y hy hys)
  · intro x hx hxs
    rcases List.mem_append.mp hx with hx | hx
    · exact Nat.le_trans (Nat.min_le_left _ _) (h.own x hx hxs)
    · rw [List.mem_singleton.mp hx] at hxs ⊢
      rw [← hnum u hxs]
      exact Nat.min_le_right _ _

/-- An edge to a closed component changes nothing. -/
theorem step_closed (hv : v ∉ w.met) (h : Following edges nodes path w v es w' low)
    (hmet : u ∈ w'.met) (hst : u ∉ w'.stack) :
    Following edges nodes path w v (es ++ [u]) w' low := by
  refine ⟨h.inv, h.ext, ?_, h.reach, h.bound, ?_⟩
  · intro x hx
    rcases List.mem_append.mp hx with hx | hx
    · exact h.met x hx
    · exact List.mem_singleton.mp hx ▸ hmet
  · intro x hx hxs
    rcases List.mem_append.mp hx with hx | hx
    · exact h.own x hx hxs
    · rw [List.mem_singleton.mp hx] at hxs
      exact absurd ((h.ext_outer hv).mem_stack hxs) hst

/-- An edge to a node not met: the walk goes on from there. -/
theorem step_visit {low' : Nat} (hI : w.Inv edges nodes path) (hv : v ∉ w.met)
    (h : Following edges nodes path w v es w' low) (hu : u ∈ edges v) (hmet : u ∉ w'.met)
    (hr : Visited edges nodes (v :: path) w' u w'' low') :
    Following edges nodes path w v (es ++ [u]) w'' (min low low') := by
  have hext := h.ext_outer hv
  have hlow := h.low_le hI
  have hnum : ∀ s ∈ w.stack, w'.number s = w.number s :=
    fun s hs => hext.number_eq (hI.stack_met hs)
  have hlen : w.met.length + 1 ≤ w'.met.length := by
    simpa [Walk.meet] using h.ext.met.length_le
  refine ⟨hr.inv, h.ext.trans hr.ext, ?_, ?_, ?_, ?_⟩
  · intro x hx
    rcases List.mem_append.mp hx with hx | hx
    · exact hr.ext.mem_met (h.met x hx)
    · exact List.mem_singleton.mp hx ▸ hr.met
  · rcases Nat.lt_or_ge low' low with hlt | hge
    · rw [Nat.min_eq_right (Nat.le_of_lt hlt)]
      -- a number below the node's own is that of a node that was there before
      rcases hr.reach with he | ⟨s, hs, hsn, hus⟩
      · omega
      · have hss := h.mem_of_number_lt hv hs (by omega)
        exact .inr ⟨s, hss, by rw [← hnum s hss, hsn],
          ReflTransGen.trans (ReflTransGen.single hu) hus⟩
    · rw [Nat.min_eq_left hge]
      exact h.reach
  · intro x hx hns hne y hy hys
    by_cases hold : x ∈ w'.stack
    · exact Nat.le_trans (Nat.min_le_left _ _) (h.bound x hold hns hne y hy hys)
    · rw [← hnum y hys]
      exact Nat.le_trans (Nat.min_le_right _ _)
        (hr.bound x hx hold y hy (hext.mem_stack hys))
  · intro x hx hxs
    rcases List.mem_append.mp hx with hx | hx
    · exact Nat.le_trans (Nat.min_le_left _ _) (h.own x hx hxs)
    · rw [List.mem_singleton.mp hx] at hxs
      exact absurd (hext.mem_met (hI.stack_met hxs)) hmet

/-- When an edge leads to a node not met, the path up to here leads there, and there is depth left
for it. -/
theorem ready (hp : ∀ p ∈ path, Reaches edges p v)
    (hdepth : nodes.length ≤ depth + 1 + w.met.length)
    (h : Following edges nodes path w v es w' low) (hu : u ∈ edges v) :
    (∀ p ∈ v :: path, Reaches edges p u) ∧ nodes.length ≤ depth + w'.met.length := by
  have hlen : w.met.length + 1 ≤ w'.met.length := by
    simpa [Walk.meet] using h.ext.met.length_le
  refine ⟨?_, by omega⟩
  intro p hm
  rcases List.mem_cons.mp hm with rfl | hm
  · exact ReflTransGen.single hu
  · exact ReflTransGen.trans (hp p hm) (ReflTransGen.single hu)

/-- Following one more edge. -/
theorem step (hI : w.Inv edges nodes path) (hv : v ∉ w.met) (hp : ∀ p ∈ path, Reaches edges p v)
    (hdepth : nodes.length ≤ depth + 1 + w.met.length) (hvisit : VisitsAt edges nodes depth)
    (h : Following edges nodes path w v es w' low) (hu : u ∈ edges v) (hn : u ∈ nodes) :
    Following edges nodes path w v (es ++ [u]) (follow (visit edges depth) (w', low) u).1
      (follow (visit edges depth) (w', low) u).2 := by
  unfold follow
  by_cases hmet : u ∈ w'.met
  · rw [if_neg (by simpa using hmet)]
    by_cases hst : u ∈ w'.stack
    · rw [if_pos (by simpa using hst)]
      exact h.step_stack hI hv hu hst
    · rw [if_neg (by simpa using hst)]
      exact h.step_closed hv hmet hst
  · rw [if_pos (by simpa using hmet)]
    obtain ⟨hpath, hleft⟩ := h.ready hp hdepth hu
    exact h.step_visit hI hv hu hmet (hvisit (v :: path) w' u h.inv hn hmet hpath hleft)

/-- Following all edges that are left. -/
theorem foldl (hI : w.Inv edges nodes path) (hv : v ∉ w.met) (hp : ∀ p ∈ path, Reaches edges p v)
    (hdepth : nodes.length ≤ depth + 1 + w.met.length) (hvisit : VisitsAt edges nodes depth)
    (hn : ∀ u ∈ edges v, u ∈ nodes) :
    ∀ (rest es : List Nat) (w' : Walk) (low : Nat), edges v = es ++ rest →
      Following edges nodes path w v es w' low →
      Following edges nodes path w v (edges v)
        (rest.foldl (follow (visit edges depth)) (w', low)).1
        (rest.foldl (follow (visit edges depth)) (w', low)).2
  | [], es, w', low, he, h => by
      rw [List.append_nil] at he
      rw [he]
      exact h
  | u :: rest, es, w', low, he, h => by
      have hu : u ∈ edges v := by rw [he]; simp
      rw [List.foldl_cons]
      refine foldl hI hv hp hdepth hvisit hn rest (es ++ [u]) _ _ (by simp [he]) ?_
      exact h.step hI hv hp hdepth hvisit hu (hn u hu)

/-! ## Leaving a node -/

/-- A node left is one whose edges all lead to what is met. -/
theorem left_of_followed (h : Following edges nodes path w v (edges v) w' low) :
    ∀ x ∈ w'.met, x ∉ path → ∀ y ∈ edges x, y ∈ w'.met := by
  intro x hx hnp y hy
  by_cases hxv : x = v
  · exact h.met y (hxv ▸ hy)
  · exact h.inv.left x hx (by simp [hxv, hnp]) y hy

/-- A node with an edge down the stack stays on it. -/
theorem leave (hI : w.Inv edges nodes path) (hv : v ∉ w.met) (hlow : low ≠ w.met.length)
    (h : Following edges nodes path w v (edges v) w' low) :
    Visited edges nodes path w v w' low where
  inv :=
    { nodup := h.inv.nodup
      known := h.inv.known
      perm := h.inv.perm
      live := fun p hp => h.inv.live p (List.mem_cons_of_mem _ hp)
      down := fun p hp => h.inv.down p (List.mem_cons_of_mem _ hp)
      up := by
        intro x hx
        obtain ⟨p, hp, hle, hr⟩ := h.inv.up x hx
        rcases List.mem_cons.mp hp with rfl | hp
        · -- what reached the node now reaches the path the way the node does
          obtain ⟨s, hs, hsn, hps⟩ := h.reach.resolve_left hlow
          obtain ⟨q, hq, hqs, hsq⟩ := hI.up s hs
          refine ⟨q, hq, ?_, ReflTransGen.trans hr (ReflTransGen.trans hps hsq)⟩
          have hnq := (h.ext_outer hv).number_eq (hI.stack_met (hI.live q hq))
          have hnp := (h.ext_outer hv).le_number hv
          have := h.low_le hI
          omega
        · exact ⟨p, hp, hle, hr⟩
      left := h.left_of_followed
      tight := h.inv.tight
      classes := h.inv.classes
      later := h.inv.later }
  ext := h.ext_outer hv
  met := h.inv.stack_met (h.inv.live v List.mem_cons_self)
  reach := h.reach
  bound := by
    intro x hx hns y hy hys
    by_cases hxv : x = v
    · exact h.own y (hxv ▸ hy) hys
    · exact h.bound x hx hns hxv y hy hys

/-- Nothing leads from the node and what is above it down the stack, if the node comes back with its
own number. -/
theorem tight_top (hI : w.Inv edges nodes path)
    (h : Following edges nodes path w v (edges v) w' w.met.length) {top : List Nat}
    (hst : w'.stack = top ++ v :: w.stack) (hnew : ∀ x ∈ top, x ∉ w.met ∧ x ≠ v)
    (hpath : ∀ p ∈ path, p ∈ w.met) (hv : v ∉ w.met) :
    ∀ x ∈ top ++ [v], ∀ y ∈ edges x, y ∈ w'.closed.flatten ∨ y ∈ top ++ [v] := by
  intro x hx y hy
  have hxs : x ∈ w'.stack := by
    rw [hst]
    rcases List.mem_append.mp hx with hx | hx
    · exact List.mem_append_left _ hx
    · exact List.mem_append_right _ (List.mem_singleton.mp hx ▸ List.mem_cons_self)
  have hxm : x ∉ w.met := by
    rcases List.mem_append.mp hx with hx | hx
    · exact (hnew x hx).1
    · rw [List.mem_singleton.mp hx]
      exact hv
  have hym := h.left_of_followed x (h.inv.stack_met hxs) (fun hp => hxm (hpath x hp)) y hy
  rcases h.inv.mem_met.mp hym with hys | hyc
  · right
    rw [hst] at hys
    rcases List.mem_append.mp hys with hyt | hys
    · exact List.mem_append_left _ hyt
    · rcases List.mem_cons.mp hys with rfl | hys
      · simp
      · -- an edge down the stack would have lowered the number
        exfalso
        have hle : w.met.length ≤ w.number y := by
          by_cases hxv : x = v
          · exact h.own y (hxv ▸ hy) hys
          · exact h.bound x hxs (fun hm => hxm (hI.stack_met hm)) hxv y hy hys
        have := Walk.number_lt (hI.stack_met hys)
        omega
  · exact .inl hyc

/-- The node and what is above it on the stack reach each other. -/
theorem mutual_top (hI : w.Inv edges nodes path) (hv : v ∉ w.met)
    (h : Following edges nodes path w v (edges v) w' low) {top : List Nat}
    (hst : w'.stack = top ++ v :: w.stack) (hnew : ∀ x ∈ top, x ∉ w.met ∧ x ≠ v) :
    ∀ x ∈ top ++ [v], Mutual edges v x := by
  intro x hx
  have hvm : v ∈ (w.meet v).met := Walk.mem_met_meet.mpr (.inr rfl)
  have hnv : w'.number v = w.met.length := by rw [h.ext.number_eq hvm, w.number_meet hv]
  rcases List.mem_append.mp hx with hxt | hxv
  · have hxs : x ∈ w'.stack := by rw [hst]; exact List.mem_append_left _ hxt
    have hvx : Reaches edges v x := by
      refine h.inv.down v List.mem_cons_self x hxs ?_
      rw [hnv]
      exact (h.ext_outer hv).le_number (hnew x hxt).1
    refine ⟨hvx, ?_⟩
    obtain ⟨p, hp, _, hxp⟩ := h.inv.up x hxs
    rcases List.mem_cons.mp hp with rfl | hpath
    · exact hxp
    · -- a node of the path below reaches this one
      have hpm : p ∈ w.met := hI.stack_met (hI.live p hpath)
      have hlt := Walk.number_lt hpm
      rw [← (h.ext_outer hv).number_eq hpm, ← hnv] at hlt
      exact ReflTransGen.trans hxp (h.inv.down p (List.mem_cons_of_mem _ hpath) v
        (h.inv.live v List.mem_cons_self) (Nat.le_of_lt hlt))
  · rw [List.mem_singleton.mp hxv]
    exact ⟨ReflTransGen.refl, ReflTransGen.refl⟩

theorem close_eq {top : List Nat} (hst : w'.stack = top ++ v :: w.stack)
    (hnew : ∀ x ∈ top, x ∉ w.met ∧ x ≠ v) :
    w'.close v = { met := w'.met, stack := w.stack, closed := w'.closed ++ [top ++ [v]] } := by
  have hne : ∀ x ∈ top, (decide (x ≠ v)) = true := fun x hx => decide_eq_true (hnew x hx).2
  rw [Walk.close, hst, List.takeWhile_append_of_pos hne, List.dropWhile_append_of_pos hne]
  simp

/-- What is still on the stack is in no component closed before. -/
theorem top_open (h : Following edges nodes path w v es w' low) {top : List Nat}
    (hst : w'.stack = top ++ v :: w.stack) : ∀ x ∈ top ++ [v], x ∉ w'.closed.flatten := by
  intro x hx
  refine h.inv.notMem_closed ?_
  rw [hst]
  rcases List.mem_append.mp hx with hx | hx
  · exact List.mem_append_left _ hx
  · exact List.mem_append_right _ (List.mem_singleton.mp hx ▸ List.mem_cons_self)

/-- Nothing leads out of the components closed, the new one included. -/
theorem tight_closed (hI : w.Inv edges nodes path) (hv : v ∉ w.met)
    (h : Following edges nodes path w v (edges v) w' w.met.length) {top : List Nat}
    (hst : w'.stack = top ++ v :: w.stack) (hnew : ∀ x ∈ top, x ∉ w.met ∧ x ≠ v) :
    ∀ x ∈ (w'.closed ++ [top ++ [v]]).flatten, ∀ y ∈ edges x,
      y ∈ (w'.closed ++ [top ++ [v]]).flatten := by
  intro x hx y hy
  rw [List.flatten_append, List.flatten_singleton] at hx ⊢
  rcases List.mem_append.mp hx with hx | hx
  · exact List.mem_append_left _ (h.inv.tight x hx y hy)
  · have hpath : ∀ p ∈ path, p ∈ w.met := fun p hp => hI.stack_met (hI.live p hp)
    exact List.mem_append.mpr (h.tight_top hI hst hnew hpath hv x hx y hy)

/-- The node and what is above it on the stack are a class of mutual reachability. -/
theorem class_top (hI : w.Inv edges nodes path) (hv : v ∉ w.met)
    (h : Following edges nodes path w v (edges v) w' w.met.length) {top : List Nat}
    (hst : w'.stack = top ++ v :: w.stack) (hnew : ∀ x ∈ top, x ∉ w.met ∧ x ≠ v) :
    ∀ x ∈ top ++ [v], ∀ u, u ∈ top ++ [v] ↔ Mutual edges x u := by
  have hmutual := h.mutual_top hI hv hst hnew
  intro x hx u
  constructor
  · exact fun hu => (hmutual x hx).symm.trans (hmutual u hu)
  · intro hxu
    have hin : x ∈ (w'.closed ++ [top ++ [v]]).flatten := by
      rw [List.flatten_append, List.flatten_singleton]
      exact List.mem_append_right _ hx
    have hu := Reaches.mem_of_closed (h.tight_closed hI hv hst hnew) hxu.1 hin
    rw [List.flatten_append, List.flatten_singleton] at hu
    rcases List.mem_append.mp hu with hu | hu
    · -- what reaches back from a component closed before would be in it
      exact absurd (Reaches.mem_of_closed h.inv.tight hxu.2 hu) (h.top_open hst x hx)
    · exact hu

/-- A node without an edge down the stack closes its component. -/
theorem close (hI : w.Inv edges nodes path) (hv : v ∉ w.met)
    (h : Following edges nodes path w v (edges v) w' w.met.length) :
    Visited edges nodes path w v (w'.close v) w.met.length := by
  obtain ⟨top, hst, hnew⟩ := h.stack_eq
  have hext := h.ext_outer hv
  rw [close_eq hst hnew]
  have hinv : Walk.Inv edges nodes path
      { met := w'.met, stack := w.stack, closed := w'.closed ++ [top ++ [v]] } :=
    { nodup := h.inv.nodup
      known := h.inv.known
      perm := by
        refine h.inv.perm.trans ?_
        rw [hst]
        have hl : top ++ v :: w.stack ++ w'.closed.flatten
            = (top ++ [v]) ++ (w.stack ++ w'.closed.flatten) := by simp
        have hr : w.stack ++ (w'.closed ++ [top ++ [v]]).flatten
            = (w.stack ++ w'.closed.flatten) ++ (top ++ [v]) := by simp
        rw [hl, hr]
        exact List.perm_append_comm
      live := hI.live
      down := fun p hp x hx =>
        h.inv.down p (List.mem_cons_of_mem _ hp) x (hext.mem_stack hx)
      up := by
        intro x hx
        obtain ⟨p, hp, hle, hr⟩ := hI.up x hx
        refine ⟨p, hp, ?_, hr⟩
        show w'.number p ≤ w'.number x
        rw [hext.number_eq (hI.stack_met (hI.live p hp)), hext.number_eq (hI.stack_met hx)]
        exact hle
      left := h.left_of_followed
      tight := h.tight_closed hI hv hst hnew
      classes := by
        intro c hc
        rcases List.mem_append.mp hc with hc | hc
        · exact h.inv.classes c hc
        · rw [List.mem_singleton.mp hc]
          exact ⟨by simp, h.class_top hI hv hst hnew⟩
      later := by
        refine List.pairwise_append.mpr ⟨h.inv.later, List.pairwise_singleton _ _, ?_⟩
        intro c hc d hd u hu y hy hyd
        rw [List.mem_singleton.mp hd] at hyd
        exact h.top_open hst y hyd (h.inv.tight u (List.mem_flatten.mpr ⟨c, hc, hu⟩) y hy) }
  exact
    { inv := hinv
      ext := ⟨hext.met, [], rfl, by simp⟩
      met := h.inv.stack_met (h.inv.live v List.mem_cons_self)
      reach := .inl rfl
      bound := fun x hx hns => absurd hx hns }

end Following

/-! ## The whole walk -/

/-- **Every visit is right**, at whatever depth is enough for the nodes not met. -/
theorem visitsAt (hn : ∀ v ∈ nodes, ∀ u ∈ edges v, u ∈ nodes) :
    ∀ depth, VisitsAt edges nodes depth
  | 0 => by
      intro path w v hI hnv hv _ hdepth
      have := hI.length_lt hv hnv
      omega
  | depth + 1 => by
      intro path w v hI hnv hv hp hdepth
      have hf := Following.foldl hI hv hp hdepth (visitsAt hn depth) (hn v hnv) (edges v) []
        (w.meet v) w.met.length rfl (.init hI hnv hv hp)
      rw [visit]
      generalize (edges v).foldl (follow (visit edges depth)) (w.meet v, w.met.length) = r at hf
      obtain ⟨after, low⟩ := r
      dsimp only at hf ⊢
      by_cases hlow : low = w.met.length
      · rw [if_pos hlow]
        subst hlow
        exact hf.close hI hv
      · rw [if_neg hlow]
        exact hf.leave hI hv hlow

/-- The walk keeps its invariant with no node on the path, and meets every node it starts from. -/
theorem walk_inv (hn : ∀ v ∈ nodes, ∀ u ∈ edges v, u ∈ nodes) :
    ∀ (starts : List Nat) (w : Walk), (∀ v ∈ starts, v ∈ nodes) → w.Inv edges nodes [] →
      (starts.foldl (fun w v => if w.met.contains v then w
          else (visit edges nodes.length w v).1) w).Inv edges nodes []
        ∧ ∀ v, v ∈ w.met ∨ v ∈ starts →
          v ∈ (starts.foldl (fun w v => if w.met.contains v then w
            else (visit edges nodes.length w v).1) w).met
  | [], w, _, hI => ⟨hI, fun v hv => hv.resolve_right (by simp)⟩
  | s :: starts, w, hs, hI => by
      have hrest : ∀ v ∈ starts, v ∈ nodes := fun v hv => hs v (List.mem_cons_of_mem _ hv)
      rw [List.foldl_cons]
      by_cases hmet : s ∈ w.met
      · rw [if_pos (by simpa using hmet)]
        obtain ⟨h₁, h₂⟩ := walk_inv hn starts w hrest hI
        refine ⟨h₁, fun v hv => h₂ v ?_⟩
        rcases hv with hv | hv
        · exact .inl hv
        · rcases List.mem_cons.mp hv with rfl | hv
          · exact .inl hmet
          · exact .inr hv
      · rw [if_neg (by simpa using hmet)]
        have hv := visitsAt hn nodes.length [] w s hI (hs s List.mem_cons_self) hmet (by simp)
          (Nat.le_add_right _ _)
        obtain ⟨h₁, h₂⟩ := walk_inv hn starts _ hrest hv.inv
        refine ⟨h₁, fun v hm => h₂ v ?_⟩
        rcases hm with hm | hm
        · exact .inl (hv.ext.mem_met hm)
        · rcases List.mem_cons.mp hm with rfl | hm
          · exact .inl hv.met
          · exact .inr hm

/-- What is said of a list of components. -/
structure IsComponents (edges : Nat → List Nat) (nodes : List Nat) (cs : List (List Nat)) :
    Prop where
  /-- Every node is in one component, and once. -/
  nodup : cs.flatten.Nodup
  mem : ∀ v, v ∈ cs.flatten ↔ v ∈ nodes
  /-- Each component holds what its nodes reach and are reached from. -/
  classes : ∀ c ∈ cs, c ≠ [] ∧ ∀ v ∈ c, ∀ u, u ∈ c ↔ Mutual edges v u
  /-- Each comes after those it has edges into. -/
  later : cs.Pairwise fun c d => ∀ u ∈ c, ∀ v ∈ edges u, v ∉ d

/-- **The walk finds the components of every graph.** -/
theorem isComponents_components (hn : ∀ v ∈ nodes, ∀ u ∈ edges v, u ∈ nodes) :
    IsComponents edges nodes (components edges nodes) := by
  obtain ⟨hI, hall⟩ := walk_inv hn nodes {} (fun _ hv => hv) Walk.inv_empty
  rw [← walk] at hI hall
  -- with nothing on the path there is nothing on the stack
  have hstack : (walk edges nodes).stack = [] := by
    refine List.eq_nil_iff_forall_not_mem.mpr fun v hv => ?_
    obtain ⟨p, hp, _⟩ := hI.up v hv
    simp at hp
  have hperm := hI.perm
  rw [hstack, List.nil_append] at hperm
  exact
    { nodup := hperm.nodup_iff.mp hI.nodup
      mem := fun v => by
        rw [components, ← hperm.mem_iff]
        exact ⟨hI.known v, fun hv => hall v (.inr hv)⟩
      classes := hI.classes
      later := hI.later }

/-- A cycle of three, closed after what it leads to. -/
example : components (fun u => [[1], [2], [0, 3], []].getD u []) [0, 1, 2, 3]
    = [[3], [2, 1, 0]] := by
  decide

end ApiModels.Graph
