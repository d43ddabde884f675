import ApiModels.Proofs.Components

/-!
# Walks come to an end

A walk goes on from each node it meets without asking how deep it is. `Walks` says what that amounts
to if it comes to an end at all: a derivation is a whole run of the walk, with every visit in it,
and there is none for a run that goes on for ever. The walk that `ApiModels.Graph` makes gives up at
a depth. It never gets there: on the way down the path holds different nodes of the graph, so there
is a run without any bound, the only one from the same start, and it ends where that walk does.
-/

namespace ApiModels.Graph

mutual

/-- A visit of a node that was not met, from a walk, comes to an end with a walk and a number. -/
inductive Visits (edges : Nat → List Nat) : Walk → Nat → Walk × Nat → Prop
  /-- The node comes back with its own number and closes its component. -/
  | closes {w after : Walk} {v : Nat} :
      Follows edges (edges v) (w.meet v, w.met.length) (after, w.met.length) →
      Visits edges w v (after.close v, w.met.length)
  /-- The node comes back with another number and stays on the stack. -/
  | leaves {w after : Walk} {v low : Nat} :
      Follows edges (edges v) (w.meet v, w.met.length) (after, low) → low ≠ w.met.length →
      Visits edges w v (after, low)

/-- Following edges to some nodes, one after the other, comes to an end. -/
inductive Follows (edges : Nat → List Nat) : List Nat → Walk × Nat → Walk × Nat → Prop
  | done {s : Walk × Nat} : Follows edges [] s s
  /-- An edge to a node not met is followed by a visit. -/
  | onward {w : Walk} {low u : Nat} {us : List Nat} {r s : Walk × Nat} :
      u ∉ w.met → Visits edges w u r → Follows edges us (r.1, min low r.2) s →
      Follows edges (u :: us) (w, low) s
  /-- An edge into the stack can lower the number. -/
  | back {w : Walk} {low u : Nat} {us : List Nat} {s : Walk × Nat} :
      u ∈ w.met → u ∈ w.stack → Follows edges us (w, min low (w.number u)) s →
      Follows edges (u :: us) (w, low) s
  /-- An edge into a closed component is passed over. -/
  | across {w : Walk} {low u : Nat} {us : List Nat} {s : Walk × Nat} :
      u ∈ w.met → u ∉ w.stack → Follows edges us (w, low) s →
      Follows edges (u :: us) (w, low) s

end

/-- A walk from some nodes, as far as they are not met yet, comes to an end. -/
inductive Walks (edges : Nat → List Nat) : List Nat → Walk → Walk → Prop
  | done {w : Walk} : Walks edges [] w w
  | skip {w w' : Walk} {v : Nat} {vs : List Nat} :
      v ∈ w.met → Walks edges vs w w' → Walks edges (v :: vs) w w'
  | start {w w' : Walk} {v : Nat} {vs : List Nat} {r : Walk × Nat} :
      v ∉ w.met → Visits edges w v r → Walks edges vs r.1 w' → Walks edges (v :: vs) w w'

variable {edges : Nat → List Nat}

/-! ## One end -/

mutual

theorem Visits.unique : ∀ {w : Walk} {v : Nat} {r r' : Walk × Nat},
    Visits edges w v r → Visits edges w v r' → r = r'
  | _, _, _, _, .closes h, .closes h' => by
      obtain ⟨rfl, -⟩ := Prod.mk.inj (Follows.unique h h')
      rfl
  | _, _, _, _, .closes h, .leaves h' hne =>
      absurd (Prod.mk.inj (Follows.unique h h')).2.symm hne
  | _, _, _, _, .leaves h hne, .closes h' => absurd (Prod.mk.inj (Follows.unique h h')).2 hne
  | _, _, _, _, .leaves h _, .leaves h' _ => Follows.unique h h'

theorem Follows.unique : ∀ {us : List Nat} {s s' s'' : Walk × Nat},
    Follows edges us s s' → Follows edges us s s'' → s' = s''
  | _, _, _, _, .done, .done => rfl
  | _, _, _, _, .onward _ hv h, .onward _ hv' h' => by
      obtain rfl := Visits.unique hv hv'
      exact Follows.unique h h'
  | _, _, _, _, .onward hu _ _, .back hu' _ _ => absurd hu' hu
  | _, _, _, _, .onward hu _ _, .across hu' _ _ => absurd hu' hu
  | _, _, _, _, .back hu _ _, .onward hu' _ _ => absurd hu hu'
  | _, _, _, _, .back _ _ h, .back _ _ h' => Follows.unique h h'
  | _, _, _, _, .back _ hs _, .across _ hs' _ => absurd hs hs'
  | _, _, _, _, .across hu _ _, .onward hu' _ _ => absurd hu hu'
  | _, _, _, _, .across _ hs _, .back _ hs' _ => absurd hs' hs
  | _, _, _, _, .across _ _ h, .across _ _ h' => Follows.unique h h'

end

variable {nodes path es us : List Nat} {w w' : Walk} {u v low depth : Nat}

theorem Walks.unique {w₁ w₂ : Walk} (h : Walks edges us w w₁) (h' : Walks edges us w w₂) :
    w₁ = w₂ := by
  induction h with
  | done =>
    cases h'
    rfl
  | skip hv _ ih =>
    cases h' with
    | skip _ h' => exact ih h'
    | start hv' _ _ => exact absurd hv hv'
  | start hv hr _ ih =>
    cases h' with
    | skip hv' _ => exact absurd hv' hv
    | start _ hr' h' =>
      obtain rfl := hr.unique hr'
      exact ih h'

/-! ## An end -/

/-- Visits of nodes not met come to an end when this much depth is left, and the bound on the depth
does not show. -/
def EndsAt (edges : Nat → List Nat) (nodes : List Nat) (depth : Nat) : Prop :=
  ∀ (path : List Nat) (w : Walk) (v : Nat), w.Inv edges nodes path → v ∈ nodes → v ∉ w.met →
    (∀ p ∈ path, Reaches edges p v) → nodes.length ≤ depth + w.met.length →
    Visits edges w v (visit edges depth w v)

/-- Following the edges that are left comes to an end. -/
theorem Following.follows (hI : w.Inv edges nodes path) (hv : v ∉ w.met)
    (hp : ∀ p ∈ path, Reaches edges p v) (hdepth : nodes.length ≤ depth + 1 + w.met.length)
    (hvisit : VisitsAt edges nodes depth) (hends : EndsAt edges nodes depth)
    (hn : ∀ u ∈ edges v, u ∈ nodes) (he : edges v = es ++ us)
    (h : Following edges nodes path w v es w' low) :
    Follows edges us (w', low) (us.foldl (follow (visit edges depth)) (w', low)) := by
  -- the edges that have been followed are in the invariant, those that are left in the derivation
  induction us generalizing es w' low with
  | nil => exact .done
  | cons u us ih =>
    have hu : u ∈ edges v := by
      rw [he]
      exact List.mem_append_right _ List.mem_cons_self
    have hrest := ih (by rw [he, List.append_cons])
      (h.step hI hv hp hdepth hvisit hu (hn u hu))
    rw [List.foldl_cons]
    by_cases hmet : u ∈ w'.met
    · by_cases hst : u ∈ w'.stack
      · have hback : follow (visit edges depth) (w', low) u = (w', min low (w'.number u)) := by
          simp [follow, hmet, hst]
        rw [hback] at hrest ⊢
        exact .back hmet hst hrest
      · have hacross : follow (visit edges depth) (w', low) u = (w', low) := by
          simp [follow, hmet, hst]
        rw [hacross] at hrest ⊢
        exact .across hmet hst hrest
    · obtain ⟨hpath, hleft⟩ := h.ready hp hdepth hu
      have honward : follow (visit edges depth) (w', low) u
          = ((visit edges depth w' u).1, min low (visit edges depth w' u).2) := by
        simp [follow, hmet]
      rw [honward] at hrest ⊢
      exact .onward hmet (hends (v :: path) w' u h.inv (hn u hu) hmet hpath hleft) hrest

/-- **Every visit comes to an end** that the bound on the depth does not cut short. -/
theorem endsAt (hn : ∀ v ∈ nodes, ∀ u ∈ edges v, u ∈ nodes) :
    ∀ depth, EndsAt edges nodes depth
  | 0 => by
      -- without depth every node is met
      intro path w v hI hnv hv _ hdepth
      have := hI.length_lt hv hnv
      omega
  | depth + 1 => by
      intro path w v hI hnv hv hp hdepth
      have hf := Following.follows hI hv hp hdepth (visitsAt hn depth) (endsAt hn depth)
        (hn v hnv) rfl (.init hI hnv hv hp)
      rw [visit]
      generalize (edges v).foldl (follow (visit edges depth)) (w.meet v, w.met.length) = r at hf
      obtain ⟨after, low⟩ := r
      dsimp only at hf ⊢
      by_cases hlow : low = w.met.length
      · rw [if_pos hlow]
        subst hlow
        exact .closes hf
      · rw [if_neg hlow]
        exact .leaves hf hlow

/-- **The whole walk comes to an end.** -/
theorem walks_walk (hn : ∀ v ∈ nodes, ∀ u ∈ edges v, u ∈ nodes) :
    Walks edges nodes {} (walk edges nodes) := by
  have hrun : ∀ (starts : List Nat) (w : Walk), (∀ v ∈ starts, v ∈ nodes) →
      w.Inv edges nodes [] → Walks edges starts w (starts.foldl (fun w v =>
        if w.met.contains v then w else (visit edges nodes.length w v).1) w) := by
    intro starts
    induction starts with
    | nil => exact fun _ _ _ => .done
    | cons v starts ih =>
      intro w hs hI
      obtain ⟨hv, hs⟩ := List.forall_mem_cons.mp hs
      rw [List.foldl_cons]
      by_cases hmet : v ∈ w.met
      · rw [if_pos (by simpa using hmet)]
        exact .skip hmet (ih w hs hI)
      · rw [if_neg (by simpa using hmet)]
        have hends := endsAt hn nodes.length [] w v hI hv hmet (by simp) (Nat.le_add_right _ _)
        have hvisited := visitsAt hn nodes.length [] w v hI hv hmet (by simp)
          (Nat.le_add_right _ _)
        exact .start hmet hends (ih _ hs hvisited.inv)
  exact hrun nodes {} (fun _ hv => hv) Walk.inv_empty

/-! ## Components -/

namespace IsComponents

variable {cs : List (List Nat)}

/-- Two nodes are in one component exactly if each reaches the other. -/
theorem together_iff (h : IsComponents edges nodes cs) (hu : u ∈ nodes) :
    (∃ c ∈ cs, u ∈ c ∧ v ∈ c) ↔ Mutual edges u v := by
  constructor
  · rintro ⟨c, hc, huc, hvc⟩
    exact ((h.classes c hc).2 u huc v).mp hvc
  · intro hmutual
    obtain ⟨c, hc, huc⟩ := List.mem_flatten.mp ((h.mem u).mpr hu)
    exact ⟨c, hc, huc, ((h.classes c hc).2 u huc v).mpr hmutual⟩

/-- Edges lead from a component to none that comes after it. -/
theorem le_of_edge (h : IsComponents edges nodes cs) {i j : Nat} {c d : List Nat}
    (hc : cs[i]? = some c) (hd : cs[j]? = some d) (hu : u ∈ c) (hedge : v ∈ edges u)
    (hv : v ∈ d) : j ≤ i := by
  by_contra hlt
  obtain ⟨hi, rfl⟩ := List.getElem?_eq_some_iff.mp hc
  obtain ⟨hj, rfl⟩ := List.getElem?_eq_some_iff.mp hd
  exact List.pairwise_iff_getElem.mp h.later i j hi hj (Nat.lt_of_not_le hlt) u hu v hedge hv

end IsComponents

/--
**The components of a graph.**

On every graph the walk comes to an end, in one way, however deep it has to go. What it has closed
then is a partition of the nodes. Two nodes are in one part exactly if each reaches the other, and
every part comes after all those that it has edges into.
-/
theorem components_of_graph (edges : Nat → List Nat) (nodes : List Nat)
    (hn : ∀ v ∈ nodes, ∀ u ∈ edges v, u ∈ nodes) :
    (∃ w, (∀ w', Walks edges nodes {} w' ↔ w' = w) ∧ w.closed = components edges nodes)
      ∧ (∀ c ∈ components edges nodes, c ≠ []) ∧ (components edges nodes).flatten.Nodup
      ∧ (∀ v, v ∈ (components edges nodes).flatten ↔ v ∈ nodes)
      ∧ (∀ u ∈ nodes, ∀ v ∈ nodes,
        (∃ c ∈ components edges nodes, u ∈ c ∧ v ∈ c) ↔ Reaches edges u v ∧ Reaches edges v u)
      ∧ ∀ (i j : Nat) (c d : List Nat), (components edges nodes)[i]? = some c →
        (components edges nodes)[j]? = some d → i ≠ j → (∃ u ∈ c, ∃ v ∈ d, v ∈ edges u) →
        j < i := by
  have hparts := isComponents_components hn
  refine ⟨⟨walk edges nodes, fun w' => ⟨fun h => h.unique (walks_walk hn), ?_⟩, rfl⟩,
    fun c hc => (hparts.classes c hc).1, hparts.nodup, hparts.mem,
    fun u hu v _ => hparts.together_iff hu, ?_⟩
  · rintro rfl
    exact walks_walk hn
  · rintro i j c d hc hd hne ⟨u, hu, v, hv, hedge⟩
    exact Nat.lt_of_le_of_ne (hparts.le_of_edge hc hd hu hedge hv) (Ne.symm hne)

/-- Two cycles, the one closed while the other is open, and edges into both once they are closed. -/
theorem components_of_graph_crossed :
    let edges : Nat → List Nat := fun u => [[1, 3], [2], [0, 4], [4], [3], [4, 5, 1]].getD u []
    let nodes := [0, 1, 2, 3, 4, 5]
    (∀ v ∈ nodes, ∀ u ∈ edges v, u ∈ nodes) ∧ components edges nodes = [[3, 4], [2, 1, 0], [5]]
      ∧ (∃ w, (∀ w', Walks edges nodes {} w' ↔ w' = w) ∧ w.closed = [[3, 4], [2, 1, 0], [5]])
      ∧ (Reaches edges 0 2 ∧ Reaches edges 2 0) ∧ ¬ (Reaches edges 2 4 ∧ Reaches edges 4 2) := by
  intro edges nodes
  have hn : ∀ v ∈ nodes, ∀ u ∈ edges v, u ∈ nodes := by decide
  have hcomponents : components edges nodes = [[3, 4], [2, 1, 0], [5]] := by decide
  obtain ⟨hends, -, -, -, htogether, -⟩ := components_of_graph edges nodes hn
  rw [hcomponents] at hends htogether
  refine ⟨hn, hcomponents, hends, (htogether 0 (by decide) 2 (by decide)).mp (by decide), ?_⟩
  exact mt (htogether 2 (by decide) 4 (by decide)).mpr (by decide)

end ApiModels.Graph
