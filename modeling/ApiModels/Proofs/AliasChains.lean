import ApiModels.Proofs.Table
import ApiModels.Registry.Lookup

/-!
# Chains of aliases

An alias may stand for another one, so a name begins a chain. Following it ends because every alias
is met once at most: each step leaves fewer that have not been met. What is found is the name at
which the chain leaves the table, and nothing is found exactly when it never does, wherever on the
way it begins to go round.
-/

namespace ApiModels.Registry

variable {aliases : Table String} {met : List String} {name next c : String} {n : Nat}

/-! ## One step -/

theorem follow_of_none (h : aliases.get? name = none) : follow aliases met name = some name := by
  rw [follow]
  split
  · rfl
  · rename_i hsome
    rw [h] at hsome
    cases hsome

theorem follow_of_some (h : aliases.get? name = some next) :
    follow aliases met name
      = if name ∈ met then none else follow aliases (name :: met) next := by
  rw [follow]
  split
  · rename_i hnone
    rw [h] at hnone
    cases hnone
  · rename_i hsome
    rw [h] at hsome
    cases hsome
    split <;> rfl

/-! ## Where a chain goes -/

/-- The name that stands some steps along a chain, if the chain goes on so far. -/
def along (aliases : Table String) : Nat → String → Option String
  | 0, name => some name
  | n + 1, name => (aliases.get? name).bind (along aliases n)

theorem along_of_some (h : aliases.get? name = some next) (n : Nat) :
    along aliases (n + 1) name = along aliases n next := by
  rw [along, h, Option.bind_some]

/-- A chain goes on from where it has come to. -/
theorem along_succ (aliases : Table String) (n : Nat) (name : String) :
    along aliases (n + 1) name = (along aliases n name).bind aliases.get? := by
  induction n generalizing name with
  | zero => cases h : aliases.get? name <;> simp [along, h]
  | succ n ih =>
    cases h : aliases.get? name with
    | none => simp [along, h]
    | some next => rw [along_of_some h, along_of_some h, ih]

/-- A chain that has left the table goes nowhere. -/
theorem along_of_end (h : aliases.get? c = none) (hn : along aliases n name = some c) :
    along aliases (n + 1) name = none := by
  rw [along_succ, hn, Option.bind_some, h]

/-- A chain leaves the table after one number of steps only. -/
theorem along_inj {n' : Nat} (h : aliases.get? c = none) (hn : along aliases n name = some c)
    (hn' : along aliases n' name = some c) : n = n' := by
  induction n generalizing n' name with
  | zero =>
    cases n' with
    | zero => rfl
    | succ n' =>
      cases hn
      rw [along, h] at hn'
      cases hn'
  | succ n ih =>
    cases hnext : aliases.get? name with
    | none =>
      rw [along, hnext] at hn
      cases hn
    | some next =>
      rw [along_of_some hnext] at hn
      cases n' with
      | zero =>
        cases hn'
        rw [h] at hnext
        cases hnext
      | succ n' =>
        rw [along_of_some hnext] at hn'
        rw [ih hn hn']

/-- A chain that does not go on left the table on the way. -/
theorem exists_end (h : along aliases n name = none) :
    ∃ m c, along aliases m name = some c ∧ aliases.get? c = none := by
  induction n with
  | zero => cases h
  | succ n ih =>
    cases hn : along aliases n name with
    | none => exact ih hn
    | some c =>
      rw [along_succ, hn, Option.bind_some] at h
      exact ⟨n, c, hn, h⟩

/-! ## What is found -/

/-- What is found is where the chain leaves the table, after no more steps than there are aliases
that have not been met. -/
theorem along_of_follow (h : follow aliases met name = some c) :
    aliases.get? c = none ∧ ∃ n ≤ (aliases.keys.filter fun key => key ∉ met).length,
      along aliases n name = some c := by
  fun_induction follow aliases met name with
  | case1 met name hnone =>
    cases h
    exact ⟨hnone, 0, Nat.zero_le _, rfl⟩
  | case2 met name next hnext hmet => cases h
  | case3 met name next hnext hnew ih =>
    obtain ⟨hend, n, hle, hn⟩ := ih h
    have hlt := length_filter_met_lt hnext hnew
    exact ⟨hend, n + 1, by omega, by rw [along_of_some hnext, hn]⟩

/-- Nothing is found where an alias comes back, after no more steps than there are aliases that have
not been met. -/
theorem returns_of_follow (h : follow aliases met name = none) :
    ∃ n ≤ (aliases.keys.filter fun key => key ∉ met).length, ∃ a, along aliases n name = some a
      ∧ (a ∈ met ∨ ∃ m < n, along aliases m name = some a) := by
  fun_induction follow aliases met name with
  | case1 met name hnone => cases h
  | case2 met name next hnext hmet => exact ⟨0, Nat.zero_le _, name, rfl, .inl hmet⟩
  | case3 met name next hnext hnew ih =>
    obtain ⟨n, hle, a, hn, hback⟩ := ih h
    have hlt := length_filter_met_lt hnext hnew
    refine ⟨n + 1, by omega, a, by rw [along_of_some hnext, hn], ?_⟩
    rcases hback with hmem | ⟨m, hm, hmeets⟩
    · rcases List.mem_cons.mp hmem with rfl | hmem
      · exact .inr ⟨0, Nat.succ_pos n, rfl⟩
      · exact .inl hmem
    · exact .inr ⟨m + 1, Nat.succ_lt_succ hm, by rw [along_of_some hnext, hmeets]⟩

/-- A chain that leaves the table is followed to its end. What was met on the way is further from
the end, so it does not come up again. -/
theorem follow_of_along (h : aliases.get? c = none) (hn : along aliases n name = some c)
    (hmet : ∀ d ∈ met, ∃ m > n, along aliases m d = some c) : follow aliases met name = some c := by
  induction n generalizing met name with
  | zero =>
    cases hn
    exact follow_of_none h
  | succ n ih =>
    cases hnext : aliases.get? name with
    | none =>
      rw [along, hnext] at hn
      cases hn
    | some next =>
      have hnew : name ∉ met := by
        intro hmem
        obtain ⟨m, hlt, hm⟩ := hmet name hmem
        exact Nat.ne_of_lt hlt (along_inj h hn hm)
      rw [follow_of_some hnext, if_neg hnew]
      refine ih (by rw [← along_of_some hnext, hn]) fun d hd => ?_
      rcases List.mem_cons.mp hd with rfl | hd
      · exact ⟨n + 1, Nat.lt_succ_self n, hn⟩
      · obtain ⟨m, hlt, hm⟩ := hmet d hd
        exact ⟨m, Nat.lt_of_succ_lt hlt, hm⟩

/-- **The end of a chain is where it leaves the table.** -/
theorem chainEnd?_eq_some_iff :
    chainEnd? aliases name = some c ↔
      (∃ n, along aliases n name = some c) ∧ aliases.get? c = none := by
  constructor
  · intro h
    obtain ⟨hend, n, -, hn⟩ := along_of_follow h
    exact ⟨⟨n, hn⟩, hend⟩
  · rintro ⟨⟨n, hn⟩, hend⟩
    exact follow_of_along hend hn fun _ hd => nomatch hd

/-- **A chain has no end exactly when it never leaves the table.** -/
theorem chainEnd?_eq_none_iff :
    chainEnd? aliases name = none ↔
      ∀ n, ∃ a ∈ aliases.keys, along aliases n name = some a := by
  constructor
  · intro h n
    have hgoes : ∀ m, along aliases m name ≠ none := by
      intro m hm
      obtain ⟨k, c, hk, hc⟩ := exists_end hm
      rw [chainEnd?_eq_some_iff.mpr ⟨⟨k, hk⟩, hc⟩] at h
      cases h
    obtain ⟨a, ha⟩ := Option.ne_none_iff_exists'.mp (hgoes n)
    refine ⟨a, ?_, ha⟩
    have hnext := hgoes (n + 1)
    rw [along_succ, ha, Option.bind_some] at hnext
    exact Table.isSome_get?.mp (Option.isSome_iff_ne_none.mpr hnext)
  · intro h
    cases hend : chainEnd? aliases name with
    | none => rfl
    | some c =>
      obtain ⟨⟨n, hn⟩, hc⟩ := chainEnd?_eq_some_iff.mp hend
      obtain ⟨a, -, ha⟩ := h (n + 1)
      rw [along_of_end hc hn] at ha
      cases ha

/-! ## Canonical names -/

variable {r : Registry} {label version : String} {entry : ReleaseEntry}

/-- In a version that the release has, a name stands for the end of its chain. -/
theorem canonicalName_eq (hentry : r.releases.get? label = some entry)
    (hversion : version ∈ entry.versions) (name : String) :
    r.canonicalName label version name
      = match chainEnd? ((entry.deprecations.get? version).getD {}) name with
        | some c => .ok c
        | none => .error (.aliasCycle name) := by
  have hhas : entry.hasVersion version = true := List.contains_iff_mem.mpr hversion
  unfold canonicalName release
  rw [hentry]
  simp only [bind, Except.bind, hhas]
  rfl

/--
**A name stands for the end of its chain.**

In a version that the release has, whatever its table of aliases is, a name stands for a canonical
name exactly when some number of steps along its chain leads there and the canonical name is no
alias. The chain is reported as cyclic exactly when it is at an alias after every number of steps.
After no more steps than there are aliases it is known which: the chain is at its end, or back at an
alias it was at before. A canonical name stands for itself.
-/
theorem canonicalName_of_chain (r : Registry) (label version name : String) (entry : ReleaseEntry)
    (hentry : r.releases.get? label = some entry) (hversion : version ∈ entry.versions) :
    let aliases := (entry.deprecations.get? version).getD {}
    (∀ c, r.canonicalName label version name = .ok c ↔
        (∃ n, along aliases n name = some c) ∧ aliases.get? c = none)
      ∧ (r.canonicalName label version name = .error (.aliasCycle name) ↔
        ∀ n, ∃ a ∈ aliases.keys, along aliases n name = some a)
      ∧ (∃ n ≤ aliases.keys.length, ∃ c, along aliases n name = some c
        ∧ (r.canonicalName label version name = .ok c
          ∨ (∃ m < n, along aliases m name = some c)
            ∧ r.canonicalName label version name = .error (.aliasCycle name)))
      ∧ ∀ c, r.canonicalName label version name = .ok c →
        r.canonicalName label version c = .ok c := by
  intro aliases
  have hlength : (aliases.keys.filter fun key => key ∉ []).length ≤ aliases.keys.length :=
    List.length_filter_le _ _
  have hok : ∀ name c,
      r.canonicalName label version name = .ok c ↔ chainEnd? aliases name = some c := by
    intro name c
    rw [canonicalName_eq hentry hversion]
    cases chainEnd? aliases name <;> simp
  have hcycle : r.canonicalName label version name = .error (.aliasCycle name)
      ↔ chainEnd? aliases name = none := by
    rw [canonicalName_eq hentry hversion]
    cases chainEnd? aliases name <;> simp
  refine ⟨fun c => (hok name c).trans chainEnd?_eq_some_iff, hcycle.trans chainEnd?_eq_none_iff, ?_,
    fun c hc => ?_⟩
  · cases hend : chainEnd? aliases name with
    | some c =>
      obtain ⟨-, n, hle, hn⟩ := along_of_follow hend
      exact ⟨n, Nat.le_trans hle hlength, c, hn, .inl ((hok name c).mpr hend)⟩
    | none =>
      obtain ⟨n, hle, c, hn, hmem | hback⟩ := returns_of_follow hend
      · cases hmem
      · exact ⟨n, Nat.le_trans hle hlength, c, hn, .inr ⟨hback, hcycle.mpr hend⟩⟩
  · obtain ⟨-, hend⟩ := chainEnd?_eq_some_iff.mp ((hok name c).mp hc)
    exact (hok c c).mpr (chainEnd?_eq_some_iff.mpr ⟨⟨0, rfl⟩, hend⟩)

/-- Aliases of events: two that lead to the simple name one after the other, and one that leads into
a cycle it is not in. -/
def eventAliases : Table String :=
  .ofList [("OldEvent", "Event_events"), ("Event_events", "Event"), ("Lost", "There"),
    ("There", "Back"), ("Back", "There")]

/-- The old name leads to the simple name, and the lost one is reported. -/
theorem canonicalName_of_chain_events :
    let entry : ReleaseEntry :=
      { release := "rel", semver := "1.0.0", defaultVersion := "v1", versions := ["v1"],
        deprecations := .ofList [("v1", eventAliases)] }
    let r : Registry := { index := ⟨none, ["rel"]⟩, releases := .ofList [("rel", entry)] }
    r.releases.get? "rel" = some entry ∧ "v1" ∈ entry.versions
      ∧ r.canonicalName "rel" "v1" "OldEvent" = .ok "Event"
      ∧ r.canonicalName "rel" "v1" "Event" = .ok "Event"
      ∧ r.canonicalName "rel" "v1" "Lost" = .error (.aliasCycle "Lost") := by
  intro entry r
  have hentry : r.releases.get? "rel" = some entry := by decide +kernel
  have hversion : "v1" ∈ entry.versions := List.mem_singleton_self _
  have haliases : (entry.deprecations.get? "v1").getD {} = eventAliases := by decide +kernel
  obtain ⟨hold, -, -, hself⟩ := canonicalName_of_chain r "rel" "v1" "OldEvent" entry hentry hversion
  obtain ⟨-, hlost, -, -⟩ := canonicalName_of_chain r "rel" "v1" "Lost" entry hentry hversion
  rw [haliases] at hold hlost
  have hevent := (hold "Event").mpr ⟨⟨2, by decide +kernel⟩, by decide +kernel⟩
  refine ⟨hentry, hversion, hevent, hself "Event" hevent, hlost.mpr fun n => ?_⟩
  -- the chain stays among the three
  have hthree : ∀ n, ∀ name ∈ ["Lost", "There", "Back"],
      ∃ a ∈ ["Lost", "There", "Back"], along eventAliases n name = some a := by
    intro n
    induction n with
    | zero => exact fun name hname => ⟨name, hname, rfl⟩
    | succ n ih =>
      have hnext : ∀ name ∈ ["Lost", "There", "Back"],
          ∃ next ∈ ["Lost", "There", "Back"], eventAliases.get? name = some next := by decide +kernel
      intro name hname
      obtain ⟨next, hmem, hstep⟩ := hnext name hname
      obtain ⟨a, ha, hn⟩ := ih next hmem
      exact ⟨a, ha, by rw [along_of_some hstep, hn]⟩
  have hkeys : ∀ a ∈ ["Lost", "There", "Back"], a ∈ eventAliases.keys := by decide +kernel
  obtain ⟨a, ha, hn⟩ := hthree n "Lost" List.mem_cons_self
  exact ⟨a, hkeys a ha, hn⟩

end ApiModels.Registry
