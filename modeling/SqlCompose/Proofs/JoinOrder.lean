import Mathlib.Data.Fintype.EquivFin
import Mathlib.Order.WellFounded
import SqlCompose.Proofs.JoinPlan

/-!
# The order of joined models

Joined models are sorted by what their edges refer to. `sortModels_topological` says when there is
an order and which one it is: a reference to a model that is not joined is refused first, then a
cycle, and otherwise each position holds the first model whose references are all placed. The
bound on the rounds of the sort is never met, since every round places a model.
-/

namespace SqlCompose

namespace JoinPlan

/-- The models that edges on a model refer to, apart from the root and the model itself. -/
def references (root model : String) (edges : List JoinEdge) : List String :=
  (edges.map (·.left.model)).filter fun left => left != root && left != model

/-- The models that a joined model refers to. -/
def needs (root : String) (groups : OrderedMap (List JoinEdge)) (model : String) : List String :=
  references root model ((groups.get? model).getD [])

/-- Some edge refers to a model that is neither the root nor joined. -/
def Dangling (root : String) (groups : OrderedMap (List JoinEdge)) : Prop :=
  ∃ group ∈ groups.entries, ∃ edge ∈ group.2,
    edge.left.model ≠ root ∧ edge.left.model ≠ group.1 ∧ edge.left.model ∉ groups.keys

/-- A joined model depends on another one that an edge of it refers to. -/
def DependsOn (root : String) (groups : OrderedMap (List JoinEdge)) (model other : String) : Prop :=
  ∃ edges, groups.get? model = some edges ∧ other ≠ root ∧ other ≠ model ∧
    ∃ edge ∈ edges, edge.left.model = other

/-- Some joined model depends on itself through others. -/
def Cyclic (root : String) (groups : OrderedMap (List JoinEdge)) : Prop :=
  ∃ model, Relation.TransGen (DependsOn root groups) model model

/-- A model comes next after those placed: it is the first one that is not placed yet and depends
on placed models only. -/
structure IsNext (models : List String) (dependsOn : String → String → Prop)
    (placed : List String) (model : String) : Prop where
  unplaced : model ∉ placed
  ready : ∀ other, dependsOn model other → other ∈ placed
  earliest : ∃ earlier later, models = earlier ++ model :: later ∧
    ∀ skipped ∈ earlier, skipped ∈ placed ∨ ∃ other, dependsOn skipped other ∧ other ∉ placed

/-- An order of all joined models, each position taken by the model that comes next. -/
structure IsOrder (root : String) (groups : OrderedMap (List JoinEdge)) (order : List String) :
    Prop where
  perm : order.Perm groups.keys
  next : ∀ before model after, order = before ++ model :: after →
    IsNext groups.keys (DependsOn root groups) before model

variable {root : String} {groups : OrderedMap (List JoinEdge)}

theorem mem_references {model other : String} {edges : List JoinEdge} :
    other ∈ references root model edges ↔
      other ≠ root ∧ other ≠ model ∧ ∃ edge ∈ edges, edge.left.model = other := by
  simp only [references, List.mem_filter, List.mem_map, Bool.and_eq_true, bne_iff_ne]
  tauto

theorem mem_needs {model other : String} :
    other ∈ needs root groups model ↔ DependsOn root groups model other := by
  rw [needs, mem_references, DependsOn]
  cases groups.get? model with
  | none => simp
  | some edges => simp

theorem needs_of_mem_entries {model : String} {edges : List JoinEdge}
    (h : (model, edges) ∈ groups.entries) : needs root groups model = references root model edges := by
  rw [needs, OrderedMap.get?_eq_some_of_mem h, Option.getD_some]

/-- Only a joined model depends on another. -/
theorem mem_keys_of_dependsOn {model other : String} (h : DependsOn root groups model other) :
    model ∈ groups.keys := by
  obtain ⟨edges, hget, -⟩ := h
  rw [← OrderedMap.contains_iff, OrderedMap.contains, hget, Option.isSome_some]

/-- Without a dangling reference a joined model depends on joined models only. -/
theorem mem_keys_of_not_dangling (hd : ¬ Dangling root groups) {model other : String}
    (h : DependsOn root groups model other) : other ∈ groups.keys := by
  obtain ⟨edges, hget, hroot, hself, edge, hedge, rfl⟩ := h
  by_contra hkey
  exact hd ⟨(model, edges), Entries.mem_of_find?_eq_some hget, edge, hedge, hroot, hself, hkey⟩

/-- A group waits unless one of its references dangles. -/
theorem pending_eq_ok_of {model : String} {edges : List JoinEdge}
    (h : ∀ other ∈ references root model edges, other ∈ groups.keys) :
    pending root groups model edges = .ok ⟨model, references root model edges⟩ := by
  have hfound : (references root model edges).find? (fun left => !groups.contains left) = none := by
    refine List.find?_eq_none.mpr fun other hmem => ?_
    have hcontains : groups.contains other := OrderedMap.contains_iff.mpr (h other hmem)
    simp [hcontains]
  unfold references at hfound
  simp only [pending, hfound]
  rfl

/-- A group with a dangling reference is an invalid statement. -/
theorem pending_eq_error_of {model other : String} {edges : List JoinEdge}
    (hmem : other ∈ references root model edges) (hkey : other ∉ groups.keys) :
    ∃ e, pending root groups model edges = .error e := by
  cases hfound : (references root model edges).find? fun left => !groups.contains left with
  | none =>
    have hcontains := List.find?_eq_none.mp hfound other hmem
    rw [Bool.not_eq_true, Bool.not_eq_false', OrderedMap.contains_iff] at hcontains
    exact absurd hcontains hkey
  | some left =>
    refine ⟨.invalidStatement (.unjoinedModel left model), ?_⟩
    unfold references at hfound
    simp only [pending, hfound]
    rfl

theorem pending_eq_error {model : String} {edges : List JoinEdge} {e : Error}
    (h : pending root groups model edges = .error e) : e.kind = .invalidStatement := by
  unfold pending at h
  simp only at h
  split at h
  · cases h
    rfl
  · cases h

/-- Every joined model waits for what it refers to. -/
theorem waiting_eq_ok (hd : ¬ Dangling root groups) :
    (groups.entries.mapM fun (model, edges) => pending root groups model edges) =
      .ok (groups.keys.map fun model => ⟨model, needs root groups model⟩) := by
  rw [mapM_eq_ok, OrderedMap.keys, List.map_map, List.forall₂_map_right_iff, List.forall₂_same]
  rintro ⟨model, edges⟩ hmem
  have hneeds : needs root groups model = references root model edges :=
    needs_of_mem_entries hmem
  simp only [Function.comp_apply, hneeds]
  refine pending_eq_ok_of fun other hother => ?_
  rw [← hneeds, mem_needs] at hother
  exact mem_keys_of_not_dangling hd hother

theorem waiting_eq_error (hd : Dangling root groups) :
    ∃ e, (groups.entries.mapM fun (model, edges) => pending root groups model edges) = .error e ∧
      e.kind = .invalidStatement := by
  obtain ⟨⟨model, edges⟩, hmem, edge, hedge, hroot, hself, hkey⟩ := hd
  have hreference : edge.left.model ∈ references root model edges :=
    mem_references.mpr ⟨hroot, hself, edge, hedge, rfl⟩
  have hrefused : ∃ group ∈ groups.entries, ∃ e, pending root groups group.1 group.2 = .error e :=
    ⟨(model, edges), hmem, pending_eq_error_of hreference hkey⟩
  obtain ⟨e, he⟩ := exists_mapM_eq_error_iff.mpr hrefused
  obtain ⟨_, group, _, _, _, hfirst⟩ := mapM_eq_error.mp he
  exact ⟨e, he, pending_eq_error hfirst⟩

section Rounds

variable {models : List String} {need : String → List String}

/-- The models that are not placed yet, with what they wait for. -/
def waiting (models : List String) (need : String → List String) (placed : List String) :
    List Pending :=
  (models.filter fun model => !placed.contains model).map fun model => ⟨model, need model⟩

/-- The first model that is not placed yet and waits for placed ones only. -/
def next? (models : List String) (need : String → List String) (placed : List String) :
    Option String :=
  models.find? fun model => !placed.contains model && (need model).all placed.contains

theorem waiting_nil :
    waiting models need [] = models.map fun model => ⟨model, need model⟩ := by
  simp [waiting]

/-- A round places the first ready model. -/
theorem find?_waiting (placed : List String) :
    (waiting models need placed).find? (·.isReady placed) =
      (next? models need placed).map fun model => ⟨model, need model⟩ := by
  rw [waiting, List.find?_map, List.find?_filter]
  simp only [Bool.decide_and, Bool.decide_eq_true]
  rfl

/-- The model that a round places waits no longer, the others still do. -/
theorem waiting_append (placed : List String) (next : String) :
    (waiting models need placed).filter (fun p => p.model != next) =
      waiting models need (placed ++ [next]) := by
  rw [waiting, waiting, List.filter_map, List.filter_filter]
  congr 2
  funext model
  by_cases hplaced : model ∈ placed <;> by_cases hnext : model = next <;> simp [hplaced, hnext]

/-- A round places the next model, or finds all of them placed, or none of the others ready. -/
theorem place_succ (rounds : Nat) (placed : List String) :
    place (rounds + 1) (waiting models need placed) placed =
      match next? models need placed with
      | some next => place rounds (waiting models need (placed ++ [next])) (placed ++ [next])
      | none =>
          if waiting models need placed = [] then .ok placed
          else .error (.invalidSchema (.joinCycle ((waiting models need placed).map (·.model)))) := by
  cases hwaiting : waiting models need placed with
  | nil =>
    have hnone : (waiting models need placed).find? (·.isReady placed) =
        (next? models need placed).map fun model => ⟨model, need model⟩ := find?_waiting placed
    rw [hwaiting, List.find?_nil, eq_comm, Option.map_eq_none_iff] at hnone
    rw [hnone]
    rfl
  | cons first others =>
    rw [place, ← hwaiting, find?_waiting]
    · cases next? models need placed with
      | none => simp [hwaiting]; rfl
      | some next => simp only [Option.map_some, waiting_append]
    · simp

/-- A complete placement appends the next model again and again. -/
theorem place_waiting_eq_ok {rounds : Nat} {placed order : List String}
    (h : place rounds (waiting models need placed) placed = .ok order) :
    ∃ added, order = placed ++ added ∧
      ∀ before model after, added = before ++ model :: after →
        next? models need (placed ++ before) = some model := by
  induction rounds generalizing placed with
  | zero =>
    have hnil : waiting models need placed = [] := by
      cases hwaiting : waiting models need placed with
      | nil => rfl
      | cons first others =>
        rw [hwaiting] at h
        cases h
    rw [hnil] at h
    cases h
    exact ⟨[], by simp, fun before model after hsplit => by simp at hsplit⟩
  | succ rounds ih =>
    rw [place_succ] at h
    split at h
    · rename_i next hnext
      obtain ⟨added, rfl, hadded⟩ := ih h
      refine ⟨next :: added, by simp, fun before model after hsplit => ?_⟩
      -- The model at the head is placed by this round, the ones behind it by the others.
      cases before with
      | nil =>
        obtain ⟨rfl, -⟩ := List.cons.inj hsplit
        simpa using hnext
      | cons head before =>
        obtain ⟨rfl, hrest⟩ := List.cons.inj hsplit
        have hlater := hadded before model after hrest
        simpa using hlater
    · split at h
      · cases h
        exact ⟨[], by simp, fun before model after hsplit => by simp at hsplit⟩
      · cases h

/-- With a round for each waiting model the sort stops early only where models wait and none of
them comes next. -/
theorem place_waiting_eq_error {rounds : Nat} {placed : List String} {e : Error}
    (hrounds : (waiting models need placed).length ≤ rounds)
    (h : place rounds (waiting models need placed) placed = .error e) :
    e.kind = .invalidSchema ∧
      ∃ stuck, next? models need stuck = none ∧ waiting models need stuck ≠ [] := by
  induction rounds generalizing placed with
  | zero =>
    have hnil := List.eq_nil_of_length_eq_zero (Nat.le_zero.mp hrounds)
    rw [hnil] at h
    cases h
  | succ rounds ih =>
    rw [place_succ] at h
    split at h
    · rename_i next hnext
      -- This round places a model, so that the rounds left are enough for the models left.
      refine ih ?_ h
      have hfound : (waiting models need placed).find? (·.isReady placed) =
          (next? models need placed).map fun model => ⟨model, need model⟩ := find?_waiting placed
      rw [hnext] at hfound
      have hmem := List.mem_of_find?_eq_some hfound
      have hshorter : ((waiting models need placed).filter fun p => p.model != next).length <
          (waiting models need placed).length :=
        List.length_filter_lt_length_iff_exists.mpr ⟨_, hmem, by simp⟩
      rw [waiting_append] at hshorter
      omega
    · rename_i hnone
      split at h
      · cases h
      · rename_i hwaiting
        cases h
        exact ⟨rfl, placed, hnone, hwaiting⟩

end Rounds

theorem isNext_of_next? {models placed : List String} {model : String}
    (h : next? models (needs root groups) placed = some model) :
    IsNext models (DependsOn root groups) placed model := by
  obtain ⟨hnext, earlier, later, hsplit, hskipped⟩ := List.find?_eq_some_iff_append.mp h
  rw [Bool.and_eq_true, List.all_eq_true] at hnext
  refine ⟨?_, fun other hother => ?_, earlier, later, hsplit, fun skipped hmem => ?_⟩
  · simpa using hnext.1
  · exact List.contains_iff_mem.mp (hnext.2 other (mem_needs.mpr hother))
  · have hunready := hskipped skipped hmem
    rw [Bool.not_eq_true', Bool.and_eq_false_iff, Bool.not_eq_false', List.contains_iff_mem,
      List.all_eq_false] at hunready
    refine hunready.imp_right fun ⟨other, hother, hplaced⟩ => ⟨other, mem_needs.mp hother, ?_⟩
    rwa [List.contains_iff_mem] at hplaced

/-- Where no waiting model is ready, each of them waits for another one of them. -/
theorem exists_dependsOn_of_stuck (hd : ¬ Dangling root groups) {placed : List String}
    (h : next? groups.keys (needs root groups) placed = none) {model : String}
    (hkey : model ∈ groups.keys) (hplaced : model ∉ placed) :
    ∃ other, DependsOn root groups model other ∧ other ∈ groups.keys ∧ other ∉ placed := by
  have hunready := List.find?_eq_none.mp h model hkey
  have hwaits : ¬ placed.contains model := fun hc => hplaced (List.contains_iff_mem.mp hc)
  rw [Bool.not_eq_true, Bool.and_eq_false_iff, Bool.not_eq_false', List.all_eq_false] at hunready
  obtain ⟨other, hother, hunplaced⟩ := hunready.resolve_left hwaits
  have hdepends := mem_needs.mp hother
  rw [List.contains_iff_mem] at hunplaced
  exact ⟨other, hdepends, mem_keys_of_not_dangling hd hdepends, hunplaced⟩

/-- In a finite set in which everything is related to something there is a cycle. -/
theorem exists_transGen_self {r : String → String → Prop} {models : List String}
    (hne : models ≠ []) (hr : ∀ model ∈ models, ∃ other ∈ models, r model other) :
    ∃ model, Relation.TransGen r model model := by
  by_contra hacyclic
  let reaches : {model // model ∈ models} → {model // model ∈ models} → Prop :=
    fun other model => Relation.TransGen r model other
  have htrans : IsTrans _ reaches := ⟨fun _ _ _ hab hbc => hbc.trans hab⟩
  have hirrefl : Std.Irrefl reaches := ⟨fun model hself => hacyclic ⟨model, hself⟩⟩
  obtain ⟨first, hfirst⟩ := List.exists_mem_of_ne_nil models hne
  -- A model from which the relation leads nowhere within the set.
  obtain ⟨last, -, hlast⟩ := (Finite.wellFounded_of_trans_of_irrefl reaches).has_min Set.univ
    ⟨⟨first, hfirst⟩, trivial⟩
  obtain ⟨other, hother, hedge⟩ := hr last last.2
  exact hlast ⟨other, hother⟩ trivial (.single hedge)

theorem cyclic_of_stuck (hd : ¬ Dangling root groups) {placed : List String}
    (h : next? groups.keys (needs root groups) placed = none)
    (hwaiting : waiting groups.keys (needs root groups) placed ≠ []) : Cyclic root groups := by
  have hstuck : (groups.keys.filter fun model => !placed.contains model) ≠ [] := by
    intro hnil
    rw [waiting, hnil] at hwaiting
    exact hwaiting rfl
  refine exists_transGen_self hstuck fun model hmem => ?_
  have hmem_iff : ∀ model, model ∈ groups.keys.filter (fun model => !placed.contains model) ↔
      model ∈ groups.keys ∧ model ∉ placed := by simp
  obtain ⟨hkey, hplaced⟩ := (hmem_iff model).mp hmem
  obtain ⟨other, hdepends, hin, hout⟩ := exists_dependsOn_of_stuck hd h hkey hplaced
  exact ⟨other, (hmem_iff other).mpr ⟨hin, hout⟩, hdepends⟩

/-- In an order every model stands after those that it depends on. -/
theorem IsOrder.idxOf_lt {order : List String} (h : IsOrder root groups order)
    {model other : String} (hdepends : DependsOn root groups model other) :
    order.idxOf other < order.idxOf model := by
  have hmem : model ∈ order := h.perm.mem_iff.mpr (mem_keys_of_dependsOn hdepends)
  obtain ⟨before, after, hsplit, hfirst⟩ := List.eq_append_cons_of_mem hmem
  have hbefore : other ∈ before := (h.next before model after hsplit).ready other hdepends
  have hother : order.idxOf other < before.length := by
    rw [hsplit, List.idxOf_append_of_mem hbefore]
    exact List.idxOf_lt_length_of_mem hbefore
  have hmodel : order.idxOf model = before.length := by
    rw [hsplit, List.idxOf_append_of_notMem hfirst, List.idxOf_cons_self, Nat.add_zero]
  omega

/-- Where there is an order there is no cycle. -/
theorem IsOrder.not_cyclic {order : List String} (h : IsOrder root groups order) :
    ¬ Cyclic root groups := by
  rintro ⟨model, hcycle⟩
  have hlt : ∀ other, Relation.TransGen (DependsOn root groups) model other →
      order.idxOf other < order.idxOf model := by
    intro other hpath
    induction hpath with
    | single hdepends => exact h.idxOf_lt hdepends
    | tail _ hdepends ih => exact (h.idxOf_lt hdepends).trans ih
  exact Nat.lt_irrefl _ (hlt model hcycle)

/-- A dangling reference is refused before anything is placed. -/
theorem sortModels_of_dangling (hd : Dangling root groups) :
    ∃ e, sortModels root groups = .error e ∧ e.kind = .invalidStatement := by
  obtain ⟨e, he, hkind⟩ := waiting_eq_error hd
  refine ⟨e, ?_, hkind⟩
  rw [sortModels, he]
  rfl

/-- Without one the models are placed in order, unless they form a cycle. -/
theorem sortModels_of_not_dangling (hd : ¬ Dangling root groups) :
    (∃ order, sortModels root groups = .ok order ∧ IsOrder root groups order) ∨
      ∃ e, sortModels root groups = .error e ∧ e.kind = .invalidSchema ∧ Cyclic root groups := by
  have hsort : sortModels root groups = place (waiting groups.keys (needs root groups) []).length
      (waiting groups.keys (needs root groups) []) [] := by
    rw [sortModels, waiting_eq_ok hd, waiting_nil]
    rfl
  cases hplace : sortModels root groups with
  | ok order =>
    refine .inl ⟨order, rfl, (sortModels_eq_ok hplace).1, fun before model after hsplit => ?_⟩
    rw [hsort] at hplace
    obtain ⟨added, rfl, hnext⟩ := place_waiting_eq_ok hplace
    exact isNext_of_next? (hnext before model after hsplit)
  | error e =>
    rw [hsort] at hplace
    obtain ⟨hkind, stuck, hnone, hwaiting⟩ := place_waiting_eq_error (Nat.le_refl _) hplace
    exact .inr ⟨e, rfl, hkind, cyclic_of_stuck hd hnone hwaiting⟩

end JoinPlan

/-- Sorting the joined models fails for a reference to a model that is neither the root nor joined,
else for a cycle of dependencies, and for nothing else. Otherwise it yields all of them in an order
in which each position holds the first model that depends on the ones before it only. -/
theorem sortModels_topological (root : String) (groups : OrderedMap (List JoinEdge)) :
    ((∃ e, JoinPlan.sortModels root groups = .error e ∧ e.kind = .invalidStatement) ↔
      JoinPlan.Dangling root groups) ∧
    ((∃ e, JoinPlan.sortModels root groups = .error e ∧ e.kind = .invalidSchema) ↔
      ¬ JoinPlan.Dangling root groups ∧ JoinPlan.Cyclic root groups) ∧
    ((∃ order, JoinPlan.sortModels root groups = .ok order ∧
        JoinPlan.IsOrder root groups order) ↔
      ¬ JoinPlan.Dangling root groups ∧ ¬ JoinPlan.Cyclic root groups) := by
  by_cases hd : JoinPlan.Dangling root groups
  · obtain ⟨e, he, hkind⟩ := JoinPlan.sortModels_of_dangling hd
    refine ⟨⟨fun _ => hd, fun _ => ⟨e, he, hkind⟩⟩, ⟨?_, fun h => absurd hd h.1⟩,
      ⟨?_, fun h => absurd hd h.1⟩⟩
    · rintro ⟨e', he', hkind'⟩
      cases he.symm.trans he'
      cases hkind.symm.trans hkind'
    · rintro ⟨order, horder, -⟩
      cases he.symm.trans horder
  · rcases JoinPlan.sortModels_of_not_dangling hd with ⟨order, horder, his⟩ | ⟨e, he, hkind, hc⟩
    · have hno : ∀ kind, ¬ ∃ e, JoinPlan.sortModels root groups = .error e ∧ e.kind = kind := by
        rintro kind ⟨e, he, -⟩
        cases horder.symm.trans he
      have hacyclic := his.not_cyclic
      exact ⟨⟨fun h => absurd h (hno _), fun h => absurd h hd⟩,
        ⟨fun h => absurd h (hno _), fun h => absurd h.2 hacyclic⟩,
        ⟨fun _ => ⟨hd, hacyclic⟩, fun _ => ⟨order, horder, his⟩⟩⟩
    · refine ⟨⟨?_, fun h => absurd h hd⟩, ⟨fun _ => ⟨hd, hc⟩, fun _ => ⟨e, he, hkind⟩⟩,
        ⟨?_, fun h => absurd hc h.2⟩⟩
      · rintro ⟨e', he', hkind'⟩
        cases he.symm.trans he'
        cases hkind.symm.trans hkind'
      · rintro ⟨order, horder, -⟩
        cases he.symm.trans horder

end SqlCompose
