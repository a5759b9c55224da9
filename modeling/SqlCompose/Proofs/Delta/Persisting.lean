import SqlCompose.Proofs.Delta.Assignments

/-!
# What persisting leaves to write

Once a record is persisted, or read from the database, its values are the persisted ones. Only what
differs from itself is left to write then, and that is what holds a NaN: a record of other values is
clean, and one with a NaN stays dirty however often it is persisted.
-/

namespace SqlCompose

namespace Value

mutual

/-- A NaN, or a list with one at any depth. -/
def holdsNaN : Value → Bool
  | .double x => x.isNaN
  | .list values => anyHoldsNaN values
  | .null | .bool _ | .int _ | .string _ | .bytes _ => false

/-- Whether one of several values holds a NaN. -/
def anyHoldsNaN : List Value → Bool
  | [] => false
  | v :: rest => v.holdsNaN || anyHoldsNaN rest

end

mutual

theorem equal_self : ∀ v : Value, v.equal v = !v.holdsNaN
  | .null => by rw [equal, holdsNaN, Bool.not_false]
  | .bool b => by rw [equal, holdsNaN, beq_self_eq_true, Bool.not_false]
  | .int n => by rw [equal, holdsNaN, beq_self_eq_true, Bool.not_false]
  | .double x => by rw [equal, holdsNaN, Binary64.equal_self]
  | .string s => by rw [equal, holdsNaN, beq_self_eq_true, Bool.not_false]
  | .bytes data => by rw [equal, holdsNaN, beq_self_eq_true, Bool.not_false]
  | .list values => by rw [equal, holdsNaN, equalLists_self values]

theorem equalLists_self : ∀ values : List Value, equalLists values values = !anyHoldsNaN values
  | [] => by rw [equalLists, anyHoldsNaN, Bool.not_false]
  | v :: rest => by
    rw [equalLists, anyHoldsNaN, equal_self v, equalLists_self rest, Bool.not_or]

end

end Value

namespace Record

variable {r : Record}

/-- The current values are the persisted ones. -/
def Settled (r : Record) : Prop := r.persisted = r.values

theorem settled_markPersisted (r : Record) : r.markPersisted.Settled := rfl

theorem settled_loaded (model : String) (values : List (String × Value)) :
    (loaded model values).Settled := rfl

/-- What is dirty although it was persisted holds a NaN. -/
theorem Settled.dirty_iff (h : r.Settled) {field : String} {v : Value} :
    r.Dirty field v ↔ r.get? field = some v ∧ v.holdsNaN := by
  have hpersisted : r.persisted.get? field = r.get? field := congrArg (·.get? field) h
  rw [Dirty, hpersisted]
  refine and_congr_right fun hcurrent => ?_
  have hself : v.equal v = false ↔ v.holdsNaN := by
    rw [Value.equal_self, Bool.not_eq_false']
  rw [hcurrent, ← hself]
  constructor
  · intro hdiffers
    exact hdiffers v rfl
  · intro hdiffers p hp
    exact Option.some.inj hp ▸ hdiffers

/-- There is nothing to write: no change, and no UPDATE of a model without defaults for it. -/
structure Clean (r : Record) : Prop where
  changes : r.changes = []
  isDirty : r.isDirty = false
  update : ∀ (c : Composer) (opts : Options) (model : String) (m : Model) (q : Option Query),
    c.schema.model model = .ok m → r.model = m.name →
    (∀ f ∈ m.storedFields, ∀ rule, f.default = some (.computed rule) →
      rule.flags.onUpdate = false) →
    c.update opts model r q = .ok none

end Record

/-- A record without changes has no UPDATE, unless a default is computed for one. -/
theorem Composer.update_of_no_changes {c : Composer} {opts : Options} {model : String} {m : Model}
    {r : Record} {q : Option Query} (hm : c.schema.model model = .ok m) (hmodel : r.model = m.name)
    (hchanges : r.changes = [])
    (hdefaults : ∀ f ∈ m.storedFields, ∀ rule, f.default = some (.computed rule) →
      rule.flags.onUpdate = false) :
    c.update opts model r q = .ok none := by
  have hcheck : Composer.checkRecord m r = .ok () := by
    refine Composer.checkRecord_eq_ok hmodel ?_
    rw [hchanges]
    nofun
  have hcontent : ∀ f ∈ m.storedFields, c.updateContent r f = none := by
    intro f hf
    have hclean : r.changedValue? f.name = none :=
      Record.changedValue?_eq_none_iff.mpr fun v => Record.changes_eq_nil_iff.mp hchanges f.name v
    rw [Composer.updateContent, hclean]
    by_contra hcomputed
    obtain ⟨content, hcontent⟩ := Option.ne_none_iff_exists'.mp hcomputed
    obtain ⟨rule, hdefault, happlies⟩ := Composer.appliesTo_of_computedContent hcontent
    rw [ComputedDefault.appliesTo, hdefaults f hf rule hdefault] at happlies
    cases happlies
  have hsets : c.sets m r = [] := by
    rw [Composer.sets, List.filterMap_eq_nil_iff]
    intro f hf
    rw [Composer.assignment, hcontent f hf]
    rfl
  rw [Composer.update, Composer.updateTree_eq_none hm hcheck hsets]
  rfl

namespace Record

theorem Settled.clean_iff {r : Record} (h : r.Settled) :
    r.Clean ↔ ∀ field v, r.get? field = some v → v.holdsNaN = false := by
  have hchanges : r.changes = [] ↔ ∀ field v, r.get? field = some v → v.holdsNaN = false := by
    rw [changes_eq_nil_iff]
    simp only [h.dirty_iff, not_and, Bool.not_eq_true]
  rw [← hchanges]
  constructor
  · exact Clean.changes
  · intro hnone
    refine ⟨hnone, ?_, ?_⟩
    · rw [isDirty, hnone]
      rfl
    · intro c opts model m q hm hmodel hdefaults
      exact Composer.update_of_no_changes hm hmodel hnone hdefaults

end Record

/-- A record is clean after it was persisted, or read, exactly if none of its values holds a
NaN. -/
theorem persisting_clears_delta_iff (r : Record) (model : String)
    (values : List (String × Value)) :
    (r.markPersisted.Clean ↔ ∀ field v, r.get? field = some v → v.holdsNaN = false) ∧
    ((Record.loaded model values).Clean ↔
      ∀ field v, (Record.loaded model values).get? field = some v → v.holdsNaN = false) :=
  ⟨r.settled_markPersisted.clean_iff, (Record.settled_loaded model values).clean_iff⟩

/-- A sensor that reports doubles. -/
def sensors : Composer where
  schema := ⟨⟨[("Sensor", ⟨"Sensor", "sensors", [
    { Field.named "id" (.integer 8) with column := "id", model := "Sensor", primaryKey := true },
    { Field.named "reading" (.float 8) with column := "reading", model := "Sensor" }]⟩)],
    by decide⟩, by decide⟩
  dialect := .sqlite
  config := {}

/-- A sensor without a number to report, as it was saved. -/
def silentSensor : Record := ((Record.new "Sensor").set "reading" (.double .nan)).markPersisted

theorem nan_survives_persisting :
    silentSensor.changes.map Change.field = ["reading"] ∧ silentSensor.isDirty = true ∧
    sensors.update {} "Sensor" silentSensor none =
      .ok (some "UPDATE \"sensors\" SET \"reading\" = NULL") ∧
    (Record.loaded "Sensor" [("reading", .list [.list [.double .nan]])]).isDirty = true := by
  refine ⟨?_, ?_, ?_, ?_⟩
  · decide +kernel
  · decide +kernel
  · rfl
  · decide +kernel

end SqlCompose
