import Mathlib
import SqlCompose.Dialect.Builtin
import SqlCompose.Proofs.Migration.Steps

/-!
# What a migration does to a column

A column is described by its attributes, its name and the names of its indexes. The steps from one
field to another, run in order, lead from the description of the first to that of the second, and
there are none exactly where the descriptions agree. Whether a generated value goes with a column is
not part of the description: no step compares it.
-/

namespace SqlCompose

/-- A column as the steps of a migration see it. -/
structure ColumnState where
  nullable : Bool
  default : Option String
  type : String
  primaryKey : Bool
  unique : Bool
  indexes : Finset String
  name : String
deriving DecidableEq

namespace ColumnState

/-- The column after a change of an attribute. A restated column takes over type, nullability and
default together. -/
def change (s : ColumnState) : Sql.ColumnChange → ColumnState
  | .restate definition =>
      { s with
        type := definition.type
        nullable := !definition.notNull
        default := definition.default }
  | .setNotNull => { s with nullable := false }
  | .dropNotNull => { s with nullable := true }
  | .setDefault expression => { s with default := some expression }
  | .dropDefault => { s with default := none }
  | .setType type => { s with type := type }
  | .addPrimaryKey => { s with primaryKey := true }
  | .dropPrimaryKey => { s with primaryKey := false }
  | .addUnique _ => { s with unique := true }
  | .dropUnique _ => { s with unique := false }
  | .rename name => { s with name := name }

/-- The column after a step. -/
def step (s : ColumnState) : Sql.Migration → ColumnState
  | .change _ _ what => s.change what
  | .createIndex index => { s with indexes := insert index.name s.indexes }
  | .dropIndex index => { s with indexes := s.indexes.erase index.name }

theorem foldl_step_change (table column : String) (changes : List Sql.ColumnChange)
    (s : ColumnState) :
    (changes.map (Sql.Migration.change table column)).foldl step s = changes.foldl change s := by
  rw [List.foldl_map]
  rfl

/-- Steps on indexes change nothing but the indexes. -/
theorem foldl_step_indexes (dropped : List Sql.DropIndex) (created : List Sql.CreateIndex)
    (s : ColumnState) :
    (Sql.indexSteps dropped created).foldl step s =
      { s with
        indexes := (Sql.indexSteps dropped created).foldl Sql.Migration.indexesAfter s.indexes } := by
  induction dropped generalizing s with
  | nil =>
    induction created generalizing s with
    | nil => rfl
    | cons index created ih => exact ih _
  | cons index dropped ih => exact ih _

/-- A change that is made if an attribute differs sets it, where it had the old value before. -/
theorem foldl_changeIf {α : Type} [BEq α] [LawfulBEq α] (old new : α) (what : Sql.ColumnChange)
    (set : α → ColumnState) (hnew : (set old).change what = set new) :
    (changeIf (old != new) what).foldl change (set old) = set new := by
  by_cases h : old = new
  · subst h
    simp [changeIf]
  · have hdiffers : (old != new) = true := bne_iff_ne.mpr h
    rw [changeIf, if_pos hdiffers]
    exact hnew

variable {c : Composer} {m : Model} {current proposed : Field} {s : ColumnState}

/-- One statement that restates the column, or one for each attribute that differs. -/
theorem foldl_shapeSteps {currentDefault proposedDefault : Option String}
    (hnullable : s.nullable = current.nullable) (hdefault : s.default = currentDefault)
    (htype : s.type = c.dialect.typeName current) :
    (c.shapeSteps current proposed currentDefault proposedDefault).foldl change s =
      { s with
        nullable := proposed.nullable
        default := proposedDefault
        type := c.dialect.typeName proposed } := by
  unfold Composer.shapeSteps
  dsimp only
  split
  · -- The restated column carries all three attributes.
    simp [change, Composer.restatedColumn]
  · -- Every change acts on the column that the changes before it leave.
    have hnullability := foldl_changeIf current.nullable proposed.nullable
      (if proposed.nullable then .dropNotNull else .setNotNull)
      (fun nullable => { s with nullable := nullable }) (by cases proposed.nullable <;> rfl)
    have hdefaults := foldl_changeIf currentDefault proposedDefault (defaultChange proposedDefault)
      (fun default => { s with nullable := proposed.nullable, default := default })
      (by cases proposedDefault <;> rfl)
    have htypes := foldl_changeIf (c.dialect.typeName current) (c.dialect.typeName proposed)
      (.setType (c.dialect.typeName proposed))
      (fun type =>
        { s with nullable := proposed.nullable, default := proposedDefault, type := type }) rfl
    rw [← hnullable] at hnullability
    rw [← hdefault] at hdefaults
    rw [← htype] at htypes
    rw [List.foldl_append, List.foldl_append, ← hnullable, ← hdefault, ← htype, hnullability,
      hdefaults, htypes]

theorem foldl_keySteps (hkey : s.primaryKey = current.primaryKey)
    (hunique : s.unique = current.unique) :
    (keySteps m current proposed).foldl change s =
      { s with primaryKey := proposed.primaryKey, unique := proposed.unique } := by
  have hkeys := foldl_changeIf current.primaryKey proposed.primaryKey
    (if proposed.primaryKey then .addPrimaryKey else .dropPrimaryKey)
    (fun primaryKey => { s with primaryKey := primaryKey })
    (by cases proposed.primaryKey <;> rfl)
  have huniques := foldl_changeIf current.unique proposed.unique
    (if proposed.unique then .addUnique (Composer.uniqueConstraint m current)
      else .dropUnique (Composer.uniqueConstraint m current))
    (fun unique => { s with primaryKey := proposed.primaryKey, unique := unique })
    (by cases proposed.unique <;> rfl)
  rw [← hkey] at hkeys
  rw [← hunique] at huniques
  rw [keySteps, List.foldl_append, ← hkey, ← hunique, hkeys, huniques]

theorem foldl_renameSteps (hname : s.name = current.column) :
    (renameSteps current proposed).foldl change s = { s with name := proposed.column } := by
  have hnames := foldl_changeIf current.column proposed.column (.rename proposed.column)
    (fun name => { s with name := name }) rfl
  rw [← hname] at hnames
  rw [renameSteps, ← hname, hnames]

end ColumnState

/-- True of a step that gives a column another name. -/
def Sql.Migration.renames : Sql.Migration → Bool
  | .change _ _ (.rename _) => true
  | _ => false

theorem Sql.Migration.not_renames_change {table column : String} {what : Sql.ColumnChange}
    (h : ∀ name, what ≠ .rename name) : ¬ (Sql.Migration.change table column what).renames := by
  cases what with
  | rename name => exact absurd rfl (h name)
  | _ => exact nofun

theorem Sql.Migration.not_renames_indexSteps {dropped : List Sql.DropIndex}
    {created : List Sql.CreateIndex} {step : Sql.Migration}
    (h : step ∈ Sql.indexSteps dropped created) : ¬ step.renames := by
  rcases List.mem_append.mp h with hdrop | hcreate
  · obtain ⟨index, _, rfl⟩ := List.mem_map.mp hdrop
    exact nofun
  · obtain ⟨index, _, rfl⟩ := List.mem_map.mp hcreate
    exact nofun

namespace Composer

/-- The column of a field, as its attributes and its default and indexes describe it. -/
def describedBy (c : Composer) (f : Field) (default : Option String)
    (indexes : OrderedMap (List String)) : ColumnState where
  nullable := f.nullable
  default := default
  type := c.dialect.typeName f
  primaryKey := f.primaryKey
  unique := f.unique
  indexes := indexes.keys.toFinset
  name := f.column

/-- The column that a field describes; `column` is the name under which its indexes are named. -/
def columnState (c : Composer) (opts : Options) (m : Model) (column : String) (f : Field) :
    Except Error ColumnState := do
  return c.describedBy f (← c.columnDefault opts f) (← c.columnIndexes m f column)

/-- A step addresses the column of a field. Statements on an index do so by the columns of the
index, or by the name that these give it. -/
def Addresses (c : Composer) (m : Model) (f : Field) : Sql.Migration → Prop
  | .change table column what =>
      table = m.table ∧ column = f.column ∧
        ∀ name ∈ what.constraint?, name = uniqueConstraint m f
  | .createIndex index =>
      index.table = m.table ∧ f.column ∈ index.columns ∧
        index.name = c.indexNameOver m index.columns
  | .dropIndex index =>
      (∀ table ∈ index.table, table = m.table) ∧
        ∃ columns, f.column ∈ columns ∧ index.name = c.indexNameOver m columns

/-- Steps that turn the column of a field, as it is before, into another one. -/
structure Turns (c : Composer) (m : Model) (current : Field) (before after : ColumnState)
    (steps : List Sql.Migration) : Prop where
  sound : steps.foldl ColumnState.step before = after
  addressed : ∀ step ∈ steps, c.Addresses m current step
  rename_last : ∀ first step rest, steps = first ++ step :: rest → step.renames → rest = []
  minimal : steps = [] ↔ before = after

variable {c : Composer} {opts : Options} {m : Model} {current proposed : Field}

theorem shapeSteps_eq_nil {currentDefault proposedDefault : Option String}
    (hnullable : current.nullable = proposed.nullable) (hdefault : currentDefault = proposedDefault)
    (htype : c.dialect.typeName current = c.dialect.typeName proposed) :
    c.shapeSteps current proposed currentDefault proposedDefault = [] := by
  simp [shapeSteps, changeIf, hnullable, hdefault, htype]

theorem keySteps_eq_nil (hkey : current.primaryKey = proposed.primaryKey)
    (hunique : current.unique = proposed.unique) : keySteps m current proposed = [] := by
  simp [keySteps, changeIf, hkey, hunique]

theorem constraint?_of_mem_shapeSteps {currentDefault proposedDefault : Option String}
    {what : Sql.ColumnChange}
    (h : what ∈ c.shapeSteps current proposed currentDefault proposedDefault) :
    what.constraint? = none ∧ ∀ name, what ≠ .rename name := by
  unfold shapeSteps at h
  dsimp only at h
  split at h
  · rw [List.mem_singleton.mp h]
    exact ⟨rfl, fun _ => nofun⟩
  · simp only [List.mem_append, mem_changeIf] at h
    rcases h with (⟨_, rfl⟩ | ⟨_, rfl⟩) | ⟨_, rfl⟩
    · cases proposed.nullable <;> exact ⟨rfl, fun _ => nofun⟩
    · cases proposedDefault <;> exact ⟨rfl, fun _ => nofun⟩
    · exact ⟨rfl, fun _ => nofun⟩

theorem constraint?_of_mem_keySteps {what : Sql.ColumnChange}
    (h : what ∈ keySteps m current proposed) :
    (∀ name ∈ what.constraint?, name = uniqueConstraint m current) ∧
      ∀ name, what ≠ .rename name := by
  simp only [keySteps, List.mem_append, mem_changeIf] at h
  rcases h with ⟨_, rfl⟩ | ⟨_, rfl⟩
  · cases proposed.primaryKey <;> refine ⟨?_, ?_⟩
    all_goals
      intro name hname
      cases hname
  · cases proposed.unique <;> refine ⟨fun _ hname => (Option.some.inj hname).symm, ?_⟩
    all_goals
      intro name hname
      cases hname

/-- Every index that is dropped or created is one over the column of the current field. -/
theorem IndexSteps.addressed {old new : OrderedMap (List String)} {dropped : List Sql.DropIndex}
    {created : List Sql.CreateIndex} (h : IndexSteps m old new dropped created)
    (hold : c.columnIndexes m current current.column = .ok old)
    (hnew : c.columnIndexes m proposed current.column = .ok new) :
    ∀ step ∈ Sql.indexSteps dropped created, c.Addresses m current step := by
  intro step hstep
  rcases List.mem_append.mp hstep with hdrop | hcreate
  · obtain ⟨index, hindex, rfl⟩ := List.mem_map.mp hdrop
    have hname : index.name ∈ old.keys := by
      have hfilter := h.dropped_names ▸ List.mem_map_of_mem hindex
      exact (List.mem_filter.mp hfilter).1
    obtain ⟨entry, hentry, heq⟩ := List.mem_map.mp hname
    obtain ⟨_, hover, _, _, hcolumns⟩ := columnIndexes_entries hold hentry
    exact ⟨h.dropped_table index hindex, entry.2, mem_declaredColumns hcolumns, heq ▸ hover⟩
  · obtain ⟨index, hindex, rfl⟩ := List.mem_map.mp hcreate
    have hentry : index.entry ∈ new.entries := by
      have hfilter := h.created_entries ▸ List.mem_map_of_mem hindex
      exact (List.mem_filter.mp hfilter).1
    obtain ⟨_, hover, _, _, hcolumns⟩ := columnIndexes_entries hnew hentry
    exact ⟨h.created_table index hindex, mem_declaredColumns hcolumns, hover⟩

/-- Where only the last entry of a list may have a property, nothing follows one that has it. -/
theorem eq_nil_of_append_cons {α : Type} {p : α → Prop} {body last first rest : List α} {x : α}
    (hbody : ∀ y ∈ body, ¬ p y) (hlast : last.length ≤ 1) (hx : p x)
    (h : body ++ last = first ++ x :: rest) : rest = [] := by
  rcases List.append_eq_append_iff.mp h with ⟨middle, rfl, rfl⟩ | ⟨middle, rfl, hrest⟩
  · rw [List.length_append, List.length_cons] at hlast
    exact List.eq_nil_of_length_eq_zero (by omega)
  · cases middle with
    | nil =>
      rw [List.nil_append] at hrest
      rw [← hrest, List.length_cons] at hlast
      exact List.eq_nil_of_length_eq_zero (by omega)
    | cons y middle =>
      obtain ⟨rfl, _⟩ := List.cons.inj hrest
      exact absurd hx (hbody x (by simp))

section AlterSteps

variable {currentDefault proposedDefault : Option String}

/-- Each group of steps sets its own attributes and leaves the others to the next one. -/
theorem IndexSteps.sound {old new : OrderedMap (List String)} {dropped : List Sql.DropIndex}
    {created : List Sql.CreateIndex} (h : IndexSteps m old new dropped created) :
    (c.alterSteps m current proposed currentDefault proposedDefault
        (Sql.indexSteps dropped created)).foldl ColumnState.step
      (c.describedBy current currentDefault old) = c.describedBy proposed proposedDefault new := by
  have hindexes := h.indexesAfter (Finset.Subset.refl old.keys.toFinset)
  rw [Finset.sdiff_self, Finset.union_empty] at hindexes
  simp only [alterSteps, describedBy, List.foldl_append, ColumnState.foldl_step_change]
  rw [ColumnState.foldl_shapeSteps rfl rfl rfl, ColumnState.foldl_keySteps rfl rfl,
    ColumnState.foldl_step_indexes, ColumnState.foldl_renameSteps rfl, hindexes]

theorem IndexSteps.alterSteps_eq_nil {old new : OrderedMap (List String)}
    {dropped : List Sql.DropIndex} {created : List Sql.CreateIndex}
    (h : IndexSteps m old new dropped created)
    (heq : c.describedBy current currentDefault old = c.describedBy proposed proposedDefault new) :
    c.alterSteps m current proposed currentDefault proposedDefault
      (Sql.indexSteps dropped created) = [] := by
  obtain ⟨hnullable, hdefault, htype, hkey, hunique, hkeys, hname⟩ :=
    (ColumnState.mk.injEq ..).mp heq
  obtain ⟨rfl, rfl⟩ := h.eq_nil hkeys
  have hrename : renameSteps current proposed = [] := changeIf_eq_nil.mpr (by simp [hname])
  rw [alterSteps, shapeSteps_eq_nil hnullable hdefault htype, keySteps_eq_nil hkey hunique, hrename]
  rfl

theorem addresses_alterSteps {indexes : List Sql.Migration}
    (hindexes : ∀ step ∈ indexes, c.Addresses m current step) :
    ∀ step ∈ c.alterSteps m current proposed currentDefault proposedDefault indexes,
      c.Addresses m current step := by
  intro step hstep
  simp only [alterSteps, List.mem_append, List.mem_map] at hstep
  rcases hstep with (⟨what, hshape | hkeys, rfl⟩ | hindex) | ⟨what, hrename, rfl⟩
  · refine ⟨rfl, rfl, ?_⟩
    rw [(constraint?_of_mem_shapeSteps hshape).1]
    intro name hname
    cases hname
  · exact ⟨rfl, rfl, (constraint?_of_mem_keySteps hkeys).1⟩
  · exact hindexes step hindex
  · rw [(mem_changeIf.mp hrename).2]
    refine ⟨rfl, rfl, ?_⟩
    intro name hname
    cases hname

theorem alterSteps_rename_last {indexes : List Sql.Migration}
    (hindexes : ∀ step ∈ indexes, ¬ step.renames) {first rest : List Sql.Migration}
    {step : Sql.Migration} (hrenames : step.renames)
    (h : c.alterSteps m current proposed currentDefault proposedDefault indexes =
      first ++ step :: rest) : rest = [] := by
  refine eq_nil_of_append_cons (p := fun step => step.renames = true) ?_ ?_ hrenames h
  · intro other hother
    simp only [List.mem_append, List.mem_map] at hother
    rcases hother with ⟨what, hshape | hkeys, rfl⟩ | hindex
    · exact Sql.Migration.not_renames_change (constraint?_of_mem_shapeSteps hshape).2
    · exact Sql.Migration.not_renames_change (constraint?_of_mem_keySteps hkeys).2
    · exact hindexes other hindex
  · rw [List.length_map]
    exact length_changeIf_le

end AlterSteps

theorem alterTree_turns {model : String} {steps : List Sql.Migration}
    (h : c.alterTree opts model current proposed = .ok steps) :
    ∃ m before after,
      c.schema.model model = .ok m ∧
      c.columnState opts m current.column current = .ok before ∧
      c.columnState opts m current.column proposed = .ok after ∧
      c.Turns m current before after steps := by
  obtain ⟨m, currentDefault, proposedDefault, old, new, dropped, created, hm, hcurrent, hproposed,
    hold, hnew, hindexes, rfl⟩ := alterTree_eq_ok h
  have hbefore : c.columnState opts m current.column current =
      .ok (c.describedBy current currentDefault old) := by
    rw [columnState, hcurrent, hold]
    rfl
  have hafter : c.columnState opts m current.column proposed =
      .ok (c.describedBy proposed proposedDefault new) := by
    rw [columnState, hproposed, hnew]
    rfl
  refine ⟨m, _, _, hm, hbefore, hafter, ?_⟩
  have hsound : (c.alterSteps m current proposed currentDefault proposedDefault
      (Sql.indexSteps dropped created)).foldl ColumnState.step
        (c.describedBy current currentDefault old) = c.describedBy proposed proposedDefault new :=
    hindexes.sound
  constructor
  case sound => exact hsound
  case addressed => exact addresses_alterSteps (hindexes.addressed hold hnew)
  case rename_last =>
    intro first step rest h hrenames
    exact alterSteps_rename_last (fun _ => Sql.Migration.not_renames_indexSteps) hrenames h
  case minimal =>
    refine ⟨fun hnil => ?_, hindexes.alterSteps_eq_nil⟩
    rw [hnil] at hsound
    exact hsound

end Composer

/-- The statements from one field of a model to another lead from the column of the first to that of
the second. All of them address the column by the name it has before, nothing follows the one that
renames it, and there are none exactly if the two columns agree. -/
theorem alter_sound_and_minimal {c : Composer} {opts : Options} {model : String}
    {current proposed : Field} {texts : List String}
    (h : c.alterTable opts model current proposed = .ok texts) :
    ∃ m steps before after,
      c.schema.model model = .ok m ∧
      c.alterTree opts model current proposed = .ok steps ∧
      texts = steps.map (·.text c.dialect) ∧
      c.columnState opts m current.column current = .ok before ∧
      c.columnState opts m current.column proposed = .ok after ∧
      c.Turns m current before after steps ∧
      (texts = [] ↔ before = after) ∧
      (current = proposed → texts = []) := by
  obtain ⟨steps, hsteps, htexts⟩ := bind_eq_ok.mp h
  obtain ⟨m, before, after, hm, hbefore, hafter, hturns⟩ := Composer.alterTree_turns hsteps
  have hempty : texts = [] ↔ before = after := by
    rw [← pure_eq_ok.mp htexts, List.map_eq_nil_iff]
    exact hturns.minimal
  refine ⟨m, steps, before, after, hm, hsteps, (pure_eq_ok.mp htexts).symm, hbefore, hafter, hturns,
    hempty, ?_⟩
  rintro rfl
  exact hempty.mpr (Except.ok.inj (hbefore.symm.trans hafter))

/-- An indexed column of small integers. -/
def age : Field :=
  { Field.named "age" (.integer 4) with column := "age", model := "Person", indexes := [.single] }

/-- The column with another name, type and default, unique and never null, but not indexed. -/
def years : Field :=
  { Field.named "age" (.integer 8) with
    column := "years"
    model := "Person"
    nullable := false
    unique := true
    default := some (.value (.int 5)) }

/-- People in a database that restates columns. -/
def ages : Composer where
  schema := ⟨⟨[("Person", ⟨"Person", "people", [age]⟩)], by decide⟩, by decide⟩
  dialect := .mysql
  config := {}

/-- The steps from the one to the other. -/
def ageToYears : List Sql.Migration := [
  .change "people" "age" (.restate ⟨"BIGINT", true, some "5", none⟩),
  .change "people" "age" (.addUnique "uq_people_age"),
  .dropIndex ⟨"idx_people_age", some "people", false, false, false⟩,
  .change "people" "age" (.rename "years")]

theorem alter_sound_and_minimal_years :
    ages.alterTable {} "Person" age years = .ok (ageToYears.map (·.text ages.dialect)) ∧
      ∃ m before after,
        ages.columnState {} m age.column age = .ok before ∧
        ages.columnState {} m age.column years = .ok after ∧
        ages.Turns m age before after ageToYears ∧ before ≠ after := by
  have htree : ages.alterTree {} "Person" age years = .ok ageToYears := by cbv
  have h : ages.alterTable {} "Person" age years =
      .ok (ageToYears.map (·.text ages.dialect)) := by
    rw [Composer.alterTable, htree]
    rfl
  obtain ⟨m, steps, before, after, _, hsteps, _, hbefore, hafter, hturns, _, _⟩ :=
    alter_sound_and_minimal h
  obtain rfl : steps = ageToYears := Except.ok.inj (hsteps.symm.trans htree)
  refine ⟨h, m, before, after, hbefore, hafter, hturns, fun heq => ?_⟩
  exact absurd (hturns.minimal.mpr heq) (List.cons_ne_nil _ _)

example : ageToYears.map (·.text Dialect.mysql) = [
    "ALTER TABLE \x60people\x60 MODIFY COLUMN \x60age\x60 BIGINT NOT NULL DEFAULT 5",
    "ALTER TABLE \x60people\x60 ADD CONSTRAINT \x60uq_people_age\x60 UNIQUE (\x60age\x60)",
    "DROP INDEX \x60idx_people_age\x60 ON \x60people\x60",
    "ALTER TABLE \x60people\x60 RENAME COLUMN \x60age\x60 TO \x60years\x60"] := by
  rfl

end SqlCompose
