import Mathlib.Data.Finset.Basic
import Mathlib.Data.Finset.Dedup
import SqlCompose.Define.ColumnChange
import SqlCompose.Proofs.Success

/-!
# The steps of a migration

What a composed list of steps consists of: the changes of attributes that differ, the indexes to
drop and to create, and the new name. The steps are taken apart once here. What they do to a
column, and to the indexes of a table over many migrations, is derived from that.
-/

namespace SqlCompose

namespace Sql

/-- The names of a table's indexes after a step. -/
def Migration.indexesAfter (names : Finset String) : Migration → Finset String
  | .change _ _ _ => names
  | .createIndex index => insert index.name names
  | .dropIndex index => names.erase index.name

/-- The constraint that a change names, if it names one. -/
def ColumnChange.constraint? : ColumnChange → Option String
  | .addUnique name | .dropUnique name => some name
  | _ => none

theorem foldl_indexesAfter_change (table column : String) (changes : List ColumnChange)
    (names : Finset String) :
    (changes.map (Migration.change table column)).foldl Migration.indexesAfter names = names := by
  induction changes with
  | nil => rfl
  | cons change changes ih => exact ih

theorem foldl_indexesAfter_drop (dropped : List DropIndex) (names : Finset String) :
    (dropped.map Migration.dropIndex).foldl Migration.indexesAfter names =
      names \ (dropped.map (·.name)).toFinset := by
  induction dropped generalizing names with
  | nil => simp
  | cons index dropped ih =>
    rw [List.map_cons, List.foldl_cons, ih, Migration.indexesAfter]
    ext name
    simp only [Finset.mem_sdiff, Finset.mem_erase, List.mem_toFinset, List.map_cons,
      List.mem_cons]
    tauto

theorem foldl_indexesAfter_create (created : List CreateIndex) (names : Finset String) :
    (created.map Migration.createIndex).foldl Migration.indexesAfter names =
      names ∪ (created.map (·.name)).toFinset := by
  induction created generalizing names with
  | nil => simp
  | cons index created ih =>
    rw [List.map_cons, List.foldl_cons, ih, Migration.indexesAfter]
    ext name
    simp only [Finset.mem_union, Finset.mem_insert, List.mem_toFinset, List.map_cons,
      List.mem_cons]
    tauto

/-- The name of a new index and the columns that it covers. -/
def CreateIndex.entry (index : CreateIndex) : String × List String := (index.name, index.columns)

/-- The steps that drop some indexes, then create others. -/
def indexSteps (dropped : List DropIndex) (created : List CreateIndex) : List Migration :=
  dropped.map .dropIndex ++ created.map .createIndex

end Sql

/-- A change, made only if something differs. -/
def changeIf (differs : Bool) (change : Sql.ColumnChange) : List Sql.ColumnChange :=
  if differs then [change] else []

@[simp] theorem changeIf_eq_nil {differs : Bool} {change : Sql.ColumnChange} :
    changeIf differs change = [] ↔ differs = false := by
  cases differs <;> simp [changeIf]

theorem mem_changeIf {differs : Bool} {change other : Sql.ColumnChange} :
    other ∈ changeIf differs change ↔ differs = true ∧ other = change := by
  cases differs <;> simp [changeIf]

theorem length_changeIf_le {differs : Bool} {change : Sql.ColumnChange} :
    (changeIf differs change).length ≤ 1 := by
  cases differs <;> simp [changeIf]

def defaultChange : Option String → Sql.ColumnChange
  | some expression => .setDefault expression
  | none => .dropDefault

def Composer.shapeSteps (c : Composer) (current proposed : Field)
    (currentDefault proposedDefault : Option String) : List Sql.ColumnChange :=
  let nullabilityDiffers := current.nullable != proposed.nullable
  let typeDiffers := c.dialect.typeName current != c.dialect.typeName proposed
  if c.dialect.capability.modifyColumn && (nullabilityDiffers || typeDiffers) then
    [.restate (c.restatedColumn proposed proposedDefault)]
  else
    changeIf nullabilityDiffers (if proposed.nullable then .dropNotNull else .setNotNull) ++
      changeIf (currentDefault != proposedDefault) (defaultChange proposedDefault) ++
      changeIf typeDiffers (.setType (c.dialect.typeName proposed))

def keySteps (m : Model) (current proposed : Field) : List Sql.ColumnChange :=
  let constraint := Composer.uniqueConstraint m current
  changeIf (current.primaryKey != proposed.primaryKey)
      (if proposed.primaryKey then .addPrimaryKey else .dropPrimaryKey) ++
    changeIf (current.unique != proposed.unique)
      (if proposed.unique then .addUnique constraint else .dropUnique constraint)

def renameSteps (current proposed : Field) : List Sql.ColumnChange :=
  changeIf (current.column != proposed.column) (.rename proposed.column)

/-- The changes of attributes that differ, then those of indexes, then that of the name. -/
def Composer.alterSteps (c : Composer) (m : Model) (current proposed : Field)
    (currentDefault proposedDefault : Option String) (indexes : List Sql.Migration) :
    List Sql.Migration :=
  (c.shapeSteps current proposed currentDefault proposedDefault ++
      keySteps m current proposed).map (.change m.table current.column) ++
    indexes ++
    (renameSteps current proposed).map (.change m.table current.column)

namespace Composer

variable {c : Composer} {opts : Options} {m : Model} {current proposed f : Field}

theorem attributeChange_eq_ok {changed : ColumnAttribute} {differs : Bool}
    {change : Sql.ColumnChange} {changes : List Sql.ColumnChange}
    (h : c.attributeChange m f changed differs change = .ok changes) :
    changes = changeIf differs change := by
  rw [attributeChange] at h
  cases differs with
  | false => exact (pure_eq_ok.mp h).symm
  | true =>
    obtain ⟨_, _, hchange⟩ := bind_eq_ok.mp h
    exact (pure_eq_ok.mp hchange).symm

theorem shapeChanges_eq_ok {currentDefault proposedDefault : Option String}
    {changes : List Sql.ColumnChange}
    (h : c.shapeChanges m current proposed currentDefault proposedDefault = .ok changes) :
    changes = c.shapeSteps current proposed currentDefault proposedDefault := by
  unfold shapeChanges at h
  unfold shapeSteps
  dsimp only at h ⊢
  split at h
  · rename_i hrestate
    rw [if_pos hrestate]
    exact (pure_eq_ok.mp h).symm
  · rename_i hrestate
    simp only [bind_eq_ok, pure_eq_ok] at h
    obtain ⟨nullability, hnullability, default, hdefault, type, htype, rfl⟩ := h
    rw [if_neg hrestate, attributeChange_eq_ok hnullability, attributeChange_eq_ok hdefault,
      attributeChange_eq_ok htype]
    cases proposedDefault <;> rfl

theorem keyChanges_eq_ok {changes : List Sql.ColumnChange}
    (h : c.keyChanges m current proposed = .ok changes) :
    changes = keySteps m current proposed := by
  unfold keyChanges at h
  simp only [bind_eq_ok, pure_eq_ok] at h
  obtain ⟨key, hkey, unique, hunique, rfl⟩ := h
  rw [attributeChange_eq_ok hkey, attributeChange_eq_ok hunique, keySteps]

/-- A column stands in every index declared on its field. -/
theorem mem_declaredColumns {column : String} {declaration : IndexDeclaration}
    {columns : List String} (h : declaredColumns m f column declaration = .ok columns) :
    column ∈ columns := by
  have hown : f.name ∈ declaration.fieldNames f.name := by
    cases declaration <;> exact List.mem_cons_self
  obtain ⟨named, hmem, hnamed⟩ := exists_mem_right_of_forall₂ (mapM_eq_ok.mp h) hown
  rw [if_pos rfl, pure_eq_ok] at hnamed
  exact hnamed ▸ hmem

/-- Every index of a column comes from a declaration on its field and has the name that its columns
give it. -/
theorem columnIndexes_entries {column : String} {indexes : OrderedMap (List String)}
    (h : c.columnIndexes m f column = .ok indexes) {entry : String × List String}
    (hentry : entry ∈ indexes.entries) :
    f.isForeignKey = false ∧ entry.1 = c.indexNameOver m entry.2 ∧
      ∃ declaration ∈ f.indexes, declaredColumns m f column declaration = .ok entry.2 := by
  rw [columnIndexes] at h
  split at h
  · rw [← pure_eq_ok.mp h] at hentry
    cases hentry
  · rename_i hkey
    refine ⟨Bool.eq_false_iff.mpr hkey, ?_⟩
    revert entry
    refine foldlM_eq_ok_of_step (P := fun indexes => ∀ {entry}, entry ∈ indexes.entries →
      entry.1 = c.indexNameOver m entry.2 ∧
        ∃ declaration ∈ f.indexes, declaredColumns m f column declaration = .ok entry.2) ?_ ?_ h
    · intro indexes declaration next hdeclared hall hstep entry hentry
      obtain ⟨columns, hcolumns, hnext⟩ := bind_eq_ok.mp hstep
      rw [← pure_eq_ok.mp hnext] at hentry
      rcases OrderedMap.mem_entries_insertNew hentry with hold | rfl
      · exact hall hold
      · exact ⟨rfl, declaration, hdeclared, hcolumns⟩
    · intro entry hentry
      cases hentry

theorem dropIndexNamed_eq_ok {name : String} {index : Sql.DropIndex}
    (h : c.dropIndexNamed opts m name = .ok index) :
    index.name = name ∧ ∀ table ∈ index.table, table = m.table := by
  rw [dropIndexNamed] at h
  split at h
  · cases h
  · rw [← pure_eq_ok.mp h]
    refine ⟨rfl, fun table htable => ?_⟩
    dsimp only at htable
    split at htable <;> cases htable
    rfl

theorem createIndexOver_eq_ok {name : String} {columns : List String} {index : Sql.CreateIndex}
    (h : c.createIndexOver opts m name columns = .ok index) :
    index.name = name ∧ index.columns = columns ∧ index.table = m.table := by
  rw [createIndexOver] at h
  split at h
  · cases h
  · split at h
    · cases h
    · rw [← pure_eq_ok.mp h]
      exact ⟨rfl, rfl, rfl⟩

/-- The steps that lead from the indexes `old` of a column to the indexes `new`: those that are
only old are dropped, then those that are only new are created. -/
structure IndexSteps (m : Model) (old new : OrderedMap (List String))
    (dropped : List Sql.DropIndex) (created : List Sql.CreateIndex) : Prop where
  dropped_names : dropped.map (·.name) = old.keys.filter fun name => !new.contains name
  created_entries : created.map (·.entry) = new.entries.filter fun entry => !old.contains entry.1
  dropped_table : ∀ index ∈ dropped, ∀ table ∈ index.table, table = m.table
  created_table : ∀ index ∈ created, index.table = m.table

namespace IndexSteps

variable {old new : OrderedMap (List String)} {dropped : List Sql.DropIndex}
  {created : List Sql.CreateIndex}

theorem created_names (h : IndexSteps m old new dropped created) :
    created.map (·.name) = new.keys.filter fun name => !old.contains name := by
  have hnames : created.map (·.name) = (created.map (·.entry)).map Prod.fst := by
    rw [List.map_map]
    rfl
  rw [hnames, h.created_entries, OrderedMap.keys, List.filter_map]
  rfl

/-- Where all the old indexes are there, the new ones take their place and the others stay. -/
theorem indexesAfter (h : IndexSteps m old new dropped created) {names : Finset String}
    (hnames : old.keys.toFinset ⊆ names) :
    (Sql.indexSteps dropped created).foldl Sql.Migration.indexesAfter names =
      new.keys.toFinset ∪ (names \ old.keys.toFinset) := by
  rw [Sql.indexSteps, List.foldl_append, Sql.foldl_indexesAfter_drop, Sql.foldl_indexesAfter_create,
    h.dropped_names, h.created_names]
  ext name
  have hmem : name ∈ old.keys → name ∈ names := fun hold =>
    hnames (List.mem_toFinset.mpr hold)
  simp only [Finset.mem_union, Finset.mem_sdiff, List.mem_toFinset, List.mem_filter,
    Bool.not_eq_true', Bool.eq_false_iff, ne_eq, OrderedMap.contains_iff]
  tauto

/-- Where the names are the same, there is nothing to do. -/
theorem eq_nil (h : IndexSteps m old new dropped created)
    (hkeys : old.keys.toFinset = new.keys.toFinset) : dropped = [] ∧ created = [] := by
  have hmem : ∀ name, name ∈ old.keys ↔ name ∈ new.keys := fun name => by
    rw [← List.mem_toFinset, hkeys, List.mem_toFinset]
  constructor
  · have hnone : old.keys.filter (fun name => !new.contains name) = [] := by
      simp only [List.filter_eq_nil_iff, Bool.not_eq_true', Bool.not_eq_false,
        OrderedMap.contains_iff]
      exact fun name => (hmem name).mp
    exact List.map_eq_nil_iff.mp (h.dropped_names.trans hnone)
  · have hnone : new.keys.filter (fun name => !old.contains name) = [] := by
      simp only [List.filter_eq_nil_iff, Bool.not_eq_true', Bool.not_eq_false,
        OrderedMap.contains_iff]
      exact fun name => (hmem name).mpr
    exact List.map_eq_nil_iff.mp (h.created_names.trans hnone)

end IndexSteps

theorem indexChanges_eq_ok {steps : List Sql.Migration}
    (h : c.indexChanges opts m current proposed = .ok steps) :
    ∃ old new dropped created,
      c.columnIndexes m current current.column = .ok old ∧
      c.columnIndexes m proposed current.column = .ok new ∧
      IndexSteps m old new dropped created ∧
      steps = Sql.indexSteps dropped created := by
  unfold indexChanges at h
  simp only [bind_eq_ok, pure_eq_ok] at h
  obtain ⟨old, hold, new, hnew, drops, hdrops, creates, hcreates, rfl⟩ := h
  obtain ⟨dropped, rfl, hdropped⟩ := mapM_map_eq_ok hdrops
  obtain ⟨created, rfl, hcreated⟩ := mapM_map_eq_ok hcreates
  refine ⟨old, new, dropped, created, hold, hnew, ?_, rfl⟩
  constructor
  · refine map_eq_of_mapM_eq_ok hdropped fun name index hindex => ?_
    exact (dropIndexNamed_eq_ok hindex).1
  · refine map_eq_of_mapM_eq_ok hcreated fun entry index hindex => ?_
    obtain ⟨hname, hcolumns, _⟩ := createIndexOver_eq_ok hindex
    rw [Sql.CreateIndex.entry, hname, hcolumns]
  · intro index hindex
    obtain ⟨name, _, hname⟩ := exists_of_mapM_eq_ok hdropped hindex
    exact (dropIndexNamed_eq_ok hname).2
  · intro index hindex
    obtain ⟨entry, _, hentry⟩ := exists_of_mapM_eq_ok hcreated hindex
    exact (createIndexOver_eq_ok hentry).2.2

/-- A default does not depend on the statement that it stands in. -/
theorem columnDefault_of_statement (kind : StatementKind) :
    c.columnDefault { opts with statement := kind } f = c.columnDefault opts f := rfl

theorem alterTree_eq_ok {model : String} {steps : List Sql.Migration}
    (h : c.alterTree opts model current proposed = .ok steps) :
    ∃ m currentDefault proposedDefault old new dropped created,
      c.schema.model model = .ok m ∧
      c.columnDefault opts current = .ok currentDefault ∧
      c.columnDefault opts proposed = .ok proposedDefault ∧
      c.columnIndexes m current current.column = .ok old ∧
      c.columnIndexes m proposed current.column = .ok new ∧
      IndexSteps m old new dropped created ∧
      steps = c.alterSteps m current proposed currentDefault proposedDefault
        (Sql.indexSteps dropped created) := by
  unfold alterTree at h
  simp only [bind_eq_ok, pure_eq_ok, columnDefault_of_statement] at h
  obtain ⟨m, hm, currentDefault, hcurrent, proposedDefault, hproposed, shape, hshape, keys, hkeys,
    indexes, hindexes, rfl⟩ := h
  obtain ⟨old, new, dropped, created, hold, hnew, hsteps, rfl⟩ := indexChanges_eq_ok hindexes
  refine ⟨m, currentDefault, proposedDefault, old, new, dropped, created, hm, hcurrent, hproposed,
    hold, hnew, hsteps, ?_⟩
  have hrename : (if current.column = proposed.column then [] else
      [Sql.ColumnChange.rename proposed.column]) = renameSteps current proposed := by
    by_cases hname : current.column = proposed.column <;> simp [renameSteps, changeIf, hname]
  rw [shapeChanges_eq_ok hshape, keyChanges_eq_ok hkeys, hrename, alterSteps, List.map_append]

end Composer

end SqlCompose
