import Mathlib
import SqlCompose.Dialect.Builtin
import SqlCompose.Proofs.Migration.Steps

/-!
# Indexes over the history of a field

A table is created with the indexes of its model, and then one field of the model goes through a
chain of versions. Indexes are named after columns. The indexes of a new version are created under
the old name of the column, before the column is renamed, and no statement renames an index. What
the database has and what the next migration takes for granted may differ from then on, so a
version has to hand over its indexes under the names by which the next migration looks for them.
Nothing is claimed about indexes made by other means than these statements.
-/

namespace SqlCompose

/-- A model with a place for one field. -/
structure Slot where
  name : String
  table : String
  before : List Field
  after : List Field

/-- The model with a field in its place. -/
def Slot.filledWith (slot : Slot) (f : Field) : Model :=
  ⟨slot.name, slot.table, slot.before ++ f :: slot.after⟩

/-- A step fits the indexes of a table: what it drops is there, and what it creates is not, unless
it stems from other fields. -/
def Sql.Migration.Fits (others names : Finset String) : Sql.Migration → Prop
  | .change _ _ _ => True
  | .createIndex index => index.name ∉ names ∨ index.name ∈ others
  | .dropIndex index => index.name ∈ names

/-- Every step fits the indexes that the steps before it leave behind. -/
def StepsFit (others : Finset String) : Finset String → List Sql.Migration → Prop
  | _, [] => True
  | names, step :: rest => step.Fits others names ∧ StepsFit others (step.indexesAfter names) rest

instance (others names : Finset String) (step : Sql.Migration) :
    Decidable (step.Fits others names) :=
  match step with
  | .change _ _ _ => inferInstanceAs (Decidable True)
  | .createIndex index => inferInstanceAs (Decidable (index.name ∉ names ∨ index.name ∈ others))
  | .dropIndex index => inferInstanceAs (Decidable (index.name ∈ names))

instance decidableStepsFit (others names : Finset String) :
    (steps : List Sql.Migration) → Decidable (StepsFit others names steps)
  | [] => inferInstanceAs (Decidable True)
  | step :: rest =>
      have := decidableStepsFit others (step.indexesAfter names) rest
      inferInstanceAs (Decidable (step.Fits others names ∧ _))

section StepsFit

variable {others names : Finset String}

theorem stepsFit_append {first second : List Sql.Migration} :
    StepsFit others names (first ++ second) ↔ StepsFit others names first ∧
      StepsFit others (first.foldl Sql.Migration.indexesAfter names) second := by
  induction first generalizing names with
  | nil => exact (iff_of_eq (true_and _)).symm
  | cons step first ih => rw [List.cons_append, StepsFit, StepsFit, ih, List.foldl_cons, and_assoc]

theorem stepsFit_change (table column : String) (changes : List Sql.ColumnChange) :
    StepsFit others names (changes.map (.change table column)) := by
  induction changes with
  | nil => trivial
  | cons change changes ih => exact ⟨trivial, ih⟩

theorem stepsFit_drop {dropped : List Sql.DropIndex} (hnodup : (dropped.map (·.name)).Nodup)
    (hmem : ∀ name ∈ dropped.map (·.name), name ∈ names) :
    StepsFit others names (dropped.map .dropIndex) := by
  induction dropped generalizing names with
  | nil => trivial
  | cons index dropped ih =>
    rw [List.map_cons, List.nodup_cons] at hnodup
    refine ⟨hmem index.name List.mem_cons_self, ih hnodup.2 fun name hname => ?_⟩
    have hne : name ≠ index.name := fun he => hnodup.1 (he ▸ hname)
    exact Finset.mem_erase.mpr ⟨hne, hmem name (List.mem_cons_of_mem _ hname)⟩

theorem stepsFit_create {created : List Sql.CreateIndex} (hnodup : (created.map (·.name)).Nodup)
    (hmem : ∀ name ∈ created.map (·.name), name ∉ names ∨ name ∈ others) :
    StepsFit others names (created.map .createIndex) := by
  induction created generalizing names with
  | nil => trivial
  | cons index created ih =>
    rw [List.map_cons, List.nodup_cons] at hnodup
    refine ⟨hmem index.name List.mem_cons_self, ih hnodup.2 fun name hname => ?_⟩
    have hne : name ≠ index.name := fun he => hnodup.1 (he ▸ hname)
    refine (hmem name (List.mem_cons_of_mem _ hname)).imp_left fun hnew => ?_
    exact fun hinsert => (Finset.mem_insert.mp hinsert).elim hne hnew

end StepsFit

namespace Composer

variable {c : Composer} {opts : Options} {m : Model} {f g : Field} {slot : Slot}

/-- The composer with a model registered under its name, in place of the one that was. -/
def withModel (c : Composer) (m : Model) : Composer :=
  { c with schema := c.schema.put m }

theorem withModel_model : (c.withModel m).schema.model m.name = .ok m := by
  have hget : (c.schema.models.insert m.name m).get? m.name = some m := by
    rw [OrderedMap.get?_insert, if_pos rfl]
  simp only [withModel, Schema.put, Schema.model, Schema.model?, hget]

theorem filledWith_model :
    (c.withModel (slot.filledWith f)).schema.model slot.name = .ok (slot.filledWith f) :=
  withModel_model

/-- The indexes `own` of a field are there, and all others stem from other fields. -/
structure Accounts (others : Finset String) (own names : Finset String) : Prop where
  there : own ⊆ names
  rest : names \ own ⊆ others

/-- Where the old indexes of a column are accounted for, the steps to the new ones fit, and leave
the new ones accounted for. -/
theorem IndexSteps.fit {old new : OrderedMap (List String)} {dropped : List Sql.DropIndex}
    {created : List Sql.CreateIndex} (h : IndexSteps m old new dropped created)
    {others names : Finset String} (hnames : Accounts others old.keys.toFinset names) :
    StepsFit others names (Sql.indexSteps dropped created) ∧
      Accounts others new.keys.toFinset
        ((Sql.indexSteps dropped created).foldl Sql.Migration.indexesAfter names) := by
  have hold : ∀ name ∈ old.keys, name ∈ names := fun name hname =>
    hnames.there (List.mem_toFinset.mpr hname)
  rw [h.indexesAfter hnames.there, Sql.indexSteps, stepsFit_append, Sql.foldl_indexesAfter_drop]
  refine ⟨⟨stepsFit_drop ?_ ?_, stepsFit_create ?_ ?_⟩, ?_, ?_⟩
  · rw [h.dropped_names]
    exact old.nodup_keys.filter _
  · intro name hname
    rw [h.dropped_names] at hname
    exact hold name (List.mem_filter.mp hname).1
  · rw [h.created_names]
    exact new.nodup_keys.filter _
  · intro name hname
    rw [h.created_names, List.mem_filter, Bool.not_eq_true', Bool.eq_false_iff, ne_eq,
      OrderedMap.contains_iff] at hname
    -- A name that is there although it is not an old one stems from other fields.
    by_cases hthere : name ∈ names
    · have hrest : name ∈ names \ old.keys.toFinset :=
        Finset.mem_sdiff.mpr ⟨hthere, fun ho => hname.2 (List.mem_toFinset.mp ho)⟩
      exact .inr (hnames.rest hrest)
    · exact .inl fun hleft => hthere (Finset.mem_sdiff.mp hleft).1
  · exact Finset.subset_union_left
  · rw [Finset.union_sdiff_left]
    exact fun name hname => hnames.rest (Finset.mem_sdiff.mp hname).1

section AlterSteps

variable {proposed : Field} {currentDefault proposedDefault : Option String}
  {indexes : List Sql.Migration} {others names : Finset String}

theorem foldl_indexesAfter_alterSteps :
    (c.alterSteps m f proposed currentDefault proposedDefault indexes).foldl
      Sql.Migration.indexesAfter names = indexes.foldl Sql.Migration.indexesAfter names := by
  rw [alterSteps, List.foldl_append, List.foldl_append, Sql.foldl_indexesAfter_change,
    Sql.foldl_indexesAfter_change]

theorem stepsFit_alterSteps :
    StepsFit others names (c.alterSteps m f proposed currentDefault proposedDefault indexes) ↔
      StepsFit others names indexes := by
  rw [alterSteps, stepsFit_append, stepsFit_append, Sql.foldl_indexesAfter_change]
  constructor
  · rintro ⟨⟨_, hindexes⟩, _⟩
    exact hindexes
  · intro hindexes
    exact ⟨⟨stepsFit_change .., hindexes⟩, stepsFit_change ..⟩

end AlterSteps

theorem alterTree_fits {model : String} {steps : List Sql.Migration}
    (h : c.alterTree opts model f g = .ok steps) :
    ∃ m old new,
      c.schema.model model = .ok m ∧
      c.columnIndexes m f f.column = .ok old ∧
      c.columnIndexes m g f.column = .ok new ∧
      ∀ others names, Accounts others old.keys.toFinset names →
        StepsFit others names steps ∧
          Accounts others new.keys.toFinset (steps.foldl Sql.Migration.indexesAfter names) := by
  obtain ⟨m, _, _, old, new, dropped, created, hm, _, _, hold, hnew, hsteps, rfl⟩ :=
    alterTree_eq_ok h
  refine ⟨m, old, new, hm, hold, hnew, fun others names hnames => ?_⟩
  rw [stepsFit_alterSteps, foldl_indexesAfter_alterSteps]
  exact hsteps.fit hnames

/-- Two fields give the indexes of a column, as it is called for the first of them, the same
names. -/
def SameIndexes (c : Composer) (slot : Slot) (f g : Field) : Prop :=
  ∀ old new, c.columnIndexes (slot.filledWith f) f f.column = .ok old →
    c.columnIndexes (slot.filledWith f) g f.column = .ok new →
    old.keys.toFinset = new.keys.toFinset

theorem alterTree_fits_of_sameIndexes {steps : List Sql.Migration}
    (hsame : c.SameIndexes slot f g)
    (h : (c.withModel (slot.filledWith f)).alterTree opts slot.name f g = .ok steps)
    (others names : Finset String) : StepsFit others names steps := by
  obtain ⟨m, _, _, old, new, dropped, created, hm, _, _, hold, hnew, hsteps, rfl⟩ :=
    alterTree_eq_ok h
  obtain rfl : slot.filledWith f = m := Except.ok.inj (filledWith_model.symm.trans hm)
  obtain ⟨rfl, rfl⟩ := hsteps.eq_nil (hsame old new hold hnew)
  rw [stepsFit_alterSteps]
  trivial

/-- A chain of versions of a field with the steps from each to the next, composed against the model
that holds the former. -/
inductive Evolves (c : Composer) (slot : Slot) : Field → List Field → List Sql.Migration → Prop
  | refl (f : Field) : Evolves c slot f [] []
  | step {f g : Field} {rest : List Field} {opts : Options} {steps more : List Sql.Migration}
      (h : (c.withModel (slot.filledWith f)).alterTree opts slot.name f g = .ok steps)
      (next : Evolves c slot g rest more) : Evolves c slot f (g :: rest) (steps ++ more)

/-- The names that the indexes of a version receive, while its column has the name of the version
before, are the ones under which the next migration looks for them. -/
def KeepsNames (c : Composer) (slot : Slot) (f g : Field) : Prop :=
  ∀ new own, c.columnIndexes (slot.filledWith f) g f.column = .ok new →
    c.columnIndexes (slot.filledWith g) g g.column = .ok own →
    new.keys.toFinset = own.keys.toFinset

/-- No version of a field changes the indexes of the one before. -/
def LeavesIndexes (c : Composer) (slot : Slot) : Field → List Field → Prop
  | _, [] => True
  | f, g :: rest => c.SameIndexes slot f g ∧ LeavesIndexes c slot g rest

/-- Every version keeps the names of its indexes, up to one whose indexes are left as they are. -/
def HandsOver (c : Composer) (slot : Slot) : Field → List Field → Prop
  | _, [] => True
  | f, g :: rest =>
      c.KeepsNames slot f g ∧ HandsOver c slot g rest ∨ c.LeavesIndexes slot g rest

theorem Evolves.fits_of_leavesIndexes {versions : List Field} {steps : List Sql.Migration}
    (h : c.Evolves slot f versions steps) (hleaves : c.LeavesIndexes slot f versions)
    (others names : Finset String) : StepsFit others names steps := by
  induction h generalizing names with
  | refl f => trivial
  | step h next ih =>
    exact stepsFit_append.mpr
      ⟨alterTree_fits_of_sameIndexes hleaves.1 h others names, ih hleaves.2 _⟩

/-- Along a chain of versions, the indexes of the version at hand stay accounted for. -/
theorem Evolves.fits {versions : List Field} {steps : List Sql.Migration}
    (h : c.Evolves slot f versions steps) (hkeeps : c.HandsOver slot f versions)
    {others names : Finset String}
    (hstart : ∀ own, c.columnIndexes (slot.filledWith f) f f.column = .ok own →
      Accounts others own.keys.toFinset names) :
    StepsFit others names steps := by
  induction h generalizing names with
  | refl f => trivial
  | @step f g rest opts steps more h next ih =>
    obtain ⟨m, old, new, hm, hold, hnew, hfits⟩ := alterTree_fits h
    obtain rfl : slot.filledWith f = m := Except.ok.inj (filledWith_model.symm.trans hm)
    obtain ⟨hfit, hafter⟩ := hfits others names (hstart old hold)
    refine stepsFit_append.mpr ⟨hfit, ?_⟩
    -- What the step leaves accounted for are the indexes of `g` under the column name of `f`; the
    -- next migration looks for them under that of `g`.
    rcases hkeeps with ⟨hnames, hrest⟩ | hleaves
    · refine ih hrest fun own hown => ?_
      rw [← hnames new own hnew hown]
      exact hafter
    · exact next.fits_of_leavesIndexes hleaves _ _

theorem field?_filledWith {name : String} (hf : f.name ≠ name) (hg : g.name ≠ name) :
    (slot.filledWith f).field? name = (slot.filledWith g).field? name := by
  simp [Model.field?, Slot.filledWith, List.find?_append, hf, hg]

/-- Another version of a field does not change how the other fields of an index are found. -/
theorem declaredColumns_filledWith (hname : g.name = f.name) (column : String) :
    declaredColumns (slot.filledWith f) g column = declaredColumns (slot.filledWith g) g column := by
  funext declaration
  have hlookup : (fun name => if name = g.name then return column
        else do return (← (slot.filledWith f).field name).column) =
      fun name => (if name = g.name then return column
        else do return (← (slot.filledWith g).field name).column : Except Error String) := by
    funext name
    by_cases hown : name = g.name
    · rw [if_pos hown, if_pos hown]
    · have hf : f.name ≠ name := fun he => hown (he ▸ hname.symm)
      have hg : g.name ≠ name := fun he => hown he.symm
      rw [if_neg hown, if_neg hown, Model.field, Model.field, field?_filledWith hf hg]
      rfl
  rw [declaredColumns, declaredColumns, hlookup]

/-- A version keeps the names of its indexes if it has none, or if it keeps field and column
name. -/
theorem keepsNames_of (h : g.isForeignKey = true ∨ g.indexes = [] ∨
    g.name = f.name ∧ g.column = f.column) : c.KeepsNames slot f g := by
  intro new own hnew hown
  have heq : c.columnIndexes (slot.filledWith f) g f.column =
      c.columnIndexes (slot.filledWith g) g g.column := by
    rcases h with hkey | hnone | ⟨hname, hcolumn⟩
    · rw [columnIndexes, columnIndexes, if_pos hkey, if_pos hkey]
    · rw [columnIndexes, columnIndexes, hnone]
      rfl
    · rw [columnIndexes, columnIndexes, declaredColumns_filledWith hname, hcolumn]
      rfl
  rw [heq] at hnew
  rw [Except.ok.inj (hnew.symm.trans hown)]

theorem createIndexTree_name (hm : c.schema.model m.name = .ok m) {fields : List String}
    {name : String} {index : Sql.CreateIndex} (hname : c.indexName m fields = .ok name)
    (h : c.createIndexTree opts m.name fields = .ok index) : index.name = name := by
  simp only [createIndexTree, indexName, bind_eq_ok, pure_eq_ok] at h hname
  obtain ⟨m', hm', columns, hcolumns, hover⟩ := h
  obtain rfl : m = m' := Except.ok.inj (hm.symm.trans hm')
  obtain ⟨columns', hcolumns', rfl⟩ := hname
  obtain rfl : columns = columns' := Except.ok.inj (hcolumns.symm.trans hcolumns')
  exact (createIndexOver_eq_ok hover).1

/-- Every list of fields that is to have an index has one. -/
theorem createIndexes_names (hm : c.schema.model m.name = .ok m) {seen : List String}
    {declared : List (List String)} {indexes : List Sql.CreateIndex}
    (h : c.createIndexes opts m seen declared = .ok indexes) :
    ∀ fields ∈ declared, ∃ name, c.indexName m fields = .ok name ∧
      (name ∈ seen ∨ name ∈ indexes.map (·.name)) := by
  induction declared generalizing seen indexes with
  | nil => exact nofun
  | cons head rest ih =>
    rw [createIndexes, bind_eq_ok] at h
    obtain ⟨name, hname, h⟩ := h
    intro fields hfields
    split at h
    · rename_i hseen
      rcases List.mem_cons.mp hfields with rfl | hrest
      · exact ⟨name, hname, .inl (List.contains_iff_mem.mp hseen)⟩
      · exact ih h fields hrest
    · simp only [bind_eq_ok, pure_eq_ok] at h
      obtain ⟨index, hindex, others, hothers, rfl⟩ := h
      have hindexName : index.name = name := createIndexTree_name hm hname hindex
      rcases List.mem_cons.mp hfields with rfl | hrest
      · exact ⟨name, hname, .inr (hindexName ▸ List.mem_cons_self)⟩
      · obtain ⟨other, hother, hmem⟩ := ih hothers fields hrest
        refine ⟨other, hother, ?_⟩
        rw [List.map_cons, hindexName]
        simpa [or_assoc] using hmem

/-- The columns of an index are found alike in a declaration on a field and in its model. -/
theorem declaredColumns_eq (hfound : m.field? f.name = some f) (declaration : IndexDeclaration) :
    declaredColumns m f f.column declaration =
      indexColumns m (declaration.fieldNames f.name) := by
  have hsome : (declaration.fieldNames f.name).isEmpty = false := by cases declaration <;> rfl
  have hlookup : (fun name => if name = f.name then return f.column
        else do return (← m.field name).column) =
      fun name => (do return (← m.field name).column : Except Error String) := by
    funext name
    by_cases hname : name = f.name
    · rw [if_pos hname, hname, Model.field, hfound]
      rfl
    · rw [if_neg hname]
  rw [declaredColumns, indexColumns, hsome, hlookup]
  rfl

/-- The indexes that a table is created with account for those of each of its fields. -/
theorem createIndexes_accounts (hm : c.schema.model m.name = .ok m) (hmem : f ∈ m.fields)
    (hindexed : f.indexes ≠ [] → f.isVirtual = false ∧ m.field? f.name = some f)
    {indexes : List Sql.CreateIndex}
    (h : c.createIndexes opts m [] (declaredIndexes m) = .ok indexes) :
    ∃ own, c.columnIndexes m f f.column = .ok own ∧
      own.keys.toFinset ⊆ (indexes.map (·.name)).toFinset := by
  have hdeclared : f.isForeignKey = false → ∀ declaration ∈ f.indexes,
      ∃ columns, declaredColumns m f f.column declaration = .ok columns ∧
        c.indexNameOver m columns ∈ indexes.map (·.name) := by
    intro hkey declaration hdeclaration
    obtain ⟨hstored, hfound⟩ := hindexed (List.ne_nil_of_mem hdeclaration)
    have hfield : f ∈ m.storedFields := List.mem_filter.mpr ⟨hmem, by rw [hstored]; rfl⟩
    have hfields : declaration.fieldNames f.name ∈ declaredIndexes m :=
      List.mem_flatMap.mpr ⟨f, List.mem_filter.mpr ⟨hfield, by rw [hkey]; rfl⟩,
        List.mem_map_of_mem hdeclaration⟩
    obtain ⟨name, hname, hseen | hcreated⟩ := createIndexes_names hm h _ hfields
    · cases hseen
    · rw [indexName, bind_eq_ok, ← declaredColumns_eq hfound] at hname
      obtain ⟨columns, hcolumns, hover⟩ := hname
      exact ⟨columns, hcolumns, pure_eq_ok.mp hover ▸ hcreated⟩
  have htotal : ∃ own, c.columnIndexes m f f.column = .ok own := by
    rw [columnIndexes]
    split
    · exact ⟨_, rfl⟩
    · rename_i hkey
      refine exists_foldlM_eq_ok (fun indexes declaration hdeclaration => ?_) _
      obtain ⟨columns, hcolumns, _⟩ :=
        hdeclared (Bool.eq_false_iff.mpr hkey) declaration hdeclaration
      exact ⟨_, by rw [hcolumns]; rfl⟩
  obtain ⟨own, hown⟩ := htotal
  refine ⟨own, hown, fun name hname => ?_⟩
  obtain ⟨entry, hentry, rfl⟩ := List.mem_map.mp (List.mem_toFinset.mp hname)
  obtain ⟨hkey, hover, declaration, hdeclaration, hcolumns⟩ := columnIndexes_entries hown hentry
  obtain ⟨columns, hcolumns', hcreated⟩ := hdeclared hkey declaration hdeclaration
  obtain rfl : entry.2 = columns := Except.ok.inj (hcolumns.symm.trans hcolumns')
  rw [hover]
  exact List.mem_toFinset.mpr hcreated

theorem createTableStatements_eq_ok {indexes : List Sql.CreateIndex}
    (htable : ∃ table, (c.withModel (slot.filledWith f)).createTable opts slot.name = .ok table)
    (hindexes : (c.withModel (slot.filledWith f)).createIndexes opts (slot.filledWith f) []
      (declaredIndexes (slot.filledWith f)) = .ok indexes) :
    ∃ table, (c.withModel (slot.filledWith f)).createTableStatements opts slot.name =
      .ok (table :: indexes.map (·.text c.dialect)) := by
  obtain ⟨table, htable⟩ := htable
  refine ⟨table, ?_⟩
  simp only [createTableStatements, bind_eq_ok, pure_eq_ok]
  exact ⟨table, htable, _, filledWith_model, indexes, hindexes, rfl⟩

end Composer

/-- A table is created for a model, and a field of it evolves. If the versions of the field hand over
the names of their indexes, then every index that is dropped is there at that point, and every index
that is created is not, unless the table was created with it for other fields only. -/
theorem index_names_consistent {c : Composer} {slot : Slot} {f : Field} {versions : List Field}
    {opts : Options} {texts : List String} {steps : List Sql.Migration}
    (hindexed : f.indexes ≠ [] →
      f.isVirtual = false ∧ (slot.filledWith f).field? f.name = some f)
    (hcreate : (c.withModel (slot.filledWith f)).createTableStatements opts slot.name = .ok texts)
    (hchain : c.Evolves slot f versions steps) (hkeeps : c.HandsOver slot f versions) :
    ∃ table indexes own,
      texts = table :: indexes.map (·.text c.dialect) ∧
      (c.withModel (slot.filledWith f)).createIndexes opts (slot.filledWith f) []
        (Composer.declaredIndexes (slot.filledWith f)) = .ok indexes ∧
      c.columnIndexes (slot.filledWith f) f f.column = .ok own ∧
      StepsFit ((indexes.map (·.name)).toFinset \ own.keys.toFinset)
        (indexes.map (·.name)).toFinset steps := by
  unfold Composer.createTableStatements at hcreate
  simp only [bind_eq_ok, pure_eq_ok] at hcreate
  obtain ⟨table, _, m, hm, indexes, hindexes, rfl⟩ := hcreate
  obtain rfl : slot.filledWith f = m := Except.ok.inj (Composer.filledWith_model.symm.trans hm)
  have hmem : f ∈ (slot.filledWith f).fields := by simp [Slot.filledWith]
  obtain ⟨own, hown, hsubset⟩ := Composer.createIndexes_accounts hm hmem hindexed hindexes
  refine ⟨table, indexes, own, rfl, hindexes, hown, hchain.fits hkeeps fun own' hown' => ?_⟩
  obtain rfl : own = own' := Except.ok.inj (hown.symm.trans hown')
  exact ⟨hsubset, Finset.Subset.refl _⟩

/-- A history of a field with a step that does not fit the indexes which are there. -/
def Composer.Breaks (c : Composer) (slot : Slot) (f : Field) (versions : List Field) : Prop :=
  ∃ texts indexes steps,
    (c.withModel (slot.filledWith f)).createTableStatements {} slot.name = .ok texts ∧
    (c.withModel (slot.filledWith f)).createIndexes {} (slot.filledWith f) []
      (Composer.declaredIndexes (slot.filledWith f)) = .ok indexes ∧
    c.Evolves slot f versions steps ∧ ¬ StepsFit ∅ (indexes.map (·.name)).toFinset steps

/-- A database without models. -/
def blank : Composer where
  schema := .empty
  dialect := .sqlite
  config := {}

/-- People with an indexed name and a place for their age. -/
def person : Slot where
  name := "Person"
  table := "people"
  before := [{ Field.named "name" .text with
    column := "name", model := "Person", indexes := [.single] }]
  after := []

/-- The age of a person, in a column with or without an index. -/
def aged (column : String) (indexes : List IndexDeclaration) : Field :=
  { Field.named "age" (.integer 4) with column := column, model := "Person", indexes := indexes }

def nameIndex : Sql.CreateIndex := ⟨"idx_people_name", "people", ["name"], false, false⟩

def ageIndex : Sql.CreateIndex := ⟨"idx_people_age", "people", ["age"], false, false⟩

/-- The index is dropped, and comes back together with another name of the column. -/
def reindexed : List Sql.Migration := [
  .dropIndex ⟨"idx_people_age", none, false, false, false⟩,
  .createIndex ageIndex,
  .change "people" "age" (.rename "years")]

theorem aged_indexes :
    (blank.withModel (person.filledWith (aged "age" [.single]))).createIndexes {}
      (person.filledWith (aged "age" [.single])) []
      (Composer.declaredIndexes (person.filledWith (aged "age" [.single]))) =
        .ok [nameIndex, ageIndex] := by
  decide +kernel

theorem aged_table : ∃ table,
    (blank.withModel (person.filledWith (aged "age" [.single]))).createTable {} person.name =
      .ok table := by
  rw [Composer.createTable, Composer.createTableTree, Composer.filledWith_model]
  exact ⟨_, rfl⟩

theorem evolves_reindexed :
    blank.Evolves person (aged "age" [.single]) [aged "age" [], aged "years" [.single]]
      reindexed := by
  have hdrop : (blank.withModel (person.filledWith (aged "age" [.single]))).alterTree {} person.name
      (aged "age" [.single]) (aged "age" []) =
        .ok [.dropIndex ⟨"idx_people_age", none, false, false, false⟩] := by
    rw [Composer.alterTree, Composer.filledWith_model]
    decide +kernel
  have hback : (blank.withModel (person.filledWith (aged "age" []))).alterTree {} person.name
      (aged "age" []) (aged "years" [.single]) =
        .ok [.createIndex ageIndex, .change "people" "age" (.rename "years")] := by
    rw [Composer.alterTree, Composer.filledWith_model]
    decide +kernel
  exact .step hdrop (.step hback (.refl _))

theorem index_names_consistent_reindexed :
    blank.HandsOver person (aged "age" [.single]) [aged "age" [], aged "years" [.single]] ∧
    ∃ indexes own,
      (blank.withModel (person.filledWith (aged "age" [.single]))).createIndexes {}
        (person.filledWith (aged "age" [.single])) []
        (Composer.declaredIndexes (person.filledWith (aged "age" [.single]))) = .ok indexes ∧
      StepsFit ((indexes.map (·.name)).toFinset \ own) (indexes.map (·.name)).toFinset
        reindexed := by
  have hkeeps : blank.HandsOver person (aged "age" [.single])
      [aged "age" [], aged "years" [.single]] :=
    .inl ⟨Composer.keepsNames_of (.inr (.inl rfl)), .inr trivial⟩
  have hfound : (person.filledWith (aged "age" [.single])).field? (aged "age" [.single]).name =
      some (aged "age" [.single]) := rfl
  obtain ⟨table, hcreate⟩ := Composer.createTableStatements_eq_ok aged_table aged_indexes
  obtain ⟨_, indexes, own, _, hindexes, _, hfits⟩ :=
    index_names_consistent (fun _ => ⟨rfl, hfound⟩) hcreate evolves_reindexed hkeeps
  exact ⟨hkeeps, indexes, own.keys.toFinset, hindexes, hfits⟩

/-- The column is renamed with its index and then loses it: the name of the index that is dropped is
not the one under which it was created. -/
theorem breaks_by_rename :
    blank.Breaks person (aged "age" [.single]) [aged "years" [.single], aged "years" []] := by
  have hrename : (blank.withModel (person.filledWith (aged "age" [.single]))).alterTree {}
      person.name (aged "age" [.single]) (aged "years" [.single]) =
        .ok [.change "people" "age" (.rename "years")] := by
    rw [Composer.alterTree, Composer.filledWith_model]
    decide +kernel
  have hdrop : (blank.withModel (person.filledWith (aged "years" [.single]))).alterTree {}
      person.name (aged "years" [.single]) (aged "years" []) =
        .ok [.dropIndex ⟨"idx_people_years", none, false, false, false⟩] := by
    rw [Composer.alterTree, Composer.filledWith_model]
    decide +kernel
  obtain ⟨table, hcreate⟩ := Composer.createTableStatements_eq_ok aged_table aged_indexes
  exact ⟨_, _, _, hcreate, aged_indexes, .step hrename (.step hdrop (.refl _)), by decide⟩

/-- A place beside a last name that is indexed together with the first one. -/
def fullName : Slot where
  name := "Person"
  table := "people"
  before := []
  after := [{ Field.named "last" .text with
    column := "last", model := "Person", indexes := [.composite ["first"]] }]

def firstName (indexes : List IndexDeclaration) : Field :=
  { Field.named "first" .text with column := "first", model := "Person", indexes := indexes }

set_option maxRecDepth 2048 in
/-- A field declares the index that another one declares already: it is created again. -/
theorem breaks_by_other_field :
    blank.Breaks fullName (firstName []) [firstName [.composite ["last"]]] := by
  have htable : ∃ table, (blank.withModel (fullName.filledWith (firstName []))).createTable {}
      fullName.name = .ok table := by
    rw [Composer.createTable, Composer.createTableTree, Composer.filledWith_model]
    exact ⟨_, rfl⟩
  have hindexes : (blank.withModel (fullName.filledWith (firstName []))).createIndexes {}
      (fullName.filledWith (firstName [])) []
      (Composer.declaredIndexes (fullName.filledWith (firstName []))) =
        .ok [⟨"idx_people_first_last", "people", ["last", "first"], false, false⟩] := by
    cbv
  have hcreated : (blank.withModel (fullName.filledWith (firstName []))).alterTree {}
      fullName.name (firstName []) (firstName [.composite ["last"]]) =
        .ok [.createIndex ⟨"idx_people_first_last", "people", ["first", "last"], false, false⟩] := by
    rw [Composer.alterTree, Composer.filledWith_model]
    cbv
  obtain ⟨table, hcreate⟩ := Composer.createTableStatements_eq_ok htable hindexes
  exact ⟨_, _, _, hcreate, hindexes, .step hcreated (.refl _), by decide⟩

theorem index_names_inconsistent :
    blank.Breaks person (aged "age" [.single]) [aged "years" [.single], aged "years" []] ∧
      blank.Breaks fullName (firstName []) [firstName [.composite ["last"]]] :=
  ⟨breaks_by_rename, breaks_by_other_field⟩

end SqlCompose
