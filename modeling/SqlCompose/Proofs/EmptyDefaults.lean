import SqlCompose.Proofs.Clauses.Write
import SqlCompose.Proofs.DeclaredColumns
import SqlCompose.Proofs.Delta.Assignments
import SqlCompose.Proofs.Migration.Steps

/-!
# Defaults with an empty text

A default may be SQL text that is computed for the statement at hand, and the text may be empty. An
UPDATE leaves the field out then. The other statements write the empty text all the same: an INSERT
as a cell, CREATE TABLE, ADD COLUMN and ALTER behind DEFAULT. The main statement says for each of
them where exactly that happens.
-/

namespace SqlCompose

/-- The default of the field is SQL text, computed by a rule. -/
def Field.ComputesSql (f : Field) (rule : ComputedDefault) : Prop :=
  f.default = some (.computed rule) ∧ rule.flags.literal

/-- The rule is evaluated for a field on an event, and its text is empty. -/
def ComputedDefault.EmptyOn (rule : ComputedDefault) (d : Dialect) (event : DefaultEvent)
    (record : Option Record) (f : Field) : Prop :=
  rule.appliesTo event ∧ rule.text d ⟨event, f.ref, record⟩ f.type = ""

/-- The field shares its name with no other stored field. -/
def Model.Distinguishes (m : Model) (f : Field) : Prop :=
  ∀ other ∈ m.storedFields, other.name = f.name → other = f

/-- Which fields have an empty cell in the tuple of a record: those that the record leaves as they
are, and whose default has an empty text. -/
structure EmptyCells (d : Dialect) (m : Model) (fields : List Field) (r : Record)
    (cells : List Sql.Cell) : Prop where
  length_eq : cells.length = fields.length
  mem_iff : ∀ f ∈ m.storedFields, ∀ rule, f.ComputesSql rule → m.Distinguishes f →
    ((f, Sql.Cell.raw "") ∈ fields.zip cells ↔
      (∀ v, ¬ r.Dirty f.name v) ∧ rule.EmptyOn d .insert (some r) f)

/-- A change writes DEFAULT, and nothing behind it. -/
def Sql.ColumnChange.BareDefault : Sql.ColumnChange → Prop
  | .restate definition => definition.default = some ""
  | .setDefault expression => expression = ""
  | _ => False

def Sql.Migration.BareDefault : Sql.Migration → Prop
  | .change _ _ what => what.BareDefault
  | .createIndex _ | .dropIndex _ => False

namespace Composer

variable {c : Composer} {opts : Options} {m : Model} {record : Record} {f : Field}
  {rule : ComputedDefault}

/-- A rule for SQL text gives raw content, with the text of the rule. -/
theorem computedContent_of_computesSql (hf : f.ComputesSql rule) (r : Option Record)
    (event : DefaultEvent) :
    c.computedContent f r event =
      if rule.appliesTo event then some (.raw (rule.text c.dialect ⟨event, f.ref, r⟩ f.type))
      else none := by
  rw [computedContent, hf.1]
  dsimp only
  rw [if_pos hf.2, ComputedDefault.text, hf.2]
  cases rule.value ⟨event, f.ref, r⟩ <;> rfl

theorem computedContent_eq_raw_empty_iff (hf : f.ComputesSql rule) {r : Option Record}
    {event : DefaultEvent} :
    c.computedContent f r event = some (.raw "") ↔ rule.EmptyOn c.dialect event r f := by
  rw [computedContent_of_computesSql hf, ComputedDefault.EmptyOn]
  by_cases happlies : rule.appliesTo event = true <;> simp [happlies]

/-- What an INSERT puts into the field is empty SQL text if the record leaves the field as it is and
the text of its default is empty. -/
theorem insertContent_eq_raw_empty_iff (opts : Options) (hf : f.ComputesSql rule) :
    c.insertContent opts record f = .ok (some (.raw "")) ↔
      (∀ v, ¬ record.Dirty f.name v) ∧ rule.EmptyOn c.dialect .insert (some record) f := by
  rw [insertContent, ← Record.changedValue?_eq_none_iff]
  cases record.changedValue? f.name with
  | some v => simp [pure, Except.pure]
  | none =>
    rw [hf.1]
    dsimp only
    rw [pure_eq_ok, computedContent_eq_raw_empty_iff hf, and_iff_right rfl]

section Rows

variable {row next : Row}

theorem get?_fillRow_of_ne {other : Field} (h : c.fillRow opts record row other = .ok next)
    (hne : other.name ≠ f.name) : next.get? f.name = row.get? f.name := by
  simp only [fillRow, bind_eq_ok] at h
  obtain ⟨content, -, h⟩ := h
  cases content with
  | none =>
    cases h
    rfl
  | some content =>
    cases h
    rw [OrderedMap.get?_insert, if_neg fun heq => hne heq.symm]

/-- A step fills in the content of its field, unless there is content of the name already. -/
theorem get?_fillRow (h : c.fillRow opts record row f = .ok next)
    (hrow : row.get? f.name = none ∨ c.insertContent opts record f = .ok (row.get? f.name)) :
    c.insertContent opts record f = .ok (next.get? f.name) := by
  simp only [fillRow, bind_eq_ok] at h
  obtain ⟨content, hcontent, h⟩ := h
  cases content with
  | none =>
    cases h
    rcases hrow with hnone | hold
    · rw [hcontent, hnone]
    · exact hold
  | some content =>
    cases h
    rw [hcontent, OrderedMap.get?_insert, if_pos rfl]

/-- A row holds the content of each field that is the only one of its name. -/
theorem get?_insertRow (h : c.insertRow opts m record = .ok row) (hf : f ∈ m.storedFields)
    (hown : m.Distinguishes f) : c.insertContent opts record f = .ok (row.get? f.name) := by
  simp only [insertRow, bind_eq_ok] at h
  obtain ⟨-, -, h⟩ := h
  obtain ⟨before, after, hfields⟩ := List.append_of_mem hf
  have hother : ∀ other ∈ before ++ f :: after, other.name = f.name → other = f := by
    rw [← hfields]
    exact hown
  rw [hfields, List.foldlM_append, bind_eq_ok] at h
  obtain ⟨start, hstart, h⟩ := h
  rw [List.foldlM_cons, bind_eq_ok] at h
  obtain ⟨filled, hfilled, hrest⟩ := h
  -- Until the field's own step there may be nothing under its name; from then on there is its
  -- content, as any later field of the name is the same one.
  have hstarted : start.get? f.name = none ∨
      c.insertContent opts record f = .ok (start.get? f.name) := by
    refine foldlM_eq_ok_of_step (P := fun row : Row => row.get? f.name = none ∨
      c.insertContent opts record f = .ok (row.get? f.name)) ?_ (.inl rfl) hstart
    intro row other next hmem hrow hstep
    by_cases hname : other.name = f.name
    · obtain rfl := hother other (List.mem_append_left _ hmem) hname
      exact .inr (get?_fillRow hstep hrow)
    · rw [get?_fillRow_of_ne hstep hname]
      exact hrow
  refine foldlM_eq_ok_of_step (P := fun row : Row =>
    c.insertContent opts record f = .ok (row.get? f.name)) ?_ (get?_fillRow hfilled hstarted) hrest
  intro row other next hmem hrow hstep
  by_cases hname : other.name = f.name
  · obtain rfl := hother other (List.mem_append_right _ (List.mem_cons_of_mem _ hmem)) hname
    exact get?_fillRow hstep (.inr hrow)
  · rw [get?_fillRow_of_ne hstep hname]
    exact hrow

theorem rowCell_eq_raw_iff {sql : String} :
    rowCell row f = .raw sql ↔ row.get? f.name = some (.raw sql) := by
  rw [rowCell]
  cases row.get? f.name with
  | none => simp
  | some content => cases content <;> simp [Content.cell]

theorem mem_setFields_of_get? {rows : List Row} (hrow : row ∈ rows) {content : Content}
    (hf : f ∈ m.storedFields) (h : row.get? f.name = some content) : f ∈ setFields m rows := by
  refine List.mem_filter.mpr ⟨hf, List.any_eq_true.mpr ⟨row, hrow, ?_⟩⟩
  rw [OrderedMap.contains, h]
  rfl

end Rows

theorem emptyCells_of_insertRow {rows : List Row} {row : Row} (hrow : row ∈ rows)
    (h : c.insertRow opts m record = .ok row) :
    EmptyCells c.dialect m (setFields m rows) record
      ((setFields m rows).map (rowCell row)) where
  length_eq := List.length_map _
  mem_iff := by
    intro f hf rule hrule hown
    have hcontent := get?_insertRow h hf hown
    rw [← insertContent_eq_raw_empty_iff opts hrule, hcontent, Except.ok.injEq,
      ← List.map_prod_left_eq_zip, ← rowCell_eq_raw_iff]
    constructor
    · intro hmem
      obtain ⟨other, -, heq⟩ := List.mem_map.mp hmem
      obtain ⟨rfl, hcell⟩ := Prod.mk.inj heq
      exact hcell
    · intro hcell
      have hfield := mem_setFields_of_get? hrow hf (rowCell_eq_raw_iff.mp hcell)
      exact List.mem_map.mpr ⟨f, hfield, by rw [hcell]⟩

/-- The columns and the tuples of an INSERT come from the same fields. -/
theorem insertTree_emptyCells {model : String} (hm : c.schema.model model = .ok m)
    {records : List Record} {s : Sql.Insert} (h : c.insertTree opts model records = .ok (some s)) :
    ∃ fields, s.columns = fields.map (·.column) ∧
      List.Forall₂ (EmptyCells c.dialect m fields) records s.rows := by
  simp only [insertTree, bind_eq_ok, hm, Except.ok.injEq, exists_eq_left'] at h
  obtain ⟨rows, hrows, h⟩ := h
  split at h
  · cases h
  · simp only [bind_eq_ok, pure_eq_ok] at h
    obtain ⟨returning, -, heq⟩ := h
    cases heq
    refine ⟨setFields m rows, rfl, ?_⟩
    rw [List.forall₂_map_right_iff]
    obtain ⟨hlength, hall⟩ := List.forall₂_iff_zip.mp (mapM_eq_ok.mp hrows)
    refine List.forall₂_iff_zip.mpr ⟨hlength, fun hmem => ?_⟩
    exact emptyCells_of_insertRow (List.of_mem_zip hmem).2 (hall hmem)

/-- An UPDATE passes over the fields whose default has an empty text. -/
theorem assignment_eq_none_of_emptyOn (hf : f.ComputesSql rule)
    (hclean : ∀ v, ¬ record.Dirty f.name v)
    (hempty : rule.EmptyOn c.dialect .update (some record) f) : c.assignment record f = none := by
  have hcontent : c.updateContent record f = some (.raw "") := by
    rw [updateContent, Record.changedValue?_eq_none_iff.mpr hclean]
    exact (computedContent_eq_raw_empty_iff hf).mpr hempty
  rw [assignment, hcontent]
  exact if_pos rfl

theorem updateTree_assignments {model : String} (hm : c.schema.model model = .ok m)
    {q : Option Query} {s : Sql.Update} (h : c.updateTree opts model record q = .ok (some s)) :
    s.assignments = m.storedFields.filterMap (c.assignment record) := by
  simp only [updateTree, bind_eq_ok, hm, Except.ok.injEq, exists_eq_left'] at h
  obtain ⟨-, -, h⟩ := h
  split at h
  · cases h
  · cases q with
    | none =>
      simp only [bind_eq_ok, pure_eq_ok] at h
      obtain ⟨_, _, _, _, heq⟩ := h
      cases heq
      rfl
    | some q =>
      simp only [bind_eq_ok, pure_eq_ok] at h
      obtain ⟨_, _, _, _, heq⟩ := h
      cases heq
      rfl

/-- A DEFAULT is written bare if the text that is computed for it is empty. -/
theorem columnDefault_eq_empty_iff (opts : Options) (hf : f.ComputesSql rule) :
    c.columnDefault opts f = .ok (some "") ↔ rule.EmptyOn c.dialect .define none f := by
  rw [columnDefault, hf.1]
  dsimp only
  rw [computedContent_of_computesSql hf, pure_eq_ok, ComputedDefault.EmptyOn]
  by_cases happlies : rule.appliesTo .define = true <;> simp [happlies, Content.cell, Sql.Cell.text]

/-- A column that was defined for the field has a bare DEFAULT in the same cases. -/
theorem default_eq_empty_iff {default : Option String} (hf : f.ComputesSql rule)
    (h : c.columnDefault opts f = .ok default) :
    default = some "" ↔ rule.EmptyOn c.dialect .define none f := by
  rw [← columnDefault_eq_empty_iff opts hf, h, Except.ok.injEq]

/-- The column is restated as a whole, with its default. -/
def Restates (c : Composer) (current proposed : Field) : Prop :=
  c.dialect.capability.modifyColumn ∧ (current.nullable ≠ proposed.nullable ∨
    c.dialect.typeName current ≠ c.dialect.typeName proposed)

theorem exists_bareDefault_shapeSteps {current proposed : Field}
    {currentDefault proposedDefault : Option String} :
    (∃ what ∈ c.shapeSteps current proposed currentDefault proposedDefault, what.BareDefault) ↔
      proposedDefault = some "" ∧ (c.Restates current proposed ∨ currentDefault ≠ some "") := by
  have hrestates : (c.dialect.capability.modifyColumn && (current.nullable != proposed.nullable ||
      c.dialect.typeName current != c.dialect.typeName proposed)) = true ↔
      c.Restates current proposed := by
    simp only [Restates, Bool.and_eq_true, Bool.or_eq_true, bne_iff_ne]
  unfold shapeSteps
  dsimp only
  split
  · rename_i hrestate
    rw [and_iff_left (.inl (hrestates.mp hrestate))]
    simp only [List.mem_singleton, exists_eq_left]
    rfl
  · rename_i hrestate
    rw [or_iff_right fun h => hrestate (hrestates.mpr h)]
    constructor
    · rintro ⟨what, hwhat, hbare⟩
      simp only [List.mem_append, mem_changeIf, bne_iff_ne] at hwhat
      rcases hwhat with (⟨-, rfl⟩ | ⟨hdiffers, rfl⟩) | ⟨-, rfl⟩
      · cases hnullable : proposed.nullable <;> rw [hnullable] at hbare <;> exact hbare.elim
      · cases proposedDefault with
        | none => exact hbare.elim
        | some expression =>
          obtain rfl : expression = "" := hbare
          exact ⟨rfl, hdiffers⟩
      · exact hbare.elim
    · rintro ⟨rfl, hdiffers⟩
      refine ⟨.setDefault "", ?_, rfl⟩
      simp only [List.mem_append, mem_changeIf, bne_iff_ne]
      exact .inl (.inr ⟨hdiffers, rfl⟩)

theorem not_bareDefault_of_mem_keySteps {current proposed : Field} {what : Sql.ColumnChange}
    (h : what ∈ keySteps m current proposed) : ¬ what.BareDefault := by
  simp only [keySteps, List.mem_append, mem_changeIf] at h
  rcases h with ⟨-, rfl⟩ | ⟨-, rfl⟩
  · cases proposed.primaryKey <;> exact id
  · cases proposed.unique <;> exact id

/-- A step writes a bare DEFAULT if the proposed default is empty and is written at all: with the
whole column, or as it differs from the current one. -/
theorem exists_bareDefault_alterSteps {current proposed : Field}
    {currentDefault proposedDefault : Option String} {dropped : List Sql.DropIndex}
    {created : List Sql.CreateIndex} :
    (∃ step ∈ c.alterSteps m current proposed currentDefault proposedDefault
      (Sql.indexSteps dropped created), step.BareDefault) ↔
      proposedDefault = some "" ∧ (c.Restates current proposed ∨ currentDefault ≠ some "") := by
  rw [← exists_bareDefault_shapeSteps]
  constructor
  · rintro ⟨step, hstep, hbare⟩
    simp only [alterSteps, Sql.indexSteps, List.mem_append, List.mem_map] at hstep
    rcases hstep with (⟨what, hshape | hkeys, rfl⟩ | ⟨index, -, rfl⟩ | ⟨index, -, rfl⟩) |
      ⟨what, hrename, rfl⟩
    · exact ⟨what, hshape, hbare⟩
    · exact absurd hbare (not_bareDefault_of_mem_keySteps hkeys)
    · exact hbare.elim
    · exact hbare.elim
    · rw [(mem_changeIf.mp hrename).2] at hbare
      exact hbare.elim
  · rintro ⟨what, hwhat, hbare⟩
    refine ⟨.change m.table current.column what, ?_, hbare⟩
    simp only [alterSteps, List.mem_append, List.mem_map]
    exact .inl (.inl ⟨what, .inl hwhat, rfl⟩)

end Composer

/-- Where an empty text that is computed as a default is written: never by an UPDATE, which leaves
the field out; by an INSERT in each tuple whose record leaves the field as it is, if the default is
evaluated for it; behind the DEFAULT of a created or added column, if the database is to compute the
default; and behind the DEFAULT of a changed column, if the change writes the default at all. -/
theorem empty_default_written_iff {c : Composer} {model : String} {m : Model}
    (hm : c.schema.model model = .ok m) (opts : Options) :
    (∀ records text, c.insert opts model records = .ok (some text) →
      ∃ s fields, c.insertTree opts model records = .ok (some s) ∧ text = s.text c.dialect ∧
        s.columns = fields.map (·.column) ∧
        List.Forall₂ (EmptyCells c.dialect m fields) records s.rows) ∧
    (∀ record q text, c.update opts model record q = .ok (some text) →
      ∃ s, c.updateTree opts model record q = .ok (some s) ∧ text = s.text c.dialect ∧
        s.assignments = m.storedFields.filterMap (c.assignment record) ∧
        (∀ a ∈ s.assignments, a.cell.text c.dialect ≠ "") ∧
        ∀ f rule, f.ComputesSql rule → (∀ v, ¬ record.Dirty f.name v) →
          rule.EmptyOn c.dialect .update (some record) f → c.assignment record f = none) ∧
    (∀ text, c.createTable opts model = .ok text →
      ∃ t, c.createTableTree opts model = .ok t ∧ text = t.text c.dialect ∧
        List.Forall₂ (fun f column => ∀ rule, f.ComputesSql rule →
          (column.default = some "" ↔ rule.EmptyOn c.dialect .define none f))
          m.storedFields t.columns) ∧
    (∀ name f text, m.field name = .ok f → c.addColumn opts model name = .ok text →
      ∃ column, text = (Sql.TableStatement.addColumn m.table column).text c.dialect ∧
        ∀ rule, f.ComputesSql rule →
          (column.default = some "" ↔ rule.EmptyOn c.dialect .define none f)) ∧
    (∀ current proposed texts, c.alterTable opts model current proposed = .ok texts →
      ∃ steps, c.alterTree opts model current proposed = .ok steps ∧
        texts = steps.map (·.text c.dialect) ∧
        ∀ rule, proposed.ComputesSql rule → ((∃ step ∈ steps, step.BareDefault) ↔
          rule.EmptyOn c.dialect .define none proposed ∧
            (c.Restates current proposed ∨ c.columnDefault opts current ≠ .ok (some "")))) := by
  refine ⟨fun records text h => ?_, fun record q text h => ?_, fun text h => ?_,
    fun name f text hf h => ?_, fun current proposed texts h => ?_⟩
  · simp only [Composer.insert, bind_eq_ok, pure_eq_ok, Option.map_eq_some_iff] at h
    obtain ⟨_, htree, s, rfl, rfl⟩ := h
    obtain ⟨fields, hcolumns, hcells⟩ := Composer.insertTree_emptyCells hm htree
    exact ⟨s, fields, htree, rfl, hcolumns, hcells⟩
  · simp only [Composer.update, bind_eq_ok, pure_eq_ok, Option.map_eq_some_iff] at h
    obtain ⟨_, htree, s, rfl, rfl⟩ := h
    have hassignments := Composer.updateTree_assignments hm htree
    refine ⟨s, htree, rfl, hassignments, ?_, fun f rule hrule hclean hempty =>
      Composer.assignment_eq_none_of_emptyOn hrule hclean hempty⟩
    rw [hassignments]
    exact Composer.text_ne_empty_of_assignments
  · simp only [Composer.createTable, bind_eq_ok, pure_eq_ok] at h
    obtain ⟨t, ht, rfl⟩ := h
    obtain ⟨other, hother, -, hcolumns, -⟩ := Composer.createTableTree_eq_ok ht
    obtain rfl := Except.ok.inj (hother.symm.trans hm)
    refine ⟨t, ht, rfl, hcolumns.imp fun f column hcolumn rule hrule => ?_⟩
    obtain ⟨default, hdefault, rfl⟩ := hcolumn
    exact Composer.default_eq_empty_iff hrule hdefault
  · simp only [Composer.addColumn, Composer.addedColumn, Composer.columnDefinition_eq, bind_eq_ok,
      pure_eq_ok, map_eq_ok] at h
    obtain ⟨_, ⟨other, hother, g, hg, column, ⟨default, hdefault, rfl⟩, rfl⟩, rfl⟩ := h
    obtain rfl := Except.ok.inj (hother.symm.trans hm)
    obtain rfl := Except.ok.inj (hg.symm.trans hf)
    refine ⟨_, rfl, fun rule hrule => ?_⟩
    exact Composer.default_eq_empty_iff hrule hdefault
  · simp only [Composer.alterTable, bind_eq_ok, pure_eq_ok] at h
    obtain ⟨steps, hsteps, rfl⟩ := h
    obtain ⟨_, currentDefault, proposedDefault, _, _, dropped, created, _, hcurrent, hproposed,
      _, _, _, heq⟩ := Composer.alterTree_eq_ok hsteps
    refine ⟨steps, hsteps, rfl, fun rule hrule => ?_⟩
    rw [heq, Composer.exists_bareDefault_alterSteps, Composer.default_eq_empty_iff hrule hproposed,
      hcurrent, ne_eq, ne_eq, Except.ok.injEq]

/-- A field whose default is computed as SQL text that is still missing. -/
def unwritten (name : String) (type : ColumnType) (flags : DefaultFlags) : Field :=
  { Field.named name type with
    column := name
    model := "Draft"
    default := some (.computed ⟨{ flags with literal := true }, fun _ => .string ""⟩) }

/-- Drafts, with a time that is written by each statement and a mark that the database computes. -/
def draftModel : Model := ⟨"Draft", "drafts", [
  { Field.named "id" (.integer 8) with column := "id", model := "Draft" }.asPrimaryKey,
  { Field.named "body" .text with column := "body", model := "Draft" },
  unwritten "changed" .datetime .updating,
  unwritten "mark" .text .inDatabase]⟩

def drafts : Composer where
  schema := ⟨⟨[("Draft", draftModel)], by decide⟩, by decide⟩
  dialect := .postgresql
  config := {}

/-- The time of the last change, with a default for INSERT and UPDATE. -/
abbrev changedField : Field := unwritten "changed" .datetime .updating

/-- The mark, with a default that the database computes. -/
abbrev markField : Field := unwritten "mark" .text .inDatabase

/-- The mark before it had a default. -/
def plainMark : Field := { Field.named "mark" .text with column := "mark", model := "Draft" }

def newDraft : Record := (Record.new "Draft").set "body" (.string "x")

theorem insert_newDraft : drafts.insert {} "Draft" [newDraft] =
    .ok (some "INSERT INTO \"drafts\" (\"body\", \"changed\") VALUES ('x', )") := by
  decide +kernel

theorem update_newDraft : drafts.update {} "Draft" newDraft none =
    .ok (some "UPDATE \"drafts\" SET \"body\" = 'x'") := by
  decide +kernel

theorem createTable_drafts : drafts.createTable {} "Draft" =
    .ok ("CREATE TABLE \"drafts\" ( \"id\" BIGINT PRIMARY KEY NOT NULL, \"body\" TEXT, " ++
      "\"changed\" TIMESTAMP WITH TIME ZONE, \"mark\" TEXT DEFAULT  )") := by
  decide +kernel

theorem addColumn_mark : drafts.addColumn {} "Draft" "mark" =
    .ok "ALTER TABLE \"drafts\" ADD COLUMN \"mark\" TEXT DEFAULT " := by
  decide +kernel

theorem alterTable_mark : drafts.alterTable {} "Draft" plainMark markField =
    .ok ["ALTER TABLE \"drafts\" ALTER COLUMN \"mark\" SET DEFAULT "] := by
  decide +kernel

theorem draftModel_distinguishes : draftModel.Distinguishes changedField := by
  intro other hother hname
  have hfields : other ∈ draftModel.fields := List.mem_of_mem_filter hother
  simp only [draftModel, List.mem_cons, List.not_mem_nil, or_false] at hfields
  rcases hfields with rfl | rfl | rfl | rfl
  · exact absurd hname (by decide)
  · exact absurd hname (by decide)
  · rfl
  · exact absurd hname (by decide)

theorem newDraft_clean (v : Value) : ¬ newDraft.Dirty "changed" v := by
  rintro ⟨hset, -⟩
  cases hset

theorem empty_default_written_iff_drafts :
    drafts.schema.model "Draft" = .ok draftModel ∧
    (∃ s : Sql.Insert, ∃ fields : List Field, ∃ cells,
      drafts.insertTree {} "Draft" [newDraft] = .ok (some s) ∧ s.rows = [cells] ∧
      (changedField, Sql.Cell.raw "") ∈ fields.zip cells) ∧
    drafts.assignment newDraft changedField = none ∧
    (∃ t, drafts.createTableTree {} "Draft" = .ok t ∧
      ∃ column ∈ t.columns, column.default = some "") ∧
    (∃ column : Sql.ColumnDefinition, drafts.addColumn {} "Draft" "mark" =
        .ok ((Sql.TableStatement.addColumn "drafts" column).text drafts.dialect) ∧
      column.default = some "") ∧
    ∃ steps, drafts.alterTree {} "Draft" plainMark markField = .ok steps ∧
      ∃ step ∈ steps, step.BareDefault := by
  have hm : drafts.schema.model "Draft" = .ok draftModel := rfl
  have hchanged : changedField ∈ draftModel.storedFields := .tail _ (.tail _ (.head _))
  have hmark : markField ∈ draftModel.storedFields := .tail _ (.tail _ (.tail _ (.head _)))
  have hbare : ComputedDefault.EmptyOn ⟨{ DefaultFlags.inDatabase with literal := true },
      fun _ => .string ""⟩ drafts.dialect .define none markField := ⟨rfl, rfl⟩
  obtain ⟨insert, update, create, add, alter⟩ := empty_default_written_iff hm {}
  obtain ⟨s, fields, hs, -, -, hcells⟩ := insert _ _ insert_newDraft
  obtain ⟨cells, rest, hrow, hrest, hrows⟩ := List.forall₂_cons_left_iff.mp hcells
  obtain rfl := List.forall₂_nil_left_iff.mp hrest
  obtain ⟨-, -, -, -, -, hpassed⟩ := update _ _ _ update_newDraft
  obtain ⟨t, ht, -, hcolumns⟩ := create _ createTable_drafts
  obtain ⟨column, hcolumn, hdefault⟩ := exists_mem_right_of_forall₂ hcolumns hmark
  obtain ⟨added, hadded, hbareAdded⟩ := add "mark" markField _ rfl addColumn_mark
  obtain ⟨steps, hsteps, -, hstep⟩ := alter _ _ _ alterTable_mark
  refine ⟨hm, ⟨s, fields, cells, hs, hrows, ?_⟩, ?_, ⟨t, ht, column, hcolumn, ?_⟩,
    ⟨added, ?_, ?_⟩, steps, hsteps, ?_⟩
  · exact (hrow.mem_iff _ hchanged _ ⟨rfl, rfl⟩ draftModel_distinguishes).mpr
      ⟨newDraft_clean, rfl, rfl⟩
  · exact hpassed _ _ ⟨rfl, rfl⟩ newDraft_clean ⟨rfl, rfl⟩
  · exact (hdefault _ ⟨rfl, rfl⟩).mpr hbare
  · exact addColumn_mark.trans (congrArg _ hadded)
  · exact (hbareAdded _ ⟨rfl, rfl⟩).mpr hbare
  · refine (hstep _ ⟨rfl, rfl⟩).mpr ⟨hbare, .inr ?_⟩
    exact fun hnone => by cases hnone

/-- The gaps: a tuple without its second value, and DEFAULT with nothing behind it. -/
theorem empty_default_leaves_gaps :
    (drafts.insert {} "Draft" [newDraft] =
      .ok (some "INSERT INTO \"drafts\" (\"body\", \"changed\") VALUES ('x', )")) ∧
    drafts.createTable {} "Draft" =
      .ok ("CREATE TABLE \"drafts\" ( \"id\" BIGINT PRIMARY KEY NOT NULL, \"body\" TEXT, " ++
        "\"changed\" TIMESTAMP WITH TIME ZONE, \"mark\" TEXT DEFAULT  )") ∧
    drafts.addColumn {} "Draft" "mark" =
      .ok "ALTER TABLE \"drafts\" ADD COLUMN \"mark\" TEXT DEFAULT " ∧
    drafts.alterTable {} "Draft" plainMark markField =
      .ok ["ALTER TABLE \"drafts\" ALTER COLUMN \"mark\" SET DEFAULT "] :=
  ⟨insert_newDraft, createTable_drafts, addColumn_mark, alterTable_mark⟩

end SqlCompose
