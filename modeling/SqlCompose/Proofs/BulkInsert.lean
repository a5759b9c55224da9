import Mathlib
import SqlCompose.Proofs.Filter
import SqlCompose.Write.Insert

/-!
# Several records in one INSERT

The INSERT of several records is made of the INSERTs of each of them alone. It has the columns of
all of these, and the tuple of a record repeats the cells of the record's own INSERT and leaves the
columns blank that this one does not have. Columns and tuples are composed by separate passes over
the same rows; a `Tuple` pairs them up again.
-/

namespace SqlCompose

/-- Cells in the columns of fields, as many of either. -/
structure Tuple where
  fields : List Field
  cells : List Sql.Cell
  length_eq : cells.length = fields.length

namespace Tuple

/-- The cells with the fields whose columns they fill. -/
def entries (t : Tuple) : List (Field × Sql.Cell) := t.fields.zip t.cells

/-- Whether a field is among those of a tuple. -/
def covers (t : Tuple) (f : Field) : Bool := t.fields.any (·.name == f.name)

/-- One tuple holds what another one does, and is blank in every other column. -/
structure Widens (d : Dialect) (wide narrow : Tuple) : Prop where
  kept : wide.entries.filter (narrow.covers ·.1) = narrow.entries
  blank : ∀ entry ∈ wide.entries, narrow.covers entry.1 = false → entry.2.text d = d.placeholder

/-- The cells of a row in the columns of fields. -/
def ofRow (row : Row) (fields : List Field) : Tuple where
  fields := fields
  cells := fields.map (Composer.rowCell row)
  length_eq := List.length_map _

/-- What a row alone inserts. -/
def single (m : Model) (row : Row) : Tuple := ofRow row (Composer.setFields m [row])

theorem entries_ofRow (row : Row) (fields : List Field) :
    (ofRow row fields).entries = fields.map fun f => (f, Composer.rowCell row f) :=
  List.map_prod_left_eq_zip.symm

end Tuple

/-- The INSERT of tuples of fields; there is none without fields. -/
def Model.insertOf (m : Model) (fields : List Field) (tuples : List Tuple) (ending : Sql.Ending) :
    Option Sql.Insert :=
  if fields.isEmpty then none
  else some ⟨m.table, fields.map (·.column), tuples.map (·.cells), ending⟩

theorem Model.insertOf_eq_none_iff {m : Model} {fields : List Field} {tuples : List Tuple}
    {ending : Sql.Ending} : m.insertOf fields tuples ending = none ↔ fields = [] := by
  cases fields <;> simp [insertOf]

namespace Composer

variable {c : Composer} {opts : Options} {model : String} {m : Model} {records : List Record}

theorem setFields_singleton (m : Model) (row : Row) :
    setFields m [row] = m.storedFields.filter fun f => row.contains f.name := by
  simp only [setFields, List.any_cons, List.any_nil, Bool.or_false]

/-- The field names of a row are those of the columns that it fills alone. -/
theorem covers_single {f : Field} (hf : f ∈ m.storedFields) (row : Row) :
    (Tuple.single m row).covers f = row.contains f.name := by
  have hfields : (Tuple.single m row).fields = m.storedFields.filter fun f => row.contains f.name :=
    setFields_singleton m row
  rw [Tuple.covers, hfields, Bool.eq_iff_iff, List.any_eq_true]
  constructor
  · rintro ⟨g, hg, hname⟩
    rw [← beq_iff_eq.mp hname]
    exact (List.mem_filter.mp hg).2
  · intro hset
    exact ⟨f, List.mem_filter.mpr ⟨hf, hset⟩, beq_self_eq_true _⟩

/-- The columns of several rows are those of each of them, in the order of the model. -/
theorem setFields_eq_union (m : Model) (rows : List Row) :
    setFields m rows =
      m.storedFields.filter fun f => (rows.map (Tuple.single m)).any (·.covers f) := by
  refine List.filter_congr fun f hf => ?_
  have hcovers : ((Tuple.covers · f) ∘ Tuple.single m) = fun row => row.contains f.name :=
    funext (covers_single hf)
  rw [List.any_map, hcovers]

theorem fields_single (m : Model) (row : Row) :
    (Tuple.single m row).fields = m.storedFields.filter (Tuple.single m row).covers := by
  have hunion := setFields_eq_union m [row]
  simp only [List.map_cons, List.map_nil, List.any_cons, List.any_nil, Bool.or_false] at hunion
  exact hunion

theorem rowCell_text_of_not_contains {row : Row} {f : Field} (h : row.contains f.name = false)
    (d : Dialect) : (rowCell row f).text d = d.placeholder := by
  have hnone : row.get? f.name = none := by simpa [OrderedMap.contains] using h
  rw [rowCell, hnone]
  rfl

/-- Among other rows a row has the cells that it has alone, and blanks. -/
theorem widens_single (d : Dialect) {row : Row} {rows : List Row} (hrow : row ∈ rows) :
    Tuple.Widens d (Tuple.ofRow row (setFields m rows)) (Tuple.single m row) where
  kept := by
    -- Both sides pair fields with the same row's cells, so only the fields have to be compared.
    rw [Tuple.entries_ofRow, Tuple.single, Tuple.entries_ofRow, List.filter_map, ← Tuple.single]
    refine congrArg _ ?_
    rw [setFields_singleton, setFields, List.filter_filter]
    refine List.filter_congr fun f hf => ?_
    rw [Function.comp_apply, covers_single hf]
    have hany : row.contains f.name → rows.any (·.contains f.name) := fun h =>
      List.any_eq_true.mpr ⟨row, hrow, h⟩
    cases hset : row.contains f.name with
    | false => rfl
    | true => rw [hany hset, Bool.and_self]
  blank := by
    intro entry hentry hcovers
    rw [Tuple.entries_ofRow] at hentry
    obtain ⟨f, hf, rfl⟩ := List.mem_map.mp hentry
    rw [covers_single (List.mem_filter.mp hf).1] at hcovers
    exact rowCell_text_of_not_contains hcovers d

/-- What follows the tuples of an INSERT that returns nothing. -/
def insertEnding (c : Composer) (opts : Options) (m : Model) : Sql.Ending :=
  ⟨c.dialect.insertTail m { opts with statement := .insert }, none⟩

/-- The INSERT of rows that are put together. -/
def insertRows (c : Composer) (opts : Options) (m : Model) (rows : List Row) : Option Sql.Insert :=
  m.insertOf (setFields m rows) (rows.map fun row => Tuple.ofRow row (setFields m rows))
    (c.insertEnding opts m)

theorem insertTree_eq (hm : c.schema.model model = .ok m) (hr : opts.returning = none)
    (records : List Record) :
    c.insertTree opts model records =
      (records.mapM (c.insertRow { opts with statement := .insert } m)).map
        (c.insertRows opts m) := by
  have hreturning : c.returning m { opts with statement := .insert } = .ok none := by
    rw [returning, hr]
    rfl
  rw [insertTree, hm]
  change (records.mapM (c.insertRow { opts with statement := .insert } m) >>= fun rows =>
    if (setFields m rows).isEmpty then pure none
    else c.returning m { opts with statement := .insert } >>= _) = _
  cases records.mapM (c.insertRow { opts with statement := .insert } m) with
  | error e => rfl
  | ok rows =>
    change (if (setFields m rows).isEmpty then pure none
      else c.returning m { opts with statement := .insert } >>= _) =
        .ok (c.insertRows opts m rows)
    rw [hreturning, insertRows, Model.insertOf]
    split
    · rfl
    · rw [List.map_map]
      rfl

theorem insertTree_single (hm : c.schema.model model = .ok m) (hr : opts.returning = none)
    (record : Record) :
    c.insertTree opts model [record] =
      (c.insertRow { opts with statement := .insert } m record).map (c.insertRows opts m [·]) := by
  rw [insertTree_eq hm hr, List.mapM_cons, List.mapM_nil]
  cases c.insertRow { opts with statement := .insert } m record <;> rfl

theorem insert_eq (c : Composer) (opts : Options) (model : String) (records : List Record) :
    c.insert opts model records =
      (c.insertTree opts model records).map fun tree => tree.map (·.text c.dialect) := by
  rw [insert]
  cases c.insertTree opts model records <;> rfl

theorem insert_eq_none_iff :
    c.insert opts model records = .ok none ↔ c.insertTree opts model records = .ok none := by
  simp only [insert_eq, map_eq_ok, Option.map_eq_none_iff, exists_eq_right]

theorem insert_eq_error_iff (hm : c.schema.model model = .ok m) (hr : opts.returning = none)
    {e : Error} :
    c.insert opts model records = .error e ↔
      records.mapM (c.insertRow { opts with statement := .insert } m) = .error e := by
  rw [insert_eq, map_eq_error, insertTree_eq hm hr, map_eq_error]

theorem insert_single_eq_error_iff (hm : c.schema.model model = .ok m)
    (hr : opts.returning = none) {record : Record} {e : Error} :
    c.insert opts model [record] = .error e ↔
      c.insertRow { opts with statement := .insert } m record = .error e := by
  rw [insert_eq, map_eq_error, insertTree_single hm hr, map_eq_error]

/-- Several records are refused for the same reason as the first one that is refused alone. -/
theorem insert_refused_at_first (hm : c.schema.model model = .ok m) (hr : opts.returning = none)
    {e : Error} (h : c.insert opts model records = .error e) :
    ∃ before record after, records = before ++ record :: after ∧
      (∀ other ∈ before, ∃ s, c.insert opts model [other] = .ok s) ∧
      c.insert opts model [record] = .error e := by
  rw [insert_eq_error_iff hm hr] at h
  obtain ⟨before, record, after, rfl, hbefore, hrecord⟩ := mapM_eq_error.mp h
  refine ⟨before, record, after, rfl, ?_, ?_⟩
  · intro other hother
    obtain ⟨row, hrow⟩ := hbefore other hother
    rw [insert_eq, insertTree_single hm hr, hrow]
    exact ⟨_, rfl⟩
  · exact (insert_single_eq_error_iff hm hr).mpr hrecord

end Composer

/-- The INSERT of records as tuples of fields, beside the tuples that the records insert alone. -/
structure BulkInsert (c : Composer) (opts : Options) (model : String) (m : Model)
    (records : List Record) (fields : List Field) (alone together : List Tuple) : Prop where
  alone_eq : List.Forall₂ (fun record tuple => c.insertTree opts model [record] =
    .ok (m.insertOf tuple.fields [tuple] (c.insertEnding opts m))) records alone
  together_eq : c.insertTree opts model records =
    .ok (m.insertOf fields together (c.insertEnding opts m))
  ordered : ∀ tuple ∈ alone, tuple.fields = m.storedFields.filter tuple.covers
  union : fields = m.storedFields.filter fun f => alone.any (·.covers f)
  tuples : List.Forall₂ (fun tuple wide => wide.fields = fields ∧ wide.Widens c.dialect tuple)
    alone together

namespace BulkInsert

variable {c : Composer} {opts : Options} {model : String} {m : Model} {records : List Record}

theorem of_rows (hm : c.schema.model model = .ok m) (hr : opts.returning = none)
    {rows : List Row}
    (h : records.mapM (c.insertRow { opts with statement := .insert } m) = .ok rows) :
    BulkInsert c opts model m records (Composer.setFields m rows) (rows.map (Tuple.single m))
      (rows.map fun row => Tuple.ofRow row (Composer.setFields m rows)) where
  alone_eq := by
    rw [List.forall₂_map_right_iff]
    refine (mapM_eq_ok.mp h).imp fun record row hrow => ?_
    rw [Composer.insertTree_single hm hr, hrow]
    rfl
  together_eq := by
    rw [Composer.insertTree_eq hm hr, h]
    rfl
  ordered := by
    intro tuple htuple
    obtain ⟨row, -, rfl⟩ := List.mem_map.mp htuple
    exact Composer.fields_single m row
  union := Composer.setFields_eq_union m rows
  tuples := by
    rw [List.forall₂_map_left_iff, List.forall₂_map_right_iff, List.forall₂_same]
    exact fun row hrow => ⟨rfl, Composer.widens_single c.dialect hrow⟩

variable {fields : List Field} {alone together : List Tuple}

theorem fields_eq_nil_iff (h : BulkInsert c opts model m records fields alone together) :
    fields = [] ↔ ∀ tuple ∈ alone, tuple.fields = [] := by
  constructor
  · intro hnil tuple htuple
    rw [h.ordered tuple htuple, List.filter_eq_nil_iff]
    intro f hf hcovers
    rw [h.union, List.filter_eq_nil_iff] at hnil
    exact hnil f hf (List.any_eq_true.mpr ⟨tuple, htuple, hcovers⟩)
  · intro hall
    rw [h.union, List.filter_eq_nil_iff]
    intro f hf hany
    obtain ⟨tuple, htuple, hcovers⟩ := List.any_eq_true.mp hany
    rw [Tuple.covers, hall tuple htuple, List.any_nil] at hcovers
    exact Bool.false_ne_true hcovers

theorem none_iff (h : BulkInsert c opts model m records fields alone together) :
    c.insertTree opts model records = .ok none ↔
      ∀ record ∈ records, c.insertTree opts model [record] = .ok none := by
  rw [h.together_eq, Except.ok.injEq, Model.insertOf_eq_none_iff, h.fields_eq_nil_iff]
  have halone := h.alone_eq
  constructor
  · intro hnil record hrecord
    obtain ⟨tuple, htuple, hsingle⟩ := exists_mem_right_of_forall₂ halone hrecord
    rw [hsingle, Except.ok.injEq, Model.insertOf_eq_none_iff]
    exact hnil tuple htuple
  · intro hnone tuple htuple
    obtain ⟨record, hrecord, hsingle⟩ := exists_mem_right_of_forall₂ halone.flip htuple
    rw [hnone record hrecord, Except.ok.injEq, eq_comm, Model.insertOf_eq_none_iff] at hsingle
    exact hsingle

end BulkInsert

/-- The INSERT of records is refused exactly if that of a record alone is, and is missing exactly
if all of these are. Otherwise it has their columns, and for each record a tuple that holds the
cells of the record's own INSERT and blanks. -/
theorem bulk_insert_joins_single_inserts {c : Composer} {opts : Options} {model : String}
    {m : Model} (hm : c.schema.model model = .ok m) (hr : opts.returning = none)
    (records : List Record) :
    ((∃ e, c.insert opts model records = .error e) ↔
      ∃ record ∈ records, ∃ e, c.insert opts model [record] = .error e) ∧
    (c.insert opts model records = .ok none ↔
      ∀ record ∈ records, c.insert opts model [record] = .ok none) ∧
    ∀ s, c.insert opts model records = .ok s →
      ∃ fields alone together, BulkInsert c opts model m records fields alone together ∧
        s = (m.insertOf fields together (c.insertEnding opts m)).map (·.text c.dialect) := by
  have hrefused : (∃ e, c.insert opts model records = .error e) ↔
      ∃ record ∈ records, ∃ e, c.insert opts model [record] = .error e := by
    -- The records one by one come first, as the other rewriting would apply to them too.
    simp only [Composer.insert_single_eq_error_iff hm hr]
    simp only [Composer.insert_eq_error_iff hm hr]
    exact exists_mapM_eq_error_iff
  refine ⟨hrefused, ?_⟩
  cases hrows : records.mapM (c.insertRow { opts with statement := .insert } m) with
  | error e =>
    have hbulk : c.insert opts model records = .error e :=
      (Composer.insert_eq_error_iff hm hr).mpr hrows
    obtain ⟨record, hrecord, e', hsingle⟩ := hrefused.mp ⟨e, hbulk⟩
    refine ⟨⟨?_, ?_⟩, ?_⟩
    · intro hnone
      cases hbulk.symm.trans hnone
    · intro hall
      cases hsingle.symm.trans (hall record hrecord)
    · intro s hs
      cases hbulk.symm.trans hs
  | ok rows =>
    have hbulk := BulkInsert.of_rows hm hr hrows
    refine ⟨?_, ?_⟩
    · simp only [Composer.insert_eq_none_iff]
      exact hbulk.none_iff
    · intro s hs
      rw [Composer.insert_eq, hbulk.together_eq] at hs
      exact ⟨_, _, _, hbulk, (Except.ok.inj hs).symm⟩

/-- Two people of whom different things are known. -/
def newcomers : List Record :=
  [(Record.new "Person").set "name" (.string "Ann"),
    ((Record.new "Person").set "age" (.int 70)).set "id" (.int 2)]

theorem bulk_insert_joins_single_inserts_newcomers :
    (∃ m, people.schema.model "Person" = .ok m ∧ ({} : Options).returning = none ∧
      ∃ fields alone together,
        BulkInsert people {} "Person" m newcomers fields alone together ∧
        some ("INSERT INTO \"people\" (\"id\", \"name\", \"age\") " ++
          "VALUES (NULL, 'Ann', NULL), (2, NULL, 70)") =
            (m.insertOf fields together (people.insertEnding {} m)).map (·.text people.dialect)) := by
  have hm : ∃ m, people.schema.model "Person" = .ok m := ⟨_, rfl⟩
  obtain ⟨m, hm⟩ := hm
  have hr : ({} : Options).returning = none := rfl
  have hs : people.insert {} "Person" newcomers =
      .ok (some ("INSERT INTO \"people\" (\"id\", \"name\", \"age\") " ++
        "VALUES (NULL, 'Ann', NULL), (2, NULL, 70)")) := by
    delta Composer.insert Sql.Insert.text
    cbv
  obtain ⟨-, -, hjoined⟩ := bulk_insert_joins_single_inserts hm hr newcomers
  exact ⟨m, hm, hr, hjoined _ hs⟩

end SqlCompose
