import Mathlib
import SqlCompose.Define.Table
import SqlCompose.Dialect.Builtin
import SqlCompose.Proofs.Composition
import SqlCompose.Proofs.JoinPlan
import SqlCompose.Write.Delete

/-!
# Deletions through joins

A deletion through joins removes the rows for which a correlated SELECT finds a match. Inside that
SELECT, the tables that it introduces hide an alias of the same name. The alias is the caller's, or
made from the name of the table, and nothing compares it with the tables. The correlation compares
the first field of the primary key only. The main statement says when no other row is removed than
those that take part in a match.
-/

namespace SqlCompose

namespace Sql

/-- The tables that a SELECT introduces. -/
def Select.tables (s : Select) : List String := s.table :: s.joins.map (·.table)

/-- A SELECT up to its WHERE clause. -/
def Select.opening (d : Dialect) (s : Select) : String :=
  "SELECT " ++
    (match s.distinct with
      | some e => e.text d ++ " "
      | none => "") ++
    s.list.sql d ++ " FROM " ++ d.identifier s.table ++ joinsText d s.joins

/-- What follows the WHERE clause of a SELECT. -/
def Select.closing (d : Dialect) (s : Select) : String :=
  clauseText " GROUP BY " (s.groupBy.map (·.text d)) ++
    havingText (chainText (linkTexts d s.having)) ++
    clauseText " ORDER BY " (s.orderBy.map (·.text d)) ++ s.rows.text d

theorem Select.text_eq (d : Dialect) (s : Select) :
    s.text d = s.opening d ++
      whereText (s.correlation.map (·.text d)) (chainText (linkTexts d s.filter)) ++
        s.closing d := by
  obtain ⟨distinct, list, table, joins, correlation, filter, groupBy, having, orderBy, rows⟩ := s
  rw [Select.text.eq_def]
  cases distinct <;> simp only [Select.opening, Select.closing, String.append_assoc]

/-- Rows at which a correlated SELECT looks: the one of the statement around it, and one of each
table that it introduces. What they hold is not NULL, so that it can be compared by equality. -/
structure Candidate (α : Type) where
  around : String → α
  introduced : String → String → α

/-- The value of a column inside a SELECT, where the row around it goes by an alias. -/
def Candidate.value {α : Type} (rows : Candidate α) (tables : List String) (label : String)
    (column : Column) : Option α :=
  if column.table ∈ tables then some (rows.introduced column.table column.name)
  else if column.table = label then some (rows.around column.name)
  else none

/-- Both sides of a correlation have one value. -/
def Correlation.Holds {α : Type} (tie : Correlation) (rows : Candidate α) (tables : List String)
    (label : String) : Prop :=
  ∃ v, rows.value tables label tie.outer = some v ∧ rows.value tables label tie.inner = some v

/-- The correlation of a column of the row around, under a label, with the column of a table. -/
def Correlation.byColumn (label table column : String) : Correlation :=
  ⟨⟨label, column, true⟩, ⟨table, column, true⟩⟩

theorem Correlation.byColumn_inj {label table column column' : String} :
    byColumn label table column = byColumn label table column' ↔ column = column' := by
  simp [byColumn]

/-- A hidden label stands for a table of the SELECT. Where the SELECT does not introduce the table
to compare with, its name can only be the label itself. -/
theorem Correlation.holds_byColumn_iff {α : Type} {rows : Candidate α} {tables : List String}
    {label table column : String} :
    (byColumn label table column).Holds rows tables label ↔
      if label ∈ tables then
        table ∈ tables ∧ rows.introduced label column = rows.introduced table column
      else if table ∈ tables then rows.introduced table column = rows.around column
      else table = label := by
  simp only [Holds, byColumn, Candidate.value, if_true]
  by_cases hlabel : label ∈ tables
  · simp only [if_pos hlabel]
    by_cases htable : table ∈ tables
    · simp [htable, eq_comm]
    · have hne : table ≠ label := by
        rintro rfl
        exact htable hlabel
      simp [htable, hne]
  · simp only [if_neg hlabel]
    by_cases htable : table ∈ tables
    · simp [htable, eq_comm]
    · by_cases heq : table = label <;> simp [htable, heq]

/-- The correlation holds between the row around and one of the matches, which are what the joins
and the filter of the SELECT keep. -/
def Correlation.Takes {α : Type} (tie : Correlation) (tables : List String) (label : String)
    (found : Set (String → String → α)) (row : String → α) : Prop :=
  ∃ introduced ∈ found, tie.Holds ⟨row, introduced⟩ tables label

/-- All rows around are taken, or none. -/
def Correlation.TakesAllOrNone (tie : Correlation) (tables : List String) (label : String) : Prop :=
  ∀ (α : Type) (found : Set (String → String → α)) (row row' : String → α),
    tie.Takes tables label found row → tie.Takes tables label found row'

/-- The rows around are told apart exactly if the label is not hidden and there is a table to
compare with. -/
theorem Correlation.takesAllOrNone_byColumn_iff {tables : List String}
    {label table column : String} :
    (byColumn label table column).TakesAllOrNone tables label ↔
      label ∈ tables ∨ table ∉ tables := by
  constructor
  · intro hall
    by_contra hcontra
    obtain ⟨hlabel, htable⟩ : label ∉ tables ∧ table ∈ tables := by
      simpa only [not_or, not_not] using hcontra
    -- A match with one value in every column takes the row of that value, and not the other one.
    have htaken : (byColumn label table column).Takes tables label {fun _ _ => true}
        fun _ => true := by
      refine ⟨_, rfl, ?_⟩
      rw [holds_byColumn_iff, if_neg hlabel, if_pos htable]
    obtain ⟨_, rfl, hholds⟩ := hall Bool _ _ (fun _ => false) htaken
    rw [holds_byColumn_iff, if_neg hlabel, if_pos htable] at hholds
    cases hholds
  · rintro h α found row row' ⟨introduced, hfound, hholds⟩
    refine ⟨introduced, hfound, ?_⟩
    rw [holds_byColumn_iff] at hholds ⊢
    rcases h with hlabel | htable
    · rwa [if_pos hlabel] at hholds ⊢
    · simpa only [htable, if_false] using hholds

end Sql

/-- Rows of a table that agree in the columns of a key are the same row. -/
def IsKey {α : Type} (key : List String) (table : Set (String → α)) : Prop :=
  ∀ row ∈ table, ∀ row' ∈ table, (∀ column ∈ key, row column = row' column) → row = row'

theorem isKey_singleton {α : Type} (key : List String) (row : String → α) : IsKey key {row} := by
  rintro _ rfl _ rfl _
  rfl

/-- Rows that a column of the key tells apart. -/
theorem isKey_pair {α : Type} {key : List String} {column : String} {row row' : String → α}
    (hcolumn : column ∈ key) (hne : row column ≠ row' column) : IsKey key {row, row'} := by
  rintro _ (rfl | rfl) _ (rfl | rfl) hagree
  · rfl
  · exact absurd (hagree column hcolumn) hne
  · exact absurd (hagree column hcolumn).symm hne
  · rfl

namespace Sql

/-- A row of a table, whose rows a key tells apart, is taken only if a match introduces it. -/
def Correlation.TakesOnlyMatched (tie : Correlation) (tables : List String)
    (label table : String) (key : List String) : Prop :=
  ∀ (α : Type) (stored : Set (String → α)) (found : Set (String → String → α)),
    IsKey key stored → (∀ introduced ∈ found, introduced table ∈ stored) →
      ∀ row ∈ stored, tie.Takes tables label found row →
        table ∈ tables ∧ ∃ introduced ∈ found, introduced table = row

/-- A row that is taken without being matched: it differs from the matched one in the key. -/
theorem Correlation.not_takesOnlyMatched {tie : Correlation} {tables : List String}
    {label table column : String} {key : List String} (hcolumn : column ∈ key)
    (row : String → Bool) (hrow : row column = false)
    (htaken : tie.Takes tables label {fun _ _ => true} row) :
    ¬ tie.TakesOnlyMatched tables label table key := by
  intro honly
  have hne : (fun _ => true : String → Bool) column ≠ row column := by
    simp [hrow]
  have hstored : ∀ introduced ∈ ({fun _ _ => true} : Set (String → String → Bool)),
      introduced table ∈ ({fun _ => true, row} : Set (String → Bool)) := by
    rintro _ rfl
    exact .inl rfl
  obtain ⟨_, _, rfl, heq⟩ :=
    honly Bool {fun _ => true, row} _ (isKey_pair hcolumn hne) hstored row (.inr rfl) htaken
  exact hne (congrFun heq column)

/-- Only matched rows are taken exactly if the label is not hidden and no column of the key is left
out, or if there is none. -/
theorem Correlation.takesOnlyMatched_byColumn_iff {tables : List String}
    {label table column : String} {key : List String} (htable : table ∈ tables) :
    (byColumn label table column).TakesOnlyMatched tables label table key ↔
      key = [] ∨ label ∉ tables ∧ ∀ column' ∈ key, column' = column := by
  constructor
  · intro honly
    by_contra hcontra
    obtain ⟨hkey, hleft⟩ := not_or.mp hcontra
    by_cases hlabel : label ∈ tables
    · obtain ⟨column', hcolumn'⟩ := List.exists_mem_of_ne_nil key hkey
      refine not_takesOnlyMatched hcolumn' (fun _ => false) rfl ⟨_, rfl, ?_⟩ honly
      rw [holds_byColumn_iff, if_pos hlabel]
      exact ⟨htable, rfl⟩
    · obtain ⟨column', hcolumn', hne⟩ : ∃ column' ∈ key, column' ≠ column := by
        by_contra hall
        exact hleft ⟨hlabel, fun column' hmem =>
          by_contra fun hne => hall ⟨column', hmem, hne⟩⟩
      -- The two rows agree in the column that is compared, and in no other one.
      refine not_takesOnlyMatched hcolumn' (fun name => name == column)
        (beq_false_of_ne hne) ⟨_, rfl, ?_⟩ honly
      rw [holds_byColumn_iff, if_neg hlabel, if_pos htable]
      exact (beq_self_eq_true column).symm
  · rintro h α stored found hkey hstored row hrow ⟨introduced, hfound, hholds⟩
    refine ⟨htable, introduced, hfound, hkey _ (hstored introduced hfound) row hrow ?_⟩
    intro column' hcolumn'
    rcases h with rfl | ⟨hlabel, hall⟩
    · cases hcolumn'
    · rw [holds_byColumn_iff, if_neg hlabel, if_pos htable] at hholds
      rw [hall column' hcolumn']
      exact hholds

/-- A SELECT that does not introduce the table takes every row if the label is its name, and
otherwise none. -/
theorem Correlation.takesOnlyMatched_byColumn_iff_of_not_mem {tables : List String}
    {label table column : String} {key : List String} (htable : table ∉ tables) :
    (byColumn label table column).TakesOnlyMatched tables label table key ↔ label ≠ table := by
  constructor
  · rintro honly rfl
    have htaken : (byColumn label label column).Takes tables label
        {fun _ _ => ()} fun _ => () := by
      refine ⟨_, rfl, ?_⟩
      simp only [holds_byColumn_iff, if_neg htable]
    exact htable (honly Unit {fun _ => ()} _ (isKey_singleton key _) (by simp) _ rfl htaken).1
  · rintro hne α stored found _ _ row _ ⟨introduced, _, hholds⟩
    rw [holds_byColumn_iff] at hholds
    simp only [htable, false_and, if_false, Ne.symm hne, ite_self] at hholds

/-- Where the label is not hidden, every matched row is taken. -/
theorem Correlation.takes_byColumn_of_mem {α : Type} {tables : List String}
    {label table column : String} {found : Set (String → String → α)} (hlabel : label ∉ tables)
    (htable : table ∈ tables) {introduced : String → String → α} (hfound : introduced ∈ found) :
    (byColumn label table column).Takes tables label found (introduced table) := by
  refine ⟨introduced, hfound, ?_⟩
  rw [holds_byColumn_iff, if_neg hlabel, if_pos htable]

end Sql

namespace Composer

variable {c : Composer} {opts : Options} {q : Query}

theorem joins_tables_eq {groups : List JoinGroup} {joins : List Sql.Join} {models : List Model}
    (hjoins : List.Forall₂ c.JoinOf groups joins)
    (hmodels : List.Forall₂ (fun group m => c.schema.model group.model = .ok m) groups models) :
    joins.map (·.table) = models.map (·.table) := by
  induction hjoins generalizing models with
  | nil =>
    cases hmodels
    rfl
  | cons hjoin _ ih =>
    obtain ⟨m, hm, htable, _⟩ := hjoin
    cases hmodels with
    | cons hm' hrest =>
      rw [hm] at hm'
      cases hm'
      rw [List.map_cons, List.map_cons, htable, ih hrest]

/-- A composed SELECT introduces the tables of its models, in order. -/
theorem ComposedFrom.tables_eq {correlation : Option Sql.Correlation} {plan : JoinPlan}
    {scope : Scope} {columns : ResultColumns} {s : Sql.Select}
    (h : c.ComposedFrom opts correlation q plan scope columns s) :
    s.tables = scope.models.map (·.table) := by
  obtain ⟨edges, _, hplan⟩ := JoinPlan.ofQuery_eq_ok h.plan_eq
  have hjoins := joins_eq_ok hplan.edges_ne_nil h.joins_eq
  have hscope := h.scope_eq
  simp only [Composer.scope, bind_eq_ok, pure_eq_ok] at hscope
  obtain ⟨root, _, joined, hjoined, rfl⟩ := hscope
  have htables : s.joins.map (·.table) = joined.map (·.table) :=
    joins_tables_eq hjoins (mapM_eq_ok.mp hjoined)
  rw [Sql.Select.tables, Scope.models, List.map_cons, h.table_eq, htables]

/-- The WHERE clause of a composed SELECT is the filter of its query. -/
theorem ComposedFrom.filterText_eq {correlation : Option Sql.Correlation} {plan : JoinPlan}
    {scope : Scope} {columns : ResultColumns} {s : Sql.Select}
    (h : c.ComposedFrom opts correlation q plan scope columns s) :
    c.filterText (c.clauseOptions opts q columns) q =
      .ok (Sql.chainText (Sql.linkTexts c.dialect s.filter)) := by
  obtain ⟨links, hlinks, hfilter⟩ := h.filter_eq
  rw [filterText, filter, hlinks, hfilter]
  rfl

theorem joinedTarget_eq_ok {m : Model} {target : Sql.DeleteTarget}
    (h : c.joinedTarget opts m q = .ok target) :
    ∃ key columns inner,
      m.primaryKey? = some key ∧
      c.selectTree (matchedOptions opts q)
        (some ⟨⟨deleteAlias opts m, key.column, true⟩, m.column key⟩) q = .ok (columns, inner) ∧
      target = .matched (deleteAlias opts m) inner := by
  rw [joinedTarget] at h
  split at h
  · cases h
  · rename_i key hkey
    simp only [bind_eq_ok, pure_eq_ok] at h
    obtain ⟨⟨columns, inner⟩, hinner, rfl⟩ := h
    exact ⟨key, columns, inner, hkey, hinner, rfl⟩

theorem delete_of_isOk {model : String} {q : Option Query}
    (h : (c.deleteTree opts model q).isOk) : ∃ text, c.delete opts model q = .ok text := by
  obtain ⟨s, hs⟩ := exists_of_isOk h
  exact ⟨s.text c.dialect, by rw [delete, hs]; rfl⟩

theorem deleteTree_eq_ok {model : String} {s : Sql.Delete} (hj : q.hasJoins)
    (h : c.deleteTree opts model (some q) = .ok s) :
    ∃ m returning,
      c.schema.model model = .ok m ∧
      c.joinedTarget { opts with statement := .delete, noProjectionAliases := true } m q =
        .ok s.target ∧
      s = ⟨m.table, s.target, ⟨none, returning⟩⟩ := by
  simp only [deleteTree, bind_eq_ok, pure_eq_ok] at h
  obtain ⟨m, hm, target, htarget, returning, _, rfl⟩ := h
  simp only [deleteTarget, hj, if_true] at htarget
  exact ⟨m, returning, hm, htarget, rfl⟩

end Composer

/-- The text is the filter of a query, composed under a handle that at most describes the statement
around it in another way. -/
def Composer.FiltersBy (c : Composer) (opts : Options) (q : Query) (text : String) : Prop :=
  ∃ o, o.allowUnprojectedOrder = opts.allowUnprojectedOrder ∧ c.filterText o q = .ok text

/-- A deletion of rows of the table of a model, under a label, that is restricted by a SELECT of
the query, which is correlated by a column. -/
structure JoinedDelete (c : Composer) (opts : Options) (model : String) (m : Model) (q : Query)
    (text label : String) (inner : Sql.Select) (tie : Sql.Correlation) (filter : String) :
    Prop where
  model_eq : c.schema.model model = .ok m
  tree_eq : ∃ ending, c.deleteTree opts model (some q) = .ok ⟨m.table, .matched label inner, ending⟩
  label_eq : label = opts.tableAlias.getD ("_" ++ m.table)
  /-- The SELECT is that of the query, with a list of its own. -/
  select_eq : ∃ o columns, o.selectList = some "1" ∧
    c.selectTree o (some tie) q = .ok (columns, inner)
  /-- Of a key of several fields the first one is compared, whether it has a column or not. -/
  tie_eq : ∃ key, m.primaryKeys.head? = some key ∧
    tie = Sql.Correlation.byColumn label m.table key.column
  filtersBy : c.FiltersBy opts q filter
  tables_eq : ∃ plan scope, JoinPlan.ofQuery q = .ok plan ∧ c.scope q plan = .ok scope ∧
    inner.tables = scope.models.map (·.table)
  inner_eq : inner.text c.dialect = inner.opening c.dialect ++
    " WHERE " ++ tie.text c.dialect ++ (if filter = "" then "" else " AND (" ++ filter ++ ")") ++
    inner.closing c.dialect
  text_eq : ∃ ending : Sql.Ending, text =
    "DELETE FROM " ++ c.dialect.identifier m.table ++ " AS " ++ c.dialect.identifier label ++
      " WHERE EXISTS (" ++ inner.text c.dialect ++ ")" ++ ending.text c.dialect

theorem Model.primaryKeys_head? (m : Model) : m.primaryKeys.head? = m.primaryKey? :=
  List.head?_filter

theorem default_label_ne (table : String) : "_" ++ table ≠ table := by
  intro h
  have hlength := congrArg String.length h
  rw [String.length_append] at hlength
  have hone : "_".length = 1 := rfl
  omega

theorem whereText_some (tie filter : String) : Sql.whereText (some tie) filter =
    " WHERE " ++ tie ++ if filter = "" then "" else " AND (" ++ filter ++ ")" := by
  rw [Sql.whereText]
  split
  · rw [String.append_empty]
  · simp only [String.append_assoc]

theorem Composer.joinedDelete {c : Composer} {opts : Options} {model : String} {q : Query}
    {text : String} (hj : q.hasJoins) (h : c.delete opts model (some q) = .ok text) :
    ∃ m label inner tie filter, JoinedDelete c opts model m q text label inner tie filter := by
  obtain ⟨s, htree, htext⟩ := bind_eq_ok.mp h
  obtain ⟨m, returning, hm, htarget, hs⟩ := Composer.deleteTree_eq_ok hj htree
  obtain ⟨key, columns, inner, hkey, hinner, htarget⟩ := Composer.joinedTarget_eq_ok htarget
  obtain ⟨plan, scope, hcomposed⟩ := Composer.selectTree_eq_ok hinner
  refine ⟨m, deleteAlias opts m, inner, ⟨⟨deleteAlias opts m, key.column, true⟩, m.column key⟩,
    Sql.chainText (Sql.linkTexts c.dialect inner.filter), ?_⟩
  constructor
  case model_eq => exact hm
  case tree_eq => exact ⟨⟨none, returning⟩, by rw [htree, hs, htarget]; rfl⟩
  case label_eq => rfl
  case select_eq => exact ⟨_, columns, rfl, hinner⟩
  case tie_eq => exact ⟨key, m.primaryKeys_head?.trans hkey, rfl⟩
  case filtersBy =>
    refine ⟨c.clauseOptions _ q columns, ?_, hcomposed.filterText_eq⟩
    rfl
  case tables_eq => exact ⟨plan, scope, hcomposed.plan_eq, hcomposed.scope_eq, hcomposed.tables_eq⟩
  case inner_eq =>
    rw [Sql.Select.text_eq, hcomposed.correlation_eq, Option.map_some, whereText_some]
    simp only [String.append_assoc]
    rfl
  case text_eq =>
    refine ⟨⟨none, returning⟩, ?_⟩
    rw [← pure_eq_ok.mp htext, hs, htarget]
    simp only [Sql.Delete.text, String.append_assoc]
    rfl

section Tables

variable {c : Composer} {opts : Options} {model : String} {m : Model} {q : Query}
  {text label : String} {inner : Sql.Select} {tie : Sql.Correlation} {filter : String}

theorem JoinedDelete.tables_of_scope (h : JoinedDelete c opts model m q text label inner tie filter)
    {plan : JoinPlan} {scope : Scope} (hplan : JoinPlan.ofQuery q = .ok plan)
    (hscope : c.scope q plan = .ok scope) : inner.tables = scope.models.map (·.table) := by
  obtain ⟨plan', scope', hplan', hscope', htables⟩ := h.tables_eq
  cases hplan.symm.trans hplan'
  cases hscope.symm.trans hscope'
  exact htables

theorem JoinedDelete.table_mem (h : JoinedDelete c opts model m q text label inner tie filter)
    (hmodel : q.model = model) : m.table ∈ inner.tables := by
  obtain ⟨plan, scope, _, hscope, htables⟩ := h.tables_eq
  simp only [Composer.scope, bind_eq_ok, pure_eq_ok, hmodel] at hscope
  obtain ⟨root, hroot, joined, _, rfl⟩ := hscope
  rw [htables, Except.ok.inj (h.model_eq.symm.trans hroot)]
  exact List.mem_cons_self

end Tables

/-- A deletion through joins compares the row to be removed with the matched one by the first field
of the key, beside the filter of the query. No other rows than the matched ones go exactly if that
comparison is the one by each stored field of the key and no table of the SELECT hides the alias. -/
theorem joined_delete_removes_matched_iff {c : Composer} {opts : Options} {model : String}
    {q : Query} {text : String} (hj : q.hasJoins)
    (h : c.delete opts model (some q) = .ok text) :
    ∃ m label inner tie filter,
      JoinedDelete c opts model m q text label inner tie filter ∧
      (opts.tableAlias = none → label ≠ m.table) ∧
      (q.model = model → m.table ∈ inner.tables) ∧
      (m.table ∈ inner.tables →
        (tie.TakesOnlyMatched inner.tables label m.table
            ((Composer.keyFields m).map (·.column)) ↔
          Composer.keyFields m = [] ∨ label ∉ inner.tables ∧ ∀ f ∈ Composer.keyFields m,
            tie = Sql.Correlation.byColumn label m.table f.column)) ∧
      (m.table ∉ inner.tables →
        (tie.TakesOnlyMatched inner.tables label m.table
            ((Composer.keyFields m).map (·.column)) ↔ label ≠ m.table)) ∧
      (m.table ∈ inner.tables → label ∉ inner.tables →
        ∀ (α : Type) (found : Set (String → String → α)), ∀ introduced ∈ found,
          tie.Takes inner.tables label found (introduced m.table)) := by
  obtain ⟨m, label, inner, tie, filter, hdelete⟩ := Composer.joinedDelete hj h
  obtain ⟨key, _, rfl⟩ := hdelete.tie_eq
  refine ⟨m, label, inner, _, filter, hdelete, fun hnone => ?_, hdelete.table_mem, fun htable => ?_,
    Sql.Correlation.takesOnlyMatched_byColumn_iff_of_not_mem,
    fun htable hlabel α found introduced => ?_⟩
  · rw [hdelete.label_eq, hnone]
    exact default_label_ne m.table
  · rw [Sql.Correlation.takesOnlyMatched_byColumn_iff htable, List.map_eq_nil_iff]
    simp only [List.forall_mem_map, Sql.Correlation.byColumn_inj, eq_comm (a := key.column)]
  · exact Sql.Correlation.takes_byColumn_of_mem hlabel htable

def userKey : Field :=
  { Field.named "id" (.integer 8) with column := "id", model := "User", primaryKey := true }

def userModel : Model := ⟨"User", "users", [userKey]⟩

def roleModel : Model := ⟨"Role", "roles", [
  { Field.named "userID" (.integer 8) with column := "user_id", model := "Role" },
  { Field.named "name" .text with column := "name", model := "Role" }]⟩

/-- Users and their roles. -/
def members : Composer where
  schema := ⟨⟨[("User", userModel), ("Role", roleModel)], by decide⟩, by decide⟩
  dialect := .sqlite
  config := {}

/-- Users with a role of a certain name. -/
def admins : Query :=
  ⟨"User", none, [
    .condition (.joining ⟨"User", "id"⟩ {} ⟨"Role", some ⟨"Role", "userID"⟩, []⟩),
    .condition (.of ⟨"Role", "name"⟩ .eq (.value (.string "admin")))]⟩

theorem admins_plan : JoinPlan.ofQuery admins =
    .ok ⟨[⟨"Role", [⟨{}, ⟨"User", "id"⟩, .eq, ⟨"Role", "userID"⟩, .and⟩]⟩]⟩ := by
  cbv

theorem members_delete_admins : ∃ text, members.delete {} "User" (some admins) = .ok text :=
  Composer.delete_of_isOk (by cbv)

theorem joined_delete_removes_matched_iff_admins :
    admins.hasJoins ∧ ∃ text inner tie filter,
      members.delete {} "User" (some admins) = .ok text ∧
      JoinedDelete members {} "User" userModel admins text "_users" inner tie filter ∧
      tie.TakesOnlyMatched inner.tables "_users" "users" ["id"] := by
  have hj : admins.hasJoins := by cbv
  obtain ⟨text, h⟩ := members_delete_admins
  obtain ⟨m, label, inner, tie, filter, hdelete, _, hroot, honly, _⟩ :=
    joined_delete_removes_matched_iff hj h
  obtain rfl : userModel = m := Except.ok.inj hdelete.model_eq
  obtain rfl : label = "_users" := hdelete.label_eq
  have htables : inner.tables = ["users", "roles"] := hdelete.tables_of_scope admins_plan rfl
  obtain ⟨key, hkey, htie⟩ := hdelete.tie_eq
  obtain rfl : userKey = key := Option.some.inj hkey
  refine ⟨hj, text, inner, tie, filter, h, hdelete, (honly (hroot rfl)).mpr (.inr ⟨?_, ?_⟩)⟩
  · rw [htables]
    decide
  · intro f hf
    have hkeys : Composer.keyFields userModel = [userKey] := rfl
    rw [hkeys, List.mem_singleton] at hf
    rw [htie, hf]

def seatKey (name : String) : Field :=
  { Field.named name (.integer 8) with column := name, model := "Seat", primaryKey := true }

/-- A seat is known by its row and its number. -/
def seatModel : Model := ⟨"Seat", "seats", [seatKey "row", seatKey "number"]⟩

def bookingModel : Model := ⟨"Booking", "bookings", [
  { Field.named "id" (.integer 8) with column := "id", model := "Booking", primaryKey := true },
  { Field.named "seatRow" (.integer 8) with column := "seat_row", model := "Booking" },
  { Field.named "seatNumber" (.integer 8) with column := "seat_number", model := "Booking" },
  { Field.named "state" .text with column := "state", model := "Booking" }]⟩

/-- Seats and their bookings. -/
def venue : Composer where
  schema := ⟨⟨[("Seat", seatModel), ("Booking", bookingModel)], by decide⟩, by decide⟩
  dialect := .sqlite
  config := {}

/-- Seats with a booking that is void. -/
def voidSeats : Query :=
  ⟨"Seat", none, [
    .condition (.joining ⟨"Seat", "row"⟩ {} ⟨"Booking", some ⟨"Booking", "seatRow"⟩, []⟩),
    .condition (.joining ⟨"Seat", "number"⟩ {} ⟨"Booking", some ⟨"Booking", "seatNumber"⟩, []⟩),
    .condition (.of ⟨"Booking", "state"⟩ .eq (.value (.string "void")))]⟩

theorem venue_delete_voidSeats : ∃ text, venue.delete {} "Seat" (some voidSeats) = .ok text :=
  Composer.delete_of_isOk (by cbv)

/-- Of a key of two fields the second one is not compared: with a seat that has a void booking, the
other ones in its row go. -/
theorem joined_delete_takes_unmatched_seats : ∃ text inner tie filter,
    venue.delete {} "Seat" (some voidSeats) = .ok text ∧
    JoinedDelete venue {} "Seat" seatModel voidSeats text "_seats" inner tie filter ∧
    (Composer.keyFields seatModel).map (·.column) = ["row", "number"] ∧
    tie = Sql.Correlation.byColumn "_seats" "seats" "row" ∧
    ¬ tie.TakesOnlyMatched inner.tables "_seats" "seats" ["row", "number"] := by
  have hj : voidSeats.hasJoins := by cbv
  obtain ⟨text, h⟩ := venue_delete_voidSeats
  obtain ⟨m, label, inner, tie, filter, hdelete⟩ := Composer.joinedDelete hj h
  obtain rfl : seatModel = m := Except.ok.inj hdelete.model_eq
  obtain rfl : label = "_seats" := hdelete.label_eq
  have htie : tie = Sql.Correlation.byColumn "_seats" "seats" "row" := by
    obtain ⟨key, hkey, htie⟩ := hdelete.tie_eq
    obtain rfl : seatKey "row" = key := Option.some.inj hkey
    exact htie
  refine ⟨text, inner, tie, filter, h, hdelete, rfl, htie, fun honly => ?_⟩
  have htable : "seats" ∈ inner.tables := hdelete.table_mem rfl
  rw [htie, Sql.Correlation.takesOnlyMatched_byColumn_iff htable] at honly
  rcases honly with hempty | ⟨_, hall⟩
  · cases hempty
  · exact absurd (hall "number" (by simp)) (by decide)

end SqlCompose
