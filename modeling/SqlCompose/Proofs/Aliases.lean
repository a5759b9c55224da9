import SqlCompose.Proofs.Correlation
import SqlCompose.Proofs.Isolation

/-!
# Aliases stay in the SELECT list

A handle without aliases composes the same statement as the handle itself, up to the labels of the
items in the SELECT list. Literals are composed as expressions everywhere, and only an item of the
list carries a label beside its expression. So a literal that is ordered, grouped or filtered by,
or wrapped by another one, leaves its alias behind. A nested SELECT has no aliases to begin with.
-/

namespace SqlCompose

/-- A fold whose steps commute with a function commutes with it. -/
theorem foldlM_map_hom {ε α β γ : Type} {f : β → α → Except ε β} {g : γ → α → Except ε γ}
    {h : β → γ} {xs : List α} (hstep : ∀ b, ∀ x ∈ xs, g (h b) x = h <$> f b x) (b : β) :
    xs.foldlM g (h b) = h <$> xs.foldlM f b := by
  induction xs generalizing b with
  | nil => rfl
  | cons x xs ih =>
    have hrest := ih fun b y hy => hstep b y (List.mem_cons_of_mem _ hy)
    rw [List.foldlM_cons, List.foldlM_cons, hstep b x List.mem_cons_self, bind_map_left, map_bind]
    simp only [hrest]

namespace Sql

/-- An item without its alias. -/
def Item.bare (item : Item) : Item := ⟨item.expr, none⟩

/-- A SELECT list without aliases. -/
def SelectList.bare : SelectList → SelectList
  | .text sql => .text sql
  | .items entries => .items (entries.map Item.bare)

/-- A SELECT without aliases. -/
def Select.bare (s : Select) : Select := { s with list := s.list.bare }

/-- The text of an item is that of its expression, up to an alias. -/
theorem Item.text_eq_bare_or (d : Dialect) (item : Item) :
    item.text d = item.bare.text d ∨
      ∃ label, item.text d = item.bare.text d ++ " AS " ++ d.identifier label := by
  obtain ⟨expr, label⟩ := item
  cases label with
  | none => exact .inl rfl
  | some label => exact .inr ⟨label, rfl⟩

/-- What precedes the SELECT list. -/
def Select.beforeList (d : Dialect) (s : Select) : String :=
  "SELECT " ++
    match s.distinct with
    | some e => e.text d ++ " "
    | none => ""

/-- What follows the SELECT list. -/
def Select.afterList (d : Dialect) (s : Select) : String :=
  " FROM " ++ d.identifier s.table ++ joinsText d s.joins ++
    whereText (s.correlation.map (·.text d)) (chainText (linkTexts d s.filter)) ++ s.closing d

theorem Select.text_eq_around_list (d : Dialect) (s : Select) :
    s.text d = s.beforeList d ++ s.list.sql d ++ s.afterList d := by
  rw [Select.text_eq, Select.opening, Select.beforeList]
  cases s.distinct <;> simp only [Select.afterList, String.append_assoc]

end Sql

/-- Result columns without aliases. -/
def ResultColumns.bare (columns : ResultColumns) : ResultColumns := columns.map Sql.Item.bare

theorem ResultColumns.values_bare (columns : ResultColumns) :
    columns.bare.values = columns.values.map Sql.Item.bare := by
  simp only [ResultColumns.bare, OrderedMap.values, OrderedMap.map, List.map_map]
  rfl

/-- A built-in dialect decides on limits by the kind of statement. -/
theorem Dialect.IsBuiltin.limitSupport_eq {d : Dialect} (hd : d.IsBuiltin) {o o' : Options}
    (h : o.statement = o'.statement) : d.limitSupport o = d.limitSupport o' := by
  cases hd <;> simp only [Dialect.sqlite, Dialect.postgresql, Dialect.mysql, h]

theorem Dialect.IsBuiltin.orderSupport_withoutAliases {d : Dialect} (hd : d.IsBuiltin)
    (o : Options) : d.orderSupport o.withoutAliases = d.orderSupport o := by
  cases hd <;> rfl

namespace Composer

variable (c : Composer) (o : Options)

section Columns

variable (columns : ResultColumns)

theorem columnItem_withoutAliases (key : String) (column : Sql.Column) :
    columnItem o.withoutAliases key column = (columnItem o key column).bare := rfl

theorem projectModel_withoutAliases (m : Model) :
    projectModel o.withoutAliases columns.bare m = (projectModel o columns m).bare := by
  refine List.foldl_hom ResultColumns.bare fun columns f => ?_
  rw [columnItem_withoutAliases]
  exact (columns.map_insertNew _ _ _).symm

theorem projectField_withoutAliases (ref : FieldRef) :
    c.projectField o.withoutAliases columns.bare ref =
      ResultColumns.bare <$> c.projectField o columns ref := by
  simp only [projectField, map_bind, map_pure, ResultColumns.bare, OrderedMap.map_insertNew,
    columnItem_withoutAliases]

/-- A literal is composed without its alias before an item gives it one. -/
theorem item_withoutAliases (literal : Literal) :
    c.item o.withoutAliases literal = Sql.Item.bare <$> c.item o literal := by
  have haliased : o.withoutAliases.aliased = false := Bool.and_false _
  simp only [item, haliased, map_bind, map_pure, Sql.Item.bare]
  rfl

/-- The name of a result column does not depend on whether its alias is shown. -/
theorem literalKey_withoutAliases : c.literalKey o.withoutAliases = c.literalKey o := rfl

theorem projectItem_withoutAliases (item : ProjectionItem) :
    c.projectItem o.withoutAliases columns.bare item =
      ResultColumns.bare <$> c.projectItem o columns item := by
  cases item with
  | field ref => exact c.projectField_withoutAliases o columns ref
  | model name =>
    simp only [projectItem, map_bind, map_pure, projectModel_withoutAliases]
  | literal literal =>
    simp only [projectItem, literalKey_withoutAliases, item_withoutAliases, map_bind, map_pure,
      bind_map_left, ResultColumns.bare, OrderedMap.map_insertNew]
  | raw sql label =>
    simp only [projectItem, map_pure, ResultColumns.bare, OrderedMap.map_insertNew]
    rfl

theorem unprojectItem_withoutAliases (item : ProjectionItem) :
    c.unprojectItem o.withoutAliases columns.bare item =
      ResultColumns.bare <$> c.unprojectItem o columns item := by
  cases item with
  | field ref => simp only [unprojectItem, map_pure, ResultColumns.bare, OrderedMap.map_erase]
  | model name =>
    have herase : ∀ m : Model, m.fields.foldl (fun columns f => columns.erase f.fullName)
        columns.bare =
          (m.fields.foldl (fun columns f => columns.erase f.fullName) columns).bare := fun m =>
      List.foldl_hom ResultColumns.bare fun columns f => (columns.map_erase _ _).symm
    simp only [unprojectItem, map_bind, map_pure, herase]
  | literal literal =>
    simp only [unprojectItem, literalKey_withoutAliases, map_bind, map_pure, ResultColumns.bare,
      OrderedMap.map_erase]
  | raw sql label => simp only [unprojectItem, map_pure, ResultColumns.bare, OrderedMap.map_erase]

theorem applyProjection_withoutAliases (projection : Projection) :
    c.applyProjection o.withoutAliases columns.bare projection =
      ResultColumns.bare <$> c.applyProjection o columns projection := by
  obtain ⟨mode, items⟩ := projection
  cases mode with
  | replace =>
    exact foldlM_map_hom (fun columns item _ => c.projectItem_withoutAliases o columns item) .empty
  | add =>
    exact foldlM_map_hom (fun columns item _ => c.projectItem_withoutAliases o columns item) columns
  | remove =>
    exact foldlM_map_hom (fun columns item _ => c.unprojectItem_withoutAliases o columns item)
      columns

theorem absorbOrder_withoutAliases (scope : Scope) (entry : OrderEntry) :
    c.absorbOrder o.withoutAliases scope columns.bare entry =
      ResultColumns.bare <$> c.absorbOrder o scope columns entry := by
  obtain ⟨ref | literal, direction⟩ := entry
  · by_cases hscope : scope.contains ref.model
    · simp only [absorbOrder, hscope, if_true, projectField_withoutAliases]
    · simp only [absorbOrder, hscope, Bool.false_eq_true, if_false, map_pure]
  · rfl

end Columns

theorem resultColumns_withoutAliases (q : Query) (scope : Scope) (absorb : Bool) :
    c.resultColumns o.withoutAliases q scope absorb =
      ResultColumns.bare <$> c.resultColumns o q scope absorb := by
  have hmodels : ∀ columns : ResultColumns,
      scope.models.foldl (projectModel o.withoutAliases) columns.bare =
        (scope.models.foldl (projectModel o) columns).bare := fun columns =>
    List.foldl_hom ResultColumns.bare fun columns m => projectModel_withoutAliases o columns m
  have hstored : scope.models.foldl (projectModel o.withoutAliases) .empty =
      (scope.models.foldl (projectModel o) .empty).bare := hmodels .empty
  have hprojected : ∀ columns : ResultColumns,
      q.projections.foldlM (c.applyProjection o.withoutAliases) columns.bare =
        ResultColumns.bare <$> q.projections.foldlM (c.applyProjection o) columns :=
    foldlM_map_hom fun columns projection _ => c.applyProjection_withoutAliases o columns projection
  have habsorbed : ∀ columns : ResultColumns,
      q.order.foldlM (c.absorbOrder o.withoutAliases scope) columns.bare =
        ResultColumns.bare <$> q.order.foldlM (c.absorbOrder o scope) columns :=
    foldlM_map_hom fun columns entry _ => c.absorbOrder_withoutAliases o columns scope entry
  cases absorb with
  | false => simp only [resultColumns, hstored, hprojected, bind_map_left, Bool.false_eq_true,
      if_false, map_bind, map_pure]
  | true => simp only [resultColumns, hstored, hprojected, habsorbed, bind_map_left, if_true,
      map_bind]

/-- A nested query shows no alias that could be left out. -/
theorem nestedColumns_withoutAliases (q : Query) :
    c.nestedColumns o.withoutAliases q = ResultColumns.bare <$> c.nestedColumns o q := by
  have hprojected : q.projections.foldlM (c.applyProjection o.withoutAliases) .empty =
      ResultColumns.bare <$> q.projections.foldlM (c.applyProjection o.withoutAliases) .empty :=
    foldlM_map_hom (fun columns projection _ =>
      c.applyProjection_withoutAliases o.withoutAliases columns projection) .empty
  have htarget : ∀ ref, c.projectField o.withoutAliases .empty ref =
      ResultColumns.bare <$> c.projectField o.withoutAliases .empty ref := fun ref =>
    c.projectField_withoutAliases o.withoutAliases .empty ref
  have hidempotent : o.withoutAliases.withoutAliases = o.withoutAliases := rfl
  simp only [nestedColumns, hidempotent]
  split
  · rfl
  · exact htarget _
  · exact hprojected

theorem listedColumns_withoutAliases (q : Query) (scope : Scope) (support : OrderSupport) :
    c.listedColumns o.withoutAliases q scope support =
      ResultColumns.bare <$> c.listedColumns o q scope support := by
  have hlist : o.withoutAliases.selectList = o.selectList := rfl
  have hsub : o.withoutAliases.isSubQuery = o.isSubQuery := rfl
  simp only [listedColumns, hlist, hsub]
  split
  · rfl
  · split
    · exact c.nestedColumns_withoutAliases o q
    · exact c.resultColumns_withoutAliases o q scope _

section Clauses

variable (q : Query) (columns : ResultColumns)

theorem distinctExpr_withoutAliases :
    c.distinctExpr (c.clauseOptions o.withoutAliases q columns.bare) =
      c.distinctExpr (c.clauseOptions o q columns) := rfl

theorem groupExprs_withoutAliases :
    c.groupExprs (c.clauseOptions o.withoutAliases q columns.bare) =
      c.groupExprs (c.clauseOptions o q columns) := rfl

theorem showsOrder_withoutAliases :
    showsOrder (c.clauseOptions o.withoutAliases q columns.bare) =
      showsOrder (c.clauseOptions o q columns) := rfl

/-- The ORDER BY clause asks which columns there are, not how they are written. -/
theorem mayOrderBy_withoutAliases (support : OrderSupport) (f : Field) (ref : FieldRef) :
    c.mayOrderBy (c.clauseOptions o.withoutAliases q columns.bare) support f ref =
      c.mayOrderBy (c.clauseOptions o q columns) support f ref := by
  have hcontains : (c.columnTexts columns.bare).contains ref.text =
      (c.columnTexts columns).contains ref.text := by
    simp only [columnTexts, ResultColumns.bare, OrderedMap.contains_map]
  simp only [mayOrderBy, clauseOptions, Option.any_some, hcontains]
  rfl

theorem orderTerms_withoutAliases :
    c.orderTerms (c.clauseOptions o.withoutAliases q columns.bare) =
      c.orderTerms (c.clauseOptions o q columns) := by
  funext support scope q'
  have hterm : c.orderTerm (c.clauseOptions o.withoutAliases q columns.bare) support scope =
      c.orderTerm (c.clauseOptions o q columns) support scope := by
    funext entry
    simp only [orderTerm, mayOrderBy_withoutAliases]
    rfl
  simp only [orderTerms, hterm]

variable {c}

/-- Of the options a row limit reads the kind of statement and what is forced on it. -/
theorem rowLimit_congr (hd : c.dialect.IsBuiltin) {o' : Options} (hs : o.statement = o'.statement)
    (hsub : o.isSubQuery = o'.isSubQuery) (hlimit : o.forceLimit = o'.forceLimit)
    (hoffset : o.forceOffset = o'.forceOffset) : c.rowLimit o = c.rowLimit o' := by
  funext q
  unfold rowLimit
  rw [hd.limitSupport_eq hs, hs, hsub, hlimit, hoffset]

theorem rowLimit_withoutAliases (hd : c.dialect.IsBuiltin) :
    c.rowLimit (c.clauseOptions o.withoutAliases q columns.bare) =
      c.rowLimit (c.clauseOptions o q columns) :=
  rowLimit_congr _ hd rfl rfl rfl rfl

end Clauses

variable {c}

/-- Without aliases the composition takes the same steps, and loses nothing but the aliases. -/
theorem selectTree_withoutAliases (hd : c.dialect.IsBuiltin)
    (correlation : Option Sql.Correlation) (q : Query) :
    c.selectTree o.withoutAliases correlation q =
      (fun r => (r.1.bare, r.2.bare)) <$> c.selectTree o correlation q := by
  have hopts : { o.withoutAliases with distinct := q.distinct?.isSome } =
      Options.withoutAliases { o with distinct := q.distinct?.isSome } := rfl
  -- Operands read no setting but the permission to order by other columns, which stays.
  have hoperands : ∀ columns : ResultColumns,
      c.SameOperands (c.clauseOptions o.withoutAliases q columns.bare)
        (c.clauseOptions o q columns) q.ops := fun columns =>
    (composition_isolated hd).2.1 q.ops _ _ rfl
  have hlist : o.withoutAliases.selectList = o.selectList := rfl
  have hlinks := fun columns => (hoperands columns).1
  have hhaving := fun columns => (hoperands columns).2
  rw [selectTree_eq, selectTree_eq, hopts]
  simp only [listedColumns_withoutAliases, hd.orderSupport_withoutAliases, bind_map_left,
    distinctExpr_withoutAliases, hlinks, groupExprs_withoutAliases, hhaving,
    showsOrder_withoutAliases, orderTerms_withoutAliases, rowLimit_withoutAliases o _ _ hd,
    hlist, map_bind, apply_ite (Functor.map _), map_pure, Sql.Select.bare]
  cases o.selectList with
  | some sql => rfl
  | none => simp only [ResultColumns.values_bare, Sql.SelectList.bare]

end Composer

/-- A query composed with aliases and without: the result columns have the same names, under each
name stands the same expression, and outside the list both texts are the same. -/
structure AliasesApart (c : Composer) (o : Options) (q : Query) (columns : ResultColumns)
    (s : Sql.Select) : Prop where
  tree_eq : c.selectTree { o with statement := .select } none q = .ok (columns, s)
  bareTree_eq : c.selectTree { o.withoutAliases with statement := .select } none q =
    .ok (columns.bare, s.bare)
  text_eq : c.select o q = .ok ⟨s.beforeList c.dialect ++
    o.selectList.getD (listText (c.columnTexts columns)) ++ s.afterList c.dialect,
    if o.returnFieldProjection then some (c.columnTexts columns) else none⟩
  bareText_eq : c.select o.withoutAliases q = .ok ⟨s.beforeList c.dialect ++
    o.selectList.getD (listText (c.columnTexts columns.bare)) ++ s.afterList c.dialect,
    if o.returnFieldProjection then some (c.columnTexts columns.bare) else none⟩
  /-- Entry by entry: one name, and one text up to an alias. -/
  entries_eq : List.Forall₂ (fun entry bare => entry.1 = bare.1 ∧ (entry.2 = bare.2 ∨
      ∃ label, entry.2 = bare.2 ++ " AS " ++ c.dialect.identifier label))
    (c.columnTexts columns).entries (c.columnTexts columns.bare).entries

namespace Composer

variable {c : Composer}

/-- The list of a composed SELECT is the one that the caller gives, or that of its columns. -/
theorem ComposedFrom.list_sql_eq {o : Options} {correlation : Option Sql.Correlation} {q : Query}
    {plan : JoinPlan} {scope : Scope} {columns : ResultColumns} {s : Sql.Select}
    (h : c.ComposedFrom o correlation q plan scope columns s) :
    s.list.sql c.dialect = o.selectList.getD (listText (c.columnTexts columns)) := by
  rw [h.list_eq]
  cases o.selectList with
  | some sql => rfl
  | none =>
    simp only [Sql.SelectList.sql, Option.getD_none, listText, columnTexts, OrderedMap.values,
      OrderedMap.map, List.map_map]
    rfl

theorem select_eq_ok_of_tree {o : Options} {q : Query} {columns : ResultColumns} {s : Sql.Select}
    (h : c.selectTree { o with statement := .select } none q = .ok (columns, s)) :
    c.select o q = .ok ⟨s.beforeList c.dialect ++
      o.selectList.getD (listText (c.columnTexts columns)) ++ s.afterList c.dialect,
      if o.returnFieldProjection then some (c.columnTexts columns) else none⟩ := by
  obtain ⟨plan, scope, hs⟩ := selectTree_eq_ok h
  have hlist : s.list.sql c.dialect = o.selectList.getD (listText (c.columnTexts columns)) :=
    hs.list_sql_eq
  rw [select, h, ← hlist, ← s.text_eq_around_list]
  rfl

theorem columnTexts_bare (columns : ResultColumns) :
    List.Forall₂ (fun entry bare => entry.1 = bare.1 ∧ (entry.2 = bare.2 ∨
        ∃ label, entry.2 = bare.2 ++ " AS " ++ c.dialect.identifier label))
      (c.columnTexts columns).entries (c.columnTexts columns.bare).entries := by
  simp only [columnTexts, ResultColumns.bare, OrderedMap.map, List.map_map,
    List.forall₂_map_left_iff, List.forall₂_map_right_iff, List.forall₂_same]
  exact fun entry _ => ⟨rfl, entry.2.text_eq_bare_or c.dialect⟩

end Composer

/-- A built-in dialect's composer refuses a query with aliases as it does without, for the same
reason, or the two statements differ by the aliases in the SELECT list only. -/
theorem aliases_only_in_list {c : Composer} (hd : c.dialect.IsBuiltin) (o : Options) (q : Query) :
    (∃ e, c.select o q = .error e ∧ c.select o.withoutAliases q = .error e) ∨
      ∃ columns s, AliasesApart c o q columns s := by
  have hbare : c.selectTree { o.withoutAliases with statement := .select } none q =
      (fun r => (r.1.bare, r.2.bare)) <$> c.selectTree { o with statement := .select } none q :=
    Composer.selectTree_withoutAliases { o with statement := .select } hd none q
  cases htree : c.selectTree { o with statement := .select } none q with
  | error e =>
    rw [htree] at hbare
    refine .inl ⟨e, ?_, ?_⟩
    · rw [Composer.select, htree]
      rfl
    · rw [Composer.select, hbare]
      rfl
  | ok r =>
    rw [htree] at hbare
    obtain ⟨columns, s⟩ := r
    have htext := Composer.select_eq_ok_of_tree (o := o.withoutAliases) (s := s.bare) hbare
    exact .inr ⟨columns, s, htree, hbare, Composer.select_eq_ok_of_tree htree, htext,
      Composer.columnTexts_bare columns⟩

def headcount : Literal :=
  ⟨.aggregate .count (.literal ⟨.field (.field ⟨"Person", "id"⟩), some "each", true⟩),
    some "total", true⟩

/-- How many people there are of each age, the most frequent one first, if anyone is of age. -/
def commonAges : Query :=
  ⟨"Person", none, [
    .project ⟨.replace, [.field ⟨"Person", "age"⟩, .literal headcount]⟩,
    .condition (.of ⟨"Person", "id"⟩ .rowExists (.query ⟨"Person", none, [
      .condition (.of ⟨"Person", "age"⟩ .gt (.value (.int 17))),
      .order ⟨.replace, [⟨.literal headcount, .asc⟩]⟩]⟩)),
    .groupBy [.field ⟨"Person", "age"⟩],
    .order ⟨.replace, [⟨.literal headcount, .desc⟩]⟩]⟩

theorem aliases_only_in_list_commonAges :
    people.dialect.IsBuiltin ∧
      (∃ columns s, AliasesApart people { returnFieldProjection := true } commonAges columns s) ∧
      (people.select { returnFieldProjection := true } commonAges).map (·.sql) = .ok
        ("SELECT \"people\".\"age\" AS \"Person:age\", " ++
          "COUNT(\"people\".\"id\") AS \"total\" FROM \"people\" " ++
          "WHERE EXISTS(SELECT 1 FROM \"people\" WHERE \"people\".\"age\" > 17 " ++
          "ORDER BY COUNT(\"people\".\"id\") ASC LIMIT 1 OFFSET 0) GROUP BY \"people\".\"age\" " ++
          "ORDER BY COUNT(\"people\".\"id\") DESC") := by
  have hd : people.dialect.IsBuiltin := .sqlite
  have hsql : (people.select { returnFieldProjection := true } commonAges).map (·.sql) = .ok
      ("SELECT \"people\".\"age\" AS \"Person:age\", " ++
        "COUNT(\"people\".\"id\") AS \"total\" FROM \"people\" " ++
        "WHERE EXISTS(SELECT 1 FROM \"people\" WHERE \"people\".\"age\" > 17 " ++
        "ORDER BY COUNT(\"people\".\"id\") ASC LIMIT 1 OFFSET 0) GROUP BY \"people\".\"age\" " ++
        "ORDER BY COUNT(\"people\".\"id\") DESC") := by
    decide +kernel
  refine ⟨hd, ?_, hsql⟩
  rcases aliases_only_in_list hd { returnFieldProjection := true } commonAges with
    ⟨e, he, _⟩ | hapart
  · rw [he] at hsql
    cases hsql
  · exact hapart

end SqlCompose
