import SqlCompose.Proofs.OrderClause

/-!
# Ordering by what is listed

PostgreSQL orders a SELECT DISTINCT by expressions of its SELECT list only. The ORDER BY clause
leaves a field out whose name is not on the list, and looks no further: a literal is never compared
with the list, and under the name of a field may stand something else. `OrdersOutside` says what
comes of it.
-/

namespace SqlCompose

/-- An expression is listed if one of the same text is, whatever its alias. -/
def ResultColumns.Lists (columns : ResultColumns) (d : Dialect) (e : Sql.Expr) : Prop :=
  ∃ item ∈ columns.values, item.expr.text d = e.text d

namespace Composer

/-- What may be listed under a name. -/
inductive Origin (c : Composer) (o : Options) (items : List ProjectionItem) :
    String → Sql.Expr → Prop
  /-- The column of the field with that name. -/
  | field {ref : FieldRef} {m : Model} {f : Field} (h : c.schema.resolve ref = .ok (m, f)) :
      Origin c o items ref.text (.column (m.column f))
  /-- The column of a stored field that comes with its model. -/
  | stored {model : String} {m : Model} {f : Field} (hm : c.schema.model model = .ok m)
      (hf : f ∈ m.storedFields) : Origin c o items f.fullName (.column (m.column f))
  /-- A projected literal that is given the name. -/
  | literal {inner : Literal} {name : String} {e : Sql.Expr} (hmem : .literal inner ∈ items)
      (hname : c.literalKey o inner = .ok name) (he : c.expr o inner = .ok e) :
      Origin c o items name e
  /-- A projected text that is given the name, or is the name. -/
  | raw {sql : String} {label : Option String} (hmem : .raw sql label ∈ items) :
      Origin c o items (label.getD sql) (.raw sql)

/-- How an order entry comes to order by an expression that is not listed. -/
inductive OrdersOutside (c : Composer) (o : Options) (items : List ProjectionItem) (scope : Scope)
    (columns : ResultColumns) : OrderEntry → Prop
  /-- A literal that is not listed. -/
  | literal {inner : Literal} {e : Sql.Expr} (direction : Direction) (he : c.expr o inner = .ok e)
      (hout : ¬ columns.Lists c.dialect e) :
      OrdersOutside c o items scope columns ⟨.literal inner, direction⟩
  /-- A field under whose name something else is listed. -/
  | field {ref : FieldRef} {m : Model} {f : Field} {item : Sql.Item} (direction : Direction)
      (hscope : scope.contains ref.model) (hresolve : c.schema.resolve ref = .ok (m, f))
      (hitem : (ref.text, item) ∈ columns.entries) (horigin : c.Origin o items ref.text item.expr)
      (hother : item.expr ≠ .column (m.column f))
      (hout : ¬ columns.Lists c.dialect (.column (m.column f))) :
      OrdersOutside c o items scope columns ⟨.field ref, direction⟩

variable {c : Composer} {o : Options} {q : Query} {scope : Scope} {columns : ResultColumns}

/-- Of the options an origin reads the one for literals only. -/
theorem Origin.of_eq {o' : Options} {items : List ProjectionItem} {name : String} {e : Sql.Expr}
    (h : c.Origin o items name e) (hf : o.subField = o'.subField) : c.Origin o' items name e := by
  cases h with
  | field h => exact .field h
  | stored hm hmem => exact .stored hm hmem
  | literal hmem hname he =>
    exact .literal hmem (literalKey_congr hf ▸ hname) (expr_congr hf ▸ he)
  | raw hmem => exact .raw hmem

theorem OrdersOutside.of_eq {o' : Options} {items : List ProjectionItem} {entry : OrderEntry}
    (h : c.OrdersOutside o items scope columns entry) (hf : o.subField = o'.subField) :
    c.OrdersOutside o' items scope columns entry := by
  cases h with
  | literal direction he hout => exact .literal direction (expr_congr hf ▸ he) hout
  | field direction hscope hresolve hitem horigin hother hout =>
    exact .field direction hscope hresolve hitem (horigin.of_eq hf) hother hout

theorem registered_of_mem_scope {plan : JoinPlan} (h : c.scope q plan = .ok scope) {m : Model}
    (hm : m ∈ scope.models) : ∃ name, c.schema.model name = .ok m := by
  simp only [Composer.scope, bind_eq_ok, pure_eq_ok] at h
  obtain ⟨root, hroot, joined, hjoined, rfl⟩ := h
  rcases List.mem_cons.mp hm with rfl | hmem
  · exact ⟨q.model, hroot⟩
  · obtain ⟨group, -, hgroup⟩ := exists_of_mapM_eq_ok hjoined hmem
    exact ⟨group.model, hgroup⟩

/-- Whatever a SELECT lists under a name has an origin. -/
theorem origin_of_listedColumns {plan : JoinPlan} {support : OrderSupport}
    (hscope : c.scope q plan = .ok scope) (h : c.listedColumns o q scope support = .ok columns) :
    columns.Forall fun name item => c.Origin o q.projectedItems name item.expr := by
  have hall : columns.Forall fun name item => c.Origin
      (if o.isSubQuery then o.withoutAliases else o) q.projectedItems name item.expr := by
    refine forall_listedColumns ⟨.field, ?_, ?_, .raw⟩ h
    · rintro m f (hm | ⟨model, hm⟩) hf
      · obtain ⟨model, hm⟩ := registered_of_mem_scope hscope hm
        exact .stored hm hf
      · exact .stored hm hf
    · intro inner name item hmem hname hitem
      simp only [Composer.item, bind_eq_ok, pure_eq_ok] at hitem
      obtain ⟨e, he, rfl⟩ := hitem
      exact .literal hmem hname he
  exact fun entry hentry => (hall entry hentry).of_eq (by split <;> rfl)

section Postgresql

variable (hd : c.dialect = .postgresql) (hallow : o.allowUnprojectedOrder = false)

include hd hallow

/-- PostgreSQL compares the name of a field with the names of the SELECT list. -/
theorem mayOrderBy_eq_contains (ref : FieldRef) (f : Field) :
    c.mayOrderBy (c.clauseOptions o q columns) .projectedOnly f ref = columns.contains ref.text := by
  have hpermits : c.dialect.allowsUnprojectedOrder f = false := by
    rw [hd]
    rfl
  have hallow' : (c.clauseOptions o q columns).allowUnprojectedOrder = false := hallow
  rw [mayOrderBy, hallow', hpermits, Bool.or_false, Bool.or_false, clauseOptions, columnTexts,
    Option.any_some, OrderedMap.contains_map]
  rfl

variable {correlation : Option Sql.Correlation} {plan : JoinPlan} {s : Sql.Select}
  (hs : c.ComposedFrom o correlation q plan scope columns s)
  (hsupport : c.dialect.orderSupport { o with distinct := q.distinct?.isSome } = .projectedOnly)

include hs hsupport

/-- A SELECT DISTINCT is ordered by every literal and by the fields in scope whose names are on the
SELECT list. -/
theorem ComposedFrom.orders_listed_names (hshows : showsOrder o .projectedOnly) :
    List.Forall₂ (c.OrdersBy o)
      (q.order.filter (·.passes fun ref => scope.contains ref.model && columns.contains ref.text))
      s.orderBy :=
  hs.forall₂_ordersBy hsupport hshows (fun ref => columns.contains ref.text)
    fun _ _ ref _ _ f => mayOrderBy_eq_contains hd hallow ref f

/-- An entry that orders outside the list has an entry of the ORDER BY clause. -/
theorem ComposedFrom.exists_unlisted (hshows : showsOrder o .projectedOnly) {entry : OrderEntry}
    (hentry : entry ∈ q.order) (h : c.OrdersOutside o q.projectedItems scope columns entry) :
    ∃ term ∈ s.orderBy, ¬ columns.Lists c.dialect term.expr := by
  have hpasses : entry.passes fun ref => scope.contains ref.model && columns.contains ref.text := by
    cases h with
    | literal => rfl
    | field direction hscope _ hitem =>
      have hcontains : columns.contains _ := OrderedMap.contains_iff.mpr (List.mem_map_of_mem hitem)
      exact Bool.and_eq_true_iff.mpr ⟨hscope, hcontains⟩
  obtain ⟨term, hterm, hby⟩ := exists_mem_right_of_forall₂
    (hs.orders_listed_names hd hallow hsupport hshows) (List.mem_filter.mpr ⟨hentry, hpasses⟩)
  refine ⟨term, hterm, ?_⟩
  cases h with
  | literal _ he hout =>
    cases hby with
    | literal _ he' =>
      cases he.symm.trans he'
      exact hout
  | field _ _ hresolve _ _ _ hout =>
    cases hby with
    | field _ hresolve' =>
      cases hresolve.symm.trans hresolve'
      exact hout

/-- An entry of the ORDER BY clause that is not listed comes from an entry that orders outside the
list. -/
theorem ComposedFrom.exists_ordersOutside (hshows : showsOrder o .projectedOnly)
    {term : Sql.OrderTerm} (hterm : term ∈ s.orderBy)
    (hout : ¬ columns.Lists c.dialect term.expr) :
    ∃ entry ∈ q.order, c.OrdersOutside o q.projectedItems scope columns entry := by
  obtain ⟨entry, hentry, hby⟩ := exists_mem_right_of_forall₂
    (hs.orders_listed_names hd hallow hsupport hshows).flip hterm
  obtain ⟨hentry, hpasses⟩ := List.mem_filter.mp hentry
  refine ⟨entry, hentry, ?_⟩
  cases hby with
  | literal direction he => exact .literal direction he hout
  | @field ref m f direction hresolve =>
    obtain ⟨hscope, hcontains⟩ := Bool.and_eq_true_iff.mp hpasses
    obtain ⟨⟨name, item⟩, hitem, hname⟩ := List.mem_map.mp (OrderedMap.contains_iff.mp hcontains)
    cases hname
    have horigin := origin_of_listedColumns hs.scope_eq hs.columns_eq _ hitem
    refine .field direction hscope hresolve hitem (horigin.of_eq rfl) ?_ hout
    intro heq
    refine hout ⟨item, List.mem_map_of_mem hitem, ?_⟩
    rw [heq]

/-- What a SELECT DISTINCT is ordered by is listed unless an entry orders outside the list. -/
theorem ComposedFrom.orders_listed_iff :
    (∀ term ∈ s.orderBy, columns.Lists c.dialect term.expr) ↔
      (showsOrder o .projectedOnly → ∀ entry ∈ q.order,
        ¬ c.OrdersOutside o q.projectedItems scope columns entry) := by
  by_cases hshows : showsOrder o .projectedOnly
  · constructor
    · intro hall _ entry hentry houtside
      obtain ⟨term, hterm, hout⟩ := hs.exists_unlisted hd hallow hsupport hshows hentry houtside
      exact hout (hall term hterm)
    · intro hnone term hterm
      by_contra hout
      obtain ⟨entry, hentry, houtside⟩ :=
        hs.exists_ordersOutside hd hallow hsupport hshows hterm hout
      exact hnone hshows entry hentry houtside
  · -- A nested SELECT without a forced limit has no ORDER BY clause.
    have horder := hs.orderBy_eq
    have hhides : ¬ showsOrder (c.clauseOptions o q columns) .projectedOnly := hshows
    rw [hsupport, if_neg hhides, pure_eq_ok] at horder
    simp [← horder, hshows]

end Postgresql

end Composer

theorem Dialect.orderSupport_postgresql {o : Options} (hstatement : o.statement = .select)
    (hdistinct : o.distinct) : Dialect.orderSupport .postgresql o = .projectedOnly := by
  simp only [Dialect.postgresql, hstatement, hdistinct, if_true]

/-- For a SELECT DISTINCT of PostgreSQL without the permission to order by other columns, the ORDER
BY clause has an entry for every literal, and for the fields in scope whose names are on the SELECT
list. Each of them is by an expression of the list, exactly if no literal is unlisted and under no
name of a field something else is listed in place of its column. -/
theorem ordered_by_listed_iff {c : Composer} (hd : c.dialect = .postgresql) {o : Options}
    (hallow : o.allowUnprojectedOrder = false) (hlist : o.selectList = none) {q : Query}
    (hdistinct : q.distinct?.isSome) {s : SelectQuery} (h : c.select o q = .ok s) :
    ∃ plan scope columns tree, JoinPlan.ofQuery q = .ok plan ∧ c.scope q plan = .ok scope ∧
      c.selectTree { o with statement := .select } none q = .ok (columns, tree) ∧
      s.sql = tree.text c.dialect ∧ tree.list = .items columns.values ∧
      (Composer.showsOrder o .projectedOnly → List.Forall₂ (c.OrdersBy o)
        (q.order.filter (·.passes fun ref =>
          scope.contains ref.model && columns.contains ref.text)) tree.orderBy) ∧
      ((∀ term ∈ tree.orderBy, columns.Lists c.dialect term.expr) ↔
        (Composer.showsOrder o .projectedOnly → ∀ entry ∈ q.order,
          ¬ c.OrdersOutside o q.projectedItems scope columns entry)) := by
  simp only [Composer.select, bind_eq_ok, pure_eq_ok] at h
  obtain ⟨⟨columns, tree⟩, htree, rfl⟩ := h
  obtain ⟨plan, scope, hs⟩ := Composer.selectTree_eq_ok htree
  have hsupport : c.dialect.orderSupport
      { o with statement := .select, distinct := q.distinct?.isSome } = .projectedOnly := by
    rw [hd]
    exact Dialect.orderSupport_postgresql rfl hdistinct
  have hitems : tree.list = .items columns.values := by
    rw [hs.list_eq, hlist]
  have hallow' : Options.allowUnprojectedOrder { o with statement := .select } = false := hallow
  refine ⟨plan, scope, columns, tree, hs.plan_eq, hs.scope_eq, htree, rfl, hitems, ?_, ?_⟩
  · intro hshows
    exact (hs.orders_listed_names hd hallow' hsupport hshows).imp fun _ _ hterm => hterm.of_eq rfl rfl
  · rw [hs.orders_listed_iff hd hallow' hsupport]
    constructor
    · intro hnone hshows entry hentry houtside
      exact hnone hshows entry hentry (houtside.of_eq rfl)
    · intro hnone hshows entry hentry houtside
      exact hnone hshows entry hentry (houtside.of_eq rfl)

/-- How often each name is borne, the most frequent one first. The age is not on the list. -/
def nameCounts : Query :=
  ⟨"Person", none, [
    .distinct none,
    .project ⟨.replace, [.field ⟨"Person", "name"⟩, .literal headcount]⟩,
    .groupBy [.field ⟨"Person", "name"⟩],
    .order ⟨.append, [⟨.field ⟨"Person", "age"⟩, .asc⟩, ⟨.literal headcount, .desc⟩]⟩]⟩

theorem ordered_by_listed_iff_nameCounts :
    peopleInPostgresql.dialect = .postgresql ∧ Options.allowUnprojectedOrder {} = false ∧
      Options.selectList {} = none ∧ nameCounts.distinct?.isSome ∧
      ∃ s scope columns, peopleInPostgresql.select {} nameCounts = .ok s ∧
        s.sql = "SELECT DISTINCT \"people\".\"name\" AS \"Person:name\", " ++
          "COUNT(\"people\".\"id\") AS \"total\" FROM \"people\" " ++
          "GROUP BY \"people\".\"name\" ORDER BY COUNT(\"people\".\"id\") DESC" ∧
        ∀ entry ∈ nameCounts.order, ¬ peopleInPostgresql.OrdersOutside {} nameCounts.projectedItems
          scope columns entry := by
  have hsql : (peopleInPostgresql.select {} nameCounts).map (·.sql) = .ok
      ("SELECT DISTINCT \"people\".\"name\" AS \"Person:name\", " ++
        "COUNT(\"people\".\"id\") AS \"total\" FROM \"people\" " ++
        "GROUP BY \"people\".\"name\" ORDER BY COUNT(\"people\".\"id\") DESC") := by
    decide +kernel
  have hexprs : (peopleInPostgresql.selectTree {} none nameCounts).map
      (fun r => (r.1.values.map (·.expr), r.2.orderBy.map (·.expr))) =
        .ok ([.column ⟨"people", "name", true⟩, .aggregate .count (.column ⟨"people", "id", true⟩)],
          [.aggregate .count (.column ⟨"people", "id", true⟩)]) := by
    decide +kernel
  obtain ⟨s, h, hs⟩ := map_eq_ok.mp hsql
  have hdistinct : nameCounts.distinct?.isSome := rfl
  obtain ⟨plan, scope, columns, tree, -, -, htree, -, -, -, hiff⟩ :=
    ordered_by_listed_iff (c := peopleInPostgresql) rfl rfl rfl hdistinct h
  have htree' : peopleInPostgresql.selectTree {} none nameCounts = .ok (columns, tree) := htree
  rw [htree'] at hexprs
  obtain ⟨hlisted, horder⟩ := Prod.mk.inj (Except.ok.inj hexprs)
  have hall : ∀ term ∈ tree.orderBy, columns.Lists peopleInPostgresql.dialect term.expr := by
    intro term hterm
    have hexpr : term.expr ∈ tree.orderBy.map (·.expr) := List.mem_map_of_mem hterm
    have hcount : term.expr ∈ columns.values.map (·.expr) := by
      rw [hlisted]
      rw [horder] at hexpr
      exact List.mem_cons_of_mem _ hexpr
    obtain ⟨item, hitem, heq⟩ := List.mem_map.mp hcount
    exact ⟨item, hitem, congrArg _ heq⟩
  exact ⟨rfl, rfl, rfl, hdistinct, s, scope, columns, h, hs, hiff.mp hall rfl⟩

/-- The names of the people, listed under the name of the age that they are ordered by. -/
def namesAsAges : Query :=
  ⟨"Person", none, [
    .distinct none,
    .project ⟨.replace, [.literal ⟨.field (.field ⟨"Person", "name"⟩), some "Person:age", true⟩]⟩,
    .order ⟨.append, [⟨.field ⟨"Person", "age"⟩, .asc⟩]⟩]⟩

/-- The names of the people, ordered by the age as a literal. -/
def namesByLiteralAge : Query :=
  ⟨"Person", none, [
    .distinct none,
    .project ⟨.replace, [.field ⟨"Person", "name"⟩]⟩,
    .order ⟨.append, [⟨.literal (.of (.field (.field ⟨"Person", "age"⟩))), .asc⟩]⟩]⟩

/-- A query whose statement is ordered by an expression that it does not list. -/
def Composer.OrdersUnlisted (c : Composer) (o : Options) (q : Query) : Prop :=
  ∃ columns tree, c.selectTree { o with statement := .select } none q = .ok (columns, tree) ∧
    ∃ term ∈ tree.orderBy, ¬ columns.Lists c.dialect term.expr

theorem Composer.ordersUnlisted_of_exprs {c : Composer} {q : Query} {listed e : Sql.Expr}
    (h : (c.selectTree {} none q).map
      (fun r => (r.1.values.map (·.expr), r.2.orderBy.map (·.expr))) = .ok ([listed], [e]))
    (hne : listed.text c.dialect ≠ e.text c.dialect) : c.OrdersUnlisted {} q := by
  obtain ⟨⟨columns, tree⟩, htree, heq⟩ := map_eq_ok.mp h
  obtain ⟨hlisted, horder⟩ := Prod.mk.inj heq
  obtain ⟨term, hterm, hexpr⟩ : ∃ term ∈ tree.orderBy, term.expr = e :=
    List.mem_map.mp (horder ▸ List.mem_singleton_self e)
  refine ⟨columns, tree, htree, term, hterm, ?_⟩
  rintro ⟨item, hitem, htext⟩
  have hitem' : item.expr = listed :=
    List.mem_singleton.mp (hlisted ▸ List.mem_map_of_mem hitem)
  exact hne (hitem' ▸ hexpr ▸ htext)

/-- Names are listed and ages are ordered by, once because of the borrowed name and once because
literals are not compared with the list. -/
theorem distinct_ordered_outside_list :
    (namesAsAges.distinct?.isSome ∧ peopleInPostgresql.OrdersUnlisted {} namesAsAges) ∧
      namesByLiteralAge.distinct?.isSome ∧
        peopleInPostgresql.OrdersUnlisted {} namesByLiteralAge := by
  have hne : Sql.Expr.text peopleInPostgresql.dialect (.column ⟨"people", "name", true⟩) ≠
      Sql.Expr.text peopleInPostgresql.dialect (.column ⟨"people", "age", true⟩) := by
    decide
  refine ⟨⟨rfl, Composer.ordersUnlisted_of_exprs ?_ hne⟩,
    rfl, Composer.ordersUnlisted_of_exprs ?_ hne⟩
  all_goals decide +kernel

end SqlCompose
