import SqlCompose.Proofs.Aliases
import SqlCompose.Proofs.ProjectedNames

/-!
# The ORDER BY clause

An order entry of a query becomes an entry of the ORDER BY clause or nothing. A literal always
becomes one. So does a field in scope, unless the dialect orders by the SELECT list only and the
name of the field is not on it. A query without GROUP BY takes the fields that it is ordered by into
its SELECT list after its projection records are applied, so of those none is left out.
-/

namespace SqlCompose

/-- Whether a model is the root of a query or joined by its plan. -/
def JoinPlan.names (plan : JoinPlan) (root model : String) : Bool :=
  root == model || plan.groups.any (·.model == model)

/-- Whether an order entry is a literal, or a field that passes a test. -/
def OrderEntry.passes (test : FieldRef → Bool) (entry : OrderEntry) : Bool :=
  match entry.expr with
  | .field ref => test ref
  | .literal _ => true

/-- The direction that a handle gives an order entry. -/
def Options.shownDirection (o : Options) (direction : Direction) : Direction :=
  if o.reverseOrder then direction.reverse else direction

namespace Composer

/-- What an order entry becomes in the ORDER BY clause. -/
inductive OrdersBy (c : Composer) (o : Options) : OrderEntry → Sql.OrderTerm → Prop
  | field {ref : FieldRef} {m : Model} {f : Field} (direction : Direction)
      (h : c.schema.resolve ref = .ok (m, f)) :
      OrdersBy c o ⟨.field ref, direction⟩ ⟨.column (m.column f), o.shownDirection direction⟩
  | literal {inner : Literal} {e : Sql.Expr} (direction : Direction)
      (h : c.expr o inner = .ok e) :
      OrdersBy c o ⟨.literal inner, direction⟩ ⟨e, o.shownDirection direction⟩

variable {c : Composer} {o : Options}

/-- Of the options an entry reads those for literals and for the direction only. -/
theorem OrdersBy.of_eq {o' : Options} {entry : OrderEntry} {term : Sql.OrderTerm}
    (h : c.OrdersBy o entry term) (hf : o.subField = o'.subField)
    (hr : o.reverseOrder = o'.reverseOrder) : c.OrdersBy o' entry term := by
  have hdirection : o.shownDirection = o'.shownDirection := by
    funext direction
    rw [Options.shownDirection, Options.shownDirection, hr]
  cases h with
  | field direction h =>
    rw [hdirection]
    exact .field direction h
  | literal direction h =>
    rw [hdirection]
    exact .literal direction (expr_congr hf ▸ h)

section Entries

variable {support : OrderSupport} {scope : Scope}

theorem orderTerm_literal_eq_ok_iff {inner : Literal} {direction : Direction}
    {term : Option Sql.OrderTerm} :
    c.orderTerm o support scope ⟨.literal inner, direction⟩ = .ok term ↔
      ∃ e, c.expr o inner = .ok e ∧ some ⟨e, o.shownDirection direction⟩ = term := by
  simp only [orderTerm, bind_eq_ok, pure_eq_ok]
  rfl

theorem orderTerm_field_eq_ok_iff {ref : FieldRef} {direction : Direction}
    {term : Option Sql.OrderTerm} :
    c.orderTerm o support scope ⟨.field ref, direction⟩ = .ok term ↔
      if scope.contains ref.model then
        ∃ m f, c.schema.resolve ref = .ok (m, f) ∧
          (if c.mayOrderBy o support f ref then
            some ⟨.column (m.column f), o.shownDirection direction⟩ else none) = term
      else none = term := by
  by_cases hscope : scope.contains ref.model
  · simp only [orderTerm, hscope, if_true, bind_eq_ok, Prod.exists]
    refine exists_congr fun m => exists_congr fun f => and_congr_right fun _ => ?_
    by_cases hmay : c.mayOrderBy o support f ref
    · simp only [hmay, if_true, pure_eq_ok]
      rfl
    · simp only [hmay, Bool.false_eq_true, if_false, pure_eq_ok]
  · simp only [orderTerm, hscope, Bool.false_eq_true, if_false, pure_eq_ok]

theorem ordersBy_of_orderTerm {entry : OrderEntry} {term : Sql.OrderTerm}
    (h : c.orderTerm o support scope entry = .ok (some term)) : c.OrdersBy o entry term := by
  obtain ⟨ref | inner, direction⟩ := entry
  · rw [orderTerm_field_eq_ok_iff] at h
    split at h
    · obtain ⟨m, f, hresolve, hterm⟩ := h
      split at hterm
      · cases hterm
        exact .field direction hresolve
      · cases hterm
    · cases h
  · obtain ⟨e, he, hterm⟩ := orderTerm_literal_eq_ok_iff.mp h
    cases hterm
    exact .literal direction he

/-- A literal is always shown, a field if it is in scope and may be ordered by. -/
theorem isSome_of_orderTerm {entry : OrderEntry} {term : Option Sql.OrderTerm}
    {may : FieldRef → Bool} (h : c.orderTerm o support scope entry = .ok term)
    (hmay : ∀ ref, entry.expr = .field ref → scope.contains ref.model →
      ∀ f, c.mayOrderBy o support f ref = may ref) :
    term.isSome = entry.passes fun ref => scope.contains ref.model && may ref := by
  obtain ⟨ref | inner, direction⟩ := entry
  · rw [orderTerm_field_eq_ok_iff] at h
    change term.isSome = (scope.contains ref.model && may ref)
    split at h
    · rename_i hscope
      obtain ⟨m, f, -, rfl⟩ := h
      rw [hscope, Bool.true_and, hmay ref rfl hscope f]
      cases may ref <;> rfl
    · rename_i hscope
      rw [← h, Bool.eq_false_of_not_eq_true hscope]
      rfl
  · obtain ⟨e, -, rfl⟩ := orderTerm_literal_eq_ok_iff.mp h
    rfl

/-- The ORDER BY clause has an entry for each literal and for each field in scope that may be
ordered by, in the order of the query. -/
theorem orderTerms_forall₂ {q : Query} {terms : List Sql.OrderTerm} {may : FieldRef → Bool}
    (h : c.orderTerms o support scope q = .ok terms)
    (hmay : ∀ entry ∈ q.order, ∀ ref, entry.expr = .field ref → scope.contains ref.model →
      ∀ f, c.mayOrderBy o support f ref = may ref) :
    List.Forall₂ (c.OrdersBy o)
      (q.order.filter (·.passes fun ref => scope.contains ref.model && may ref)) terms := by
  simp only [orderTerms, bind_eq_ok, pure_eq_ok] at h
  obtain ⟨all, hall, rfl⟩ := h
  refine (forall₂_filter_filterMap (mapM_eq_ok.mp hall) fun entry hentry term hterm => ?_).imp
    fun _ _ => ordersBy_of_orderTerm
  exact isSome_of_orderTerm hterm (hmay entry hentry)

end Entries

/-- The models in scope are the root and the joined ones. -/
theorem contains_scope {q : Query} {plan : JoinPlan} {scope : Scope}
    (h : c.scope q plan = .ok scope) (model : String) :
    scope.contains model = plan.names q.model model := by
  simp only [Composer.scope, bind_eq_ok, pure_eq_ok] at h
  obtain ⟨root, hroot, joined, hjoined, rfl⟩ := h
  have hnames : joined.map (·.name) = plan.groups.map (·.model) := by
    rw [← List.forall₂_eq_eq_eq, List.forall₂_map_left_iff, List.forall₂_map_right_iff]
    exact (mapM_eq_ok.mp hjoined).flip.imp fun m group hm => Schema.name_of_model hm
  have hany : joined.any (·.name == model) = plan.groups.any (·.model == model) := by
    rw [← Function.comp_def (· == model), ← List.any_map, hnames, List.any_map]
    rfl
  rw [Scope.contains, Scope.models, List.any_cons, hany, Schema.name_of_model hroot,
    JoinPlan.names]

/-- The ORDER BY clause of a statement that shows it, where all fields alike may be ordered by or may
not. -/
theorem ComposedFrom.forall₂_ordersBy {correlation : Option Sql.Correlation} {q : Query}
    {plan : JoinPlan} {scope : Scope} {columns : ResultColumns} {s : Sql.Select}
    (hs : c.ComposedFrom o correlation q plan scope columns s) {support : OrderSupport}
    (hsupport : c.dialect.orderSupport { o with distinct := q.distinct?.isSome } = support)
    (hshows : showsOrder o support) (may : FieldRef → Bool)
    (hmay : ∀ entry ∈ q.order, ∀ ref, entry.expr = .field ref → scope.contains ref.model →
      ∀ f, c.mayOrderBy (c.clauseOptions o q columns) support f ref = may ref) :
    List.Forall₂ (c.OrdersBy o)
      (q.order.filter (·.passes fun ref => scope.contains ref.model && may ref)) s.orderBy := by
  have hshows' : showsOrder (c.clauseOptions o q columns) support := hshows
  have horder := hs.orderBy_eq
  rw [hsupport, if_pos hshows'] at horder
  exact (orderTerms_forall₂ horder hmay).imp fun _ _ hterm => hterm.of_eq rfl rfl

theorem mayOrderBy_of_mem_keys {q : Query} {columns : ResultColumns} {ref : FieldRef}
    (h : ref.text ∈ columns.keys) (support : OrderSupport) (f : Field) :
    c.mayOrderBy (c.clauseOptions o q columns) support f ref = true := by
  have hcontains : (c.columnTexts columns).contains ref.text := by
    rw [columnTexts, OrderedMap.contains_map, OrderedMap.contains_iff]
    exact h
  simp [mayOrderBy, clauseOptions, hcontains]

section TopLevel

variable {correlation : Option Sql.Correlation} {q : Query} {plan : JoinPlan} {scope : Scope}
  {columns : ResultColumns} {s : Sql.Select}
  (hs : c.ComposedFrom o correlation q plan scope columns s) (htop : o.isSubQuery = false)
  (hlist : o.selectList = none) (hgroup : q.groupBy = [])
  (hallowed : (c.dialect.orderSupport { o with distinct := q.distinct?.isSome }).isAllowed)

include hs htop hlist hgroup hallowed

/-- The name of a field that the query is ordered by is one of the SELECT list. -/
theorem ComposedFrom.mem_keys_of_ordered {entry : OrderEntry} (hentry : entry ∈ q.order)
    {ref : FieldRef} (href : entry.expr = .field ref) (hscope : scope.contains ref.model) :
    ref.text ∈ columns.keys := by
  have htop' : ¬ Options.isSubQuery { o with distinct := q.distinct?.isSome } = true := by
    simp [htop]
  rw [mem_keys_listedColumns hlist hs.columns_eq, listedNames, if_neg htop', hgroup, hallowed]
  exact .inr ⟨entry, hentry, ref, href, hscope, rfl⟩

/-- So it may be ordered by, and none is left out. -/
theorem ComposedFrom.orders_every_entry :
    List.Forall₂ (c.OrdersBy o) (q.order.filter (·.passes fun ref => scope.contains ref.model))
      s.orderBy := by
  have hshows : showsOrder o (c.dialect.orderSupport { o with distinct := q.distinct?.isSome }) := by
    rw [showsOrder, hallowed, htop]
    rfl
  have hterms := hs.forall₂_ordersBy rfl hshows (fun _ => true)
    fun entry hentry ref href hscope f =>
      mayOrderBy_of_mem_keys (hs.mem_keys_of_ordered htop hlist hgroup hallowed hentry href hscope)
        _ f
  simpa only [Bool.and_true] using hterms

end TopLevel

end Composer

/-- A built-in dialect lets a SELECT be ordered. -/
theorem Dialect.IsBuiltin.orderSupport_isAllowed {d : Dialect} (hd : d.IsBuiltin) {o : Options}
    (h : o.statement = .select) : (d.orderSupport o).isAllowed := by
  cases hd with
  | postgresql =>
    simp only [Dialect.postgresql, h, if_true]
    cases o.distinct <;> rfl
  | sqlite | mysql =>
    simp only [Dialect.sqlite, Dialect.mysql, h, if_true]
    rfl

/-- A built-in dialect's SELECT without GROUP BY is ordered by every literal and by every field of
the root and the joined models that the query is ordered by, and by nothing else, in the order of
the query and with its directions, or with the opposite ones where the handle reverses them. The
SELECT list has each of these fields, whatever its projection records take out. -/
theorem ordered_by_every_entry {c : Composer} (hd : c.dialect.IsBuiltin) {o : Options}
    (htop : o.isSubQuery = false) (hlist : o.selectList = none) {q : Query}
    (hgroup : q.groupBy = []) {s : SelectQuery} (h : c.select o q = .ok s) :
    ∃ plan columns tree, JoinPlan.ofQuery q = .ok plan ∧
      c.selectTree { o with statement := .select } none q = .ok (columns, tree) ∧
      s.sql = tree.text c.dialect ∧
      (o.returnFieldProjection → s.columns = some (c.columnTexts columns)) ∧
      List.Forall₂ (c.OrdersBy o)
        (q.order.filter (·.passes fun ref => plan.names q.model ref.model)) tree.orderBy ∧
      ∀ entry ∈ q.order, ∀ ref, entry.expr = .field ref → plan.names q.model ref.model →
        ref.text ∈ columns.keys := by
  simp only [Composer.select, bind_eq_ok, pure_eq_ok] at h
  obtain ⟨⟨columns, tree⟩, htree, rfl⟩ := h
  obtain ⟨plan, scope, hs⟩ := Composer.selectTree_eq_ok htree
  have hallowed : (c.dialect.orderSupport
      { o with statement := .select, distinct := q.distinct?.isSome }).isAllowed :=
    hd.orderSupport_isAllowed rfl
  have hterms := hs.orders_every_entry htop hlist hgroup hallowed
  have hnames : ∀ model, scope.contains model = plan.names q.model model :=
    Composer.contains_scope hs.scope_eq
  simp only [hnames] at hterms
  refine ⟨plan, columns, tree, hs.plan_eq, htree, rfl, fun hreturn => if_pos hreturn, ?_, ?_⟩
  · exact hterms.imp fun _ _ hterm => hterm.of_eq rfl rfl
  · intro entry hentry ref href hscope
    rw [← hnames] at hscope
    exact hs.mem_keys_of_ordered htop hlist hgroup hallowed hentry href hscope

/-- The names of the people, the youngest first, where a record takes the age out of the list. The
role is that of nobody. -/
def namesByAge : Query :=
  ⟨"Person", none, [
    .distinct none,
    .order ⟨.append, [⟨.field ⟨"Person", "age"⟩, .asc⟩, ⟨.field ⟨"Role", "name"⟩, .asc⟩]⟩,
    .project ⟨.replace, [.field ⟨"Person", "name"⟩, .field ⟨"Person", "age"⟩]⟩,
    .project ⟨.remove, [.field ⟨"Person", "age"⟩]⟩,
    .order ⟨.append, [⟨.literal (.of (.raw "1")), .desc⟩]⟩]⟩

theorem ordered_by_every_entry_namesByAge :
    peopleInPostgresql.dialect.IsBuiltin ∧
      Options.isSubQuery { reverseOrder := true } = false ∧
      Options.selectList { reverseOrder := true } = none ∧ namesByAge.groupBy = [] ∧
      ∃ s columns tree, peopleInPostgresql.select { reverseOrder := true } namesByAge = .ok s ∧
        s.sql = "SELECT DISTINCT \"people\".\"name\" AS \"Person:name\", " ++
          "\"people\".\"age\" AS \"Person:age\" FROM \"people\" " ++
          "ORDER BY \"people\".\"age\" DESC, 1 ASC" ∧
        peopleInPostgresql.selectTree { reverseOrder := true } none namesByAge =
          .ok (columns, tree) ∧
        tree.orderBy.length = 2 ∧ "Person:age" ∈ columns.keys := by
  have hd : peopleInPostgresql.dialect.IsBuiltin := .postgresql
  have hsql : (peopleInPostgresql.select { reverseOrder := true } namesByAge).map (·.sql) = .ok
      ("SELECT DISTINCT \"people\".\"name\" AS \"Person:name\", " ++
        "\"people\".\"age\" AS \"Person:age\" FROM \"people\" " ++
        "ORDER BY \"people\".\"age\" DESC, 1 ASC") := by
    decide +kernel
  obtain ⟨s, h, hs⟩ := map_eq_ok.mp hsql
  obtain ⟨plan, columns, tree, hplan, htree, -, -, hterms, hkeys⟩ :=
    ordered_by_every_entry hd rfl rfl rfl h
  have hunjoined : JoinPlan.ofQuery namesByAge = .ok ⟨[]⟩ := by decide +kernel
  cases hplan.symm.trans hunjoined
  refine ⟨hd, rfl, rfl, rfl, s, columns, tree, h, hs, htree, hterms.length_eq.symm, ?_⟩
  exact hkeys ⟨.field ⟨"Person", "age"⟩, .asc⟩ List.mem_cons_self _ rfl rfl

end SqlCompose
