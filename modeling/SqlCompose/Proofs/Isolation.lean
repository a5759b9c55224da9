import SqlCompose.Dialect.Builtin
import SqlCompose.Proofs.Composition
import SqlCompose.Proofs.Filter

/-!
# Conditions do not see the statement around them

A nested SELECT is composed under `Options.nested`, which resets what describes the enclosing
statement and passes the other settings on. Of those no clause of a nested SELECT reads more than
the permission to order by columns outside the SELECT list. So two handles that agree on this
permission give every condition the same operand, or refuse it for the same reason. The argument
speaks of the built-in dialects: an application's own may look at any setting.
-/

namespace SqlCompose

/-- The options without the settings that a nested SELECT passes on unread: aliases, layout, and
what statements other than SELECT ask for. -/
def Options.readInside (o : Options) : Options :=
  { o with
    noProjectionAliases := false
    newlines := false
    ifNotExists := false
    ifExists := false
    cascade := false
    concurrently := false
    returnFieldProjection := false
    returning := none
    tableAlias := none }

theorem Options.readInside_nested {o o' : Options}
    (ha : o.allowUnprojectedOrder = o'.allowUnprojectedOrder) :
    o.nested.readInside = o'.nested.readInside := by
  simp only [readInside, nested, ha]

/-- A built-in dialect decides on the order by the kind of statement and its DISTINCT. -/
theorem Dialect.IsBuiltin.orderSupport_readInside {d : Dialect} (hd : d.IsBuiltin) (o : Options) :
    d.orderSupport o.readInside = d.orderSupport o := by
  cases hd <;> rfl

namespace Composer

theorem existsOptions_readInside {o o' : Options}
    (ha : o.allowUnprojectedOrder = o'.allowUnprojectedOrder) :
    (existsOptions o).readInside = (existsOptions o').readInside := by
  simp only [Options.readInside, existsOptions, Options.nested, ha]

section Clauses

variable (c : Composer) (o : Options)

theorem clauseOptions_readInside (q : Query) (columns : ResultColumns) :
    c.clauseOptions o.readInside q columns = (c.clauseOptions o q columns).readInside := rfl

theorem distinctExpr_readInside : c.distinctExpr o.readInside = c.distinctExpr o := rfl

theorem groupExprs_readInside : c.groupExprs o.readInside = c.groupExprs o := rfl

theorem orderTerms_readInside : c.orderTerms o.readInside = c.orderTerms o := rfl

theorem showsOrder_readInside (support : OrderSupport) :
    showsOrder o.readInside support = showsOrder o support := rfl

/-- The result columns of a nested query have no aliases to begin with. -/
theorem nestedColumns_readInside : c.nestedColumns o.readInside = c.nestedColumns o := rfl

variable {o}

theorem listedColumns_readInside (hsub : o.isSubQuery) :
    c.listedColumns o.readInside = c.listedColumns o := by
  funext q scope support
  have hsub' : o.readInside.isSubQuery := hsub
  simp only [listedColumns, hsub, hsub', if_true, nestedColumns_readInside]
  rfl

/-- A nested query has the limits that its caller forces on it. -/
theorem rowLimit_of_isSubQuery (hsub : o.isSubQuery) (q : Query) :
    c.rowLimit o q = .ok (match o.forceOffset with
      | none => ⟨o.forceLimit, none⟩
      | some n => ⟨some (o.forceLimit.getD .unbounded), some n⟩) := by
  simp only [rowLimit, hsub, Bool.not_true, Bool.false_and, Bool.false_eq_true, if_false, if_true,
    Option.or_none]
  cases o.forceOffset <;> rfl

theorem rowLimit_readInside (hsub : o.isSubQuery) : c.rowLimit o.readInside = c.rowLimit o := by
  funext q
  have hsub' : o.readInside.isSubQuery := hsub
  rw [rowLimit_of_isSubQuery c hsub, rowLimit_of_isSubQuery c hsub']
  rfl

end Clauses

variable {c : Composer}

/-- The options reach a nested SELECT through its clauses only. -/
theorem selectTree_readInside (hd : c.dialect.IsBuiltin) {o : Options} (hsub : o.isSubQuery)
    (correlation : Option Sql.Correlation) {q : Query}
    (hlinks : ∀ o' : Options, c.links o'.readInside q.ops = c.links o' q.ops)
    (hhaving : ∀ o' : Options, c.havingLinks o'.readInside q.ops = c.havingLinks o' q.ops) :
    c.selectTree o.readInside correlation q = c.selectTree o correlation q := by
  let opts : Options := { o with distinct := q.distinct?.isSome }
  have hopts : { o.readInside with distinct := q.distinct?.isSome } = opts.readInside := rfl
  have hrows : ∀ columns, c.rowLimit (c.clauseOptions o q columns).readInside q =
      c.rowLimit (c.clauseOptions o q columns) q := fun columns =>
    congrFun (rowLimit_readInside c (o := c.clauseOptions o q columns) hsub) q
  have hcolumns : c.listedColumns opts.readInside = c.listedColumns opts :=
    listedColumns_readInside c hsub
  rw [selectTree_eq, selectTree_eq, hopts]
  simp only [clauseOptions_readInside, hd.orderSupport_readInside, hcolumns,
    distinctExpr_readInside, hlinks, groupExprs_readInside, hhaving, showsOrder_readInside,
    orderTerms_readInside, hrows]
  rfl

/-- Record lists that give the same operands under both handles. -/
def SameOperands (c : Composer) (o o' : Options) (ops : List Operation) : Prop :=
  c.links o ops = c.links o' ops ∧ c.havingLinks o ops = c.havingLinks o' ops

/-- A condition hands its nested query on under handles that a nested SELECT cannot tell apart. -/
theorem predicate_eq {o o' : Options} (ha : o.allowUnprojectedOrder = o'.allowUnprojectedOrder)
    (condition : Condition)
    (ih : ∀ nested, condition.value = .query nested → ∀ opts : Options, opts.isSubQuery →
      c.selectTree opts.readInside none nested = c.selectTree opts none nested) :
    c.predicate o condition = c.predicate o' condition := by
  obtain ⟨field, op, value, negate, connector, quantifier, join⟩ := condition
  cases value with
  | query nested =>
    have hexists : c.selectTree (existsOptions o) none nested =
        c.selectTree (existsOptions o') none nested := by
      rw [← ih nested rfl _ rfl, existsOptions_readInside ha, ih nested rfl _ rfl]
    have hnested : c.selectTree o.nested none nested = c.selectTree o'.nested none nested := by
      rw [← ih nested rfl _ rfl, Options.readInside_nested ha, ih nested rfl _ rfl]
    simp only [predicate, hexists, hnested]
  | value v => cases v <;> simp only [predicate]
  | field other => simp only [predicate]
  | literal literal => simp only [predicate]

theorem sameOperands_cons {o o' : Options} {op : Operation} {rest : List Operation}
    (hop : op.Parts (fun condition => c.predicate o condition = c.predicate o' condition)
      (c.SameOperands o o'))
    (hrest : c.SameOperands o o' rest) : c.SameOperands o o' (op :: rest) := by
  obtain ⟨hlinks, hhaving⟩ := hrest
  cases op with
  | condition condition =>
    have hpredicate := hop.condition rfl
    exact ⟨by simp only [links, hpredicate, hlinks], by simp only [havingLinks, hhaving]⟩
  | group g =>
    obtain ⟨connector, negated, _ | ⟨model, target, inner⟩⟩ := g
    · exact ⟨by simp only [links, hlinks], by simp only [havingLinks, hhaving]⟩
    · have hinner := (hop.group rfl).1
      simp only at hinner
      exact ⟨by simp only [links, hinner, hlinks], by simp only [havingLinks, hhaving]⟩
  | having q =>
    obtain ⟨model, target, inner⟩ := q
    have hinner := (hop.having rfl).1
    simp only at hinner
    exact ⟨by simp only [links, hlinks], by simp only [havingLinks, hinner, hhaving]⟩
  | project | order | groupBy | distinct | limit | offset =>
    exact ⟨by simp only [links, hlinks], by simp only [havingLinks, hhaving]⟩

/-- What the composition of nested statements reads of the options, for queries, record lists and
conditions. -/
theorem composition_isolated (hd : c.dialect.IsBuiltin) :
    (∀ (q : Query) (o : Options), o.isSubQuery → ∀ correlation,
      c.selectTree o.readInside correlation q = c.selectTree o correlation q) ∧
    (∀ (ops : List Operation) (o o' : Options),
      o.allowUnprojectedOrder = o'.allowUnprojectedOrder → c.SameOperands o o' ops) ∧
    (∀ (condition : Condition) (o o' : Options),
      o.allowUnprojectedOrder = o'.allowUnprojectedOrder →
        c.predicate o condition = c.predicate o' condition) := by
  apply Query.composition_induct
  case hquery =>
    intro model target ops hops o hsub correlation
    exact selectTree_readInside hd hsub correlation (fun o' => (hops o'.readInside o' rfl).1)
      (fun o' => (hops o'.readInside o' rfl).2)
  case hcondition =>
    intro condition ih o o' ha
    exact predicate_eq ha condition fun nested hvalue opts hsub => ih nested hvalue opts hsub none
  case hnil =>
    intro o o' _
    exact ⟨by simp only [links], by simp only [havingLinks]⟩
  case hcons =>
    intro op rest hop hrest o o' ha
    refine sameOperands_cons ⟨fun h => ?_, fun h => ?_, fun h => ?_⟩ (hrest o o' ha)
    · exact hop.condition h o o' ha
    · exact hop.group h o o' ha
    · exact hop.having h o o' ha

/-- A sub-select lists its own columns, in no order and without limits. -/
theorem subSelect_eq_ok {o : Options} {q : Query} {columns : ResultColumns} {s : Sql.Select}
    (h : c.selectTree o.nested none q = .ok (columns, s)) :
    s.list = .items columns.values ∧ s.orderBy = [] ∧ s.rows = {} := by
  obtain ⟨plan, scope, hs⟩ := selectTree_eq_ok h
  have hlist := hs.list_eq
  have horder := hs.orderBy_eq
  have hrows := hs.rows_eq
  rw [rowLimit_of_isSubQuery c rfl] at hrows
  have hunordered : ∀ support, showsOrder (c.clauseOptions o.nested q columns) support = false :=
    fun support => Bool.and_false _
  rw [hunordered, if_neg Bool.false_ne_true, pure_eq_ok] at horder
  exact ⟨hlist, horder.symm, (Except.ok.inj hrows).symm⟩

/-- The SELECT of an EXISTS looks at one row of the constant list. -/
theorem rowExists_eq_ok {o : Options} {q : Query} {columns : ResultColumns} {s : Sql.Select}
    (h : c.selectTree (existsOptions o) none q = .ok (columns, s)) :
    s.list = .text "1" ∧ s.rows = ⟨some (.rows 1), some 0⟩ := by
  obtain ⟨plan, scope, hs⟩ := selectTree_eq_ok h
  have hlist := hs.list_eq
  have hrows := hs.rows_eq
  rw [rowLimit_of_isSubQuery c rfl] at hrows
  exact ⟨hlist, (Except.ok.inj hrows).symm⟩

end Composer

/-- A filter reads the same whatever the handle says about the statement around it, as long as the
permission to order by other columns is the same. So do the statements nested in it, and none of
them takes over a list, an order or a limit. -/
theorem conditions_ignore_enclosing_statement {c : Composer} (hd : c.dialect.IsBuiltin)
    {o o' : Options} (ha : o.allowUnprojectedOrder = o'.allowUnprojectedOrder) :
    (∀ q, c.filterText o q = c.filterText o' q) ∧
    (∀ q, c.selectTree o.nested none q = c.selectTree o'.nested none q ∧
      c.selectTree (Composer.existsOptions o) none q =
        c.selectTree (Composer.existsOptions o') none q) ∧
    (∀ q columns s, c.selectTree o.nested none q = .ok (columns, s) →
      s.list = .items columns.values ∧ s.orderBy = [] ∧ s.rows = {}) ∧
    ∀ q columns s, c.selectTree (Composer.existsOptions o) none q = .ok (columns, s) →
      s.list = .text "1" ∧ s.rows = ⟨some (.rows 1), some 0⟩ := by
  obtain ⟨hselect, hoperands, _⟩ := Composer.composition_isolated hd
  refine ⟨fun q => ?_, fun q => ⟨?_, ?_⟩, fun q columns s => Composer.subSelect_eq_ok,
    fun q columns s => Composer.rowExists_eq_ok⟩
  · have hlinks := (hoperands q.ops o o' ha).1
    simp only [Composer.filterText, Composer.filter, hlinks]
  · rw [← hselect q _ rfl, Options.readInside_nested ha, hselect q _ rfl]
  · rw [← hselect q _ rfl, Composer.existsOptions_readInside ha, hselect q _ rfl]

/-- Someone under age exists; the oldest is looked at first. -/
def someMinor : Query :=
  ⟨"Person", none, [.condition (.of ⟨"Person", "id"⟩ .rowExists (.query ⟨"Person", none, [
    .condition (.of ⟨"Person", "age"⟩ .lt (.value (.int 18))),
    .order ⟨.replace, [⟨.field ⟨"Person", "age"⟩, .desc⟩]⟩, .limit 7]⟩))]⟩

/-- A handle that says something about every part of its own statement. -/
def busyOptions : Options where
  statement := .delete
  isSubQuery := true
  forceLimit := some .unbounded
  forceOffset := some 3
  projectionFields := some .empty
  selectList := some "name"
  noProjectionAliases := true
  subField := true
  reverseOrder := true
  distinct := true

theorem conditions_ignore_enclosing_statement_busy :
    people.dialect.IsBuiltin ∧
      Options.allowUnprojectedOrder {} = busyOptions.allowUnprojectedOrder ∧
      people.filterText {} someMinor = people.filterText busyOptions someMinor ∧
      people.filterText busyOptions someMinor = .ok ("EXISTS(SELECT 1 FROM \"people\" " ++
        "WHERE \"people\".\"age\" < 18 ORDER BY \"people\".\"age\" DESC LIMIT 1 OFFSET 0)") := by
  have hd : people.dialect.IsBuiltin := .sqlite
  have ha : Options.allowUnprojectedOrder {} = busyOptions.allowUnprojectedOrder := rfl
  have h : people.filterText busyOptions someMinor = .ok ("EXISTS(SELECT 1 FROM \"people\" " ++
      "WHERE \"people\".\"age\" < 18 ORDER BY \"people\".\"age\" DESC LIMIT 1 OFFSET 0)") := by
    decide +kernel
  exact ⟨hd, ha, (conditions_ignore_enclosing_statement hd ha).1 someMinor, h⟩

end SqlCompose
