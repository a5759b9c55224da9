import SqlCompose.Select.Comparison
import SqlCompose.Select.Ordering

/-!
# SELECT statements

Conditions and SELECT statements are composed together, since each may contain the other. A
condition that is a join edge, or a comparison left out by configuration, contributes nothing to
the filter, and so does a group without operands.
-/

namespace SqlCompose

/-- The operands without those whose text is that of the operand just before. -/
def dropRepeats (d : Dialect) (previous : Option String) : List Sql.Link → List Sql.Link
  | [] => []
  | link :: rest =>
      let text := link.operand.text d
      if previous = some text then dropRepeats d previous rest
      else link :: dropRepeats d (some text) rest

namespace Composer

/-- Applies the configured treatment of repeated conditions to one level of a filter. -/
def settle (c : Composer) (links : List Sql.Link) : List Sql.Link :=
  if c.config.dedupeConditions then dropRepeats c.dialect none links else links

/-- The options for the SELECT of an EXISTS, which looks at one row. -/
def existsOptions (opts : Options) : Options :=
  { opts.nested with
    selectList := some "1"
    forceLimit := some (.rows 1)
    forceOffset := some 0 }

/-- The DISTINCT of a SELECT. -/
def distinctExpr (c : Composer) (opts : Options) :
    Option (Option LiteralOperand) → Except Error (Option Sql.Expr)
  | none => return none
  | some none => return some .distinctAll
  | some (some operand) => do return some (← c.expr opts (.of (.distinct operand)))

/-- The result columns that a SELECT lists; none where the caller gives the list. -/
def listedColumns (c : Composer) (opts : Options) (q : Query) (scope : Scope)
    (support : OrderSupport) : Except Error ResultColumns :=
  if opts.selectList.isSome then return .empty
  else if opts.isSubQuery then c.nestedColumns opts q
  else c.resultColumns opts q scope (support.isAllowed && q.groupBy.isEmpty)

/-- Whether a SELECT shows its ORDER BY clause; nested ones do under a forced limit only. -/
def showsOrder (opts : Options) (support : OrderSupport) : Bool :=
  support.isAllowed && (!opts.isSubQuery || opts.forceLimit.isSome)

mutual

/-- The SELECT statement of a query with its result columns. The correlation ties it to the
statement around it. -/
def selectTree (c : Composer) (opts : Options) (correlation : Option Sql.Correlation) :
    Query → Except Error (ResultColumns × Sql.Select)
  | ⟨model, target, ops⟩ => do
      let q : Query := ⟨model, target, ops⟩
      let plan ← JoinPlan.ofQuery q
      let scope ← c.scope q plan
      let opts := { opts with distinct := q.distinct?.isSome }
      let support := c.dialect.orderSupport opts
      let columns ← c.listedColumns opts q scope support
      let opts := { opts with projectionFields := some (c.columnTexts columns) }
      let distinct ← c.distinctExpr opts q.distinct?
      let joins ← c.joins plan
      let filter ← c.links opts ops
      let groupBy ← c.groupExprs opts q
      let having ← if groupBy.isEmpty then pure [] else c.havingLinks opts ops
      let orderBy ← if showsOrder opts support then c.orderTerms opts support scope q else pure []
      let rows ← c.rowLimit opts q
      return (columns,
        { distinct := distinct
          list := match opts.selectList with
            | some sql => .text sql
            | none => .items columns.values
          table := scope.root.table
          joins := joins
          correlation := correlation
          filter := c.settle filter
          groupBy := groupBy
          having := c.settle having
          orderBy := orderBy
          rows := rows })

/-- The operands of the records of a query, repeated ones included. -/
def links (c : Composer) (opts : Options) : List Operation → Except Error (List Sql.Link)
  | [] => return []
  | .condition condition :: rest => do
      let operand ← c.predicate opts condition
      let others ← c.links opts rest
      return match operand with
        | some operand => ⟨condition.connector, operand⟩ :: others
        | none => others
  | .group ⟨connector, negated, some ⟨_, _, inner⟩⟩ :: rest => do
      let body := c.settle (← c.links opts inner)
      let others ← c.links opts rest
      return if body.isEmpty then others else ⟨connector, .group negated body⟩ :: others
  | _ :: rest => c.links opts rest

/-- The operands of the last HAVING record. -/
def havingLinks (c : Composer) (opts : Options) : List Operation → Except Error (List Sql.Link)
  | [] => return []
  | .having ⟨_, _, inner⟩ :: rest =>
      if rest.any fun op => op.having?.isSome then c.havingLinks opts rest else c.links opts inner
  | _ :: rest => c.havingLinks opts rest

/-- The operand of a condition; a join edge has none. -/
def predicate (c : Composer) (opts : Options) : Condition → Except Error (Option Sql.Predicate)
  | ⟨field, op, value, negate, _, quantifier, _⟩ => do
      let (m, f) ← c.schema.resolve field
      let op := if negate then op.invert else op
      if op.isExists then
        match value with
        | .query nested => do
            let (_, inner) ← c.selectTree (existsOptions opts) none nested
            return some (.rowExists (op == .noRowExists) inner)
        | _ => refuse op f .needsNestedQuery
      else
        match value with
        | .value (.list values) => c.listCondition m f op values
        | .value v => do return some (.comparison (← c.valueComparison m f op v))
        | .field other => do return some (← c.columnCondition m f op other)
        | .literal literal => do return some (← c.literalCondition m f op literal)
        | .query nested =>
            if !nested.hasCondition then return none
            else if op.isLike then refuse op f .onSubSelect
            else do
              let (_, inner) ← c.selectTree opts.nested none nested
              return some (selectPredicate (m.column f) op quantifier inner)

end

/-- The filter of a query: the operands of its WHERE clause. -/
def filter (c : Composer) (opts : Options) (q : Query) : Except Error (List Sql.Link) := do
  return c.settle (← c.links opts q.ops)

/-- The text of the filter of a query, without keyword. -/
def filterText (c : Composer) (opts : Options) (q : Query) : Except Error String := do
  return Sql.chainText (Sql.linkTexts c.dialect (← c.filter opts q))

end Composer

/-- A SELECT statement, and its result columns where they were asked for. -/
structure SelectQuery where
  sql : String
  columns : Option (OrderedMap String)

/-- The SELECT list of the result columns. -/
def listText (columns : OrderedMap String) : String := ", ".intercalate columns.values

/-- The SELECT statement of a query. -/
def Composer.select (c : Composer) (opts : Options) (q : Query) : Except Error SelectQuery := do
  let (columns, tree) ← c.selectTree { opts with statement := .select } none q
  return ⟨tree.text c.dialect,
    if opts.returnFieldProjection then some (c.columnTexts columns) else none⟩

end SqlCompose
