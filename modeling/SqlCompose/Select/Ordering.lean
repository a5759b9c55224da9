import SqlCompose.Select.ResultColumns

/-!
# Grouping, ordering and limits

The clauses after the WHERE clause that need no nested statement.
-/

namespace SqlCompose

namespace Composer

/-- Whether a field in scope may stand in the ORDER BY clause: where the dialect orders by projected
columns only, the field has to be one, unless options or dialect make an exception. -/
def mayOrderBy (c : Composer) (opts : Options) (support : OrderSupport) (f : Field)
    (ref : FieldRef) : Bool :=
  support != .projectedOnly ||
    opts.projectionFields.any (·.contains ref.text) ||
    opts.allowUnprojectedOrder || c.dialect.allowsUnprojectedOrder f

/-- The ORDER BY entry of an order entry, if it has one. Fields outside the scope have none. -/
def orderTerm (c : Composer) (opts : Options) (support : OrderSupport) (scope : Scope)
    (entry : OrderEntry) : Except Error (Option Sql.OrderTerm) :=
  let direction := if opts.reverseOrder then entry.direction.reverse else entry.direction
  match entry.expr with
  | .field ref =>
      if scope.contains ref.model then do
        let (m, f) ← c.schema.resolve ref
        if c.mayOrderBy opts support f ref then return some ⟨.column (m.column f), direction⟩
        else return none
      else return none
  | .literal literal => do return some ⟨← c.expr opts literal, direction⟩

/-- The ORDER BY clause of a query. -/
def orderTerms (c : Composer) (opts : Options) (support : OrderSupport) (scope : Scope)
    (q : Query) : Except Error (List Sql.OrderTerm) := do
  return (← q.order.mapM (c.orderTerm opts support scope)).filterMap id

/-- The expression of an entry to group by. -/
def groupExpr (c : Composer) (opts : Options) : OrderExpr → Except Error Sql.Expr
  | .field ref => do return .column (← c.columnOf ref true)
  | .literal literal => c.expr opts literal

/-- The GROUP BY clause of a query. A clause whose text is empty is none. -/
def groupExprs (c : Composer) (opts : Options) (q : Query) : Except Error (List Sql.Expr) := do
  let exprs ← q.groupBy.mapM (c.groupExpr opts)
  return if ", ".intercalate (exprs.map (·.text c.dialect)) = "" then [] else exprs

/-- The statements that take a row count but no offset. -/
def rowCountOnly : StatementKind → Option String
  | .update => some "UPDATE"
  | .delete => some "DELETE"
  | .select | .insert | .ddl => none

/-- The limit and offset of a query. A nested query has only the ones its caller forces on it, and
so has a statement that the dialect does not limit. An offset without a limit needs the row count
that does not limit. -/
def rowLimit (c : Composer) (opts : Options) (q : Query) : Except Error Sql.RowLimit :=
  let asked := !opts.isSubQuery && c.dialect.limitSupport opts
  let limit := opts.forceLimit.or (if asked then q.limit?.map Limit.rows else none)
  let offset := opts.forceOffset.or (if asked then q.offset? else none)
  match if opts.isSubQuery then none else rowCountOnly opts.statement, offset with
  | some statement, some _ =>
      throw (.unsupportedFeature (.offsetInStatement c.dialect.name statement))
  | _, none => return ⟨limit, none⟩
  | _, some n => return ⟨some (limit.getD .unbounded), some n⟩

end Composer

end SqlCompose
