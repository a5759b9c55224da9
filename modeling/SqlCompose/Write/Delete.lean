import SqlCompose.Write.Update

/-!
# DELETE statements

Without conditions every row goes; conditions become the WHERE clause. Most databases cannot join
inside a DELETE, so a query with joins becomes a correlated EXISTS over an alias of the table, tied
to it by the primary key.
-/

namespace SqlCompose

namespace Composer

/-- The rows that a query without joins restricts a deletion to. -/
def deleteRestriction (c : Composer) (opts : Options) (q : Query) :
    Except Error Sql.Restriction := do
  let filter ← c.filter opts q
  let orderBy ←
    if (c.dialect.orderSupport opts).isAllowed then do
      let scope ← c.scope q (← JoinPlan.ofQuery q)
      c.plainOrder opts q scope
    else pure []
  let rows ← c.rowLimit opts q
  return ⟨filter, orderBy, rows⟩

/-- The alias of the table whose rows a joined deletion removes. -/
def deleteAlias (opts : Options) (m : Model) : String := opts.tableAlias.getD ("_" ++ m.table)

/-- The options for the SELECT of a joined deletion, which keeps the limit of the query. -/
def matchedOptions (opts : Options) (q : Query) : Options :=
  { opts.nested with
    selectList := some "1"
    forceLimit := some ((q.limit?.map Limit.rows).getD .unbounded) }

/-- The rows that a query with joins matches. -/
def joinedTarget (c : Composer) (opts : Options) (m : Model) (q : Query) :
    Except Error Sql.DeleteTarget := do
  match m.primaryKey? with
  | none => throw (.invalidStatement (.joinedDeleteWithoutKey m.name))
  | some key =>
      let label := deleteAlias opts m
      let correlation : Sql.Correlation := ⟨⟨label, key.column, true⟩, m.column key⟩
      let (_, inner) ← c.selectTree (matchedOptions opts q) (some correlation) q
      return .matched label inner

/-- The rows that a query selects for deletion. -/
def deleteTarget (c : Composer) (opts : Options) (m : Model) (q : Option Query) :
    Except Error Sql.DeleteTarget := do
  match q with
  | none => return .rows {}
  | some q =>
      if q.hasJoins then c.joinedTarget opts m q
      else if q.hasCondition then return .rows (← c.deleteRestriction opts q)
      else return .rows {}

/-- The DELETE of the rows that a query matches. -/
def deleteTree (c : Composer) (opts : Options) (model : String) (q : Option Query) :
    Except Error Sql.Delete := do
  let m ← c.schema.model model
  let opts := { opts with statement := .delete, noProjectionAliases := true }
  let target ← c.deleteTarget opts m q
  let returning ← c.returning m opts
  return ⟨m.table, target, ⟨none, returning⟩⟩

/-- The text of the DELETE of the rows that a query matches. -/
def delete (c : Composer) (opts : Options) (model : String) (q : Option Query) :
    Except Error String := do
  return (← c.deleteTree opts model q).text c.dialect

end Composer

end SqlCompose
