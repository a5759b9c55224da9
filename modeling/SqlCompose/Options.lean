import SqlCompose.OrderedMap

/-!
# Options

Settings of one call, passed down to every part of a statement. A derived handle changes some
settings and keeps the others. `Options.nested` is the handle for a SELECT inside the
statement: settings that describe the enclosing statement's own SELECT list, limits and order
direction do not reach it.
-/

namespace SqlCompose

/-- The kind of statement being composed. -/
inductive StatementKind
  | select
  | insert
  | update
  | delete
  | ddl
deriving DecidableEq, Repr, Inhabited

/-- A row count, or the dialect's spelling of "no limit". -/
inductive Limit
  | rows (n : Nat)
  | unbounded
deriving DecidableEq, Repr

/-- Settings of one call. -/
structure Options where
  statement : StatementKind := .select
  /-- A SELECT nested in another statement is being composed. -/
  isSubQuery : Bool := false
  /-- A limit that holds even in a nested SELECT. -/
  forceLimit : Option Limit := none
  /-- An offset that holds even in a nested SELECT. -/
  forceOffset : Option Nat := none
  /-- The SELECT list of the statement being composed, by key. -/
  projectionFields : Option (OrderedMap String) := none
  /-- Text in place of the SELECT list. -/
  selectList : Option String := none
  /-- Leaves out ` AS ...`. -/
  noProjectionAliases : Bool := false
  /-- A literal inside another literal is being composed. -/
  subField : Bool := false
  /-- Flips every direction of the ORDER BY clause. -/
  reverseOrder : Bool := false
  /-- Gives each definition of a CREATE TABLE a line of its own. -/
  newlines : Bool := false
  ifNotExists : Bool := false
  ifExists : Bool := false
  cascade : Bool := false
  concurrently : Bool := false
  /-- Hands out the resolved SELECT list beside the statement. -/
  returnFieldProjection : Bool := false
  /-- Fields to return from INSERT, UPDATE and DELETE. -/
  returning : Option (List String) := none
  /-- Alias of the table in a DELETE through joins. -/
  tableAlias : Option String := none
  /-- Permits to order by columns outside the SELECT list. -/
  allowUnprojectedOrder : Bool := false
  /-- A SELECT DISTINCT is being composed. -/
  distinct : Bool := false

namespace Options

/-- The options for a SELECT nested in the statement at hand. -/
def nested (o : Options) : Options :=
  { o with
    statement := .select
    isSubQuery := true
    forceLimit := none
    forceOffset := none
    projectionFields := none
    selectList := none
    returnFieldProjection := false
    reverseOrder := false
    distinct := false
    subField := false }

/-- The options without aliases in the SELECT list. -/
def withoutAliases (o : Options) : Options := { o with noProjectionAliases := true }

/-- Whether a literal shows its alias. -/
def aliased (o : Options) : Bool := !o.subField && !o.noProjectionAliases

end Options

end SqlCompose
