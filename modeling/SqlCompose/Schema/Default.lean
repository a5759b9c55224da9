import SqlCompose.Query.Literal
import SqlCompose.Record
import SqlCompose.Schema.FieldRef

/-!
# Default values

How a field obtains a value when none was assigned: a value, a literal, or a computation that
runs when a statement is composed. Flags say for which statements it runs.
-/

namespace SqlCompose

/-- When a computed default applies, and whether it yields SQL text. -/
structure DefaultFlags where
  onInsert : Bool := false
  onUpdate : Bool := false
  /-- The database computes the value; the computation serves the column definition only. -/
  remote : Bool := false
  /-- A string that is computed is written without escaping. -/
  literal : Bool := false
deriving DecidableEq, Repr, Inhabited

namespace DefaultFlags

/-- Evaluated for inserts. -/
def inserting : DefaultFlags := { onInsert := true }

/-- Evaluated for inserts and updates. -/
def updating : DefaultFlags := { onInsert := true, onUpdate := true }

/-- Left to the database. -/
def inDatabase : DefaultFlags := { remote := true }

end DefaultFlags

/-- Why a default is evaluated. -/
inductive DefaultEvent
  | insert
  | update
  /-- A column definition is written. -/
  | define
deriving DecidableEq, Repr

/-- What a computation may look at. There is no record when a column is defined. -/
structure DefaultContext where
  event : DefaultEvent
  field : FieldRef
  record : Option Record

/-- A default computed for the statement at hand. -/
structure ComputedDefault where
  flags : DefaultFlags
  value : DefaultContext → Value

/-- Whether the default is evaluated for an event. -/
def ComputedDefault.appliesTo (computed : ComputedDefault) : DefaultEvent → Bool
  | .insert => computed.flags.onInsert && !computed.flags.remote
  | .update => computed.flags.onUpdate && !computed.flags.remote
  | .define => computed.flags.remote

/-- How a field obtains a value when none was assigned. -/
inductive DefaultValue
  | value (v : Value)
  | literal (inner : Literal)
  | computed (rule : ComputedDefault)

end SqlCompose
