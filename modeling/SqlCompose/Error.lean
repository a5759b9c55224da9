import SqlCompose.Schema.FieldRef

/-!
# Errors

A statement is refused for one of four kinds of reason. Each kind has its causes, which carry
the names involved; `Error.message` is the only place that puts them into words.
-/

namespace SqlCompose

/-- Why a comparison operator cannot be used. -/
inductive OperatorFault
  | unknownName
  | comparesColumns (column : FieldRef)
  | valueNotString
  | onSubSelect
  | needsNestedQuery
  | onList
  | emptyList
  | needsString
  | onNull
  /-- A reason in an application's own words. -/
  | other (reason : String)
deriving DecidableEq, Repr

/-- Why model metadata makes no consistent statement. -/
inductive SchemaFault
  | alreadyRegistered (model : String)
  /-- Joined models that wait for each other, in order of appearance. -/
  | joinCycle (models : List String)
  | other (reason : String)
deriving DecidableEq, Repr

/-- Why a query or statement has no valid shape. -/
inductive StatementFault
  | unknownModel (model : String)
  | unknownField (model field : String)
  | joinWithoutTarget (nested : String) (field : FieldRef)
  | selfJoin (root : String)
  | unjoinedModel (model joined : String)
  | nothingToSelect (nested : String)
  | wrongModel (record model : String)
  | emptyIndex (model : String)
  | joinedDeleteWithoutKey (model : String)
  | emptyOrder (spec : String)
  | unknownDirection (word : String)
  | other (reason : String)
deriving DecidableEq, Repr

/-- An attribute of a column that a migration may change. -/
inductive ColumnAttribute
  | nullability
  | default
  | type
  | primaryKey
  | uniqueness
deriving DecidableEq, Repr

def ColumnAttribute.text : ColumnAttribute → String
  | .nullability => "nullability"
  | .default => "default"
  | .type => "type"
  | .primaryKey => "primary key"
  | .uniqueness => "uniqueness"

/-- What a dialect, named by its name, does not support. -/
inductive MissingFeature
  | offsetInStatement (dialect statement : String)
  | fullJoin (dialect : String)
  | distinctOn (dialect : String)
  | returning (dialect : String)
  | joinedUpdate (model : String)
  | alterColumn (dialect : String) (changed : ColumnAttribute) (table column : String)
  | createIndexConcurrently (dialect : String)
  | createIndexIfNotExists (dialect : String)
  | dropIndexConcurrently (dialect : String)
  | other (reason : String)
deriving DecidableEq, Repr

/-- Why a statement is refused. -/
inductive Error
  /-- A misused operator. The field is empty where none is known. -/
  | invalidOperator (operator field : String) (fault : OperatorFault)
  | invalidSchema (fault : SchemaFault)
  | invalidStatement (fault : StatementFault)
  | unsupportedFeature (feature : MissingFeature)
deriving DecidableEq, Repr

/-- The four kinds of refusal. -/
inductive ErrorKind
  | invalidOperator
  | invalidSchema
  | invalidStatement
  | unsupportedFeature
deriving DecidableEq, Repr

/-- Names in error texts stand between grave accents. -/
def quoteName (name : String) : String := "`" ++ name ++ "`"

def OperatorFault.message : OperatorFault → String
  | .unknownName => "unknown comparison operator"
  | .comparesColumns column => "cannot compare two columns (" ++ quoteName column.text ++ ")"
  | .valueNotString => "the value is not a string"
  | .onSubSelect => "cannot be applied to a sub-select"
  | .needsNestedQuery => "requires a nested query"
  | .onList => "cannot be applied to a list"
  | .emptyList => "the value list is empty"
  | .needsString => "requires a string value"
  | .onNull => "cannot be compared with NULL"
  | .other reason => reason

def SchemaFault.message : SchemaFault → String
  | .alreadyRegistered model => "model " ++ quoteName model ++ " is already registered"
  | .joinCycle models => "join dependency cycle between models " ++ ", ".intercalate models
  | .other reason => reason

def StatementFault.message : StatementFault → String
  | .unknownModel model => "model " ++ quoteName model ++ " is not registered"
  | .unknownField model field => "model " ++ quoteName model ++ " has no field " ++ quoteName field
  | .joinWithoutTarget nested field =>
      "cannot join " ++ quoteName nested ++ " on " ++ quoteName field.text ++
        ": the nested query has no target field"
  | .selfJoin root => "cannot join model " ++ quoteName root ++ " to itself"
  | .unjoinedModel model joined =>
      "model " ++ quoteName model ++ " is referenced by a join on " ++ quoteName joined ++
        " but is neither the root model nor joined"
  | .nothingToSelect nested =>
      "nested query on model " ++ quoteName nested ++ " has no target field to select"
  | .wrongModel record model =>
      "cannot write a " ++ quoteName record ++ " instance to model " ++ quoteName model
  | .emptyIndex model => "an index on model " ++ quoteName model ++ " needs at least one field"
  | .joinedDeleteWithoutKey model =>
      "cannot delete from model " ++ quoteName model ++ " through joins: it has no primary key"
  | .emptyOrder spec => "order specification " ++ quoteName spec ++ " names no field"
  | .unknownDirection word => "unknown order direction " ++ quoteName word
  | .other reason => reason

def MissingFeature.message : MissingFeature → String
  | .offsetInStatement dialect statement =>
      dialect ++ " does not support OFFSET in " ++ statement ++ " statements"
  | .fullJoin dialect => "FULL JOIN is not supported by " ++ dialect
  | .distinctOn dialect => "DISTINCT ON is not supported by " ++ dialect
  | .returning dialect => "RETURNING is not supported by " ++ dialect
  | .joinedUpdate model => "UPDATE of model " ++ quoteName model ++ " with joins"
  | .alterColumn dialect changed table column =>
      dialect ++ " cannot alter the " ++ changed.text ++ " of column " ++ quoteName table ++
        "." ++ quoteName column
  | .createIndexConcurrently dialect =>
      "CREATE INDEX CONCURRENTLY is not supported by " ++ dialect
  | .createIndexIfNotExists dialect =>
      "CREATE INDEX IF NOT EXISTS is not supported by " ++ dialect
  | .dropIndexConcurrently dialect => "DROP INDEX CONCURRENTLY is not supported by " ++ dialect
  | .other reason => reason

namespace Error

/-- The kind of a refusal. -/
def kind : Error → ErrorKind
  | .invalidOperator .. => .invalidOperator
  | .invalidSchema _ => .invalidSchema
  | .invalidStatement _ => .invalidStatement
  | .unsupportedFeature _ => .unsupportedFeature

/-- A refusal in words. -/
def message : Error → String
  | .invalidOperator operator field fault =>
      "invalid operator " ++ operator ++ (if field = "" then "" else " on " ++ field) ++ ": " ++
        fault.message
  | .invalidSchema fault => "invalid schema: " ++ fault.message
  | .invalidStatement fault => "invalid statement: " ++ fault.message
  | .unsupportedFeature feature => "unsupported feature: " ++ feature.message

end Error

end SqlCompose
