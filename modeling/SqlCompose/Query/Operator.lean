import SqlCompose.Error

/-!
# Comparison operators and connectors

`Operator.invert` is the operator of the negated comparison; `ofName?_name` says that an operator
is read back from its name.
-/

namespace SqlCompose

/-- A comparison operator. -/
inductive Operator
  | eq
  | ne
  | gt
  | ge
  | lt
  | le
  | like
  | notLike
  | rowExists
  | noRowExists
deriving DecidableEq, Repr

/-- Joins a condition to the ones before it. -/
inductive Connector
  | and
  | or
deriving DecidableEq, Repr, Inhabited

/-- Compares a column with some or with every row of a sub-select. -/
inductive Quantifier
  | any
  | all
deriving DecidableEq, Repr

namespace Operator

/-- The operator of the negated comparison. -/
def invert : Operator → Operator
  | eq => ne
  | ne => eq
  | gt => le
  | ge => lt
  | lt => ge
  | le => gt
  | like => notLike
  | notLike => like
  | rowExists => noRowExists
  | noRowExists => rowExists

def isEquality : Operator → Bool
  | eq | ne => true
  | _ => false

def isLike : Operator → Bool
  | like | notLike => true
  | _ => false

def isExists : Operator → Bool
  | rowExists | noRowExists => true
  | _ => false

/-- The name under which an application gives the operator. -/
def name : Operator → String
  | eq => "EQ"
  | ne => "NEQ"
  | gt => "GT"
  | ge => "GTE"
  | lt => "LT"
  | le => "LTE"
  | like => "LIKE"
  | notLike => "NOT_LIKE"
  | rowExists => "EXISTS"
  | noRowExists => "NOT_EXISTS"

/-- The operators in the order of their definition. -/
def all : List Operator := [eq, ne, gt, ge, lt, le, like, notLike, rowExists, noRowExists]

/-- The operator with a name. -/
def ofName? (text : String) : Option Operator := all.find? fun op => op.name == text

/-- Reads an operator name. -/
def parse (text : String) : Except Error Operator :=
  match ofName? text with
  | some op => .ok op
  | none => .error (.invalidOperator text "" .unknownName)

/-- The spelling in a statement. -/
def sql : Operator → String
  | eq => "="
  | ne => "!="
  | gt => ">"
  | ge => ">="
  | lt => "<"
  | le => "<="
  | like => "LIKE"
  | notLike => "NOT LIKE"
  | rowExists => "EXISTS"
  | noRowExists => "NOT EXISTS"

@[simp] theorem invert_invert (op : Operator) : op.invert.invert = op := by cases op <;> rfl

@[simp] theorem isExists_invert (op : Operator) : op.invert.isExists = op.isExists := by
  cases op <;> rfl

@[simp] theorem isLike_invert (op : Operator) : op.invert.isLike = op.isLike := by
  cases op <;> rfl

@[simp] theorem isEquality_invert (op : Operator) : op.invert.isEquality = op.isEquality := by
  cases op <;> rfl

theorem ofName?_name (op : Operator) : ofName? op.name = some op := by cases op <;> decide

end Operator

def Connector.sql : Connector → String
  | and => "AND"
  | or => "OR"

def Quantifier.sql : Quantifier → String
  | any => "ANY"
  | all => "ALL"

end SqlCompose
