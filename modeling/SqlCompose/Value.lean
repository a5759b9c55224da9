import SqlCompose.Number.Binary64

/-!
# Values

A value is compared with a column or written into one. Two values are equal when they are of
one kind and agree, doubles as numbers: a NaN equals nothing, itself included.
-/

namespace SqlCompose

/-- A value compared with, or written into, a column. -/
inductive Value
  | null
  | bool (b : Bool)
  | int (n : Int64)
  | double (x : Binary64)
  | string (s : String)
  | bytes (data : List UInt8)
  /-- Compared as a list of alternatives. -/
  | list (values : List Value)
deriving Repr, Inhabited

namespace Value

mutual

/-- Equality of values. -/
def equal : Value → Value → Bool
  | .null, .null => true
  | .bool a, .bool b => a == b
  | .int a, .int b => a == b
  | .double a, .double b => a.equal b
  | .string a, .string b => a == b
  | .bytes a, .bytes b => a == b
  | .list a, .list b => equalLists a b
  | _, _ => false

/-- Equality of lists of values, entry by entry. -/
def equalLists : List Value → List Value → Bool
  | [], [] => true
  | a :: as, b :: bs => a.equal b && equalLists as bs
  | _, _ => false

end

/-- The null value. -/
def isNull : Value → Bool
  | .null => true
  | _ => false

/-- A list of values. -/
def isList : Value → Bool
  | .list _ => true
  | _ => false

/-- Null and the truth values, which `IS` compares. -/
def isSpecial : Value → Bool
  | .null | .bool _ => true
  | _ => false

/-- The text of a string value. -/
def asString? : Value → Option String
  | .string s => some s
  | _ => none

/-- The entries of a list value. -/
def asList? : Value → Option (List Value)
  | .list values => some values
  | _ => none

end Value

end SqlCompose
