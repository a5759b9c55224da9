/-!
# Column types

What a column stores. A dialect decides how each type is spelled.
-/

namespace SqlCompose

/-- The storage type of a column. -/
inductive ColumnType
  | boolean
  /-- A signed integer of so many bytes. -/
  | integer (size : Nat)
  /-- A floating point number of so many bytes. -/
  | float (size : Nat)
  | numeric (precision scale : Nat)
  | text
  /-- Text of at most so many characters. -/
  | varchar (length : Nat)
  | blob
  | uuid
  | date
  | time
  | datetime
  | json
  /-- A type name written as it is. -/
  | custom (name : String)
deriving DecidableEq, Repr, Inhabited

namespace ColumnType

def isInteger : ColumnType → Bool
  | .integer _ => true
  | _ => false

def isText : ColumnType → Bool
  | .text | .varchar _ => true
  | _ => false

end ColumnType

end SqlCompose
