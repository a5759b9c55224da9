import SqlCompose.Number.Layout
import SqlCompose.Number.Reading
import SqlCompose.Schema.ColumnType
import SqlCompose.Text.Character
import SqlCompose.Value

/-!
# Coercion to column types

A value is brought to the kind that a column type stores, where that is possible. A list compared
with a column is normalised: each entry is coerced, entries that cannot be are dropped, and of
equal ones the first stays.
-/

namespace SqlCompose

/-- The truth value that a text spells. -/
def readTruth (s : String) : Option Bool :=
  if s = "true" ∨ s = "TRUE" ∨ s = "t" ∨ s = "1" then some true
  else if s = "false" ∨ s = "FALSE" ∨ s = "f" ∨ s = "0" then some false
  else none

/-- The bytes of a text in UTF-8. -/
def utf8Bytes (s : String) : List UInt8 := s.toList.flatMap String.utf8EncodeChar

namespace ColumnType

/-- The truth value that a value stands for. -/
def toTruth : Value → Option Value
  | .bool b => some (.bool b)
  | .int n => if n = 0 then some (.bool false) else if n = 1 then some (.bool true) else none
  | .string s => (readTruth s).map .bool
  | _ => none

/-- The integer that a value stands for; a double must have no fraction. -/
def toInteger : Value → Option Value
  | .int n => some (.int n)
  | .bool b => some (.int (if b then 1 else 0))
  | .double x => if x.isIntegral then some (.int x.toInt64Clamped) else none
  | .string s => (Number.readInt64 (Character.trim s.toList)).map .int
  | _ => none

/-- The double that a value stands for. -/
def toDouble : Value → Option Value
  | .double x => some (.double x)
  | .int n => some (.double (.ofInt n.toInt))
  | .string s => (Number.readDouble (Character.trim s.toList)).map .double
  | _ => none

/-- The text that a value stands for. -/
def toText : Value → Option Value
  | .string s => some (.string s)
  | .int n => some (.string (toString n.toInt))
  | .double x => some (.string (NumberLayout.plain.write x))
  | _ => none

/-- The bytes that a value stands for. -/
def toBytes : Value → Option Value
  | .bytes data => some (.bytes data)
  | .string s => some (.bytes (utf8Bytes s))
  | _ => none

/-- Brings a single value that is not null to the kind that a type stores. -/
def coerceScalar (type : ColumnType) (v : Value) : Option Value :=
  match type with
  | .boolean => toTruth v
  | .integer _ => toInteger v
  | .float _ | .numeric _ _ => toDouble v
  | .text | .varchar _ => toText v
  | .blob => toBytes v
  | .uuid | .date | .time | .datetime | .json | .custom _ => some v

/-- Brings a value to the kind that a type stores. Null is of every type and a list of none. -/
def coerce (type : ColumnType) (v : Value) : Option Value :=
  match v with
  | .null => some .null
  | .list _ => none
  | scalar => type.coerceScalar scalar

/-- The entries that differ from all kept before them. -/
def keepFirst (kept : List Value) : List Value → List Value
  | [] => []
  | v :: rest =>
      if kept.any (·.equal v) then keepFirst kept rest
      else v :: keepFirst (kept ++ [v]) rest

/-- The coerced entries of a list without repetitions, in order. -/
def normalize (type : ColumnType) (values : List Value) : List Value :=
  keepFirst [] (values.filterMap type.coerce)

end ColumnType

end SqlCompose
