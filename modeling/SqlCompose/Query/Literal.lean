import SqlCompose.Schema.FieldRef

/-!
# Literals

A literal is a fragment of SQL that is no plain value: text written as it is, a field, or an
aggregate over one of them.
-/

namespace SqlCompose

/-- The aggregate functions. -/
inductive Aggregate
  | count
  | sum
  | avg
  | min
  | max
deriving DecidableEq, Repr

def Aggregate.sql : Aggregate → String
  | count => "COUNT"
  | sum => "SUM"
  | avg => "AVG"
  | min => "MIN"
  | max => "MAX"

mutual

/-- A literal with the alias it has in a SELECT list. Without `escape` the names of its own field
are written unquoted. -/
structure Literal where
  kind : LiteralKind
  label : Option String
  escape : Bool

/-- What a literal stands for. -/
inductive LiteralKind
  | raw (sql : String)
  | field (operand : LiteralOperand)
  | countAll
  | aggregate (function : Aggregate) (operand : LiteralOperand)
  /-- The bare keyword `DISTINCT`. -/
  | distinctAll
  | distinct (operand : LiteralOperand)

/-- What a literal wraps. -/
inductive LiteralOperand
  | field (ref : FieldRef)
  | literal (inner : Literal)

end

mutual

/-- The field that a literal refers to in the end. -/
def Literal.fieldRef? : Literal → Option FieldRef
  | ⟨kind, _, _⟩ => kind.fieldRef?

/-- The field at the bottom of a literal's nesting. -/
def LiteralKind.fieldRef? : LiteralKind → Option FieldRef
  | .raw _ | .countAll | .distinctAll => none
  | .field operand | .aggregate _ operand | .distinct operand => operand.fieldRef?

/-- The field at the bottom of an operand's nesting. -/
def LiteralOperand.fieldRef? : LiteralOperand → Option FieldRef
  | .field ref => some ref
  | .literal inner => inner.fieldRef?

end

mutual

/-- Equality of literals. -/
def Literal.equal : Literal → Literal → Bool
  | ⟨kind, label, escape⟩, other =>
      kind.equal other.kind && label == other.label && escape == other.escape

/-- Equality of what literals stand for. -/
def LiteralKind.equal : LiteralKind → LiteralKind → Bool
  | .raw a, .raw b => a == b
  | .field a, .field b => a.equal b
  | .countAll, .countAll => true
  | .aggregate f a, .aggregate g b => f == g && a.equal b
  | .distinctAll, .distinctAll => true
  | .distinct a, .distinct b => a.equal b
  | _, _ => false

/-- Equality of wrapped operands. -/
def LiteralOperand.equal : LiteralOperand → LiteralOperand → Bool
  | .field a, .field b => a == b
  | .literal a, .literal b => a.equal b
  | _, _ => false

end

namespace Literal

/-- A literal without alias whose names are quoted. -/
def of (kind : LiteralKind) : Literal := ⟨kind, none, true⟩

/-- A field literal, possibly around another literal. -/
def isField (literal : Literal) : Bool :=
  match literal.kind with
  | .field _ => true
  | _ => false

/-- Text written as it is. -/
def isRaw (literal : Literal) : Bool :=
  match literal.kind with
  | .raw _ => true
  | _ => false

end Literal

end SqlCompose
