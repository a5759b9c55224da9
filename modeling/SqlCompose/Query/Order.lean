import SqlCompose.Error
import SqlCompose.Query.Literal

/-!
# Order entries

What to order or group by, and order specifications such as `-age` or `+User:name`: a sign and
a field, whose model is the default one unless it stands before the first colon.
-/

namespace SqlCompose

/-- The direction of an order entry. -/
inductive Direction
  | asc
  | desc
deriving DecidableEq, Repr, Inhabited

namespace Direction

/-- The opposite direction. -/
def reverse : Direction → Direction
  | asc => desc
  | desc => asc

def sql : Direction → String
  | asc => "ASC"
  | desc => "DESC"

/-- The sign of a direction in an order specification. -/
def sign : Direction → String
  | asc => "+"
  | desc => "-"

/-- Reads a sign, or the SQL word in upper or lower case. -/
def parse (text : String) : Except Error Direction :=
  if text = "+" ∨ text = "ASC" ∨ text = "asc" then .ok asc
  else if text = "-" ∨ text = "DESC" ∨ text = "desc" then .ok desc
  else .error (.invalidStatement (.unknownDirection text))

@[simp] theorem reverse_reverse (d : Direction) : d.reverse.reverse = d := by cases d <;> rfl

end Direction

/-- Something to order or group by. -/
inductive OrderExpr
  | field (ref : FieldRef)
  | literal (inner : Literal)

/-- The field that an expression refers to in the end. -/
def OrderExpr.fieldRef? : OrderExpr → Option FieldRef
  | .field ref => some ref
  | .literal inner => inner.fieldRef?

/-- Equality of expressions. -/
def OrderExpr.equal : OrderExpr → OrderExpr → Bool
  | .field a, .field b => a == b
  | .literal a, .literal b => a.equal b
  | _, _ => false

/-- An expression with a direction. -/
structure OrderEntry where
  expr : OrderExpr
  direction : Direction

namespace OrderEntry

/-- Equality of entries. -/
def equal (a b : OrderEntry) : Bool := a.expr.equal b.expr && a.direction == b.direction

/-- The same expression in the opposite direction. -/
def reverse (entry : OrderEntry) : OrderEntry :=
  { entry with direction := entry.direction.reverse }

/-- The direction of a specification and what stands after the sign. -/
def splitSign : List Char → Direction × List Char
  | '+' :: name => (.asc, name)
  | '-' :: name => (.desc, name)
  | name => (.asc, name)

/-- The text before and after the first colon. -/
def splitColon : List Char → Option (List Char × List Char)
  | [] => none
  | ':' :: rest => some ([], rest)
  | c :: rest => (splitColon rest).map fun (before, after) => (c :: before, after)

/-- Reads an order specification; a field without a model belongs to the given one. -/
def parse (model spec : String) : Except Error OrderEntry :=
  let (direction, name) := splitSign spec.toList
  if name.isEmpty then .error (.invalidStatement (.emptyOrder spec))
  else
    let ref : FieldRef :=
      match splitColon name with
      | some (before, after) => ⟨String.ofList before, String.ofList after⟩
      | none => ⟨model, String.ofList name⟩
    .ok ⟨.field ref, direction⟩

end OrderEntry

end SqlCompose
