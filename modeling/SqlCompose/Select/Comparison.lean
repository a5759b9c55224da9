import SqlCompose.Select.JoinPlan

/-!
# Comparisons with values

NULL and the truth values are compared by `IS`, everything else by the operator. A list is split:
each special entry has a comparison of its own, the others share one `IN`, and the parts form one
operand.
-/

namespace SqlCompose

namespace Composer

/-- Refuses an operator on a field. -/
def refuse {α : Type} (op : Operator) (f : Field) (fault : OperatorFault) : Except Error α :=
  throw (.invalidOperator op.name f.fullName fault)

/-- The comparison of a field with a pattern, which has to be text. -/
def likeComparison (c : Composer) (m : Model) (f : Field) (op : Operator) (v : Value) :
    Except Error Sql.Comparison :=
  match v with
  | .string pattern =>
      return .compare (m.column f) op (.value (.string (c.dialect.likePattern pattern)) none)
        (c.dialect.comparisonTail f op)
  | _ => refuse op f .needsString

/-- The comparison of a field with a value that is no list. -/
def valueComparison (c : Composer) (m : Model) (f : Field) (op : Operator) (v : Value) :
    Except Error Sql.Comparison :=
  let right : Sql.Term := .value v (some f.type)
  let tail := c.dialect.comparisonTail f op
  if op.isLike then c.likeComparison m f op v
  else if op.isEquality && v.isSpecial then return .is (m.column f) (op == .ne) right tail
  else if v.isNull then refuse op f .onNull
  else return .compare (m.column f) op right tail

/-- The comparisons of a field with the entries of a normalised list: one for each special entry
and one for all others. -/
def listComparisons (c : Composer) (m : Model) (f : Field) (op : Operator) (values : List Value) :
    Except Error (List Sql.Comparison) := do
  let special ← (values.filter (·.isSpecial)).mapM (c.valueComparison m f op)
  let ordinary := values.filter fun v => !v.isSpecial
  if ordinary.isEmpty then return special
  else
    let entries := ordinary.map fun v => Sql.Term.value v (some f.type)
    return special ++ [.inList (m.column f) (op == .ne) entries]

/-- The comparison of a field with a list. An empty list is refused or left out, as configured. -/
def listCondition (c : Composer) (m : Model) (f : Field) (op : Operator) (values : List Value) :
    Except Error (Option Sql.Predicate) := do
  if op.isEquality then
    match ← c.listComparisons m f op (c.dialect.normalize f values) with
    | [] =>
        match c.config.emptyList with
        | .refuse => refuse op f .emptyList
        | .elide => return none
    | [part] => return some (.comparison part)
    | parts => return some (.combined (if op == .eq then .or else .and) parts)
  else refuse op f .onList

/-- The comparison of a field with another column. -/
def columnCondition (c : Composer) (m : Model) (f : Field) (op : Operator) (other : FieldRef) :
    Except Error Sql.Predicate := do
  if op.isLike then refuse op f (.comparesColumns other)
  else
    let right ← c.columnOf other true
    return .comparison
      (.compare (m.column f) op (.expr (.column right)) (c.dialect.comparisonTail f op))

/-- The comparison of a field with a literal. A pattern has to be raw text. -/
def literalCondition (c : Composer) (m : Model) (f : Field) (op : Operator) (literal : Literal) :
    Except Error Sql.Predicate := do
  match op.isLike, literal.fieldRef?, literal.isRaw with
  | true, some other, _ => refuse op f (.comparesColumns other)
  | true, none, false => refuse op f .valueNotString
  | _, _, _ =>
      let right ← c.literalExpr true literal
      return .comparison (.compare (m.column f) op (.expr right) none)

/-- The comparison of a field with a sub-select. -/
def selectPredicate (left : Sql.Column) (op : Operator) (quantifier : Option Quantifier)
    (inner : Sql.Select) : Sql.Predicate :=
  match quantifier, op with
  | none, .eq => .inSelect left false inner
  | none, .ne => .inSelect left true inner
  | _, _ => .compareSelect left op quantifier inner

end Composer

end SqlCompose
