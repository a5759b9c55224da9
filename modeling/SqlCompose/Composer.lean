import SqlCompose.Config
import SqlCompose.Sql.Expr

/-!
# Composers

A composer holds what statements are composed against: schema, dialect and configuration. It keeps
no state. Here it resolves fields to columns and literals to expressions.
-/

namespace SqlCompose

/-- What statements are composed against. -/
structure Composer where
  schema : Schema
  dialect : Dialect
  config : Config

/-- The qualified column of a field. -/
def Model.column (m : Model) (f : Field) : Sql.Column := ⟨m.table, f.column, true⟩

namespace Composer

/-- The column that a reference names. -/
def columnOf (c : Composer) (ref : FieldRef) (quoted : Bool) : Except Error Sql.Column := do
  let (m, f) ← c.schema.resolve ref
  return { m.column f with quoted := quoted }

mutual

/-- The expression of a literal; `nested` says that it stands inside another one. -/
def literalExpr (c : Composer) (nested : Bool) : Literal → Except Error Sql.Expr
  | ⟨kind, _, escape⟩ => c.kindExpr nested escape kind

/-- The expression of what a literal stands for. A DISTINCT inside an aggregate is plain, elsewhere
it is a DISTINCT ON, which the dialect has to support. -/
def kindExpr (c : Composer) (nested escape : Bool) : LiteralKind → Except Error Sql.Expr
  | .raw sql => .ok (.raw sql)
  | .field (.literal inner) => c.literalExpr nested inner
  | .field (.field ref) => do return .column (← c.columnOf ref escape)
  | .countAll => .ok .countAll
  | .aggregate function operand => do
      return .aggregate function (← c.operandExpr escape operand)
  | .distinctAll => .ok .distinctAll
  | .distinct operand => do
      let argument ← c.operandExpr escape operand
      if nested then return .distinct argument
      else if c.dialect.capability.distinctOn then return .distinctOn argument
      else throw (.unsupportedFeature (.distinctOn c.dialect.name))

/-- The expression of what a literal wraps. -/
def operandExpr (c : Composer) (escape : Bool) : LiteralOperand → Except Error Sql.Expr
  | .field ref => do return .column (← c.columnOf ref escape)
  | .literal inner => c.literalExpr true inner

end

end Composer

mutual

/-- The alias that a literal shows in a SELECT list: its own, for a field literal by default the
name of the field. A field literal around another one shows the alias of the inner one, and
DISTINCT shows none. -/
def Literal.shownAlias : Literal → Option String
  | ⟨kind, label, _⟩ => kind.shownAlias label

/-- The alias shown for what a literal stands for. -/
def LiteralKind.shownAlias (label : Option String) : LiteralKind → Option String
  | .field operand => operand.shownAlias label
  | .raw _ | .countAll | .aggregate _ _ => label
  | .distinctAll | .distinct _ => none

/-- The alias shown for the operand of a field literal. -/
def LiteralOperand.shownAlias (label : Option String) : LiteralOperand → Option String
  | .field ref => some (label.getD ref.text)
  | .literal inner => inner.shownAlias

end

namespace Composer

/-- The expression of a literal, without alias. -/
def expr (c : Composer) (opts : Options) (literal : Literal) : Except Error Sql.Expr :=
  c.literalExpr opts.subField literal

/-- A literal as an entry of a SELECT list. -/
def item (c : Composer) (opts : Options) (literal : Literal) : Except Error Sql.Item := do
  return ⟨← c.expr opts literal, if opts.aliased then literal.shownAlias else none⟩

/-- The columns to return from a statement, if any are asked for. -/
def returning (c : Composer) (m : Model) (opts : Options) : Except Error (Option (List String)) :=
  match opts.returning with
  | none => return none
  | some names =>
      if c.dialect.capability.returning then do
        let columns ← names.mapM fun name => do return (← m.field name).column
        return some columns
      else throw (.unsupportedFeature (.returning c.dialect.name))

end Composer

end SqlCompose
