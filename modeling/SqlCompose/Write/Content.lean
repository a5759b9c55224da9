import SqlCompose.Composer
import SqlCompose.Sql.Write

/-!
# Contents of columns

What a record and the defaults of its model put into a column: a value, which the column coerces,
or SQL text.
-/

namespace SqlCompose

/-- What is put into a column. -/
inductive Content
  | value (v : Value)
  | raw (sql : String)
deriving Repr

/-- Content in a column of a type. -/
def Content.cell (content : Content) (type : ColumnType) : Sql.Cell :=
  match content with
  | .value v => .value v type
  | .raw sql => .raw sql

namespace Composer

/-- The content of a computed default, if there is one that applies to the event. A default that
yields SQL text gives its string as it is and any other value as a literal. -/
def computedContent (c : Composer) (f : Field) (record : Option Record) (event : DefaultEvent) :
    Option Content :=
  match f.default with
  | some (.computed computed) =>
      if computed.appliesTo event then
        let v := computed.value ⟨event, f.ref, record⟩
        if computed.flags.literal then
          match v with
          | .string sql => some (.raw sql)
          | other => some (.raw (c.dialect.value other (some f.type)))
        else some (.value v)
      else none
  | _ => none

/-- Checks that a record is one of a model and changes only fields of it. -/
def checkRecord (m : Model) (record : Record) : Except Error Unit :=
  if record.model = m.name then
    match record.changes.find? fun change => (m.field? change.field).isNone with
    | some change => throw (.invalidStatement (.unknownField m.name change.field))
    | none => return ()
  else throw (.invalidStatement (.wrongModel record.model m.name))

end Composer

end SqlCompose
