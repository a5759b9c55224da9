import SqlCompose.Text.Json

/-!
# Configuration

Settings that stay fixed over all calls, read from a JSON object. Each key is optional and keys
without a meaning are skipped; a known key with a value of the wrong kind, or a known key twice,
makes the text invalid.
-/

namespace SqlCompose

/-- What becomes of a comparison with a list that is empty after normalisation. -/
inductive EmptyListPolicy
  /-- The statement is refused. -/
  | refuse
  /-- The comparison is left out. -/
  | elide
deriving DecidableEq, Repr

/-- Settings that stay fixed over all calls. -/
structure Config where
  emptyList : EmptyListPolicy := .refuse
  /-- Drops a condition that reads like the one just before it. -/
  dedupeConditions : Bool := true
  /-- The start of generated index names. -/
  indexStem : String := "idx"
deriving DecidableEq, Repr

namespace Config

/-- The policy with a name. -/
def policy? : String → Option EmptyListPolicy
  | "error" => some .refuse
  | "elide" => some .elide
  | _ => none

/-- The value under a key that may occur at most once. -/
def member? (key : String) (members : List (String × Json)) : Option (Option Json) :=
  match members.filter fun entry => entry.1 == key with
  | [] => some none
  | [entry] => some (some entry.2)
  | _ => none

/-- Reads the value of a key, if it is there. -/
def readMember {α : Type} (members : List (String × Json)) (key : String) (fallback : α)
    (read : Json → Option α) : Option α := do
  match ← member? key members with
  | none => some fallback
  | some value => read value

/-- The settings that an object gives. -/
def ofMembers (members : List (String × Json)) : Option Config := do
  let base : Config := {}
  let emptyList ← readMember members "empty_in_list" base.emptyList fun
    | .string (some text) => policy? text
    | _ => none
  let dedupe ← readMember members "dedupe_conditions" base.dedupeConditions fun
    | .bool b => some b
    | _ => none
  let stem ← readMember members "index_prefix" base.indexStem fun
    | .string text => text
    | _ => none
  return { emptyList := emptyList, dedupeConditions := dedupe, indexStem := stem }

/-- Reads the settings from JSON text. -/
def parse (text : String) : Option Config :=
  match Json.parse text with
  | some (.object members) => ofMembers members
  | _ => none

end Config

end SqlCompose
