import SqlCompose.Text.Character

/-!
# Words of a name

A name is cut into words at every character that is neither letter nor number, and inside a
piece where the letter case says so: between a lower-case and an upper-case letter (`fieldName`),
and before the last capital of a run that a lower-case letter follows (`HTTPServer`). The words
in lower case, joined by underscores, are the name of a column.
-/

namespace SqlCompose.Naming

open Character

/-- The case of the last cased letter of the word so far. -/
inductive CaseState
  | none
  | lower
  | upper
deriving DecidableEq, Repr

/-- The state after a character; digits and uncased letters keep it. -/
def CaseState.next (state : CaseState) (c : Char) : CaseState :=
  if isLowercase c then .lower else if isUppercase c then .upper else state

/-- Cuts a piece of letters and numbers into words. `word` holds the characters of the current
word so far. -/
def cutByCase (state : CaseState) (word : List Char) : List Char → List (List Char)
  | [] => []
  | [c] => [word ++ [c]]
  | c :: d :: rest =>
      if state.next c = .lower ∧ isUppercase d = true then
        (word ++ [c]) :: cutByCase .none [] (d :: rest)
      else if state = .upper ∧ isUppercase c = true ∧ isLowercase d = true then
        word :: cutByCase .none [c] (d :: rest)
      else
        cutByCase (state.next c) (word ++ [c]) (d :: rest)

/-- The maximal pieces without separators, empty ones included. -/
def pieces : List Char → List (List Char)
  | [] => [[]]
  | c :: rest =>
      if isAlphanumeric c then
        match pieces rest with
        | [] => [[c]]
        | first :: others => (c :: first) :: others
      else [] :: pieces rest

/-- The words of a name. -/
def words (name : List Char) : List (List Char) :=
  (pieces name).flatMap (cutByCase .none [])

/-- A word in lower case. A capital sigma at its end becomes the final small sigma. -/
def lowerWord : List Char → List Char
  | [] => []
  | ['Σ'] => ['ς']
  | c :: rest => lower c ++ lowerWord rest

/-- The words of a name in lower case, joined by underscores. -/
def snakeCase (name : String) : String :=
  "_".intercalate ((words name.toList).map fun word => String.ofList (lowerWord word))

example :
    ["fieldName", "HTTPServer", "XMLHttpRequest", "__x__", "a:b", "ABc", "FIELD_NAME"].map
        snakeCase =
      ["field_name", "http_server", "xml_http_request", "x", "a_b", "a_bc", "field_name"] := by
  decide +kernel

end SqlCompose.Naming
