import SqlCompose.Naming.Ending
import SqlCompose.Naming.Words

/-!
# Plural nouns

The English plural of a lower-case noun: irregular pairs first, then words without a plural,
then rules on endings, of which the last that fits decides. A table is named by the plural of
the snake-cased name of its model.
-/

namespace SqlCompose.Naming

/-- Singular and plural of irregular nouns. -/
def irregularPairs : List (String × String) := [
  ("I", "we"), ("me", "us"), ("he", "they"), ("she", "they"), ("them", "them"),
  ("myself", "ourselves"), ("yourself", "yourselves"), ("itself", "themselves"),
  ("herself", "themselves"), ("himself", "themselves"), ("themself", "themselves"),
  ("is", "are"), ("was", "were"), ("has", "have"), ("this", "these"), ("that", "those"),
  ("my", "our"), ("its", "their"), ("his", "their"), ("her", "their"), ("echo", "echoes"),
  ("dingo", "dingoes"), ("volcano", "volcanoes"), ("tornado", "tornadoes"),
  ("torpedo", "torpedoes"), ("genus", "genera"), ("viscus", "viscera"), ("stigma", "stigmata"),
  ("stoma", "stomata"), ("dogma", "dogmata"), ("lemma", "lemmata"), ("schema", "schemata"),
  ("anathema", "anathemata"), ("ox", "oxen"), ("axe", "axes"), ("die", "dice"),
  ("yes", "yeses"), ("foot", "feet"), ("eave", "eaves"), ("goose", "geese"),
  ("tooth", "teeth"), ("quiz", "quizzes"), ("human", "humans"), ("proof", "proofs"),
  ("carve", "carves"), ("valve", "valves"), ("looey", "looies"), ("thief", "thieves"),
  ("groove", "grooves"), ("pickaxe", "pickaxes"), ("passerby", "passersby"),
  ("canvas", "canvases")]

/-- Nouns whose plural is the noun itself. -/
def uncountableWords : List String := [
  "adulthood", "advice", "agenda", "aid", "aircraft", "alcohol", "ammo", "analytics", "anime",
  "athletics", "audio", "bison", "blood", "bream", "buffalo", "butter", "carp", "cash",
  "chassis", "chess", "clothing", "cod", "commerce", "cooperation", "corps", "debris",
  "diabetes", "digestion", "elk", "energy", "equipment", "excretion", "expertise", "firmware",
  "flounder", "fun", "gallows", "garbage", "graffiti", "hardware", "headquarters", "health",
  "herpes", "highjinks", "homework", "housework", "information", "jeans", "justice", "kudos",
  "labour", "literature", "machinery", "mackerel", "mail", "media", "mews", "moose", "music",
  "mud", "manga", "news", "only", "personnel", "pike", "plankton", "pliers", "police",
  "pollution", "premises", "rain", "research", "rice", "salmon", "scissors", "series",
  "sewage", "shambles", "shrimp", "software", "staff", "swine", "tennis", "traffic",
  "transportation", "trout", "tuna", "wealth", "welfare", "whiting", "wildebeest", "wildlife",
  "you"]

open Pattern in
/-- Rules on endings, the decisive ones last. -/
def pluralRules : List Rule := [
  ⟨optional (text "s"), [.text "s"], .anywhere⟩,
  ⟨nonAscii, [.whole], .anywhere⟩,
  ⟨group (noneOf ['a', 'e', 'i', 'o', 'u'] ++ text "ese"), [.group 1], .anywhere⟩,
  ⟨group (anyOf ["ax", "test"]) ++ text "is", [.group 1, .text "es"], .anywhere⟩,
  ⟨group (either (text "alias")
      (either (noneOf ['a', 'o', 'u'] ++ text "us")
        (either (text "t" ++ oneOf ['l', 'm'] ++ text "as") (anyOf ["gas", "ris"])))),
    [.group 1, .text "es"], .anywhere⟩,
  ⟨group (text "e" ++ oneOf ['m', 'n'] ++ text "u") ++ optional (text "s"),
    [.group 1, .text "s"], .anywhere⟩,
  ⟨group (either (noneOf ['l'] ++ text "ias")
      (either (oneOf ['a', 'e', 'i', 'o', 'u'] ++ text "las")
        (either (oneOf ['e', 'j', 'z', 'r'] ++ text "as") (oneOf ['i', 'u'] ++ text "am")))),
    [.group 1], .anywhere⟩,
  ⟨group (anyOf ["alumn", "syllab", "vir", "radi", "nucle", "fung", "cact", "stimul", "termin",
      "bacill", "foc", "uter", "loc", "strat"]) ++ anyOf ["us", "i"],
    [.group 1, .text "i"], .anywhere⟩,
  ⟨group (anyOf ["alumn", "alg", "vertebr"]) ++ anyOf ["a", "ae"],
    [.group 1, .text "ae"], .anywhere⟩,
  ⟨group (anyOf ["seraph", "cherub"]) ++ optional (text "im"),
    [.group 1, .text "im"], .anywhere⟩,
  ⟨group (anyOf ["her", "at", "gr"]) ++ text "o", [.group 1, .text "oes"], .anywhere⟩,
  ⟨group (anyOf ["agend", "addend", "millenni", "dat", "extrem", "bacteri", "desiderat", "strat",
      "candelabr", "errat", "ov", "symposi", "curricul", "automat", "quor"]) ++ anyOf ["a", "um"],
    [.group 1, .text "a"], .anywhere⟩,
  ⟨group (anyOf ["apheli", "hyperbat", "periheli", "asyndet", "noumen", "phenomen", "criteri",
      "organ", "prolegomen", "hedr", "automat"]) ++ anyOf ["a", "on"],
    [.group 1, .text "a"], .anywhere⟩,
  ⟨text "sis", [.text "ses"], .anywhere⟩,
  ⟨either (group (anyOf ["kni", "wi", "li"]) ++ text "fe")
      (group (anyOf ["ar", "l", "ea", "eo", "oa", "hoo"]) ++ text "f"),
    [.group 1, .group 2, .text "ves"], .anywhere⟩,
  ⟨group (either (noneOf ['a', 'e', 'i', 'o', 'u', 'y']) (text "qu")) ++ text "y",
    [.group 1, .text "ies"], .anywhere⟩,
  ⟨group (noneOf ['c', 'h'] ++ oneOf ['i', 'e', 'o'] ++ oneOf ['l', 'n']) ++ text "ey",
    [.group 1, .text "ies"], .anywhere⟩,
  ⟨group (anyOf ["x", "ch", "ss", "sh", "zz"]), [.group 1, .text "es"], .anywhere⟩,
  ⟨group (anyOf ["matr", "cod", "mur", "sil", "vert", "ind", "append"]) ++ anyOf ["ix", "ex"],
    [.group 1, .text "ices"], .anywhere⟩,
  ⟨group (either (optional (text "tit") ++ text "m") (text "l")) ++ anyOf ["ice", "ouse"],
    [.group 1, .text "ice"], .wordStart⟩,
  ⟨group (text "pe") ++ anyOf ["rson", "ople"], [.group 1, .text "ople"], .anywhere⟩,
  ⟨group (text "child") ++ optional (text "ren"), [.group 1, .text "ren"], .anywhere⟩,
  ⟨text "eaux", [.whole], .anywhere⟩,
  ⟨text "m" ++ oneOf ['a', 'e'] ++ text "n", [.text "men"], .anywhere⟩,
  ⟨text "thou", [.text "you"], .textStart⟩]

open Pattern in
/-- Endings of nouns whose plural is the noun itself; they decide before the rules. -/
def uncountableEndings : List Rule :=
  [text "pok" ++ oneOf ['e', 'é'] ++ text "mon",
    noneOf ['a', 'e', 'i', 'o', 'u'] ++ text "ese",
    text "deer", text "fish", text "measles",
    text "o" ++ oneOf ['i', 'u'] ++ text "s",
    text "pox", text "sheep"].map fun ending => ⟨ending, [.whole], .anywhere⟩

/-- The plural of a lower-case noun. -/
def plural (noun : String) : String :=
  if irregularPairs.any (fun pair => pair.2 == noun) then noun
  else
    match irregularPairs.find? (fun pair => pair.1 == noun) with
    | some pair => pair.2
    | none =>
        if noun.isEmpty || uncountableWords.contains noun then noun
        else
          let rules := (pluralRules ++ uncountableEndings).reverse
          match rules.findSome? fun rule => rule.replaceIn? noun.toList with
          | some result => String.ofList result
          | none => noun

/-- The table name of a model. -/
def tableName (model : String) : String := plural (snakeCase model)

/-- The column name of a field. -/
def columnName (field : String) : String := snakeCase field

end SqlCompose.Naming
