import SqlCompose.Proofs.Meaning.Nulls

/-!
# What stands behind IS

PostgreSQL and MySQL take NULL, TRUE or FALSE behind IS and nothing else. A truth value is compared
by IS, but what is written is the coerced value, and a column of integers turns a truth value into
a number. A list is coerced before it is split, so it holds no such value any more. This leaves one
case in which IS stands before anything but a keyword: a column of integers and a single truth
value.
-/

namespace SqlCompose

open Reading

/-- The words that IS compares with. -/
def isKeywords : List String := ["NULL", "TRUE", "FALSE"]

/-- A comparison in which IS stands before a keyword only. -/
def Reading.Test.IsOnKeyword : Test → Prop
  | .is _ _ right => right ∈ isKeywords
  | .compare _ _ _ | .isIn _ _ _ => True

/-- A truth value. -/
def Value.isTruth : Value → Bool
  | .bool _ => true
  | _ => false

/-- A column of integers takes a truth value as a number. -/
theorem ColumnType.coerce_bool_of_isInteger {type : ColumnType} (h : type.isInteger) (b : Bool) :
    type.coerce (.bool b) = some (.int (if b then 1 else 0)) := by
  cases type with
  | integer size => rfl
  | boolean | float | numeric | text | varchar | blob | uuid | date | time | datetime | json
  | custom => cases h

/-- The dialects in which truth values are keywords, and how their databases read quoted tokens. -/
inductive Dialect.SpellsTruthAsWords : Dialect → Quoting → Prop
  | postgresql : SpellsTruthAsWords .postgresql ⟨'"', false⟩
  | mysql : SpellsTruthAsWords .mysql ⟨'\x60', true⟩

namespace Dialect.SpellsTruthAsWords

variable {d : Dialect} {rules : Quoting} (h : d.SpellsTruthAsWords rules)

include h

theorem readBy : d.ReadBy rules := by
  cases h with
  | postgresql => exact .postgresql
  | mysql => exact .mysql

/-- A truth value is written as a keyword, or as a number where it is coerced to an integer. -/
theorem value_bool (b : Bool) (type : ColumnType) :
    d.value (.bool b) (some type) =
      if type.isInteger then (if b then "1" else "0") else if b then "TRUE" else "FALSE" := by
  cases h <;> cases b <;> cases type <;> rfl

theorem value_mem_isKeywords_iff (type : ColumnType) {v : Value} (hv : v.isSpecial) :
    d.value v (some type) ∈ isKeywords ↔ ¬ (v.isTruth ∧ type.isInteger) := by
  cases v with
  | null =>
    have hnull : d.value .null (some type) = "NULL" := by
      cases h <;> rfl
    simp [hnull, isKeywords, Value.isTruth]
  | bool b =>
    rw [h.value_bool]
    cases type.isInteger <;> cases b <;> decide
  | int | double | string | bytes | list => cases hv

end Dialect.SpellsTruthAsWords

namespace Composer

variable {c : Composer} {m : Model} {f : Field} {op : Operator}

/-- The comparisons that a condition with a value or a list is made of. -/
inductive PartsOf (c : Composer) (m : Model) (f : Field) (op : Operator) :
    Value → List Sql.Comparison → Prop
  | list {values : List Value} (hop : op.isEquality) (hvalues : c.dialect.normalize f values ≠ []) :
      PartsOf c m f op (.list values) (c.listParts m f op (c.dialect.normalize f values))
  | single {v : Value} {comparison : Sql.Comparison} (hlist : v.isList = false)
      (hcomparison : c.valueComparison m f op v = .ok comparison) :
      PartsOf c m f op v [comparison]

/-- A condition with a value or a list is read as the comparisons that it is made of. -/
theorem exists_readAs_partsOf {rules : Quoting} (hd : c.dialect.ReadBy rules) {opts : Options}
    {condition : Condition} {v : Value} (hv : condition.value = .value v) {p : Sql.Predicate}
    (h : c.predicate opts condition = .ok (some p)) :
    ∃ m f parts clause, c.schema.resolve condition.field = .ok (m, f) ∧
      c.PartsOf m f condition.effectiveOp v parts ∧ ReadAs c.dialect rules p parts clause := by
  obtain ⟨m, f, hfield, hoperand⟩ := predicate_eq_some_iff.mp h
  rw [hv] at hoperand
  cases hoperand with
  | @list values hop hvalues =>
    obtain ⟨lexicon, hs, -⟩ := hd.exists_lexicon
    have hlists : ∀ v ∈ c.dialect.normalize f values, v.isList = false := fun v hv =>
      ColumnType.isList_of_coerce (hs.coerce_of_mem_normalize hv)
    have hne := mt (listComparisons_eq_nil_iff
      (listComparisons_eq (c := c) (m := m) (f := f) hop _)).mp hvalues
    obtain ⟨clause, hclause⟩ := exists_readAs_joinParts hd hne
      (isLiteral_listParts hd.regular.comparisonTail hlists)
    exact ⟨m, f, _, clause, hfield, .list hop hvalues, hclause⟩
  | @value v comparison hexists hlist hcomparison =>
    have hv : v.isList = false := by
      cases v with
      | list values => exact absurd rfl (hlist values)
      | null | bool | int | double | string | bytes => rfl
    have hliteral := (nullBehindIs_valueComparison_iff hd hv hexists hcomparison).1
    obtain ⟨clause, hclause⟩ : ∃ clause, ReadAs c.dialect rules
        (joinParts condition.effectiveOp [comparison]) [comparison] clause :=
      exists_readAs_joinParts hd (List.cons_ne_nil comparison [])
        (List.forall_mem_singleton.mpr hliteral)
    exact ⟨m, f, _, clause, hfield, .single hv hcomparison, hclause⟩

section Keywords

variable {rules : Quoting} (hd : c.dialect.SpellsTruthAsWords rules)

include hd

/-- A comparison by IS stands before what the value is written as. -/
theorem isOnKeyword_specialPart_iff {v : Value} (hv : v.isSpecial) :
    ((c.specialPart m f op v).test c.dialect).IsOnKeyword ↔
      ¬ (v.isTruth ∧ f.type.isInteger) := by
  rw [specialPart, hd.readBy.regular.comparisonTail, ← hd.value_mem_isKeywords_iff f.type hv]
  rfl

theorem isOnKeyword_valueComparison_iff {v : Value} {comparison : Sql.Comparison}
    (h : c.valueComparison m f op v = .ok comparison) :
    (comparison.test c.dialect).IsOnKeyword ↔
      ¬ (op.isEquality ∧ v.isTruth ∧ f.type.isInteger) := by
  rcases valueComparison_eq_ok_iff.mp h with
    ⟨hlike, pattern, rfl, rfl⟩ | ⟨hop, hspecial, rfl⟩ | ⟨hlike, hspecial, hnull, rfl⟩
  · simp [patternPart, Sql.Comparison.test, Test.IsOnKeyword, Value.isTruth]
  · rw [isOnKeyword_specialPart_iff hd hspecial]
    simp only [hop, true_and]
  · -- By an operator other than IS no truth value is compared for equality.
    have hapart : ¬ (op.isEquality ∧ v.isTruth ∧ f.type.isInteger) := by
      rintro ⟨hop, htruth, -⟩
      refine hspecial ⟨hop, ?_⟩
      cases v with
      | bool b => rfl
      | null | int | double | string | bytes | list => cases htruth
    simp [ordinaryPart, Sql.Comparison.test, Test.IsOnKeyword, hapart]

/-- A coerced truth value is one that the column type stores, so it is written as a keyword. -/
theorem isOnKeyword_listParts {values : List Value}
    (hvalues : ∀ v ∈ values, f.type.coerce v = some v) :
    ∀ part ∈ c.listParts m f op values, (part.test c.dialect).IsOnKeyword := by
  intro part hpart
  rw [listParts, List.mem_append] at hpart
  rcases hpart with hpart | hpart
  · obtain ⟨v, hv, rfl⟩ := List.mem_map.mp hpart
    obtain ⟨hmem, hspecial⟩ := List.mem_filter.mp hv
    rw [isOnKeyword_specialPart_iff hd hspecial]
    rintro ⟨htruth, hinteger⟩
    have hcoerce := hvalues v hmem
    cases v with
    | bool b =>
      rw [ColumnType.coerce_bool_of_isInteger hinteger] at hcoerce
      cases hcoerce
    | null | int | double | string | bytes | list => cases htruth
  · rw [sharedParts] at hpart
    split at hpart
    · cases hpart
    · rw [List.mem_singleton.mp hpart]
      trivial

/-- IS stands before a keyword unless a truth value alone is compared with a column of integers. -/
theorem isOnKeyword_partsOf_iff {v : Value} {parts : List Sql.Comparison}
    (h : c.PartsOf m f op v parts) :
    (∀ part ∈ parts, (part.test c.dialect).IsOnKeyword) ↔
      ¬ (op.isEquality ∧ v.isTruth ∧ f.type.isInteger) := by
  cases h with
  | @list values hop hvalues =>
    obtain ⟨lexicon, hs, -⟩ := hd.readBy.exists_lexicon
    have hall : ∀ part ∈ c.listParts m f op (c.dialect.normalize f values),
        (part.test c.dialect).IsOnKeyword :=
      isOnKeyword_listParts hd fun v hv => hs.coerce_of_mem_normalize hv
    simp only [Value.isTruth, Bool.false_eq_true, false_and, and_false, not_false_eq_true, iff_true]
    exact hall
  | single hlist hcomparison =>
    rw [List.forall_mem_singleton, isOnKeyword_valueComparison_iff hd hcomparison]

end Keywords

end Composer

/-- The text of a comparison of a field with a value or a list is read as comparisons in which IS
and IS NOT stand before NULL, TRUE and FALSE only, exactly if it does not compare a column of
integers for equality with a truth value. -/
theorem is_before_keyword_iff {c : Composer} {rules : Quoting}
    (hd : c.dialect.SpellsTruthAsWords rules) {opts : Options} {condition : Condition} {v : Value}
    (hv : condition.value = .value v) {p : Sql.Predicate}
    (h : c.predicate opts condition = .ok (some p)) :
    ∃ m f clause, c.schema.resolve condition.field = .ok (m, f) ∧
      Clause.read (rules.words (p.text c.dialect)) = some clause ∧
      ((∀ entry ∈ clause.tests, entry.2.IsOnKeyword) ↔
        ¬ (condition.effectiveOp.isEquality ∧ v.isTruth ∧ f.type.isInteger)) := by
  obtain ⟨m, f, parts, clause, hfield, hparts, hread⟩ :=
    Composer.exists_readAs_partsOf hd.readBy hv h
  refine ⟨m, f, clause, hfield, hread.read, ?_⟩
  have htests : (∀ entry ∈ clause.tests, entry.2.IsOnKeyword) ↔
      ∀ t ∈ parts.map (·.test c.dialect), t.IsOnKeyword := by
    rw [← hread.tests]
    simp only [List.forall_mem_map]
  rw [htests, List.forall_mem_map, Composer.isOnKeyword_partsOf_iff hd hparts]

/-- A condition on the age of a person. -/
def ageIs (op : Operator) (v : Value) : Condition := .of ⟨"Person", "age"⟩ op (.value v)

/-- Ages that a person is not of, where a truth value in the list stands for a number. -/
def otherAges : Value := .list [.bool true, .null, .int 3]

def otherAgesPredicate : Sql.Predicate :=
  .combined .and [
    .is ⟨"people", "age", true⟩ true (.value .null (some (.integer 4))) none,
    .inList ⟨"people", "age", true⟩ true
      [.value (.int 1) (some (.integer 4)), .value (.int 3) (some (.integer 4))]]

theorem is_before_keyword_iff_otherAges :
    peopleInPostgresql.dialect.SpellsTruthAsWords ⟨'"', false⟩ ∧
    (ageIs .ne otherAges).value = .value otherAges ∧
    peopleInPostgresql.predicate {} (ageIs .ne otherAges) = .ok (some otherAgesPredicate) ∧
    ∃ clause, Clause.read (Quoting.words ⟨'"', false⟩ (otherAgesPredicate.text .postgresql)) =
        some clause ∧
      ∀ entry ∈ clause.tests, entry.2.IsOnKeyword := by
  have hd : peopleInPostgresql.dialect.SpellsTruthAsWords ⟨'"', false⟩ := .postgresql
  have hp : peopleInPostgresql.predicate {} (ageIs .ne otherAges) =
      .ok (some otherAgesPredicate) := by
    rw [Composer.predicate_eq_bind]
    rfl
  obtain ⟨m, f, clause, -, hclause, hiff⟩ := is_before_keyword_iff hd rfl hp
  exact ⟨hd, rfl, hp, clause, hclause, hiff.mpr fun h => Bool.false_ne_true h.2.1⟩

/-- A truth value alone is compared with a column of integers by IS, and written as a number. -/
theorem is_before_number :
    peopleInPostgresql.predicate {} (ageIs .eq (.bool true)) =
      .ok (some (.comparison
        (.is ⟨"people", "age", true⟩ false (.value (.bool true) (some (.integer 4))) none))) ∧
    Sql.Predicate.text .postgresql (.comparison
        (.is ⟨"people", "age", true⟩ false (.value (.bool true) (some (.integer 4))) none)) =
      "\"people\".\"age\" IS 1" ∧
    Clause.read (Quoting.words ⟨'"', false⟩ "\"people\".\"age\" IS 1") =
      some ⟨false, [(.and, .is "\"people\".\"age\"" false "1")]⟩ ∧
    ¬ (Test.is "\"people\".\"age\"" false "1").IsOnKeyword := by
  refine ⟨rfl, ?_, by decide, ?_⟩
  · rw [Sql.Predicate.text]
    rfl
  · rw [Test.IsOnKeyword]
    decide

end SqlCompose
