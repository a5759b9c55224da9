import SqlCompose.Proofs.Meaning.Membership

/-!
# NULL behind an operator

NULL is compared by IS, which is chosen by the value that is given. What is written is the coerced
value, and a double that is not finite is written as NULL as well. So NULL stands behind another
operator, or in a list, exactly where such a double is compared: one that was given, or one that a
text stands for on a column of numbers.
-/

namespace SqlCompose

open Reading

/-- A double that is not finite. -/
def Value.isUnfinite : Value → Bool
  | .double x => !x.isFinite
  | _ => false

/-- Whether a column is compared with a double that is not finite. -/
def ColumnType.ComparesUnfinite (type : ColumnType) : Value → Prop
  | .list values => ∃ v ∈ type.normalize values, v.isUnfinite
  | v => ((type.coerce v).getD v).isUnfinite

/-- A comparison in which NULL stands behind IS only. -/
def Reading.Test.NullBehindIs : Test → Prop
  | .compare _ _ right => right ≠ "NULL"
  | .is _ _ _ => True
  | .isIn _ _ entries => "NULL" ∉ entries

theorem Numeric.ne_null {text : String} (h : Numeric text) : text ≠ "NULL" := by
  rintro rfl
  exact absurd h (by decide)

namespace Lexicon

theorem text_ne_null (lexicon : Lexicon) (s : String) : lexicon.text s ≠ "NULL" := by
  intro heq
  have hlist := congrArg String.toList heq
  rw [text, String.toList_ofList] at hlist
  exact absurd (List.cons.inj hlist).1 (by decide)

end Lexicon

namespace Lexicon.ReadBy

variable {lexicon : Lexicon} {rules : Quoting}

/-- Only NULL and a double that is not finite are written as NULL. -/
theorem scalar_eq_null_iff (h : lexicon.ReadBy rules) {v : Value} (hv : v.isList = false) :
    lexicon.scalar v = "NULL" ↔ v = .null ∨ v.isUnfinite := by
  cases v with
  | null => simp [Lexicon.scalar]
  | bool b =>
    have hne : lexicon.scalar (.bool b) ≠ "NULL" := by cases h <;> cases b <;> decide
    simp [hne, Value.isUnfinite]
  | int n =>
    have hne : lexicon.scalar (.int n) ≠ "NULL" := (Numeric.int _).ne_null
    simp [hne, Value.isUnfinite]
  | double x =>
    rw [Lexicon.scalar]
    by_cases hx : x.isFinite
    · simp [hx, (Numeric.write NumberLayout.exact hx).ne_null, Value.isUnfinite]
    · simp [hx, Value.isUnfinite]
  | string s =>
    have hne : lexicon.scalar (.string s) ≠ "NULL" := lexicon.text_ne_null s
    simp [hne, Value.isUnfinite]
  | bytes data =>
    have hne : lexicon.scalar (.bytes data) ≠ "NULL" := by
      intro heq
      have hlist := congrArg String.toList heq
      rw [Lexicon.scalar, String.toList_append] at hlist
      cases h <;> exact absurd (List.cons.inj hlist).1 (by decide)
    simp [hne, Value.isUnfinite]
  | list values => cases hv

end Lexicon.ReadBy

namespace ColumnType

/-- Nothing but null is coerced to null. -/
theorem eq_null_of_coerce {type : ColumnType} {v : Value} (h : type.coerce v = some .null) :
    v = .null := by
  have hscalar : type.coerceScalar v = some .null → v = .null := by
    intro hv
    have hnull := coerceScalar_of_coerceScalar hv
    cases type with
    | boolean | integer | float | numeric | text | varchar | blob => cases hnull
    | uuid | date | time | datetime | json | custom => exact Option.some.inj hv
  cases v with
  | null => rfl
  | list values => cases h
  | bool | int | double | string | bytes => exact hscalar h

/-- NULL and the truth values are never coerced to a double. -/
theorem not_isUnfinite_of_isSpecial (type : ColumnType) {v : Value} (hv : v.isSpecial) :
    ((type.coerce v).getD v).isUnfinite = false := by
  cases v with
  | null => rfl
  | bool b => cases type <;> rfl
  | int | double | string | bytes | list => cases hv

end ColumnType

section Written

variable {d : Dialect} {rules : Quoting} (h : d.ReadBy rules)

include h

/-- A value other than null is written as NULL if it is coerced to a double that is not finite. -/
theorem Dialect.ReadBy.value_eq_null_iff (type : ColumnType) {v : Value}
    (hlist : v.isList = false) (hnull : v.isNull = false) :
    d.value v (some type) = "NULL" ↔ ((type.coerce v).getD v).isUnfinite := by
  have hw : ((type.coerce v).getD v).isList = false := by
    cases hv : type.coerce v with
    | none => exact hlist
    | some w => exact ColumnType.isList_of_coerce hv
  have hne : (type.coerce v).getD v ≠ .null := by
    intro heq
    have hv : v = .null := by
      cases hcoerce : type.coerce v with
      | none => rwa [hcoerce] at heq
      | some w =>
        rw [hcoerce, Option.getD_some] at heq
        exact ColumnType.eq_null_of_coerce (heq ▸ hcoerce)
    rw [hv] at hnull
    cases hnull
  obtain ⟨lexicon, hspelled, hlexicon⟩ := h.exists_lexicon
  rw [hspelled.value_eq, Lexicon.value_of_isList_eq_false hlist, Option.bind_some,
    hlexicon.scalar_eq_null_iff hw]
  simp only [hne, false_or]

end Written

namespace Composer

variable {c : Composer} {rules : Quoting} (hd : c.dialect.ReadBy rules) {m : Model} {f : Field}
  {op : Operator}

include hd

/-- The comparison with a single value is one with a value as it is read, and NULL stands behind an
operator in it if a double that is not finite does. -/
theorem nullBehindIs_valueComparison_iff {v : Value} (hlist : v.isList = false)
    (hexists : op.isExists = false) {comparison : Sql.Comparison}
    (h : c.valueComparison m f op v = .ok comparison) :
    comparison.IsLiteral ∧ ((comparison.test c.dialect).NullBehindIs ↔
      ¬ (op.isLike = false ∧ ((f.type.coerce v).getD v).isUnfinite)) := by
  have ht := hd.regular.comparisonTail
  rcases valueComparison_eq_ok_iff.mp h with
    ⟨hlike, pattern, rfl, rfl⟩ | ⟨hop, hspecial, rfl⟩ | ⟨hlike, hspecial, hnull, rfl⟩
  · refine ⟨⟨rfl, hexists, rfl, ht f op⟩, ?_⟩
    rw [patternPart, ht]
    have hne : c.dialect.value (.string (c.dialect.likePattern pattern)) none ≠ "NULL" := by
      obtain ⟨lexicon, hs, -⟩ := hd.exists_lexicon
      rw [hs.value_eq]
      exact lexicon.text_ne_null _
    simp [Sql.Comparison.test, Sql.withTail, Sql.Term.text, Test.NullBehindIs, hne, hlike]
  · refine ⟨⟨rfl, hlist, ht f op⟩, ?_⟩
    simp [specialPart, Sql.Comparison.test, Test.NullBehindIs,
      f.type.not_isUnfinite_of_isSpecial hspecial]
  · refine ⟨⟨rfl, hexists, hlist, ht f op⟩, ?_⟩
    rw [ordinaryPart, ht, Sql.Comparison.test, Sql.withTail, Sql.Term.text, Test.NullBehindIs,
      ne_eq, hd.value_eq_null_iff f.type hlist hnull]
    simp [hlike]

/-- NULL is an entry of the list that is written if a double that is not finite is one. -/
theorem nullBehindIs_listParts_iff {values : List Value}
    (hvalues : ∀ v ∈ values, f.type.coerce v = some v) :
    (∀ t ∈ (c.listParts m f op values).map (·.test c.dialect), t.NullBehindIs) ↔
      ¬ ∃ v ∈ values, v.isUnfinite := by
  obtain ⟨lexicon, hs, -⟩ := hd.exists_lexicon
  have hordinary : ∀ v ∈ values.filter (fun v => !v.isSpecial),
      (c.dialect.value v none = "NULL" ↔ v.isUnfinite) := by
    intro v hv
    obtain ⟨hmem, hspecial⟩ := List.mem_filter.mp hv
    have hcoerce := hvalues v hmem
    have hnull : v.isNull = false := by
      cases v with
      | null => cases hspecial
      | bool | int | double | string | bytes | list => rfl
    rw [← hs.value_of_coerce hcoerce,
      hd.value_eq_null_iff f.type (ColumnType.isList_of_coerce hcoerce) hnull, hcoerce,
      Option.getD_some]
  have hcoerced : ∀ v ∈ values.filter (fun v => !v.isSpecial), f.type.coerce v = some v :=
    fun v hv => hvalues v (List.mem_filter.mp hv).1
  rw [listParts, List.map_append, map_test_sharedParts hs hcoerced]
  constructor
  · rintro hall ⟨v, hv, hunfinite⟩
    have hmem : v ∈ values.filter fun v => !v.isSpecial := by
      refine List.mem_filter.mpr ⟨hv, ?_⟩
      cases v with
      | double x => rfl
      | null | bool | int | string | bytes | list => cases hunfinite
    have hne : ¬ (values.filter fun v => !v.isSpecial).isEmpty := by
      rw [List.isEmpty_iff]
      exact List.ne_nil_of_mem hmem
    rw [if_neg hne] at hall
    have hin := hall _ (List.mem_append_right _ List.mem_cons_self)
    exact hin (List.mem_map.mpr ⟨v, hmem, (hordinary v hmem).mpr hunfinite⟩)
  · intro hnone t ht
    rcases List.mem_append.mp ht with ht | ht
    · obtain ⟨part, hpart, rfl⟩ := List.mem_map.mp ht
      obtain ⟨v, hv, rfl⟩ := List.mem_map.mp hpart
      trivial
    · split at ht
      · cases ht
      · rw [List.mem_singleton.mp ht]
        intro hnull
        obtain ⟨v, hv, htext⟩ := List.mem_map.mp hnull
        exact hnone ⟨v, (List.mem_filter.mp hv).1, (hordinary v hv).mp htext⟩

end Composer

/-- The text of a comparison of a field with a value or a list is read as comparisons in which NULL
stands behind IS and IS NOT only, exactly if the field is compared with a pattern or with no double
that is not finite. -/
theorem null_behind_is_iff {c : Composer} {rules : Quoting} (hd : c.dialect.ReadBy rules)
    {opts : Options} {condition : Condition} {v : Value} (hv : condition.value = .value v)
    {p : Sql.Predicate} (h : c.predicate opts condition = .ok (some p)) :
    ∃ m f clause, c.schema.resolve condition.field = .ok (m, f) ∧
      Clause.read (rules.words (p.text c.dialect)) = some clause ∧
      ((∀ entry ∈ clause.tests, entry.2.NullBehindIs) ↔
        ¬ (condition.effectiveOp.isLike = false ∧ f.type.ComparesUnfinite v)) := by
  obtain ⟨m, f, hfield, hoperand⟩ := Composer.predicate_eq_some_iff.mp h
  rw [hv] at hoperand
  -- A value and a list are both made of parts; what is read are their tests.
  have hread : ∀ parts : List Sql.Comparison, parts ≠ [] → (∀ part ∈ parts, part.IsLiteral) →
      p = Composer.joinParts condition.effectiveOp parts →
      ∃ clause, Clause.read (rules.words (p.text c.dialect)) = some clause ∧
        ((∀ entry ∈ clause.tests, entry.2.NullBehindIs) ↔
          ∀ t ∈ parts.map (·.test c.dialect), t.NullBehindIs) := by
    rintro parts hne hparts rfl
    obtain ⟨clause, hclause⟩ := exists_readAs_joinParts hd hne hparts
    refine ⟨clause, hclause.read, ?_⟩
    rw [← hclause.tests]
    simp only [List.forall_mem_map]
  cases hoperand with
  | @list values hop hvalues =>
    obtain ⟨lexicon, hs, -⟩ := hd.exists_lexicon
    have hcoerced : ∀ v ∈ c.dialect.normalize f values, f.type.coerce v = some v :=
      fun _ => hs.coerce_of_mem_normalize
    have hlists : ∀ v ∈ c.dialect.normalize f values, v.isList = false := fun v hv =>
      ColumnType.isList_of_coerce (hcoerced v hv)
    have hne := mt (Composer.listComparisons_eq_nil_iff
      (Composer.listComparisons_eq (c := c) (m := m) (f := f) hop _)).mp hvalues
    obtain ⟨clause, hclause, htests⟩ := hread _ hne
      (Composer.isLiteral_listParts hd.regular.comparisonTail hlists) rfl
    refine ⟨m, f, clause, hfield, hclause, ?_⟩
    have hlike : condition.effectiveOp.isLike = false := by
      cases heq : condition.effectiveOp <;> first | rfl | (rw [heq] at hop; cases hop)
    rw [htests, Composer.nullBehindIs_listParts_iff hd hcoerced, hs.normalize_eq]
    simp only [hlike, true_and]
    rfl
  | value hexists hlist hcomparison =>
    have hv : v.isList = false := by
      cases v with
      | list values => exact absurd rfl (hlist values)
      | null | bool | int | double | string | bytes => rfl
    obtain ⟨hliteral, htest⟩ := Composer.nullBehindIs_valueComparison_iff hd hv hexists hcomparison
    obtain ⟨clause, hclause, htests⟩ := hread [_] (List.cons_ne_nil _ _)
      (List.forall_mem_singleton.mpr hliteral) rfl
    refine ⟨m, f, clause, hfield, hclause, ?_⟩
    rw [htests, List.map_singleton, List.forall_mem_singleton, htest]
    cases v with
    | list values => cases hv
    | null | bool | int | double | string | bytes => rfl

/-- The score of a person. -/
def score : Field := { Field.named "score" (.float 8) with column := "score", model := "Person" }

def personModel : Model := ⟨"Person", "people", [score]⟩

/-- People and their scores. -/
def scores : Composer where
  schema := ⟨⟨[("Person", personModel)], by decide⟩, by decide⟩
  dialect := .sqlite
  config := {}

/-- A condition on the score of a person. -/
def scoreIs (op : Operator) (v : Value) : Condition := .of ⟨"Person", "score"⟩ op (.value v)

/-- The comparison that the condition becomes. -/
def scoreComparison (op : Operator) (v : Value) : Sql.Predicate :=
  .comparison (.compare ⟨"people", "score", true⟩ op (.value v (some (.float 8))) none)

theorem null_behind_is_iff_score :
    scores.dialect.ReadBy ⟨'"', false⟩ ∧
    (scoreIs .lt (.string "1.5")).value = .value (.string "1.5") ∧
    scores.predicate {} (scoreIs .lt (.string "1.5")) =
      .ok (some (scoreComparison .lt (.string "1.5"))) ∧
    ∃ clause, Clause.read (Quoting.words ⟨'"', false⟩
        ((scoreComparison .lt (.string "1.5")).text .sqlite)) = some clause ∧
      ∀ entry ∈ clause.tests, entry.2.NullBehindIs := by
  have hd : scores.dialect.ReadBy ⟨'"', false⟩ := .sqlite
  have hp : scores.predicate {} (scoreIs .lt (.string "1.5")) =
      .ok (some (scoreComparison .lt (.string "1.5"))) := by
    rw [Composer.predicate_eq_bind]
    rfl
  have hresolve : scores.schema.resolve ⟨"Person", "score"⟩ = .ok (personModel, score) := rfl
  have hfinite : ¬ score.type.ComparesUnfinite (.string "1.5") := by
    change ¬ (((ColumnType.float 8).coerce (.string "1.5")).getD (.string "1.5")).isUnfinite
    decide
  obtain ⟨m, f, clause, hfield, hclause, hiff⟩ := null_behind_is_iff hd rfl hp
  cases hresolve.symm.trans hfield
  exact ⟨hd, rfl, hp, clause, hclause, hiff.mpr fun h => hfinite h.2⟩

/-- A NaN is written as NULL, behind an operator that NULL is never compared by. -/
theorem unfinite_compared_as_null :
    scores.predicate {} (scoreIs .eq (.double .nan)) =
      .ok (some (scoreComparison .eq (.double .nan))) ∧
    (scoreComparison .eq (.double .nan)).text .sqlite = "\"people\".\"score\" = NULL" ∧
    Clause.read (Quoting.words ⟨'"', false⟩ "\"people\".\"score\" = NULL") =
      some ⟨false, [(.and, .compare "\"people\".\"score\"" .eq "NULL")]⟩ ∧
    ¬ (Test.compare "\"people\".\"score\"" .eq "NULL").NullBehindIs := by
  refine ⟨rfl, ?_, by decide, fun h => h rfl⟩
  rw [scoreComparison, Sql.Predicate.text]
  rfl

end SqlCompose
