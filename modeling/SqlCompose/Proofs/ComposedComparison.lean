import SqlCompose.Proofs.Reading.Filter

/-!
# What conditions compose to

One lemma for each function that makes a comparison: when it succeeds, and the tree that it makes
then. What is proved later about comparisons starts from these and does not look into the
functions again.
-/

namespace SqlCompose

namespace Composer

variable {c : Composer} {m : Model} {f : Field} {op : Operator}

/-- The comparison by IS of a field with a value. -/
def specialPart (c : Composer) (m : Model) (f : Field) (op : Operator) (v : Value) :
    Sql.Comparison :=
  .is (m.column f) (op == .ne) (.value v (some f.type)) (c.dialect.comparisonTail f op)

/-- The comparison by an operator of a field with a value. -/
def ordinaryPart (c : Composer) (m : Model) (f : Field) (op : Operator) (v : Value) :
    Sql.Comparison :=
  .compare (m.column f) op (.value v (some f.type)) (c.dialect.comparisonTail f op)

/-- The comparison of a field with a pattern. -/
def patternPart (c : Composer) (m : Model) (f : Field) (op : Operator) (pattern : String) :
    Sql.Comparison :=
  .compare (m.column f) op (.value (.string (c.dialect.likePattern pattern)) none)
    (c.dialect.comparisonTail f op)

theorem refuse_ne_ok {α : Type} {fault : OperatorFault} {a : α} :
    (refuse op f fault : Except Error α) ≠ .ok a := by
  rintro ⟨⟩

/-- A value is compared as a pattern, by IS, or by the operator itself. -/
theorem valueComparison_eq_ok_iff {v : Value} {comparison : Sql.Comparison} :
    c.valueComparison m f op v = .ok comparison ↔
      (op.isLike ∧ ∃ pattern, v = .string pattern ∧ comparison = c.patternPart m f op pattern) ∨
      (op.isEquality ∧ v.isSpecial ∧ comparison = c.specialPart m f op v) ∨
      (op.isLike = false ∧ ¬ (op.isEquality ∧ v.isSpecial) ∧ v.isNull = false ∧
        comparison = c.ordinaryPart m f op v) := by
  have hapart : op.isLike → op.isEquality = false := by cases op <;> decide
  rw [valueComparison]
  by_cases hlike : op.isLike
  · rw [if_pos hlike]
    simp only [hlike, hapart hlike, Bool.true_eq_false, Bool.false_eq_true, false_and, or_false,
      true_and]
    rw [likeComparison.eq_def]
    cases v with
    | string pattern =>
      simp only [pure_eq_ok, Value.string.injEq, exists_eq_left', eq_comm (b := comparison)]
      rfl
    | null | bool | int | double | bytes | list =>
      simp only [refuse_ne_ok, reduceCtorEq, false_and, exists_false]
  · rw [if_neg hlike]
    simp only [hlike, Bool.false_eq_true, false_and, false_or, true_and, Bool.and_eq_true]
    by_cases hspecial : op.isEquality ∧ v.isSpecial
    · rw [if_pos hspecial, pure_eq_ok]
      simp only [hspecial, and_self, not_true_eq_false, false_and, or_false, true_and,
        eq_comm (b := comparison)]
      rfl
    · rw [if_neg hspecial]
      simp only [← and_assoc, hspecial, false_and, false_or, not_false_eq_true, true_and]
      cases hnull : v.isNull with
      | true => simp only [refuse_ne_ok, if_true, Bool.true_eq_false, false_and]
      | false =>
        simp only [Bool.false_eq_true, if_false, pure_eq_ok, true_and, eq_comm (b := comparison)]
        rfl

/-- The comparison that the ordinary entries of a list share, if there are any. -/
def sharedParts (m : Model) (f : Field) (op : Operator) (ordinary : List Value) :
    List Sql.Comparison :=
  if ordinary.isEmpty then []
  else [.inList (m.column f) (op == .ne) (ordinary.map fun v => .value v (some f.type))]

/-- The comparisons of a field with the entries of a normalised list. -/
def listParts (c : Composer) (m : Model) (f : Field) (op : Operator) (values : List Value) :
    List Sql.Comparison :=
  (values.filter (·.isSpecial)).map (c.specialPart m f op) ++
    sharedParts m f op (values.filter fun v => !v.isSpecial)

theorem listComparisons_eq (hop : op.isEquality) (values : List Value) :
    c.listComparisons m f op values = .ok (c.listParts m f op values) := by
  have hspecial : (values.filter (·.isSpecial)).mapM (c.valueComparison m f op) =
      .ok ((values.filter (·.isSpecial)).map (c.specialPart m f op)) := by
    rw [mapM_eq_ok, List.forall₂_map_right_iff, List.forall₂_same]
    intro v hv
    exact valueComparison_eq_ok_iff.mpr (.inr (.inl ⟨hop, (List.mem_filter.mp hv).2, rfl⟩))
  rw [listComparisons, hspecial, listParts, sharedParts]
  dsimp only [bind, Except.bind]
  split
  · rw [List.append_nil]
    rfl
  · rfl

/-- Several comparisons as one operand. -/
def joinParts (op : Operator) : List Sql.Comparison → Sql.Predicate
  | [part] => .comparison part
  | parts => .combined (if op == .eq then .or else .and) parts

/-- A list with entries is compared in parts. -/
theorem listCondition_eq (hop : op.isEquality) {values : List Value}
    (hvalues : c.dialect.normalize f values ≠ []) :
    c.listCondition m f op values =
      .ok (some (joinParts op (c.listParts m f op (c.dialect.normalize f values)))) := by
  have hparts := listComparisons_eq (c := c) (m := m) (f := f) hop (c.dialect.normalize f values)
  have hne := mt (listComparisons_eq_nil_iff hparts).mp hvalues
  rw [listCondition, if_pos hop, hparts]
  generalize c.listParts m f op (c.dialect.normalize f values) = parts at hne
  cases parts with
  | nil => exact absurd rfl hne
  | cons part rest =>
    cases rest <;> rfl

theorem listCondition_eq_error (hop : op.isEquality = false) (values : List Value) :
    c.listCondition m f op values = .error (.invalidOperator op.name f.fullName .onList) := by
  rw [listCondition, hop]
  rfl

theorem listCondition_eq_some_iff {values : List Value} {p : Sql.Predicate} :
    c.listCondition m f op values = .ok (some p) ↔
      op.isEquality ∧ c.dialect.normalize f values ≠ [] ∧
        p = joinParts op (c.listParts m f op (c.dialect.normalize f values)) := by
  constructor
  · intro h
    by_cases hop : op.isEquality
    · have hvalues : c.dialect.normalize f values ≠ [] := by
        intro hnil
        have hparts := listComparisons_eq (c := c) (m := m) (f := f) hop (c.dialect.normalize f values)
        rw [(listComparisons_eq_nil_iff hparts).mpr hnil] at hparts
        rw [listCondition, if_pos hop, hparts] at h
        dsimp only [bind, Except.bind] at h
        split at h <;> cases h
      rw [listCondition_eq hop hvalues] at h
      cases h
      exact ⟨hop, hvalues, rfl⟩
    · rw [listCondition_eq_error (by simpa using hop)] at h
      cases h
  · rintro ⟨hop, hvalues, rfl⟩
    exact listCondition_eq hop hvalues

theorem columnCondition_eq_ok_iff {other : FieldRef} {p : Sql.Predicate} :
    c.columnCondition m f op other = .ok p ↔
      op.isLike = false ∧ ∃ right, c.columnOf other true = .ok right ∧
        p = .comparison
          (.compare (m.column f) op (.expr (.column right)) (c.dialect.comparisonTail f op)) := by
  rw [columnCondition]
  cases op.isLike with
  | true => simp only [refuse_ne_ok, if_true, Bool.true_eq_false, false_and]
  | false =>
    simp only [Bool.false_eq_true, if_false, bind_eq_ok, pure_eq_ok, true_and,
      eq_comm (b := p)]

/-- Whether a literal may stand behind an operator: a pattern has to be raw text. -/
def literalFits (op : Operator) (literal : Literal) : Bool :=
  !op.isLike || (literal.fieldRef?.isNone && literal.isRaw)

theorem literalCondition_eq_ok_iff {literal : Literal} {p : Sql.Predicate} :
    c.literalCondition m f op literal = .ok p ↔
      literalFits op literal ∧ ∃ right, c.literalExpr true literal = .ok right ∧
        p = .comparison (.compare (m.column f) op (.expr right) none) := by
  rw [literalCondition, literalFits]
  cases op.isLike <;> cases literal.fieldRef? <;> cases literal.isRaw <;>
    simp only [refuse_ne_ok, bind_eq_ok, pure_eq_ok, eq_comm (b := p), Option.isNone_none,
      Option.isNone_some, Bool.not_true, Bool.not_false, Bool.true_or, Bool.false_or, Bool.and_true,
      Bool.and_false, Bool.and_self, Bool.false_eq_true, false_and, true_and]

/-- The operand of a condition from its parts, the operator being the one after negation. -/
def operandPredicate (c : Composer) (opts : Options) (m : Model) (f : Field) (op : Operator)
    (quantifier : Option Quantifier) (value : Operand) : Except Error (Option Sql.Predicate) :=
  if op.isExists then
    match value with
    | .query nested => do
        let (_, inner) ← c.selectTree (existsOptions opts) none nested
        return some (.rowExists (op == .noRowExists) inner)
    | _ => refuse op f .needsNestedQuery
  else
    match value with
    | .value (.list values) => c.listCondition m f op values
    | .value v => do return some (.comparison (← c.valueComparison m f op v))
    | .field other => do return some (← c.columnCondition m f op other)
    | .literal literal => do return some (← c.literalCondition m f op literal)
    | .query nested =>
        if !nested.hasCondition then return none
        else if op.isLike then refuse op f .onSubSelect
        else do
          let (_, inner) ← c.selectTree opts.nested none nested
          return some (selectPredicate (m.column f) op quantifier inner)

/-- The operands that the parts of a condition stand for, by what the condition compares with. -/
inductive OperandOf (c : Composer) (opts : Options) (m : Model) (f : Field) (op : Operator)
    (quantifier : Option Quantifier) : Operand → Sql.Predicate → Prop
  | rowExists {nested : Query} {columns : ResultColumns} {inner : Sql.Select}
      (hexists : op.isExists)
      (hinner : c.selectTree (existsOptions opts) none nested = .ok (columns, inner)) :
      OperandOf c opts m f op quantifier (.query nested) (.rowExists (op == .noRowExists) inner)
  | list {values : List Value} (hop : op.isEquality) (hvalues : c.dialect.normalize f values ≠ []) :
      OperandOf c opts m f op quantifier (.value (.list values))
        (joinParts op (c.listParts m f op (c.dialect.normalize f values)))
  | value {v : Value} {comparison : Sql.Comparison} (hexists : op.isExists = false)
      (hlist : ∀ values, v ≠ .list values)
      (hcomparison : c.valueComparison m f op v = .ok comparison) :
      OperandOf c opts m f op quantifier (.value v) (.comparison comparison)
  | column {other : FieldRef} {right : Sql.Column} (hexists : op.isExists = false)
      (hlike : op.isLike = false) (hright : c.columnOf other true = .ok right) :
      OperandOf c opts m f op quantifier (.field other) (.comparison
        (.compare (m.column f) op (.expr (.column right)) (c.dialect.comparisonTail f op)))
  | literal {literal : Literal} {right : Sql.Expr} (hexists : op.isExists = false)
      (hfits : literalFits op literal) (hright : c.literalExpr true literal = .ok right) :
      OperandOf c opts m f op quantifier (.literal literal)
        (.comparison (.compare (m.column f) op (.expr right) none))
  | select {nested : Query} {columns : ResultColumns} {inner : Sql.Select}
      (hexists : op.isExists = false) (hlike : op.isLike = false) (hnested : nested.hasCondition)
      (hinner : c.selectTree opts.nested none nested = .ok (columns, inner)) :
      OperandOf c opts m f op quantifier (.query nested)
        (selectPredicate (m.column f) op quantifier inner)

theorem operandPredicate_eq_some_iff {opts : Options} {quantifier : Option Quantifier}
    {value : Operand} {p : Sql.Predicate} :
    c.operandPredicate opts m f op quantifier value = .ok (some p) ↔
      c.OperandOf opts m f op quantifier value p := by
  constructor
  · intro h
    unfold operandPredicate at h
    split at h
    · rename_i hexists
      cases value with
      | value | field | literal => cases h
      | query nested =>
        obtain ⟨⟨columns, inner⟩, hinner, h⟩ := bind_eq_ok.mp h
        cases h
        exact .rowExists hexists hinner
    · rename_i hexists
      rw [Bool.not_eq_true] at hexists
      cases value with
      | value v =>
        cases v with
        | list values =>
          obtain ⟨hop, hvalues, rfl⟩ := listCondition_eq_some_iff.mp h
          exact .list hop hvalues
        | null | bool | int | double | string | bytes =>
          obtain ⟨comparison, hcomparison, h⟩ := bind_eq_ok.mp h
          cases h
          exact .value hexists (fun _ => Value.noConfusion) hcomparison
      | field other =>
        obtain ⟨_, hp, h⟩ := bind_eq_ok.mp h
        cases h
        obtain ⟨hlike, right, hright, rfl⟩ := columnCondition_eq_ok_iff.mp hp
        exact .column hexists hlike hright
      | literal literal =>
        obtain ⟨_, hp, h⟩ := bind_eq_ok.mp h
        cases h
        obtain ⟨hfits, right, hright, rfl⟩ := literalCondition_eq_ok_iff.mp hp
        exact .literal hexists hfits hright
      | query nested =>
        dsimp only at h
        split at h
        · cases h
        · split at h
          · cases h
          · rename_i hnested hlike
            obtain ⟨⟨columns, inner⟩, hinner, h⟩ := bind_eq_ok.mp h
            cases h
            exact .select hexists (by simpa using hlike) (by simpa using hnested) hinner
  · intro h
    unfold operandPredicate
    cases h with
    | rowExists hexists hinner =>
      rw [if_pos hexists]
      exact bind_eq_ok.mpr ⟨_, hinner, rfl⟩
    | list hop hvalues =>
      have hexists : ¬ op.isExists := by
        cases op with
        | rowExists | noRowExists => cases hop
        | eq | ne | gt | ge | lt | le | like | notLike => decide
      rw [if_neg hexists]
      exact listCondition_eq hop hvalues
    | @value v comparison hexists hlist hcomparison =>
      rw [hexists, if_neg Bool.false_ne_true]
      cases v with
      | list values => exact absurd rfl (hlist values)
      | null | bool | int | double | string | bytes =>
        exact bind_eq_ok.mpr ⟨_, hcomparison, rfl⟩
    | column hexists hlike hright =>
      rw [hexists, if_neg Bool.false_ne_true]
      exact bind_eq_ok.mpr ⟨_, columnCondition_eq_ok_iff.mpr ⟨hlike, _, hright, rfl⟩, rfl⟩
    | literal hexists hfits hright =>
      rw [hexists, if_neg Bool.false_ne_true]
      exact bind_eq_ok.mpr ⟨_, literalCondition_eq_ok_iff.mpr ⟨hfits, _, hright, rfl⟩, rfl⟩
    | select hexists hlike hnested hinner =>
      rw [hexists, if_neg Bool.false_ne_true]
      dsimp only
      rw [hnested, hlike, if_neg (by decide), if_neg Bool.false_ne_true]
      exact bind_eq_ok.mpr ⟨_, hinner, rfl⟩

theorem predicate_eq_bind (opts : Options) (condition : Condition) :
    c.predicate opts condition = (do
      let (m, f) ← c.schema.resolve condition.field
      c.operandPredicate opts m f condition.effectiveOp condition.quantifier condition.value) := by
  obtain ⟨field, op, value, negate, connector, quantifier, join⟩ := condition
  rw [predicate]
  rfl

/-- A condition with an operand: its field is found, and its parts stand for the operand. -/
theorem predicate_eq_some_iff {opts : Options} {condition : Condition} {p : Sql.Predicate} :
    c.predicate opts condition = .ok (some p) ↔
      ∃ m f, c.schema.resolve condition.field = .ok (m, f) ∧
        c.OperandOf opts m f condition.effectiveOp condition.quantifier condition.value p := by
  simp only [predicate_eq_bind, bind_eq_ok, Prod.exists, operandPredicate_eq_some_iff]

end Composer

end SqlCompose
