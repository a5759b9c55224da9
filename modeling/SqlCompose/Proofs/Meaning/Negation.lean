import SqlCompose.Proofs.ComposedComparison
import SqlCompose.Proofs.Meaning.Comparison

/-!
# Negated conditions

A negated condition is composed with the inverted operator. The operand that comes out is the
`negated` one of the operand that the condition itself has: each comparison is inverted, OR and AND
change places, and a quantifier stays as it is. By De Morgan, ANY and ALL would have to change
places too. So negation negates, unless a condition compares with a sub-select by a quantifier;
then it negates the condition with the other quantifier.
-/

namespace SqlCompose

/-- The other connector. -/
def Connector.other : Connector → Connector
  | and => or
  | or => and

/-- A database in which no sub-select has a row. -/
def Meaning.rowless : Meaning Unit where
  operand _ := none
  rows _ := []
  order _ _ := .eq
  fits _ _ := false
  agrees _ _ := true

namespace Sql

/-- The opposite comparison. -/
def Comparison.negated : Comparison → Comparison
  | .compare left op right tail => .compare left op.invert right tail
  | .is left negated right tail => .is left (!negated) right tail
  | .inList left negated entries => .inList left (!negated) entries

/-- An operand with every comparison inverted. -/
def Predicate.negated : Predicate → Predicate
  | .comparison c => .comparison c.negated
  | .combined connector parts => .combined connector.other (parts.map Comparison.negated)
  | .inSelect left negated inner => .inSelect left (!negated) inner
  | .compareSelect left op quantifier inner => .compareSelect left op.invert quantifier inner
  | .rowExists negated inner => .rowExists (!negated) inner
  | .group negated body => .group (!negated) body

/-- An operand with the other quantifier, if it has one. -/
def Predicate.exchanged : Predicate → Predicate
  | .compareSelect left op quantifier inner =>
      .compareSelect left op (quantifier.map Quantifier.other) inner
  | p => p

variable {α : Type} (means : Meaning α) (d : Dialect)

theorem ite_not_not (negated : Bool) (t : Truth) :
    (if !negated then t.not else t) = (if negated then t.not else t).not := by
  cases negated <;> simp

theorem Comparison.truth_negated (c : Comparison) :
    c.negated.truth means d = (c.truth means d).not := by
  cases c with
  | compare left op right tail => exact means.compare_invert op _ _
  | is left negated right tail => exact ite_not_not negated _
  | inList left negated entries => exact ite_not_not negated _

theorem map_truth_negated (parts : List Comparison) :
    (parts.map Comparison.negated).map (·.truth means d) =
      (parts.map (·.truth means d)).map Truth.not := by
  rw [List.map_map, List.map_map]
  exact List.map_congr_left fun c _ => c.truth_negated means d

/-- The inverted operand is the negation of the one with the other quantifier. -/
theorem Predicate.truth_negated (p : Predicate) :
    p.negated.truth means d = (p.exchanged.truth means d).not := by
  cases p with
  | comparison c =>
    rw [negated, exchanged, truth, truth]
    · exact c.truth_negated means d
    · intros; contradiction
  | combined connector parts =>
    rw [exchanged]
    · cases connector with
      | and =>
        rw [negated, Connector.other, truth, truth, map_truth_negated]
        exact (Truth.not_all _).symm
      | or =>
        rw [negated, Connector.other, truth, truth, map_truth_negated]
        exact (Truth.not_any _).symm
    · intros; contradiction
  | inSelect left negated inner =>
    rw [Predicate.negated, exchanged, truth, truth]
    · exact ite_not_not negated _
    · intros; contradiction
  | compareSelect left op quantifier inner =>
    rw [negated, exchanged, truth, truth]
    exact means.compareRows_invert op _ _ quantifier
  | rowExists negated inner =>
    rw [Predicate.negated, exchanged, truth, truth]
    · exact ite_not_not negated _
    · intros; contradiction
  | group negated body =>
    rw [Predicate.negated, exchanged, truth, truth]
    · exact ite_not_not negated _
    · intros; contradiction

/-- Whether an operand compares with the rows of a sub-select by a quantifier. -/
def Predicate.isQuantified : Predicate → Bool
  | .compareSelect _ _ quantifier _ => quantifier.isSome
  | _ => false

theorem Predicate.exchanged_of_not_isQuantified {p : Predicate} (h : p.isQuantified = false) :
    p.exchanged = p := by
  cases p with
  | compareSelect left op quantifier inner =>
    cases quantifier with
    | none => rfl
    | some quantifier => cases h
  | comparison | combined | inSelect | rowExists | group => rfl

/-- Without the exchange of the quantifier an operand is not negated: where the sub-select has no
row, ANY holds of none and ALL of all of them, whatever the operator. -/
theorem Predicate.negated_negates_iff {d : Dialect} {p : Predicate} :
    (∀ (α : Type) (means : Meaning α), p.negated.truth means d = (p.truth means d).not) ↔
      p.isQuantified = false := by
  constructor
  · intro h
    cases p with
    | compareSelect left op quantifier inner =>
      cases quantifier with
      | none => rfl
      | some quantifier =>
        have hrows := h Unit Meaning.rowless
        rw [negated, truth, truth] at hrows
        cases quantifier <;> cases hrows
    | comparison | combined | inSelect | rowExists | group => rfl
  · intro h α means
    rw [truth_negated, exchanged_of_not_isQuantified h]

end Sql

namespace Condition

/-- The same condition with the other quantifier. -/
def exchange (c : Condition) : Condition := { c with quantifier := c.quantifier.map .other }

/-- Whether a condition compares with the rows of a sub-select by a quantifier. -/
def isQuantified (c : Condition) : Bool :=
  c.quantifier.isSome && !c.op.isExists && c.subQuery?.isSome

theorem isQuantified_iff (c : Condition) :
    c.isQuantified ↔
      c.quantifier.isSome ∧ c.op.isExists = false ∧ ∃ nested, c.value = .query nested := by
  rw [isQuantified, Bool.and_eq_true, Bool.and_eq_true, and_assoc, Bool.not_eq_true', subQuery?]
  cases c.value <;> simp

theorem effectiveOp_toggle (c : Condition) : c.toggle.effectiveOp = c.effectiveOp.invert := by
  obtain ⟨field, op, value, negate, connector, quantifier, join⟩ := c
  cases negate <;> simp [toggle, effectiveOp]

theorem isExists_effectiveOp (c : Condition) : c.effectiveOp.isExists = c.op.isExists := by
  rw [effectiveOp]
  split
  · exact c.op.isExists_invert
  · rfl

end Condition

theorem Dialect.IsBuiltin.comparisonTail_eq_none {d : Dialect} (h : d.IsBuiltin) (f : Field)
    (op : Operator) : d.comparisonTail f op = none := by
  cases h <;> rfl

namespace Composer

variable {c : Composer} {opts : Options} {m : Model} {f : Field} {op : Operator}

section Parts

variable (ht : ∀ f op, c.dialect.comparisonTail f op = none)

include ht

theorem specialPart_invert (hop : op.isEquality) (v : Value) :
    c.specialPart m f op.invert v = (c.specialPart m f op v).negated := by
  rw [specialPart, specialPart, ht, ht]
  cases op with
  | eq | ne => rfl
  | gt | ge | lt | le | like | notLike | rowExists | noRowExists => cases hop

theorem ordinaryPart_invert (v : Value) :
    c.ordinaryPart m f op.invert v = (c.ordinaryPart m f op v).negated := by
  rw [ordinaryPart, ordinaryPart, ht, ht]
  rfl

theorem patternPart_invert (pattern : String) :
    c.patternPart m f op.invert pattern = (c.patternPart m f op pattern).negated := by
  rw [patternPart, patternPart, ht, ht]
  rfl

theorem valueComparison_invert {v : Value} {comparison : Sql.Comparison}
    (h : c.valueComparison m f op v = .ok comparison) :
    c.valueComparison m f op.invert v = .ok comparison.negated := by
  rw [valueComparison_eq_ok_iff] at h ⊢
  rw [Operator.isLike_invert, Operator.isEquality_invert]
  rcases h with ⟨hlike, pattern, hv, rfl⟩ | ⟨hop, hv, rfl⟩ | ⟨hlike, hspecial, hnull, rfl⟩
  · exact .inl ⟨hlike, pattern, hv, (patternPart_invert ht pattern).symm⟩
  · exact .inr (.inl ⟨hop, hv, (specialPart_invert ht hop v).symm⟩)
  · exact .inr (.inr ⟨hlike, hspecial, hnull, (ordinaryPart_invert ht v).symm⟩)

theorem listParts_invert (hop : op.isEquality) (values : List Value) :
    c.listParts m f op.invert values = (c.listParts m f op values).map .negated := by
  have hspecial : c.specialPart m f op.invert =
      Sql.Comparison.negated ∘ c.specialPart m f op :=
    funext fun v => specialPart_invert ht hop v
  have hne : (op.invert == .ne) = !(op == .ne) := by
    cases op with
    | eq | ne => rfl
    | gt | ge | lt | le | like | notLike | rowExists | noRowExists => cases hop
  rw [listParts, listParts, sharedParts, sharedParts, List.map_append, List.map_map, hspecial, hne]
  split <;> rfl

end Parts

theorem joinParts_invert (hop : op.isEquality) (parts : List Sql.Comparison) :
    joinParts op.invert (parts.map .negated) = (joinParts op parts).negated := by
  obtain _ | ⟨part, _ | ⟨next, rest⟩⟩ := parts
  all_goals
    cases op with
    | eq | ne => rfl
    | gt | ge | lt | le | like | notLike | rowExists | noRowExists => cases hop

theorem literalFits_invert (op : Operator) (literal : Literal) :
    literalFits op.invert literal = literalFits op literal := by
  rw [literalFits, literalFits, Operator.isLike_invert]

theorem selectPredicate_invert (hlike : op.isLike = false) (hexists : op.isExists = false)
    (left : Sql.Column) (quantifier : Option Quantifier) (inner : Sql.Select) :
    selectPredicate left op.invert quantifier inner =
      (selectPredicate left op quantifier inner).negated := by
  cases op with
  | eq | ne | gt | ge | lt | le => cases quantifier <;> rfl
  | like | notLike => cases hlike
  | rowExists | noRowExists => cases hexists

theorem joinParts_isQuantified (op : Operator) (parts : List Sql.Comparison) :
    (joinParts op parts).isQuantified = false := by
  obtain _ | ⟨part, _ | ⟨next, rest⟩⟩ := parts <;> rfl

theorem selectPredicate_exchange (left : Sql.Column) (op : Operator)
    (quantifier : Option Quantifier) (inner : Sql.Select) :
    selectPredicate left op (quantifier.map .other) inner =
      (selectPredicate left op quantifier inner).exchanged := by
  cases quantifier with
  | some quantifier => rfl
  | none => cases op <;> rfl

theorem selectPredicate_isQuantified (left : Sql.Column) (op : Operator)
    (quantifier : Option Quantifier) (inner : Sql.Select) :
    (selectPredicate left op quantifier inner).isQuantified = quantifier.isSome := by
  cases quantifier with
  | some quantifier => rfl
  | none => cases op <;> rfl

namespace OperandOf

variable {quantifier : Option Quantifier} {value : Operand} {p : Sql.Predicate}

/-- With the inverted operator a condition has the inverted operand. -/
theorem invert (ht : ∀ f op, c.dialect.comparisonTail f op = none)
    (h : c.OperandOf opts m f op quantifier value p) :
    c.OperandOf opts m f op.invert quantifier value p.negated := by
  cases h with
  | rowExists hexists hinner =>
    have hnegated : (op.invert == .noRowExists) = !(op == .noRowExists) := by
      cases op with
      | rowExists | noRowExists => rfl
      | eq | ne | gt | ge | lt | le | like | notLike => cases hexists
    rw [Sql.Predicate.negated, ← hnegated]
    exact .rowExists (by rw [Operator.isExists_invert, hexists]) hinner
  | list hop hvalues =>
    rw [← joinParts_invert hop, ← listParts_invert ht hop]
    exact .list (by rw [Operator.isEquality_invert, hop]) hvalues
  | value hexists hlist hcomparison =>
    exact .value (by rw [Operator.isExists_invert, hexists]) hlist
      (valueComparison_invert ht hcomparison)
  | column hexists hlike hright =>
    rw [ht, ← ht f op.invert]
    exact .column (by rw [Operator.isExists_invert, hexists])
      (by rw [Operator.isLike_invert, hlike]) hright
  | literal hexists hfits hright =>
    exact .literal (by rw [Operator.isExists_invert, hexists])
      (by rw [literalFits_invert, hfits]) hright
  | select hexists hlike hnested hinner =>
    rw [← selectPredicate_invert hlike hexists]
    exact .select (by rw [Operator.isExists_invert, hexists])
      (by rw [Operator.isLike_invert, hlike]) hnested hinner

/-- With the other quantifier a condition has the operand with the other quantifier. -/
theorem exchange (h : c.OperandOf opts m f op quantifier value p) :
    c.OperandOf opts m f op (quantifier.map .other) value p.exchanged := by
  cases h with
  | rowExists hexists hinner => exact .rowExists hexists hinner
  | list hop hvalues =>
    rw [Sql.Predicate.exchanged_of_not_isQuantified (joinParts_isQuantified op _)]
    exact .list hop hvalues
  | value hexists hlist hcomparison => exact .value hexists hlist hcomparison
  | column hexists hlike hright => exact .column hexists hlike hright
  | literal hexists hfits hright => exact .literal hexists hfits hright
  | select hexists hlike hnested hinner =>
    rw [← selectPredicate_exchange]
    exact .select hexists hlike hnested hinner

/-- An operand has a quantifier if its condition has one and compares with a sub-select. -/
theorem isQuantified_iff (h : c.OperandOf opts m f op quantifier value p) :
    p.isQuantified ↔ quantifier.isSome ∧ op.isExists = false ∧ ∃ nested, value = .query nested := by
  cases h with
  | rowExists hexists hinner => simp [Sql.Predicate.isQuantified, hexists]
  | list hop hvalues => simp [joinParts_isQuantified]
  | value | column | literal => simp [Sql.Predicate.isQuantified]
  | select hexists hlike hnested hinner => simp [selectPredicate_isQuantified, hexists]

end OperandOf

theorem predicate_toggle (hd : c.dialect.IsBuiltin) {condition : Condition} {p : Sql.Predicate}
    (h : c.predicate opts condition = .ok (some p)) :
    c.predicate opts condition.toggle = .ok (some p.negated) := by
  obtain ⟨m, f, hfield, hoperand⟩ := predicate_eq_some_iff.mp h
  refine predicate_eq_some_iff.mpr ⟨m, f, hfield, ?_⟩
  rw [Condition.effectiveOp_toggle]
  exact hoperand.invert hd.comparisonTail_eq_none

theorem predicate_exchange {condition : Condition} {p : Sql.Predicate}
    (h : c.predicate opts condition = .ok (some p)) :
    c.predicate opts condition.exchange = .ok (some p.exchanged) := by
  obtain ⟨m, f, hfield, hoperand⟩ := predicate_eq_some_iff.mp h
  exact predicate_eq_some_iff.mpr ⟨m, f, hfield, hoperand.exchange⟩

end Composer

/-- For the built-in dialects the operand of a toggled condition is, on every row, the negation of
the operand of the condition with the other quantifier. So toggling negates a condition exactly if
it does not compare with a sub-select by ANY or ALL. -/
theorem toggled_condition_negates_iff {c : Composer} (hd : c.dialect.IsBuiltin) {opts : Options}
    {condition : Condition} {p : Sql.Predicate}
    (h : c.predicate opts condition = .ok (some p)) :
    ∃ toggled exchanged, c.predicate opts condition.toggle = .ok (some toggled) ∧
      c.predicate opts condition.exchange = .ok (some exchanged) ∧
      (∀ (α : Type) (means : Meaning α),
        toggled.truth means c.dialect = (exchanged.truth means c.dialect).not) ∧
      ((∀ (α : Type) (means : Meaning α),
          toggled.truth means c.dialect = (p.truth means c.dialect).not) ↔
        condition.isQuantified = false) := by
  refine ⟨p.negated, p.exchanged, Composer.predicate_toggle hd h, Composer.predicate_exchange h,
    fun α means => p.truth_negated means _, ?_⟩
  obtain ⟨m, f, -, hoperand⟩ := Composer.predicate_eq_some_iff.mp h
  rw [Sql.Predicate.negated_negates_iff, ← Bool.not_eq_true, ← Bool.not_eq_true,
    hoperand.isQuantified_iff, Condition.isQuantified_iff, Condition.isExists_effectiveOp]

/-- A condition on users past some role of an administrator. -/
def pastSomeAdmin : Condition :=
  { Condition.of ⟨"User", "id"⟩ .gt (.query ⟨"Role", some ⟨"Role", "userID"⟩,
      [.condition (.of ⟨"Role", "name"⟩ .eq (.value (.string "admin")))]⟩) with
    quantifier := some .any }

/-- The users of the roles of an administrator. -/
def adminIds : Sql.Select where
  distinct := none
  list := .items [⟨.column ⟨"roles", "user_id", true⟩, none⟩]
  table := "roles"
  joins := []
  correlation := none
  filter := [⟨.and, .comparison
    (.compare ⟨"roles", "name", true⟩ .eq (.value (.string "admin") (some .text)) none)⟩]
  groupBy := []
  having := []
  orderBy := []
  rows := {}

/-- The comparison of the user of a row with some of them. -/
def comparedWithAdmins (op : Operator) : Sql.Predicate :=
  .compareSelect ⟨"users", "id", true⟩ op (some .any) adminIds

theorem members_pastSomeAdmin :
    members.predicate {} pastSomeAdmin = .ok (some (comparedWithAdmins .gt)) := by
  cbv

theorem toggled_condition_negates_iff_admins :
    members.dialect.IsBuiltin ∧
    members.predicate {} pastSomeAdmin = .ok (some (comparedWithAdmins .gt)) ∧
    ∃ toggled exchanged, members.predicate {} pastSomeAdmin.toggle = .ok (some toggled) ∧
      members.predicate {} pastSomeAdmin.exchange = .ok (some exchanged) ∧
      ∀ (α : Type) (means : Meaning α),
        toggled.truth means .sqlite = (exchanged.truth means .sqlite).not := by
  have hd : members.dialect.IsBuiltin := .sqlite
  obtain ⟨toggled, exchanged, htoggled, hexchanged, htruth, -⟩ :=
    toggled_condition_negates_iff hd members_pastSomeAdmin
  exact ⟨hd, members_pastSomeAdmin, toggled, exchanged, htoggled, hexchanged, htruth⟩

/-- A database in which the user of the row has the id 2, and administrators the ids 1 and 3. -/
def betweenAdmins : Meaning Nat where
  operand _ := some 2
  rows _ := [some 1, some 3]
  order := Ord.compare
  fits _ _ := false
  agrees a b := a == b

/-- A condition with ANY and its negation hold of one row. -/
theorem toggled_condition_holds_too :
    members.predicate {} pastSomeAdmin = .ok (some (comparedWithAdmins .gt)) ∧
    members.predicate {} pastSomeAdmin.toggle = .ok (some (comparedWithAdmins .le)) ∧
    (comparedWithAdmins .le).text .sqlite =
      "\"users\".\"id\" <= ANY(SELECT \"roles\".\"user_id\" FROM \"roles\" " ++
        "WHERE \"roles\".\"name\" = 'admin')" ∧
    (comparedWithAdmins .gt).truth betweenAdmins .sqlite = .yes ∧
    (comparedWithAdmins .le).truth betweenAdmins .sqlite = .yes := by
  refine ⟨members_pastSomeAdmin, Composer.predicate_toggle .sqlite members_pastSomeAdmin, rfl,
    ?_, ?_⟩
  · rw [comparedWithAdmins, Sql.Predicate.truth]
    rfl
  · rw [comparedWithAdmins, Sql.Predicate.truth]
    rfl

end SqlCompose
