import SqlCompose.Proofs.JoinPlan
import SqlCompose.Proofs.Lexical.NoRaw
import SqlCompose.Proofs.Lexical.Text
import SqlCompose.Proofs.ProjectedNames
import SqlCompose.Select.Statement

/-!
# Result columns are neutral

Without raw SQL every column is quoted, so literals have neutral expressions and every item of a
SELECT list, whatever projection records brought it there, has a neutral text.
-/

namespace SqlCompose

namespace Composer

open Quoting

variable {c : Composer} {rules : Quoting}

theorem quoted_of_columnOf {ref : FieldRef} {quoted : Bool} {column : Sql.Column}
    (h : c.columnOf ref quoted = .ok column) : column.quoted = quoted := by
  obtain ⟨m, f, -, -, rfl⟩ := columnOf_eq_ok h
  rfl

/-- The texts of result columns are neutral. -/
def ColumnsNeutral (c : Composer) (rules : Quoting) (columns : ResultColumns) : Prop :=
  ∀ item ∈ columns.values, rules.Neutral (item.text c.dialect)

mutual

theorem neutral_literalExpr (hd : c.dialect.Regular rules) {nested : Bool} :
    ∀ {literal : Literal} {e : Sql.Expr}, literal.hasNoRaw →
      c.literalExpr nested literal = .ok e → rules.Neutral (e.text c.dialect)
  | ⟨kind, label, escape⟩, e, hn, h => by
      rw [Literal.hasNoRaw, Bool.and_eq_true] at hn
      rw [literalExpr, hn.1] at h
      exact neutral_kindExpr hd hn.2 h

theorem neutral_kindExpr (hd : c.dialect.Regular rules) {nested : Bool} :
    ∀ {kind : LiteralKind} {e : Sql.Expr}, kind.hasNoRaw →
      c.kindExpr nested true kind = .ok e → rules.Neutral (e.text c.dialect)
  | .raw sql, e, hn, h => by cases hn
  | .countAll, e, hn, h => by
      cases h
      rw [Sql.Expr.text]
      exact hd.piece (by decide)
  | .distinctAll, e, hn, h => by
      cases h
      rw [Sql.Expr.text]
      exact hd.piece (by decide)
  | .field (.field ref), e, hn, h => by
      simp only [kindExpr, bind_eq_ok, pure_eq_ok] at h
      obtain ⟨column, hcolumn, rfl⟩ := h
      exact Sql.neutral_column hd (quoted_of_columnOf hcolumn)
  | .field (.literal inner), e, hn, h => by
      rw [LiteralKind.hasNoRaw, LiteralOperand.hasNoRaw] at hn
      rw [kindExpr] at h
      exact neutral_literalExpr hd hn h
  | .aggregate function operand, e, hn, h => by
      rw [LiteralKind.hasNoRaw] at hn
      simp only [kindExpr, bind_eq_ok, pure_eq_ok] at h
      obtain ⟨argument, hargument, rfl⟩ := h
      exact Sql.neutral_aggregate hd function (neutral_operandExpr hd hn hargument)
  | .distinct operand, e, hn, h => by
      rw [LiteralKind.hasNoRaw] at hn
      rw [kindExpr, bind_eq_ok] at h
      obtain ⟨argument, hargument, h⟩ := h
      have htext := neutral_operandExpr hd hn hargument
      split at h
      · cases h
        rw [Sql.Expr.text]
        exact (hd.piece (by decide)).append htext
      · split at h
        · cases h
          rw [Sql.Expr.text]
          exact hd.wrapped (by decide) htext
        · cases h

theorem neutral_operandExpr (hd : c.dialect.Regular rules) :
    ∀ {operand : LiteralOperand} {e : Sql.Expr}, operand.hasNoRaw →
      c.operandExpr true operand = .ok e → rules.Neutral (e.text c.dialect)
  | .field ref, e, hn, h => by
      simp only [operandExpr, bind_eq_ok, pure_eq_ok] at h
      obtain ⟨column, hcolumn, rfl⟩ := h
      exact Sql.neutral_column hd (quoted_of_columnOf hcolumn)
  | .literal inner, e, hn, h => by
      rw [LiteralOperand.hasNoRaw] at hn
      rw [operandExpr] at h
      exact neutral_literalExpr hd hn h

end

variable (hd : c.dialect.Regular rules)

include hd

theorem neutral_expr {opts : Options} {literal : Literal} {e : Sql.Expr} (hn : literal.hasNoRaw)
    (h : c.expr opts literal = .ok e) : rules.Neutral (e.text c.dialect) :=
  neutral_literalExpr hd hn h

theorem neutral_item {opts : Options} {literal : Literal} {item : Sql.Item}
    (hn : literal.hasNoRaw) (h : c.item opts literal = .ok item) :
    rules.Neutral (item.text c.dialect) := by
  simp only [Composer.item, bind_eq_ok, pure_eq_ok] at h
  obtain ⟨e, he, rfl⟩ := h
  exact Sql.neutral_item hd (neutral_expr hd hn he)

theorem neutral_distinct {opts : Options} {q : Query} (hn : q.hasNoRaw)
    {distinct : Option Sql.Expr} (h : c.distinctExpr opts q.distinct? = .ok distinct) :
    ∀ e, distinct = some e → rules.Neutral (e.text c.dialect) := by
  intro e he
  subst he
  rcases hq : q.distinct? with _ | _ | operand
  · rw [hq] at h
    cases h
  · rw [hq] at h
    cases h
    rw [Sql.Expr.text]
    exact hd.piece (by decide)
  · rw [hq, distinctExpr] at h
    simp only [bind_eq_ok, pure_eq_ok] at h
    obtain ⟨e, he, heq⟩ := h
    cases heq
    refine neutral_expr hd ?_ he
    have hclean := Query.hasNoRaw_of_distinct hn hq
    simpa [Literal.of, Literal.hasNoRaw, LiteralKind.hasNoRaw] using hclean

theorem neutral_columnItem (opts : Options) (key : String) {column : Sql.Column}
    (hq : column.quoted) :
    rules.Neutral ((columnItem opts key column).text c.dialect) :=
  Sql.neutral_item hd (Sql.neutral_column hd hq)

/-- What a SELECT lists is neutral. -/
theorem columnsNeutral_of_listedColumns {opts : Options} {q : Query} (hn : q.hasNoRaw)
    {scope : Scope} {support : OrderSupport} {columns : ResultColumns}
    (h : c.listedColumns opts q scope support = .ok columns) : c.ColumnsNeutral rules columns := by
  have hitems : ∀ item ∈ q.projectedItems, item.hasNoRaw := by
    intro item hitem
    obtain ⟨projection, hprojection, hitem⟩ := List.mem_flatMap.mp hitem
    exact Query.hasNoRaw_of_mem_projections hn hprojection item hitem
  have hall : columns.Forall fun _ item => rules.Neutral (item.text c.dialect) := by
    refine forall_listedColumns ⟨fun _ => ?_, fun _ _ => ?_, fun hmem _ hitem => ?_, fun hmem => ?_⟩ h
    · exact neutral_columnItem hd _ _ rfl
    · exact neutral_columnItem hd _ _ rfl
    · exact neutral_item hd (hitems _ hmem) hitem
    · cases hitems _ hmem
  intro item hitem
  obtain ⟨entry, hentry, rfl⟩ := List.mem_map.mp hitem
  exact hall entry hentry

end Composer

end SqlCompose
