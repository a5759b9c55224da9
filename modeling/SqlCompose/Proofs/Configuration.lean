import SqlCompose.Proofs.Success
import SqlCompose.Select.Statement

/-!
# What composition reads of the configuration

Names, literals, result columns, joins, grouping, ordering and limits depend on schema and dialect
only. The configuration has a say in comparisons with lists and in the treatment of repeated
conditions, and nowhere else in a SELECT statement.
-/

namespace SqlCompose.Composer

/-- The composer with other settings. -/
def withConfig (c : Composer) (config : Config) : Composer := { c with config := config }

variable (c : Composer) (config : Config)

@[simp] theorem withConfig_schema : (c.withConfig config).schema = c.schema := rfl

@[simp] theorem withConfig_dialect : (c.withConfig config).dialect = c.dialect := rfl

@[simp] theorem withConfig_config : (c.withConfig config).config = config := rfl

@[simp] theorem withConfig_columnOf : (c.withConfig config).columnOf = c.columnOf := rfl

@[simp] theorem withConfig_scope : (c.withConfig config).scope = c.scope := rfl

@[simp] theorem withConfig_joins : (c.withConfig config).joins = c.joins := rfl

@[simp] theorem withConfig_rowLimit : (c.withConfig config).rowLimit = c.rowLimit := rfl

@[simp] theorem withConfig_columnTexts : (c.withConfig config).columnTexts = c.columnTexts := rfl

@[simp] theorem withConfig_valueComparison :
    (c.withConfig config).valueComparison = c.valueComparison := rfl

@[simp] theorem withConfig_columnCondition :
    (c.withConfig config).columnCondition = c.columnCondition := rfl

@[simp] theorem withConfig_literalExpr : (c.withConfig config).literalExpr = c.literalExpr := by
  funext nested literal
  refine (Composer.literalExpr.mutual_induct
    (fun nested literal => (c.withConfig config).literalExpr nested literal =
      c.literalExpr nested literal)
    (fun nested escape kind => (c.withConfig config).kindExpr nested escape kind =
      c.kindExpr nested escape kind)
    (fun escape operand => (c.withConfig config).operandExpr escape operand =
      c.operandExpr escape operand)
    ?_ ?_ ?_ ?_ ?_ ?_ ?_ ?_ ?_ ?_).1 nested literal
  case refine_1 =>
    intro nested kind label escape ih
    rw [literalExpr, literalExpr, ih]
  case refine_3 =>
    intro nested escape inner ih
    rw [kindExpr, kindExpr, ih]
  case refine_6 =>
    intro nested escape function operand ih
    rw [kindExpr, kindExpr, ih]
  case refine_8 =>
    intro nested escape operand ih
    rw [kindExpr, kindExpr, ih]
    rfl
  case refine_10 =>
    intro escape inner ih
    rw [operandExpr, operandExpr, ih]
  all_goals
    intros
    simp only [kindExpr, operandExpr, withConfig_columnOf]

@[simp] theorem withConfig_expr : (c.withConfig config).expr = c.expr := by
  funext opts literal
  simp only [expr, withConfig_literalExpr]

@[simp] theorem withConfig_item : (c.withConfig config).item = c.item := by
  funext opts literal
  simp only [item, withConfig_expr]

@[simp] theorem withConfig_literalKey : (c.withConfig config).literalKey = c.literalKey := by
  funext opts literal
  simp only [literalKey, withConfig_expr, withConfig_dialect]

@[simp] theorem withConfig_applyProjection :
    (c.withConfig config).applyProjection = c.applyProjection := by
  have hproject : (c.withConfig config).projectItem = c.projectItem := by
    funext opts columns item
    cases item <;> simp [projectItem, projectField]
  have hunproject : (c.withConfig config).unprojectItem = c.unprojectItem := by
    funext opts columns item
    cases item <;> simp [unprojectItem]
  funext opts columns projection
  simp only [applyProjection, hproject, hunproject]

@[simp] theorem withConfig_listedColumns :
    (c.withConfig config).listedColumns = c.listedColumns := by
  have habsorb : (c.withConfig config).absorbOrder = c.absorbOrder := rfl
  funext opts q scope support
  simp only [listedColumns, nestedColumns, resultColumns, withConfig_applyProjection, habsorb]
  rfl

@[simp] theorem withConfig_distinctExpr : (c.withConfig config).distinctExpr = c.distinctExpr := by
  funext opts operand
  rcases operand with _ | _ | operand
  · rfl
  · rfl
  · simp only [distinctExpr, withConfig_expr]

@[simp] theorem withConfig_groupExprs : (c.withConfig config).groupExprs = c.groupExprs := by
  have hgroup : (c.withConfig config).groupExpr = c.groupExpr := by
    funext opts e
    cases e <;> simp [groupExpr]
  funext opts q
  simp only [groupExprs, hgroup]
  rfl

@[simp] theorem withConfig_orderTerms : (c.withConfig config).orderTerms = c.orderTerms := by
  have horder : (c.withConfig config).orderTerm = c.orderTerm := by
    funext opts support scope entry
    simp only [orderTerm, withConfig_expr, withConfig_schema]
    rfl
  funext opts support scope q
  simp only [orderTerms, horder]

@[simp] theorem withConfig_literalCondition :
    (c.withConfig config).literalCondition = c.literalCondition := by
  funext m f op literal
  simp only [literalCondition, withConfig_literalExpr]

end SqlCompose.Composer
