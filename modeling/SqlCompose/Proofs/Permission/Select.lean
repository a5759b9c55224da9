import SqlCompose.Proofs.Composition
import SqlCompose.Proofs.Permission.Refusal

/-!
# SELECT statements under a more permissive setting

A SELECT statement asks for a permission in three places: for a DISTINCT ON, for a full join and
for a comparison with an empty list. Everything between them is composed alike, so the statement
stays as it is, and so does every refusal of another kind.
-/

namespace SqlCompose

namespace Sql

variable (d : Dialect) (cap : Capability)

@[simp] theorem Expr.text_withCapability (e : Expr) :
    e.text (d.withCapability cap) = e.text d := by
  induction e with
  | raw | column | countAll | distinctAll => rfl
  | aggregate function argument ih | distinct argument ih | distinctOn argument ih =>
    rw [Expr.text, Expr.text, ih]

@[simp] theorem Item.text_withCapability (item : Item) :
    item.text (d.withCapability cap) = item.text d := by
  simp only [Item.text, Expr.text_withCapability]
  rfl

@[simp] theorem Term.text_withCapability (t : Term) :
    t.text (d.withCapability cap) = t.text d := by
  cases t with
  | value v type => rfl
  | expr e => exact e.text_withCapability d cap

@[simp] theorem Comparison.text_withCapability (c : Comparison) :
    c.text (d.withCapability cap) = c.text d := by
  cases c <;> simp only [Comparison.text, Term.text_withCapability] <;> rfl

@[simp] theorem SelectList.sql_withCapability (list : SelectList) :
    list.sql (d.withCapability cap) = list.sql d := by
  cases list <;> simp only [SelectList.sql, Item.text_withCapability]

@[simp] theorem OrderTerm.text_withCapability (t : OrderTerm) :
    t.text (d.withCapability cap) = t.text d := by
  rw [OrderTerm.text, OrderTerm.text, Expr.text_withCapability]

mutual

@[simp] theorem Predicate.text_withCapability :
    ∀ p : Predicate, p.text (d.withCapability cap) = p.text d
  | .comparison c => by rw [Predicate.text, Predicate.text, Comparison.text_withCapability]
  | .combined connector parts => by
      simp only [Predicate.text, Comparison.text_withCapability]
  | .inSelect left negated inner => by
      rw [Predicate.text, Predicate.text, Select.text_withCapability inner]
      rfl
  | .compareSelect left op quantifier inner => by
      rw [Predicate.text, Predicate.text, Select.text_withCapability inner]
      rfl
  | .rowExists negated inner => by
      rw [Predicate.text, Predicate.text, Select.text_withCapability inner]
  | .group negated body => by
      rw [Predicate.text, Predicate.text, linkTexts_withCapability body]

@[simp] theorem linkTexts_withCapability :
    ∀ links : List Link, linkTexts (d.withCapability cap) links = linkTexts d links
  | [] => by rw [linkTexts, linkTexts]
  | ⟨connector, operand⟩ :: rest => by
      rw [linkTexts, linkTexts, Predicate.text_withCapability operand,
        linkTexts_withCapability rest]

@[simp] theorem Select.text_withCapability :
    ∀ s : Select, s.text (d.withCapability cap) = s.text d
  | ⟨distinct, list, table, joins, correlation, filter, groupBy, having, orderBy, rows⟩ => by
      have hfilter := linkTexts_withCapability filter
      have hhaving := linkTexts_withCapability having
      have hgroup : groupBy.map (Expr.text (d.withCapability cap)) = groupBy.map (Expr.text d) :=
        List.map_congr_left fun e _ => Expr.text_withCapability d cap e
      have horder : orderBy.map (OrderTerm.text (d.withCapability cap)) =
          orderBy.map (OrderTerm.text d) :=
        List.map_congr_left fun t _ => OrderTerm.text_withCapability d cap t
      rw [Select.text.eq_def, Select.text.eq_def]
      simp only [hfilter, hhaving, SelectList.sql_withCapability, hgroup, horder]
      cases distinct with
      | none => rfl
      | some e =>
        simp only [Expr.text_withCapability]
        rfl

end

end Sql

theorem dropRepeats_withCapability (d : Dialect) (cap : Capability) (previous : Option String)
    (links : List Sql.Link) :
    dropRepeats (d.withCapability cap) previous links = dropRepeats d previous links := by
  induction links generalizing previous with
  | nil => rfl
  | cons link rest ih => simp only [dropRepeats, Sql.Predicate.text_withCapability, ih]

namespace Composer

variable (c : Composer) (cap : Capability) (policy : EmptyListPolicy)

theorem granting_settle : (c.granting cap policy).settle = c.settle := by
  funext links
  simp only [settle, granting, dropRepeats_withCapability]

theorem granting_columnTexts : (c.granting cap policy).columnTexts = c.columnTexts := by
  funext columns
  simp only [columnTexts, granting, Sql.Item.text_withCapability]

theorem granting_clauseOptions : (c.granting cap policy).clauseOptions = c.clauseOptions := by
  funext opts q columns
  simp only [clauseOptions, granting_columnTexts]

variable {c cap policy}

/-- Composition under a grant gives what it gives without, or was refused without for what is
granted. -/
abbrev Relaxed {α : Type} (c : Composer) (cap : Capability) (policy : EmptyListPolicy)
    (f : Composer → Except Error α) : Prop :=
  Relaxes (c.Lifts cap policy) (f c) (f (c.granting cap policy))

mutual

theorem relaxed_literalExpr (h : c.Grants cap policy) (nested : Bool) :
    ∀ literal : Literal, c.Relaxed cap policy (·.literalExpr nested literal)
  | ⟨kind, _, escape⟩ => by
      simp only [Relaxed, literalExpr]
      exact relaxed_kindExpr h nested escape kind

theorem relaxed_kindExpr (h : c.Grants cap policy) (nested escape : Bool) :
    ∀ kind : LiteralKind, c.Relaxed cap policy (·.kindExpr nested escape kind)
  | .raw _ | .countAll | .distinctAll | .field (.field _) => by
      simp only [Relaxed, kindExpr]
      exact .refl _
  | .field (.literal inner) => by
      simp only [Relaxed, kindExpr]
      exact relaxed_literalExpr h nested inner
  | .aggregate function operand => by
      simp only [Relaxed, kindExpr]
      exact (relaxed_operandExpr h escape operand).bind_left _
  | .distinct operand => by
      simp only [Relaxed, kindExpr]
      refine (relaxed_operandExpr h escape operand).bind fun argument => ?_
      cases nested with
      | true => exact .refl _
      | false => exact .provided h.distinctOn (fun hs hg => .distinctOn hs hg) (.refl _)

theorem relaxed_operandExpr (h : c.Grants cap policy) (escape : Bool) :
    ∀ operand : LiteralOperand, c.Relaxed cap policy (·.operandExpr escape operand)
  | .field _ => by
      simp only [Relaxed, operandExpr]
      exact .refl _
  | .literal inner => by
      simp only [Relaxed, operandExpr]
      exact relaxed_literalExpr h true inner

end

section Clauses

variable (h : c.Grants cap policy)

include h

theorem relaxed_expr (opts : Options) (literal : Literal) :
    c.Relaxed cap policy (·.expr opts literal) := relaxed_literalExpr h opts.subField literal

theorem relaxed_item (opts : Options) (literal : Literal) :
    c.Relaxed cap policy (·.item opts literal) := (relaxed_expr h opts literal).bind_left _

theorem relaxed_exprText (opts : Options) (literal : Literal) :
    c.Relaxed cap policy fun c => do return (← c.expr opts literal).text c.dialect := by
  refine (relaxed_expr h opts literal).bind fun e => .of_eq ?_
  rw [granting, Sql.Expr.text_withCapability]

theorem relaxed_literalKey (opts : Options) (literal : Literal) :
    c.Relaxed cap policy (·.literalKey opts literal) := by
  simp only [Relaxed, literalKey]
  split
  · exact .refl _
  · split
    · exact .refl _
    · exact relaxed_exprText h opts literal

theorem relaxed_projectItem (opts : Options) (columns : ResultColumns) (item : ProjectionItem) :
    c.Relaxed cap policy (·.projectItem opts columns item) := by
  cases item with
  | field | model | raw => exact .refl _
  | literal literal =>
    exact (relaxed_literalKey h opts literal).bind fun key =>
      (relaxed_item h opts literal).bind_left _

theorem relaxed_unprojectItem (opts : Options) (columns : ResultColumns) (item : ProjectionItem) :
    c.Relaxed cap policy (·.unprojectItem opts columns item) := by
  cases item with
  | field | model | raw => exact .refl _
  | literal literal => exact (relaxed_literalKey h opts literal).bind_left _

theorem relaxed_applyProjection (opts : Options) (columns : ResultColumns)
    (projection : Projection) :
    c.Relaxed cap policy (·.applyProjection opts columns projection) := by
  obtain ⟨mode, items⟩ := projection
  cases mode with
  | replace | add => exact .foldlM (relaxed_projectItem h opts) items _
  | remove => exact .foldlM (relaxed_unprojectItem h opts) items _

theorem relaxed_nestedColumns (opts : Options) (q : Query) :
    c.Relaxed cap policy (·.nestedColumns opts q) := by
  simp only [Relaxed, nestedColumns]
  split
  · exact .refl _
  · exact .refl _
  · exact .foldlM (relaxed_applyProjection h _) _ _

theorem relaxed_resultColumns (opts : Options) (q : Query) (scope : Scope) (absorb : Bool) :
    c.Relaxed cap policy (·.resultColumns opts q scope absorb) := by
  refine Relaxes.bind (.foldlM (relaxed_applyProjection h _) _ _) fun projected => ?_
  cases absorb <;> exact .refl _

theorem relaxed_listedColumns (opts : Options) (q : Query) (scope : Scope)
    (support : OrderSupport) : c.Relaxed cap policy (·.listedColumns opts q scope support) := by
  simp only [Relaxed, listedColumns]
  split
  · exact .refl _
  · split
    · exact relaxed_nestedColumns h opts q
    · exact relaxed_resultColumns h opts q scope _

theorem relaxed_distinctExpr (opts : Options) (operand : Option (Option LiteralOperand)) :
    c.Relaxed cap policy (·.distinctExpr opts operand) := by
  rcases operand with _ | _ | operand
  · exact .refl _
  · exact .refl _
  · exact (relaxed_expr h opts _).bind_left _

theorem relaxed_join (group : JoinGroup) : c.Relaxed cap policy (·.join group) := by
  refine .bind_right _ fun m => ?_
  cases group.edges with
  | nil => exact .refl _
  | cons first more =>
    refine .bind_right _ fun comparison => .bind_left (.guarded ?_ ?_ (.refl _)) _
    · exact fun hq => ⟨hq.1, fun hs => hq.2 (h.fullJoin hs)⟩
    · exact fun hp hq => .fullJoin hp.2 (by_contra fun hg => hq ⟨hp.1, hg⟩)

theorem relaxed_joins (plan : JoinPlan) : c.Relaxed cap policy (·.joins plan) :=
  .bind_left (.mapM (relaxed_join h) plan.groups) _

theorem relaxed_groupExprs (opts : Options) (q : Query) :
    c.Relaxed cap policy (·.groupExprs opts q) := by
  refine Relaxes.bind (.mapM (fun e => ?_) q.groupBy) fun exprs => .of_eq ?_
  · cases e with
    | field => exact .refl _
    | literal literal => exact relaxed_expr h opts literal
  · simp only [granting, Sql.Expr.text_withCapability]

theorem relaxed_orderTerm (opts : Options) (support : OrderSupport) (scope : Scope)
    (entry : OrderEntry) : c.Relaxed cap policy (·.orderTerm opts support scope entry) := by
  obtain ⟨e, direction⟩ := entry
  cases e with
  | field => exact .refl _
  | literal literal => exact (relaxed_expr h opts literal).bind_left _

theorem relaxed_orderTerms (opts : Options) (support : OrderSupport) (scope : Scope) (q : Query) :
    c.Relaxed cap policy (·.orderTerms opts support scope q) :=
  .bind_left (.mapM (relaxed_orderTerm h opts support scope) q.order) _

theorem relaxed_listCondition (m : Model) (f : Field) (op : Operator) (values : List Value) :
    c.Relaxed cap policy (·.listCondition m f op values) := by
  simp only [Relaxed, listCondition]
  split
  · refine .bind_right (c.listComparisons m f op (c.dialect.normalize f values)) fun parts => ?_
    split
    · have hpolicy : (c.granting cap policy).config.emptyList = policy := rfl
      rw [hpolicy]
      cases hs : c.config.emptyList with
      | elide =>
        rw [h.emptyList hs]
        exact .refl _
      | refuse =>
        cases policy with
        | refuse => exact .refl _
        | elide => exact .inr ⟨_, .emptyList op f.fullName hs rfl, rfl⟩
    · exact .refl _
    · exact .refl _
  · exact .refl _

theorem relaxed_literalCondition (m : Model) (f : Field) (op : Operator) (literal : Literal) :
    c.Relaxed cap policy (·.literalCondition m f op literal) := by
  simp only [Relaxed, literalCondition]
  split
  · exact .refl _
  · exact .refl _
  · exact (relaxed_literalExpr h true literal).bind_left _

/-- The clauses of a SELECT statement are relaxed one by one. -/
theorem relaxed_selectTree_of_ops {q : Query}
    (hlinks : ∀ opts, c.Relaxed cap policy (·.links opts q.ops))
    (hhaving : ∀ opts, c.Relaxed cap policy (·.havingLinks opts q.ops))
    (opts : Options) (correlation : Option Sql.Correlation) :
    c.Relaxed cap policy (·.selectTree opts correlation q) := by
  rw [Relaxed, selectTree_eq, selectTree_eq, granting_clauseOptions, granting_settle]
  refine .bind_right _ fun plan => .bind_right _ fun scope => ?_
  refine .bind (relaxed_listedColumns h _ q scope _) fun columns => ?_
  refine .bind (relaxed_distinctExpr h _ _) fun distinct => ?_
  refine .bind (relaxed_joins h plan) fun joins => .bind (hlinks _) fun filter => ?_
  refine .bind (relaxed_groupExprs h _ q) fun groupBy => ?_
  refine .ite_bind (.refl _) (hhaving _) fun having => ?_
  exact .ite_bind (relaxed_orderTerms h _ _ scope q) (.refl _) fun orderBy => .refl _

theorem relaxed_predicate {condition : Condition}
    (hnested : ∀ nested, condition.value = .query nested → ∀ opts correlation,
      c.Relaxed cap policy (·.selectTree opts correlation nested))
    (opts : Options) : c.Relaxed cap policy (·.predicate opts condition) := by
  obtain ⟨field, op, value, negate, connector, quantifier, join⟩ := condition
  rw [Relaxed, predicate, predicate]
  refine .bind_right (c.schema.resolve field) fun mf => ?_
  obtain ⟨m, f⟩ := mf
  dsimp only
  generalize (if negate = true then op.invert else op) = op
  by_cases hexists : op.isExists
  · rw [if_pos hexists, if_pos hexists]
    cases value with
    | query nested => exact (hnested nested rfl _ none).bind_left _
    | value | field | literal => exact .refl _
  · rw [if_neg hexists, if_neg hexists]
    cases value with
    | value v =>
      cases v with
      | list values => exact relaxed_listCondition h m f op values
      | _ => exact .refl _
    | field other => exact .refl _
    | literal literal => exact (relaxed_literalCondition h m f op literal).bind_left _
    | query nested =>
      dsimp only
      split
      · exact .refl _
      · split
        · exact .refl _
        · exact (hnested nested rfl _ none).bind_left _

/-- What a record list gives for the WHERE and the HAVING clause. -/
def RelaxedOperands (c : Composer) (cap : Capability) (policy : EmptyListPolicy)
    (ops : List Operation) : Prop :=
  ∀ opts, c.Relaxed cap policy (·.links opts ops) ∧ c.Relaxed cap policy (·.havingLinks opts ops)

omit h in
theorem relaxedOperands_cons {op : Operation} {rest : List Operation}
    (hop : op.Parts (fun condition => ∀ opts, c.Relaxed cap policy (·.predicate opts condition))
      (c.RelaxedOperands cap policy))
    (hrest : c.RelaxedOperands cap policy rest) : c.RelaxedOperands cap policy (op :: rest) := by
  intro opts
  obtain ⟨hlinks, hhaving⟩ := hrest opts
  simp only [Relaxed] at hlinks hhaving ⊢
  cases op with
  | condition condition =>
    simp only [links, havingLinks]
    exact ⟨(hop.condition rfl opts).bind fun operand => hlinks.bind_left _, hhaving⟩
  | group g =>
    obtain ⟨connector, negated, _ | ⟨model, target, inner⟩⟩ := g
    · simp only [links, havingLinks]
      exact ⟨hlinks, hhaving⟩
    · simp only [links, havingLinks, granting_settle]
      exact ⟨(hop.group rfl opts).1.bind fun body => hlinks.bind_left _, hhaving⟩
  | having q =>
    obtain ⟨model, target, inner⟩ := q
    simp only [links, havingLinks]
    refine ⟨hlinks, ?_⟩
    split
    · exact hhaving
    · exact (hop.having rfl opts).1
  | project | order | groupBy | distinct | limit | offset =>
    simp only [links, havingLinks]
    exact ⟨hlinks, hhaving⟩

/-- Nested statements are relaxed at any depth. -/
theorem composition_relaxed :
    (∀ q opts correlation, c.Relaxed cap policy (·.selectTree opts correlation q)) ∧
    (∀ ops, c.RelaxedOperands cap policy ops) ∧
    (∀ condition opts, c.Relaxed cap policy (·.predicate opts condition)) := by
  apply Query.composition_induct
  case hquery =>
    intro model target ops hops opts correlation
    exact relaxed_selectTree_of_ops h (fun opts => (hops opts).1) (fun opts => (hops opts).2) opts
      correlation
  case hcondition =>
    intro condition hnested opts
    exact relaxed_predicate h hnested opts
  case hnil =>
    intro opts
    simp only [Relaxed, links, havingLinks]
    exact ⟨.refl _, .refl _⟩
  case hcons =>
    intro op rest hop hrest
    exact relaxedOperands_cons hop hrest

theorem relaxed_selectTree (opts : Options) (correlation : Option Sql.Correlation) (q : Query) :
    c.Relaxed cap policy (·.selectTree opts correlation q) :=
  (composition_relaxed h).1 q opts correlation

theorem relaxed_filter (opts : Options) (q : Query) :
    c.Relaxed cap policy (·.filter opts q) := by
  simp only [Relaxed, filter, granting_settle]
  exact ((composition_relaxed h).2.1 q.ops opts).1.bind_left _

theorem relaxed_select (opts : Options) (q : Query) :
    c.Relaxed cap policy (·.select opts q) := by
  simp only [Relaxed, select, granting_columnTexts]
  refine .bind (relaxed_selectTree h _ none q) fun result => .of_eq ?_
  simp only [granting, Sql.Select.text_withCapability]

end Clauses

end Composer

end SqlCompose
