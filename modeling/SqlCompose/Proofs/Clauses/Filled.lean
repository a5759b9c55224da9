import SqlCompose.Proofs.Correlation
import SqlCompose.Proofs.Lexical.Literal
import SqlCompose.Proofs.Lexical.NoRaw
import SqlCompose.Proofs.ProjectedNames

/-!
# Filled clauses

A clause is filled if something stands behind its keyword. WHERE, HAVING, GROUP BY and ORDER BY are
printed for what they hold, so there the entries have to have a text. ON, IN, SET, VALUES and the
SELECT list are printed in any case, so they have to have entries at all. A raw text of the caller
may be empty; `spellsRaw` says of records and fields that theirs are not.
-/

namespace SqlCompose

namespace Sql

/-- The list of an IN has entries, each with a text. -/
def Comparison.Filled (d : Dialect) : Comparison → Prop
  | .inList _ _ entries => entries ≠ [] ∧ ∀ entry ∈ entries, entry.text d ≠ ""
  | .compare _ _ _ _ | .is _ _ _ _ => True

/-- The list has items, each with a text. -/
def SelectList.Filled (d : Dialect) : SelectList → Prop
  | .text sql => sql ≠ ""
  | .items entries => entries ≠ [] ∧ ∀ entry ∈ entries, entry.expr.text d ≠ ""

/-- Every entry of an ORDER BY clause has an expression with a text. -/
def OrderFilled (d : Dialect) (terms : List OrderTerm) : Prop :=
  ∀ term ∈ terms, term.expr.text d ≠ ""

mutual

/-- No clause inside an operand is empty; SELECT lists count where `lists` holds. -/
inductive Predicate.Filled (d : Dialect) (lists : Prop) : Predicate → Prop
  | comparison {c : Comparison} (h : c.Filled d) : Predicate.Filled d lists (.comparison c)
  | combined {connector : Connector} {parts : List Comparison} (hne : parts ≠ [])
      (h : ∀ part ∈ parts, part.Filled d) : Predicate.Filled d lists (.combined connector parts)
  | inSelect {left : Column} {negated : Bool} {inner : Select} (h : Select.Filled d lists inner)
      (list : lists → inner.list.Filled d) : Predicate.Filled d lists (.inSelect left negated inner)
  | compareSelect {left : Column} {op : Operator} {quantifier : Option Quantifier}
      {inner : Select} (h : Select.Filled d lists inner) (list : lists → inner.list.Filled d) :
      Predicate.Filled d lists (.compareSelect left op quantifier inner)
  | rowExists {negated : Bool} {inner : Select} (h : Select.Filled d lists inner)
      (list : inner.list.Filled d) : Predicate.Filled d lists (.rowExists negated inner)
  | group {negated : Bool} {body : List Link} (hne : body ≠ [])
      (h : ∀ link ∈ body, Predicate.Filled d lists link.operand) :
      Predicate.Filled d lists (.group negated body)

/-- No clause behind the list of a SELECT is empty, nor one inside its operands; of their lists
those of an EXISTS count anyway, the others where `lists` holds. -/
inductive Select.Filled (d : Dialect) (lists : Prop) : Select → Prop
  | intro {s : Select} (joins : ∀ join ∈ s.joins, join.comparisons ≠ [])
      (filter : ∀ link ∈ s.filter, Predicate.Filled d lists link.operand)
      (groupBy : ∀ e ∈ s.groupBy, e.text d ≠ "")
      (having : ∀ link ∈ s.having, Predicate.Filled d lists link.operand)
      (orderBy : OrderFilled d s.orderBy) : Select.Filled d lists s

end

/-- A text is empty, or its keyword is followed by something. -/
def Opens (keyword text : String) : Prop := text = "" ∨ ∃ rest, rest ≠ "" ∧ text = keyword ++ rest

theorem intercalate_ne_empty (separator : String) {first : String} (h : first ≠ "")
    (rest : List String) : separator.intercalate (first :: rest) ≠ "" := by
  cases rest with
  | nil => rwa [String.intercalate_singleton]
  | cons next rest =>
    rw [String.intercalate_cons_cons]
    exact append_ne_empty_left _ (append_ne_empty_left _ h)

theorem opens_clauseText (keyword : String) {entries : List String}
    (h : ∀ entry ∈ entries, entry ≠ "") : Opens keyword (clauseText keyword entries) := by
  rw [clauseText]
  cases entries with
  | nil => exact .inl rfl
  | cons first rest =>
    have hfirst := intercalate_ne_empty ", " (h first List.mem_cons_self) rest
    exact .inr ⟨_, hfirst, rfl⟩

theorem opens_whereText (d : Dialect) (correlation : Option Correlation) (filter : String) :
    Opens " WHERE " (whereText (correlation.map (·.text d)) filter) := by
  cases correlation with
  | none =>
    by_cases hf : filter = ""
    · exact .inl (if_pos hf)
    · exact .inr ⟨filter, hf, if_neg hf⟩
  | some tie =>
    have htie : tie.text d ≠ "" :=
      append_ne_empty_left _ (append_ne_empty_right _ (by decide))
    by_cases hf : filter = ""
    · exact .inr ⟨_, htie, if_pos hf⟩
    · refine .inr ⟨tie.text d ++ (" AND (" ++ filter ++ ")"), append_ne_empty_left _ htie, ?_⟩
      rw [Option.map_some, whereText, if_neg hf]
      simp only [String.append_assoc]

theorem opens_havingText (filter : String) : Opens " HAVING (" (havingText filter) := by
  by_cases hf : filter = ""
  · exact .inl (if_pos hf)
  · refine .inr ⟨filter ++ ")", append_ne_empty_left _ hf, ?_⟩
    rw [havingText, if_neg hf, String.append_assoc]

theorem opens_orderText {d : Dialect} {terms : List OrderTerm} (h : OrderFilled d terms) :
    Opens " ORDER BY " (clauseText " ORDER BY " (terms.map (·.text d))) := by
  refine opens_clauseText _ (List.forall_mem_map.mpr fun term hterm => ?_)
  exact append_ne_empty_left _ (append_ne_empty_left _ (h term hterm))

/-- The text of a SELECT in which every clause behind the joins is left out or has something behind
its keyword. -/
def Select.ClausesOpen (d : Dialect) (s : Select) : Prop :=
  ∃ filter groups having order,
    s.text d = s.opening d ++ filter ++ groups ++ having ++ order ++ s.rows.text d ∧
      Opens " WHERE " filter ∧ Opens " GROUP BY " groups ∧ Opens " HAVING (" having ∧
      Opens " ORDER BY " order

theorem Select.Filled.clausesOpen {d : Dialect} {lists : Prop} {s : Select}
    (h : s.Filled d lists) : s.ClausesOpen d := by
  obtain ⟨-, -, hgroup, -, horder⟩ := h
  refine ⟨_, _, _, _, ?_, opens_whereText d s.correlation (chainText (linkTexts d s.filter)),
    opens_clauseText _ (List.forall_mem_map.mpr hgroup),
    opens_havingText (chainText (linkTexts d s.having)), opens_orderText horder⟩
  rw [Select.text_eq, Select.closing]
  simp only [String.append_assoc]

theorem Column.text_ne_empty (d : Dialect) (c : Column) : c.text d ≠ "" := by
  rw [Column.text]
  split <;> exact append_ne_empty_left _ (append_ne_empty_right _ (by decide))

end Sql

/-- A record of a list, or of a query inside one. -/
inductive Operation.Inside (op : Operation) : List Operation → Prop
  | here {ops : List Operation} (h : op ∈ ops) : Operation.Inside op ops
  | condition {ops : List Operation} {condition : Condition} {nested : Query}
      (h : .condition condition ∈ ops) (hv : condition.value = .query nested)
      (hi : Operation.Inside op nested.ops) : Operation.Inside op ops
  | group {ops : List Operation} {connector : Connector} {negated : Bool} {q : Query}
      (h : .group ⟨connector, negated, some q⟩ ∈ ops) (hi : Operation.Inside op q.ops) :
      Operation.Inside op ops
  | having {ops : List Operation} {q : Query} (h : .having q ∈ ops)
      (hi : Operation.Inside op q.ops) : Operation.Inside op ops

theorem Operation.Inside.mono {op : Operation} {ops others : List Operation} (hsub : ops ⊆ others)
    (h : op.Inside ops) : op.Inside others := by
  cases h with
  | here h => exact .here (hsub h)
  | condition h hv hi => exact .condition (hsub h) hv hi
  | group h hi => exact .group (hsub h) hi
  | having h hi => exact .having (hsub h) hi

mutual

/-- The text written as it is, if there is one inside the literal, is not empty. -/
def Literal.spellsRaw : Literal → Bool
  | ⟨kind, _, _⟩ => kind.spellsRaw

def LiteralKind.spellsRaw : LiteralKind → Bool
  | .raw sql => sql != ""
  | .countAll | .distinctAll => true
  | .field operand | .aggregate _ operand | .distinct operand => operand.spellsRaw

def LiteralOperand.spellsRaw : LiteralOperand → Bool
  | .field _ => true
  | .literal inner => inner.spellsRaw

end

def ProjectionItem.spellsRaw : ProjectionItem → Bool
  | .raw sql _ => sql != ""
  | .literal inner => inner.spellsRaw
  | .field _ | .model _ => true

def OrderExpr.spellsRaw : OrderExpr → Bool
  | .field _ => true
  | .literal inner => inner.spellsRaw

/-- No raw text that a record projects, orders or groups by is empty. -/
def Operation.spellsRaw : Operation → Bool
  | .project projection => projection.items.all ProjectionItem.spellsRaw
  | .order clause => clause.entries.all fun entry => entry.expr.spellsRaw
  | .groupBy exprs => exprs.all OrderExpr.spellsRaw
  | .condition _ | .group _ | .having _ | .distinct _ | .limit _ | .offset _ => true

/-- No raw text of the default is empty. -/
def Field.SpellsRaw (f : Field) : Prop :=
  match f.default with
  | some (.literal literal) => literal.spellsRaw
  | some (.computed rule) =>
      rule.flags.literal → ∀ context sql, rule.value context = .string sql → sql ≠ ""
  | some (.value _) | none => True

def Schema.SpellsRaw (s : Schema) : Prop := ∀ m ∈ s.models.values, ∀ f ∈ m.fields, f.SpellsRaw

/-- Every record of the query, at any depth, has its raw texts. -/
def Query.SpellsRaw (q : Query) : Prop := ∀ op : Operation, op.Inside q.ops → op.spellsRaw

namespace Query

variable {q : Query}

variable (h : ∀ op ∈ q.ops, op.spellsRaw)

include h

theorem spellsRaw_of_mem_projectedItems {item : ProjectionItem} (hi : item ∈ q.projectedItems) :
    item.spellsRaw := by
  obtain ⟨projection, hp, hi⟩ := List.mem_flatMap.mp hi
  have hop := h _ (project_mem_ops hp)
  rw [Operation.spellsRaw, List.all_eq_true] at hop
  exact hop item hi

theorem spellsRaw_of_mem_groupBy {e : OrderExpr} (he : e ∈ q.groupBy) : e.spellsRaw := by
  obtain ⟨exprs, hmem, he⟩ := groupBy_mem_ops he
  have hop := h _ hmem
  rw [Operation.spellsRaw, List.all_eq_true] at hop
  exact hop e he

theorem spellsRaw_of_mem_order {entry : OrderEntry} (he : entry ∈ q.order) :
    entry.expr.spellsRaw := by
  obtain ⟨clause, hmem, he⟩ := order_mem_ops he
  have hop := h _ hmem
  rw [Operation.spellsRaw, List.all_eq_true] at hop
  exact hop entry he

end Query

namespace Composer

variable {c : Composer}

mutual

/-- A literal whose raw text is not empty has an expression with a text. -/
theorem text_ne_empty_of_literalExpr {nested : Bool} : ∀ {literal : Literal} {e : Sql.Expr},
    literal.spellsRaw → c.literalExpr nested literal = .ok e → e.text c.dialect ≠ ""
  | ⟨kind, label, escape⟩, e, hs, h => by
      rw [Literal.spellsRaw] at hs
      rw [literalExpr] at h
      exact text_ne_empty_of_kindExpr hs h

theorem text_ne_empty_of_kindExpr {nested escape : Bool} : ∀ {kind : LiteralKind} {e : Sql.Expr},
    kind.spellsRaw → c.kindExpr nested escape kind = .ok e → e.text c.dialect ≠ ""
  | .raw sql, e, hs, h => by
      rw [LiteralKind.spellsRaw, bne_iff_ne] at hs
      cases h
      exact hs
  | .countAll, e, hs, h | .distinctAll, e, hs, h => by
      cases h
      rw [Sql.Expr.text]
      decide
  | .field (.field ref), e, hs, h => by
      simp only [kindExpr, bind_eq_ok, pure_eq_ok] at h
      obtain ⟨column, -, rfl⟩ := h
      exact Sql.Column.text_ne_empty _ column
  | .field (.literal inner), e, hs, h => by
      rw [LiteralKind.spellsRaw, LiteralOperand.spellsRaw] at hs
      rw [kindExpr] at h
      exact text_ne_empty_of_literalExpr hs h
  | .aggregate function operand, e, hs, h => by
      simp only [kindExpr, bind_eq_ok, pure_eq_ok] at h
      obtain ⟨argument, -, rfl⟩ := h
      exact Sql.append_ne_empty_right _ (by decide)
  | .distinct operand, e, hs, h => by
      rw [kindExpr, bind_eq_ok] at h
      obtain ⟨argument, -, h⟩ := h
      split at h
      · cases h
        exact Sql.append_ne_empty_left _ (by decide)
      · split at h
        · cases h
          exact Sql.append_ne_empty_right _ (by decide)
        · cases h

end

end Composer

end SqlCompose
