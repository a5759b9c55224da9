import SqlCompose.Query.Clauses
import SqlCompose.Schema.Model

/-!
# No raw SQL

A caller may hand in SQL that is written as it is: raw literals and projection items, literals
whose names are not quoted, and defaults that are SQL text. The predicates here say that a query
or a schema has none of it, at any depth.
-/

namespace SqlCompose

mutual

/-- No raw text and no unquoted name, inside the literal neither. -/
def Literal.hasNoRaw : Literal → Bool
  | ⟨kind, _, escape⟩ => escape && kind.hasNoRaw

def LiteralKind.hasNoRaw : LiteralKind → Bool
  | .raw _ => false
  | .countAll | .distinctAll => true
  | .field operand | .aggregate _ operand | .distinct operand => operand.hasNoRaw

def LiteralOperand.hasNoRaw : LiteralOperand → Bool
  | .field _ => true
  | .literal inner => inner.hasNoRaw

end

def ProjectionItem.hasNoRaw : ProjectionItem → Bool
  | .raw _ _ => false
  | .literal inner => inner.hasNoRaw
  | .field _ | .model _ => true

def OrderExpr.hasNoRaw : OrderExpr → Bool
  | .field _ => true
  | .literal inner => inner.hasNoRaw

mutual

/-- No raw SQL in any record of the query, those of nested queries included. -/
def Query.hasNoRaw : Query → Bool
  | ⟨_, _, ops⟩ => opsHaveNoRaw ops

def opsHaveNoRaw : List Operation → Bool
  | [] => true
  | op :: rest => op.hasNoRaw && opsHaveNoRaw rest

def Operation.hasNoRaw : Operation → Bool
  | .condition c => c.hasNoRaw
  | .group g => g.hasNoRaw
  | .project projection => projection.items.all ProjectionItem.hasNoRaw
  | .order clause => clause.entries.all fun entry => entry.expr.hasNoRaw
  | .groupBy exprs => exprs.all OrderExpr.hasNoRaw
  | .having q => q.hasNoRaw
  | .distinct operand => operand.all LiteralOperand.hasNoRaw
  | .limit _ | .offset _ => true

def Condition.hasNoRaw : Condition → Bool
  | ⟨_, _, value, _, _, _, _⟩ => value.hasNoRaw

def Operand.hasNoRaw : Operand → Bool
  | .value _ | .field _ => true
  | .literal inner => inner.hasNoRaw
  | .query q => q.hasNoRaw

def Group.hasNoRaw : Group → Bool
  | ⟨_, _, query⟩ => groupedHasNoRaw query

def groupedHasNoRaw : Option Query → Bool
  | none => true
  | some q => q.hasNoRaw

end

/-- The default, if there is one, is not SQL text. -/
def Field.hasNoRaw (f : Field) : Bool :=
  match f.default with
  | none | some (.value _) => true
  | some (.literal _) => false
  | some (.computed rule) => !rule.flags.literal

def Schema.hasNoRaw (s : Schema) : Bool :=
  s.models.values.all fun m => m.fields.all Field.hasNoRaw

theorem opsHaveNoRaw_iff {ops : List Operation} :
    opsHaveNoRaw ops ↔ ∀ op ∈ ops, op.hasNoRaw := by
  induction ops with
  | nil => simp [opsHaveNoRaw]
  | cons op rest ih => rw [opsHaveNoRaw, Bool.and_eq_true, ih, List.forall_mem_cons]

theorem Condition.hasNoRaw_of_query {c : Condition} (h : c.hasNoRaw) {nested : Query}
    (hv : c.value = .query nested) : nested.hasNoRaw := by
  obtain ⟨field, op, value, negate, connector, quantifier, join⟩ := c
  cases hv
  rwa [Condition.hasNoRaw, Operand.hasNoRaw] at h

namespace Query

variable {q : Query}

theorem project_mem_ops {projection : Projection} (h : projection ∈ q.projections) :
    .project projection ∈ q.ops := by
  obtain ⟨op, hop, he⟩ := List.mem_filterMap.mp h
  cases op with
  | project p =>
    cases he
    exact hop
  | _ => cases he

theorem groupBy_mem_ops {e : OrderExpr} (h : e ∈ q.groupBy) :
    ∃ exprs, .groupBy exprs ∈ q.ops ∧ e ∈ exprs := by
  obtain ⟨op, hop, hmem⟩ := List.mem_flatMap.mp h
  cases op with
  | groupBy exprs => exact ⟨exprs, hop, hmem⟩
  | _ => cases hmem

theorem mem_of_mem_foldl_applyOrder {clauses : List OrderClause} {entries : List OrderEntry}
    {entry : OrderEntry} (h : entry ∈ clauses.foldl applyOrder entries) :
    entry ∈ entries ∨ ∃ clause ∈ clauses, entry ∈ clause.entries := by
  induction clauses generalizing entries with
  | nil => exact .inl h
  | cons clause rest ih =>
    rcases ih h with hin | ⟨other, ho, hin⟩
    · rw [applyOrder] at hin
      split at hin
      · exact .inr ⟨clause, List.mem_cons_self, hin⟩
      · rcases List.mem_append.mp hin with hold | hnew
        · exact .inl hold
        · exact .inr ⟨clause, List.mem_cons_self, hnew⟩
    · exact .inr ⟨other, List.mem_cons_of_mem _ ho, hin⟩

theorem order_mem_ops {entry : OrderEntry} (h : entry ∈ q.order) :
    ∃ clause, .order clause ∈ q.ops ∧ entry ∈ clause.entries := by
  rcases mem_of_mem_foldl_applyOrder h with hin | ⟨clause, hclause, hin⟩
  · cases hin
  · obtain ⟨op, hop, heq⟩ := List.mem_filterMap.mp hclause
    cases op with
    | order other =>
      cases heq
      exact ⟨clause, hop, hin⟩
    | _ => cases heq

theorem forall_op_of_hasNoRaw (h : q.hasNoRaw) : ∀ op ∈ q.ops, op.hasNoRaw := by
  obtain ⟨model, target, ops⟩ := q
  rw [Query.hasNoRaw] at h
  exact opsHaveNoRaw_iff.mp h

theorem hasNoRaw_of_mem_projections (h : q.hasNoRaw) {projection : Projection}
    (hp : projection ∈ q.projections) : ∀ item ∈ projection.items, item.hasNoRaw := by
  have hclean := forall_op_of_hasNoRaw h _ (project_mem_ops hp)
  rwa [Operation.hasNoRaw, List.all_eq_true] at hclean

theorem hasNoRaw_of_distinct (h : q.hasNoRaw) {operand : LiteralOperand}
    (hd : q.distinct? = some (some operand)) : operand.hasNoRaw := by
  obtain ⟨op, hop, he⟩ := List.exists_of_findSome?_eq_some hd
  have hclean := forall_op_of_hasNoRaw h op (List.mem_reverse.mp hop)
  cases op with
  | distinct o =>
    cases he
    simpa [Operation.hasNoRaw] using hclean
  | _ => cases he

theorem hasNoRaw_of_mem_groupBy (h : q.hasNoRaw) {e : OrderExpr} (he : e ∈ q.groupBy) :
    e.hasNoRaw := by
  obtain ⟨exprs, hmem, he⟩ := groupBy_mem_ops he
  have hclean := forall_op_of_hasNoRaw h _ hmem
  rw [Operation.hasNoRaw, List.all_eq_true] at hclean
  exact hclean e he

theorem hasNoRaw_of_mem_order (h : q.hasNoRaw) {entry : OrderEntry} (he : entry ∈ q.order) :
    entry.expr.hasNoRaw := by
  obtain ⟨clause, hmem, he⟩ := order_mem_ops he
  have hclean := forall_op_of_hasNoRaw h _ hmem
  rw [Operation.hasNoRaw, List.all_eq_true] at hclean
  exact hclean entry he

end Query

theorem Schema.mem_models_of_model {s : Schema} {name : String} {m : Model}
    (hm : s.model name = .ok m) : m ∈ s.models.values := by
  rw [Schema.model, Schema.model?] at hm
  split at hm
  · rename_i hget
    cases hm
    exact OrderedMap.mem_values_of_get? hget
  · cases hm

theorem Schema.hasNoRaw_of_model {s : Schema} (h : s.hasNoRaw) {name : String} {m : Model}
    (hm : s.model name = .ok m) : ∀ f ∈ m.fields, f.hasNoRaw := by
  rw [Schema.hasNoRaw, List.all_eq_true] at h
  exact List.all_eq_true.mp (h m (Schema.mem_models_of_model hm))

end SqlCompose
