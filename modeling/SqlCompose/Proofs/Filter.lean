import SqlCompose.Dialect.Builtin
import SqlCompose.Proofs.Success
import SqlCompose.Select.Statement

/-!
# What a filter leaves out

A filter has an operand for every condition but the join edges, unless lists that became empty
are left out. So under the refusing policy it is empty exactly when its query has no other
condition, and then, and only then, its text is empty too. Dropping repeated operands never
empties a filter.
-/

namespace SqlCompose

/-- A condition joins a model or it does not. -/
theorem hasConditionIn_eq (ops : List Operation) :
    hasConditionIn ops =
      (anyCondition Condition.isJoinEdge ops || anyCondition (fun c => !c.isJoinEdge) ops) := by
  induction ops using hasConditionIn.induct with
  | case1 => simp [hasConditionIn, anyCondition]
  | case2 c rest =>
    rw [hasConditionIn, anyCondition, anyCondition]
    cases c.isJoinEdge <;> simp
  | case3 connector negated model target inner rest ihi ihr =>
    rw [hasConditionIn, anyCondition, anyCondition, ihi, ihr]
    simp only [Bool.or_assoc, Bool.or_left_comm]
  | case4 head rest hc hg ih =>
    rw [hasConditionIn, anyCondition, anyCondition]
    · exact ih
    all_goals assumption

theorem Query.hasCondition_eq (q : Query) : q.hasCondition = (q.hasJoins || q.hasFilter) :=
  hasConditionIn_eq q.ops

/-- A condition without joins has something to filter by. -/
theorem Query.hasFilter_of_hasCondition {q : Query} (hc : q.hasCondition) (hj : ¬ q.hasJoins) :
    q.hasFilter := by
  rw [Query.hasCondition_eq] at hc
  simpa [hj] using hc

namespace Sql

theorem append_ne_empty_left {s : String} (t : String) (h : s ≠ "") : s ++ t ≠ "" := by
  intro he
  exact h (String.append_eq_empty_iff.mp he).1

theorem append_ne_empty_right (s : String) {t : String} (h : t ≠ "") : s ++ t ≠ "" := by
  intro he
  exact h (String.append_eq_empty_iff.mp he).2

theorem withTail_ne_empty {text : String} (tail : Option String) (h : text ≠ "") :
    withTail text tail ≠ "" := by
  cases tail with
  | none => exact h
  | some more => exact append_ne_empty_left _ (append_ne_empty_left _ h)

theorem Comparison.text_ne_empty (d : Dialect) (c : Comparison) : c.text d ≠ "" := by
  cases c with
  | compare left op right tail =>
    refine withTail_ne_empty _ (append_ne_empty_left _ (append_ne_empty_left _ ?_))
    exact append_ne_empty_left _ (append_ne_empty_right _ (by decide))
  | is left negated right tail =>
    refine withTail_ne_empty _ (append_ne_empty_left _ (append_ne_empty_right _ ?_))
    cases negated <;> decide
  | inList left negated entries => exact append_ne_empty_right _ (by decide)

/-- Every operand has a text. -/
theorem Predicate.text_ne_empty (d : Dialect) (p : Predicate) : p.text d ≠ "" := by
  cases p with
  | comparison c =>
    rw [Predicate.text]
    exact c.text_ne_empty d
  | combined | inSelect | compareSelect | rowExists | group =>
    rw [Predicate.text]
    exact append_ne_empty_right _ (by decide)

theorem chainText_ne_empty {connector : Connector} {first : String}
    (rest : List (Connector × String)) (h : first ≠ "") :
    chainText ((connector, first) :: rest) ≠ "" := by
  rw [chainText]
  induction rest generalizing first with
  | nil => exact h
  | cons next rest ih =>
    exact ih (append_ne_empty_left _ (append_ne_empty_left _ (append_ne_empty_left _
      (append_ne_empty_left _ h))))

/-- A filter has a text exactly when it has an operand. -/
theorem chainText_linkTexts_eq_empty_iff (d : Dialect) (links : List Link) :
    chainText (linkTexts d links) = "" ↔ links = [] := by
  cases links with
  | nil => simp [linkTexts, chainText]
  | cons link rest =>
    obtain ⟨connector, operand⟩ := link
    rw [linkTexts]
    simp [chainText_ne_empty, Predicate.text_ne_empty]

end Sql

namespace Composer

variable {c : Composer}

/-- The first operand always stays. -/
theorem settle_eq_nil_iff (links : List Sql.Link) : c.settle links = [] ↔ links = [] := by
  unfold settle
  split
  · cases links with
    | nil => simp [dropRepeats]
    | cons link rest => simp [dropRepeats]
  · rfl

/-- Under the refusing policy a comparison with a list is never left out. -/
theorem listCondition_ne_none (hp : c.config.emptyList = .refuse) {m : Model} {f : Field}
    {op : Operator} {values : List Value} : c.listCondition m f op values ≠ .ok none := by
  intro h
  unfold listCondition at h
  split at h
  · obtain ⟨parts, _, h⟩ := bind_eq_ok.mp h
    split at h
    · rw [hp] at h
      cases h
    · cases h
    · cases h
  · cases h

/-- A condition has an operand unless it is a join edge. -/
theorem predicate_eq_ok (hp : c.config.emptyList = .refuse) {opts : Options}
    {condition : Condition} {operand : Option Sql.Predicate}
    (h : c.predicate opts condition = .ok operand) :
    operand.isNone = condition.isJoinEdge := by
  obtain ⟨field, op, value, negate, connector, quantifier, join⟩ := condition
  have hexists : (if negate = true then op.invert else op).isExists = op.isExists := by
    split <;> simp
  rw [predicate] at h
  obtain ⟨⟨m, f⟩, _, h⟩ := bind_eq_ok.mp h
  generalize (if negate = true then op.invert else op) = effective at h hexists
  simp only [hexists] at h
  unfold Condition.isJoinEdge
  split at h
  · rename_i he
    split at h
    · obtain ⟨⟨columns, inner⟩, _, h⟩ := bind_eq_ok.mp h
      cases h
      simp [he]
    · cases h
  · rename_i he
    split at h
    · cases operand with
      | none => exact absurd h (listCondition_ne_none hp)
      | some p => simp
    · obtain ⟨part, _, h⟩ := bind_eq_ok.mp h
      cases h
      simp
    · obtain ⟨part, _, h⟩ := bind_eq_ok.mp h
      cases h
      simp
    · obtain ⟨part, _, h⟩ := bind_eq_ok.mp h
      cases h
      simp
    · split at h
      · rename_i hnone
        cases h
        simp [he, hnone]
      · rename_i hsome
        split at h
        · cases h
        · obtain ⟨⟨columns, inner⟩, _, h⟩ := bind_eq_ok.mp h
          cases h
          rw [Bool.not_eq_true, Bool.not_eq_false'] at hsome
          simp [hsome]

/-- Under the refusing policy a filter is empty exactly when its records hold no condition but
join edges. -/
theorem links_eq_nil_iff (hp : c.config.emptyList = .refuse) {opts : Options}
    {ops : List Operation} {links : List Sql.Link} (h : c.links opts ops = .ok links) :
    links = [] ↔ anyCondition (fun condition => !condition.isJoinEdge) ops = false := by
  induction ops using anyCondition.induct generalizing links with
  | case1 =>
    rw [Composer.links, pure_eq_ok] at h
    simp [← h, anyCondition]
  | case2 condition rest ih =>
    simp only [Composer.links, bind_eq_ok, pure_eq_ok] at h
    obtain ⟨operand, hoperand, others, hothers, rfl⟩ := h
    have hnone := predicate_eq_ok hp hoperand
    rw [anyCondition, Bool.or_eq_false_iff, ← ih hothers, ← hnone]
    cases operand <;> simp
  | case3 connector negated model target inner rest ihi ihr =>
    simp only [Composer.links, bind_eq_ok, pure_eq_ok] at h
    obtain ⟨body, hbody, others, hothers, rfl⟩ := h
    rw [anyCondition, Bool.or_eq_false_iff, ← ihi hbody, ← ihr hothers,
      ← settle_eq_nil_iff (c := c) body]
    cases hs : c.settle body <;> simp
  | case4 head rest hc hg ih =>
    rw [Composer.links] at h
    · rw [anyCondition]
      · exact ih h
      all_goals assumption
    all_goals assumption

end Composer

/-- A composer for one table. The concrete instances of general statements use it. -/
def people : Composer where
  schema := ⟨⟨[("Person", ⟨"Person", "people", [
    { Field.named "id" (.integer 8) with column := "id", model := "Person", primaryKey := true },
    { Field.named "name" .text with column := "name", model := "Person" },
    { Field.named "age" (.integer 4) with column := "age", model := "Person" }]⟩)], by decide⟩,
    by decide⟩
  dialect := .sqlite
  config := {}

/-- The same people in PostgreSQL. -/
def peopleInPostgresql : Composer := { people with dialect := .postgresql }

end SqlCompose
