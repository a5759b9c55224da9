import SqlCompose.Proofs.Composition
import SqlCompose.Proofs.Lexical.Columns

/-!
# SELECT statements are neutral

The operands of a filter are neutral when the queries in them are free of raw SQL. The induction
over the query carries this through sub-selects, EXISTS and groups at any depth, up to the
statement itself. A SELECT list that the caller gives as text has to be neutral on its own.
-/

namespace SqlCompose

namespace Composer

open Quoting

variable {c : Composer} {rules : Quoting} (hd : c.dialect.Regular rules)

include hd

theorem neutral_compare {left : Sql.Column} {right : Sql.Term} (hl : left.quoted)
    (op : Operator) (hr : rules.Neutral (right.text c.dialect)) :
    rules.Neutral (Sql.Comparison.text c.dialect (.compare left op right none)) := by
  have hblank : rules.Neutral " " := hd.piece (by decide)
  rw [Sql.Comparison.text, Sql.withTail]
  exact ((((Sql.neutral_column hd hl).append hblank).append (hd.operator op)).append
    hblank).append hr

theorem neutral_valueComparison {m : Model} {f : Field} {op : Operator} {v : Value}
    {comparison : Sql.Comparison} (h : c.valueComparison m f op v = .ok comparison) :
    rules.Neutral (comparison.text c.dialect) := by
  have hleft : (m.column f).quoted := rfl
  rw [valueComparison] at h
  simp only [hd.comparisonTail] at h
  split at h
  · cases v with
    | string pattern =>
      cases h
      rw [hd.comparisonTail]
      exact neutral_compare hd hleft op (hd.value _ _)
    | _ => cases h
  · split at h
    · cases h
      have hword : rules.Neutral (if op == .ne then " IS NOT " else " IS ") := by
        split <;> exact hd.piece (by decide)
      rw [Sql.Comparison.text, Sql.withTail]
      exact ((Sql.neutral_column hd hleft).append hword).append (hd.value _ _)
    · split at h
      · cases h
      · cases h
        exact neutral_compare hd hleft op (hd.value _ _)

theorem neutral_inList {left : Sql.Column} (hl : left.quoted) (negated : Bool)
    {entries : List Sql.Term} (h : ∀ term ∈ entries, rules.Neutral (term.text c.dialect)) :
    rules.Neutral (Sql.Comparison.text c.dialect (.inList left negated entries)) := by
  have hopen : rules.Nests 0 1 (if negated then " NOT IN (" else " IN (") := by
    split <;> exact hd.piece (by decide)
  have hentries : rules.Neutral (",".intercalate (entries.map (·.text c.dialect))) :=
    .intercalate (hd.piece (by decide)) (List.forall_mem_map.mpr h)
  rw [Sql.Comparison.text]
  exact (((Sql.neutral_column hd hl).append hopen).append (hentries.lift 1)).append
    (hd.piece (by decide))

theorem neutral_listComparisons {m : Model} {f : Field} {op : Operator} {values : List Value}
    {parts : List Sql.Comparison} (h : c.listComparisons m f op values = .ok parts) :
    ∀ part ∈ parts, rules.Neutral (part.text c.dialect) := by
  rw [listComparisons, bind_eq_ok] at h
  obtain ⟨special, hspecial, h⟩ := h
  have hparts : ∀ part ∈ special, rules.Neutral (part.text c.dialect) := by
    intro part hp
    obtain ⟨v, _, hv⟩ := exists_of_mapM_eq_ok hspecial hp
    exact neutral_valueComparison hd hv
  dsimp only at h
  split at h
  · cases h
    exact hparts
  · cases h
    intro part hp
    rcases List.mem_append.mp hp with hp | hp
    · exact hparts part hp
    · rw [List.mem_singleton] at hp
      rw [hp]
      exact neutral_inList hd rfl _ (List.forall_mem_map.mpr fun v _ => hd.value v _)

theorem neutral_listCondition {m : Model} {f : Field} {op : Operator} {values : List Value}
    {operand : Sql.Predicate} (h : c.listCondition m f op values = .ok (some operand)) :
    rules.Neutral (operand.text c.dialect) := by
  rw [listCondition] at h
  split at h
  · obtain ⟨parts, hparts, h⟩ := bind_eq_ok.mp h
    have hneutral := neutral_listComparisons hd hparts
    split at h
    · split at h <;> cases h
    · cases h
      rw [Sql.Predicate.text]
      exact hneutral _ List.mem_cons_self
    · cases h
      rw [Sql.Predicate.text]
      exact .parens hd.quotesNames
        (.intercalate (hd.spaced_connector _) (List.forall_mem_map.mpr hneutral))
  · cases h

theorem neutral_columnCondition {m : Model} {f : Field} {op : Operator} {other : FieldRef}
    {operand : Sql.Predicate} (h : c.columnCondition m f op other = .ok operand) :
    rules.Neutral (operand.text c.dialect) := by
  rw [columnCondition] at h
  split at h
  · cases h
  · simp only [bind_eq_ok, pure_eq_ok] at h
    obtain ⟨right, hright, rfl⟩ := h
    rw [Sql.Predicate.text, hd.comparisonTail]
    exact neutral_compare hd rfl op (Sql.neutral_column hd (quoted_of_columnOf hright))

theorem neutral_literalCondition {m : Model} {f : Field} {op : Operator} {literal : Literal}
    (hn : literal.hasNoRaw) {operand : Sql.Predicate}
    (h : c.literalCondition m f op literal = .ok operand) :
    rules.Neutral (operand.text c.dialect) := by
  rw [literalCondition] at h
  split at h
  · cases h
  · cases h
  · simp only [bind_eq_ok, pure_eq_ok] at h
    obtain ⟨right, hright, rfl⟩ := h
    rw [Sql.Predicate.text]
    exact neutral_compare hd rfl op (neutral_literalExpr hd hn hright)

theorem neutral_selectPredicate {left : Sql.Column} (hl : left.quoted) (op : Operator)
    (quantifier : Option Quantifier) {inner : Sql.Select}
    (hi : rules.Neutral (inner.text c.dialect)) :
    rules.Neutral ((selectPredicate left op quantifier inner).text c.dialect) := by
  have hleft := Sql.neutral_column hd hl
  have hblank : rules.Neutral " " := hd.piece (by decide)
  have hclose : rules.Nests 1 0 ")" := hd.piece (by decide)
  have hin : rules.Nests 0 1 " IN (" := hd.piece (by decide)
  have hnotIn : rules.Nests 0 1 " NOT IN (" := hd.piece (by decide)
  have hopen : rules.Nests 0 1 "(" := hd.piece (by decide)
  unfold selectPredicate
  split
  · rw [Sql.Predicate.text]
    exact ((hleft.append hin).append (hi.lift 1)).append hclose
  · rw [Sql.Predicate.text]
    exact ((hleft.append hnotIn).append (hi.lift 1)).append hclose
  · have hquantifier : rules.Neutral ((quantifier.map Quantifier.sql).getD "") := by
      rcases quantifier with _ | _ | _ <;> exact hd.piece (by decide)
    rw [Sql.Predicate.text]
    exact ((((((hleft.append hblank).append (hd.operator op)).append hblank).append
      hquantifier).append hopen).append (hi.lift 1)).append hclose

theorem neutral_edgeComparison {edge : JoinEdge} {comparison : Sql.ColumnComparison}
    (h : c.edgeComparison edge = .ok comparison) :
    rules.Neutral (comparison.text c.dialect) := by
  simp only [edgeComparison, bind_eq_ok, pure_eq_ok] at h
  obtain ⟨left, hleft, right, hright, rfl⟩ := h
  exact Sql.neutral_columnComparison hd (quoted_of_columnOf hleft) (quoted_of_columnOf hright)

theorem neutral_join {group : JoinGroup} {joins : List Sql.Join} (h : c.join group = .ok joins) :
    ∀ join ∈ joins, rules.Neutral (join.text c.dialect) := by
  rw [join, bind_eq_ok] at h
  obtain ⟨m, _, h⟩ := h
  split at h
  · cases h
    exact List.forall_mem_nil _
  · simp only [bind_eq_ok, pure_eq_ok] at h
    obtain ⟨comparison, hfirst, _, _, others, hothers, rfl⟩ := h
    intro join hj
    rw [List.mem_singleton] at hj
    rw [hj]
    refine Sql.neutral_join hd (List.forall_mem_cons.mpr ⟨neutral_edgeComparison hd hfirst, ?_⟩)
    intro entry hentry
    obtain ⟨edge, _, he⟩ := exists_of_mapM_eq_ok hothers hentry
    simp only [bind_eq_ok, pure_eq_ok] at he
    obtain ⟨other, hother, rfl⟩ := he
    exact neutral_edgeComparison hd hother

theorem neutral_joins {plan : JoinPlan} {joins : List Sql.Join} (h : c.joins plan = .ok joins) :
    ∀ join ∈ joins, rules.Neutral (join.text c.dialect) := by
  simp only [Composer.joins, bind_eq_ok, pure_eq_ok] at h
  obtain ⟨parts, hparts, rfl⟩ := h
  intro join hj
  obtain ⟨part, hpart, hj⟩ := List.mem_flatten.mp hj
  obtain ⟨group, _, hg⟩ := exists_of_mapM_eq_ok hparts hpart
  exact neutral_join hd hg join hj

theorem neutral_groupExprs {opts : Options} {q : Query} (hn : q.hasNoRaw) {exprs : List Sql.Expr}
    (h : c.groupExprs opts q = .ok exprs) : ∀ e ∈ exprs, rules.Neutral (e.text c.dialect) := by
  simp only [groupExprs, bind_eq_ok, pure_eq_ok] at h
  obtain ⟨all, hall, rfl⟩ := h
  have hneutral : ∀ e ∈ all, rules.Neutral (e.text c.dialect) := by
    intro e he
    obtain ⟨entry, hentry, hok⟩ := exists_of_mapM_eq_ok hall he
    have hclean := Query.hasNoRaw_of_mem_groupBy hn hentry
    cases entry with
    | field ref =>
      simp only [groupExpr, bind_eq_ok, pure_eq_ok] at hok
      obtain ⟨column, hcolumn, rfl⟩ := hok
      exact Sql.neutral_column hd (quoted_of_columnOf hcolumn)
    | literal inner => exact neutral_expr hd hclean hok
  split
  · exact List.forall_mem_nil _
  · exact hneutral

theorem neutral_orderTerm {opts : Options} {support : OrderSupport} {scope : Scope}
    {entry : OrderEntry} (hn : entry.expr.hasNoRaw) {term : Sql.OrderTerm}
    (h : c.orderTerm opts support scope entry = .ok (some term)) :
    rules.Neutral (term.text c.dialect) := by
  refine Sql.neutral_orderTerm hd ?_
  rw [orderTerm] at h
  split at h
  · split at h
    · simp only [bind_eq_ok] at h
      obtain ⟨⟨m, f⟩, _, h⟩ := h
      split at h
      · cases h
        exact Sql.neutral_column hd rfl
      · cases h
    · cases h
  · rename_i literal heq
    rw [heq] at hn
    simp only [bind_eq_ok, pure_eq_ok] at h
    obtain ⟨e, he, heq⟩ := h
    cases heq
    exact neutral_expr hd hn he

theorem neutral_orderTerms {opts : Options} {support : OrderSupport} {scope : Scope} {q : Query}
    (hn : q.hasNoRaw) {terms : List Sql.OrderTerm}
    (h : c.orderTerms opts support scope q = .ok terms) :
    ∀ term ∈ terms, rules.Neutral (term.text c.dialect) := by
  simp only [orderTerms, bind_eq_ok, pure_eq_ok] at h
  obtain ⟨all, hall, rfl⟩ := h
  intro term hterm
  obtain ⟨found, hfound, heq⟩ := List.mem_filterMap.mp hterm
  cases found with
  | none => cases heq
  | some other =>
    cases heq
    obtain ⟨entry, hentry, hok⟩ := exists_of_mapM_eq_ok hall hfound
    exact neutral_orderTerm hd (Query.hasNoRaw_of_mem_order hn hentry) hok

omit hd in
/-- The texts of operands are neutral. -/
def LinksNeutral (c : Composer) (rules : Quoting) (links : List Sql.Link) : Prop :=
  ∀ link ∈ links, rules.Neutral (link.operand.text c.dialect)

omit hd in
theorem LinksNeutral.settle {links : List Sql.Link} (h : c.LinksNeutral rules links) :
    c.LinksNeutral rules (c.settle links) :=
  fun link hl => h link ((c.settle_sublist links).subset hl)

theorem neutral_of_composedFrom {opts : Options} {correlation : Option Sql.Correlation} {q : Query}
    {plan : JoinPlan} {scope : Scope} {columns : ResultColumns} {s : Sql.Select}
    (h : c.ComposedFrom opts correlation q plan scope columns s) (hn : q.hasNoRaw)
    (hlist : ∀ sql, opts.selectList = some sql → rules.Neutral sql)
    (hcorrelation : ∀ k, correlation = some k → k.outer.quoted ∧ k.inner.quoted)
    (hfilter : c.LinksNeutral rules s.filter) (hhaving : c.LinksNeutral rules s.having) :
    rules.Neutral (s.text c.dialect) := by
  refine Sql.neutral_select hd ⟨neutral_distinct hd hn h.distinct_eq, ?_,
    neutral_joins hd h.joins_eq, ?_, hfilter, neutral_groupExprs hd hn h.groupBy_eq, hhaving, ?_⟩
  · rw [h.list_eq]
    split
    · exact hlist _ ‹_›
    · have hcolumns := columnsNeutral_of_listedColumns hd hn h.columns_eq
      exact .intercalate (hd.piece (by decide)) (List.forall_mem_map.mpr hcolumns)
  · intro k hk
    rw [h.correlation_eq] at hk
    obtain ⟨ho, hi⟩ := hcorrelation k hk
    exact Sql.neutral_correlation hd ho hi
  · have horder := h.orderBy_eq
    split at horder
    · exact neutral_orderTerms hd hn horder
    · rw [← pure_eq_ok.mp horder]
      exact List.forall_mem_nil _

theorem neutral_rowExists (negated : Bool) {inner : Sql.Select}
    (hi : rules.Neutral (inner.text c.dialect)) :
    rules.Neutral (Sql.Predicate.text c.dialect (.rowExists negated inner)) := by
  rw [Sql.Predicate.text]
  cases negated with
  | true => exact hd.wrapped (by decide) hi
  | false => exact hd.wrapped (by decide) hi

theorem neutral_group (negated : Bool) {body : List Sql.Link} (hb : c.LinksNeutral rules body) :
    rules.Neutral (Sql.Predicate.text c.dialect (.group negated body)) := by
  rw [Sql.Predicate.text]
  cases negated with
  | true => exact hd.wrapped (by decide) (Sql.neutral_links hd hb)
  | false => exact hd.wrapped (by decide) (Sql.neutral_links hd hb)

/-- The operand of a condition, once the query it compares with is taken care of. -/
theorem neutral_predicate {condition : Condition}
    (hnested : ∀ nested, condition.value = .query nested → ∀ {opts columns s},
      (∀ sql, opts.selectList = some sql → rules.Neutral sql) →
      c.selectTree opts none nested = .ok (columns, s) → rules.Neutral (s.text c.dialect))
    (hn : condition.hasNoRaw) {opts : Options} {operand : Sql.Predicate}
    (h : c.predicate opts condition = .ok (some operand)) :
    rules.Neutral (operand.text c.dialect) := by
  obtain ⟨field, op, value, negate, connector, quantifier, join⟩ := condition
  rw [Condition.hasNoRaw] at hn
  rw [predicate, bind_eq_ok] at h
  obtain ⟨⟨m, f⟩, _, h⟩ := h
  dsimp only at h
  generalize (if negate = true then op.invert else op) = op at h
  split at h
  · cases value with
    | query nested =>
      simp only [bind_eq_ok, pure_eq_ok] at h
      obtain ⟨⟨columns, inner⟩, hinner, heq⟩ := h
      cases heq
      refine neutral_rowExists hd _ (hnested nested rfl (fun sql hsql => ?_) hinner)
      cases hsql
      exact hd.piece (by decide)
    | value _ | field _ | literal _ => cases h
  · cases value with
    | value v =>
      cases v with
      | list values => exact neutral_listCondition hd h
      | _ =>
        simp only [bind_eq_ok, pure_eq_ok] at h
        obtain ⟨comparison, hcomparison, heq⟩ := h
        cases heq
        rw [Sql.Predicate.text]
        exact neutral_valueComparison hd hcomparison
    | field other =>
      simp only [bind_eq_ok, pure_eq_ok] at h
      obtain ⟨p, hp, heq⟩ := h
      cases heq
      exact neutral_columnCondition hd hp
    | literal inner =>
      simp only [bind_eq_ok, pure_eq_ok] at h
      obtain ⟨p, hp, heq⟩ := h
      cases heq
      exact neutral_literalCondition hd hn hp
    | query nested =>
      dsimp only at h
      split at h
      · cases h
      · split at h
        · cases h
        · simp only [bind_eq_ok, pure_eq_ok] at h
          obtain ⟨⟨columns, inner⟩, hinner, heq⟩ := h
          cases heq
          refine neutral_selectPredicate hd rfl op quantifier ?_
          exact hnested nested rfl (fun _ hsql => by cases hsql) hinner

/-- Everything composed from a query without raw SQL is neutral. -/
theorem composition_neutral :
    (∀ q : Query, q.hasNoRaw → ∀ {opts : Options} {correlation columns s},
      (∀ sql, opts.selectList = some sql → rules.Neutral sql) →
      (∀ k, correlation = some k → k.outer.quoted ∧ k.inner.quoted) →
      c.selectTree opts correlation q = .ok (columns, s) → rules.Neutral (s.text c.dialect)) ∧
    (∀ ops, opsHaveNoRaw ops → ∀ {opts links},
      (c.links opts ops = .ok links → c.LinksNeutral rules links) ∧
      (c.havingLinks opts ops = .ok links → c.LinksNeutral rules links)) ∧
    (∀ condition : Condition, condition.hasNoRaw → ∀ {opts operand},
      c.predicate opts condition = .ok (some operand) →
        rules.Neutral (operand.text c.dialect)) := by
  -- Neither options nor correlation are fixed, since a nested SELECT is composed with its own.
  refine Query.composition_induct ?_ ?_ ?_ ?_
  · intro model target ops hops hn opts correlation columns s hlist hcorrelation h
    obtain ⟨plan, scope, hfrom⟩ := selectTree_eq_ok h
    have hclean : opsHaveNoRaw ops := by rwa [Query.hasNoRaw] at hn
    refine neutral_of_composedFrom hd hfrom hn hlist hcorrelation ?_ ?_
    · obtain ⟨links, hlinks, heq⟩ := hfrom.filter_eq
      rw [heq]
      exact ((hops hclean).1 hlinks).settle
    · obtain ⟨links, hlinks, heq⟩ := hfrom.having_eq
      rw [heq]
      split at hlinks
      · rw [← pure_eq_ok.mp hlinks]
        exact LinksNeutral.settle (List.forall_mem_nil _)
      · exact ((hops hclean).2 hlinks).settle
  · intro condition hnested hn opts operand h
    refine neutral_predicate hd (fun nested hv opts columns s hlist hs => ?_) hn h
    exact hnested nested hv (Condition.hasNoRaw_of_query hn hv) hlist (fun _ hk => by cases hk) hs
  · intro _ opts links
    rw [Composer.links, Composer.havingLinks, pure_eq_ok]
    exact ⟨fun h => h ▸ List.forall_mem_nil _, fun h => h ▸ List.forall_mem_nil _⟩
  · intro op rest hop hrest hn opts links
    rw [opsHaveNoRaw, Bool.and_eq_true] at hn
    constructor
    · intro h
      rcases op with condition | ⟨connector, negated, _ | ⟨model, target, inner⟩⟩ | _ | _ | _ | _
      · simp only [Composer.links, bind_eq_ok, pure_eq_ok] at h
        obtain ⟨operand, hoperand, others, hothers, rfl⟩ := h
        have hrest := (hrest hn.2).1 hothers
        cases operand with
        | none => exact hrest
        | some p => exact List.forall_mem_cons.mpr ⟨hop.condition rfl hn.1 hoperand, hrest⟩
      · exact (hrest hn.2).1 (by simpa only [Composer.links] using h)
      · simp only [Composer.links, bind_eq_ok, pure_eq_ok] at h
        obtain ⟨body, hbody, others, hothers, rfl⟩ := h
        have hrest := (hrest hn.2).1 hothers
        have hinner : opsHaveNoRaw inner := by
          simpa only [Operation.hasNoRaw, Group.hasNoRaw, groupedHasNoRaw, Query.hasNoRaw]
            using hn.1
        split
        · exact hrest
        · have hbody := ((hop.group rfl hinner).1 hbody).settle
          exact List.forall_mem_cons.mpr ⟨neutral_group hd negated hbody, hrest⟩
      all_goals exact (hrest hn.2).1 (by simpa only [Composer.links] using h)
    · intro h
      rcases op with _ | _ | _ | _ | _ | ⟨model, target, inner⟩
      case having =>
        rw [Composer.havingLinks] at h
        split at h
        · exact (hrest hn.2).2 h
        · have hinner : opsHaveNoRaw inner := by
            simpa only [Operation.hasNoRaw, Query.hasNoRaw] using hn.1
          exact (hop.having rfl hinner).1 h
      all_goals exact (hrest hn.2).2 (by simpa only [Composer.havingLinks] using h)

end Composer

end SqlCompose
