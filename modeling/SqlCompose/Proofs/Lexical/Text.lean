import SqlCompose.Proofs.Lexical.Token
import SqlCompose.Sql.Write

/-!
# Texts from neutral parts

Each kind of clause is neutral when the expressions, operands and statements in it are. Tables and
aliases need no condition, since they are always quoted.
-/

namespace SqlCompose

namespace Dialect

namespace Regular

variable {d : Dialect} {rules : Quoting} (hd : d.Regular rules)

include hd

theorem piece {k l : Nat} {text : String} (h : Quoting.nesting k text.toList = some l) :
    rules.Nests k l text :=
  Quoting.nests_of_nesting hd.quotesNames h

theorem nat (n : Nat) : rules.Neutral (toString n) :=
  Quoting.neutral_of_numeric hd.quotesNames (Numeric.nat n)

theorem operator (op : Operator) : rules.Neutral op.sql := by
  cases op <;> exact hd.piece (by decide)

theorem connector (k : Connector) : rules.Neutral k.sql := by
  cases k <;> exact hd.piece (by decide)

theorem spaced_connector (k : Connector) : rules.Neutral (" " ++ k.sql ++ " ") :=
  ((hd.piece (by decide)).append (hd.connector k)).append (hd.piece (by decide))

/-- A keyword before a neutral text in parentheses. -/
theorem wrapped {opening w : String} (ho : Quoting.nesting 0 opening.toList = some 1)
    (hw : rules.Neutral w) : rules.Neutral (opening ++ w ++ ")") :=
  ((hd.piece ho).append (hw.lift 1)).append (hd.piece (by decide))

end Regular

end Dialect

namespace Sql

open Quoting

variable {d : Dialect} {rules : Quoting} (hd : d.Regular rules)

include hd

theorem neutral_column {c : Column} (hc : c.quoted) : rules.Neutral (c.text d) := by
  rw [Column.text, if_pos hc]
  exact ((hd.identifier _).append (hd.piece (by decide))).append (hd.identifier _)

theorem neutral_aggregate (function : Aggregate) {e : Expr} (he : rules.Neutral (e.text d)) :
    rules.Neutral (Expr.text d (.aggregate function e)) := by
  have hf : rules.Neutral function.sql := by cases function <;> exact hd.piece (by decide)
  have hopen : rules.Nests 0 1 "(" := hd.piece (by decide)
  rw [Expr.text]
  exact ((hf.append hopen).append (he.lift 1)).append (hd.piece (by decide))

theorem neutral_item {item : Item} (h : rules.Neutral (item.expr.text d)) :
    rules.Neutral (item.text d) := by
  rw [Item.text]
  split
  · exact (h.append (hd.piece (by decide))).append (hd.identifier _)
  · exact h

theorem neutral_orderTerm {term : OrderTerm} (h : rules.Neutral (term.expr.text d)) :
    rules.Neutral (term.text d) := by
  have hdirection : rules.Neutral term.direction.sql := by
    cases term.direction <;> exact hd.piece (by decide)
  exact (h.append (hd.piece (by decide))).append hdirection

theorem neutral_rows (rows : RowLimit) : rules.Neutral (rows.text d) := by
  refine Nests.append (l := 0) ?_ ?_
  · split
    · exact (hd.piece (by decide)).append (hd.nat _)
    · exact (hd.piece (by decide)).append hd.unboundedLimit
    · exact Nests.empty
  · split
    · exact (hd.piece (by decide)).append (hd.nat _)
    · exact Nests.empty

theorem neutral_clause (keyword : String) {entries : List String}
    (hk : nesting 0 keyword.toList = some 0) (h : ∀ w ∈ entries, rules.Neutral w) :
    rules.Neutral (clauseText keyword entries) := by
  rw [clauseText]
  split
  · exact Nests.empty
  · exact (hd.piece hk).append (.intercalate (hd.piece (by decide)) h)

theorem neutral_chain {operands : List (Connector × String)}
    (h : ∀ o ∈ operands, rules.Neutral o.2) : rules.Neutral (chainText operands) := by
  cases operands with
  | nil => exact Nests.empty
  | cons first rest =>
    obtain ⟨connector, first⟩ := first
    rw [List.forall_mem_cons] at h
    have hfirst : rules.Neutral first := h.1
    have hrest := h.2
    clear h
    rw [chainText]
    induction rest generalizing first with
    | nil => exact hfirst
    | cons next rest ih =>
      rw [List.forall_mem_cons] at hrest
      refine ih _ ?_ hrest.2
      have hblank : rules.Neutral " " := hd.piece (by decide)
      exact (((hfirst.append hblank).append (hd.connector _)).append hblank).append hrest.1

theorem neutral_links {links : List Link}
    (h : ∀ link ∈ links, rules.Neutral (link.operand.text d)) :
    rules.Neutral (chainText (linkTexts d links)) := by
  refine neutral_chain hd ?_
  induction links with
  | nil => exact List.forall_mem_nil _
  | cons link rest ih =>
    obtain ⟨connector, operand⟩ := link
    rw [List.forall_mem_cons] at h
    rw [linkTexts, List.forall_mem_cons]
    exact ⟨h.1, ih h.2⟩

theorem neutral_where {correlation : Option String} {filter : String}
    (hc : ∀ w, correlation = some w → rules.Neutral w) (hf : rules.Neutral filter) :
    rules.Neutral (whereText correlation filter) := by
  have hword : rules.Neutral " WHERE " := hd.piece (by decide)
  cases correlation with
  | none =>
    rw [whereText]
    split
    · exact Nests.empty
    · exact hword.append hf
  | some correlation =>
    rw [whereText]
    split
    · exact hword.append (hc _ rfl)
    · have hopen : rules.Nests 0 1 " AND (" := hd.piece (by decide)
      exact (((hword.append (hc _ rfl)).append hopen).append (hf.lift 1)).append
        (hd.piece (by decide))

theorem neutral_having {filter : String} (hf : rules.Neutral filter) :
    rules.Neutral (havingText filter) := by
  rw [havingText]
  split
  · exact Nests.empty
  · exact hd.wrapped (by decide) hf

theorem neutral_columnComparison {c : ColumnComparison} (hl : c.left.quoted)
    (hr : c.right.quoted) : rules.Neutral (c.text d) := by
  have hblank : rules.Neutral " " := hd.piece (by decide)
  exact ((((neutral_column hd hl).append hblank).append (hd.operator _)).append hblank).append
    (neutral_column hd hr)

theorem neutral_join {join : Join}
    (h : ∀ comparison ∈ join.comparisons, rules.Neutral (comparison.2.text d)) :
    rules.Neutral (join.text d) := by
  have hwords : rules.Neutral (joinWords join.spec) := by
    rw [joinWords]
    split <;> (try split) <;> exact hd.piece (by decide)
  have hblank : rules.Neutral " " := hd.piece (by decide)
  refine (((hwords.append hblank).append (hd.identifier _)).append (hd.piece (by decide))).append
    (neutral_chain hd ?_)
  intro o ho
  obtain ⟨comparison, hc, rfl⟩ := List.mem_map.mp ho
  exact h comparison hc

theorem neutral_joins {joins : List Join} (h : ∀ join ∈ joins, rules.Neutral (join.text d)) :
    rules.Neutral (joinsText d joins) := by
  rw [joinsText]
  have hempty : rules.Neutral "" := Nests.empty
  revert hempty
  generalize "" = before
  induction joins generalizing before with
  | nil => exact id
  | cons join rest ih =>
    intro hbefore
    rw [List.forall_mem_cons] at h
    exact ih h.2 _ ((hbefore.append (hd.piece (by decide))).append h.1)

theorem neutral_correlation {c : Correlation} (ho : c.outer.quoted) (hi : c.inner.quoted) :
    rules.Neutral (c.text d) :=
  ((neutral_column hd ho).append (hd.piece (by decide))).append (neutral_column hd hi)

/-- The parts of a SELECT statement are neutral. -/
structure Select.PartsNeutral (d : Dialect) (rules : Quoting) (s : Select) : Prop where
  distinct : ∀ e, s.distinct = some e → rules.Neutral (e.text d)
  list : rules.Neutral (s.list.sql d)
  joins : ∀ join ∈ s.joins, rules.Neutral (join.text d)
  correlation : ∀ c, s.correlation = some c → rules.Neutral (c.text d)
  filter : ∀ link ∈ s.filter, rules.Neutral (link.operand.text d)
  groupBy : ∀ e ∈ s.groupBy, rules.Neutral (e.text d)
  having : ∀ link ∈ s.having, rules.Neutral (link.operand.text d)
  orderBy : ∀ term ∈ s.orderBy, rules.Neutral (term.text d)

theorem neutral_select {s : Select} (h : s.PartsNeutral d rules) : rules.Neutral (s.text d) := by
  obtain ⟨distinct, list, table, joins, correlation, filter, groupBy, having, orderBy, rows⟩ := s
  have hselect : rules.Neutral "SELECT " := hd.piece (by decide)
  have hfrom : rules.Neutral " FROM " := hd.piece (by decide)
  have hcorrelation : ∀ w, correlation.map (·.text d) = some w → rules.Neutral w := by
    intro w hw
    obtain ⟨c, hc, rfl⟩ := Option.map_eq_some_iff.mp hw
    exact h.correlation c hc
  have hgroup := neutral_clause hd " GROUP BY " (by decide)
    (List.forall_mem_map.mpr h.groupBy)
  have horder := neutral_clause hd " ORDER BY " (by decide)
    (List.forall_mem_map.mpr h.orderBy)
  rw [Select.text.eq_def]
  dsimp only
  refine Nests.append (l := 0) ?_ (neutral_rows hd rows)
  refine Nests.append (l := 0) ?_ horder
  refine Nests.append (l := 0) ?_ (neutral_having hd (neutral_links hd h.having))
  refine Nests.append (l := 0) ?_ hgroup
  refine Nests.append (l := 0) ?_ (neutral_where hd hcorrelation (neutral_links hd h.filter))
  refine Nests.append (l := 0) ?_ (neutral_joins hd h.joins)
  refine Nests.append (l := 0) ?_ (hd.identifier table)
  refine Nests.append (l := 0) ?_ hfrom
  refine Nests.append (l := 0) ?_ h.list
  refine hselect.append ?_
  cases distinct with
  | none => exact Nests.empty
  | some e => exact (h.distinct e rfl).append (hd.piece (by decide))

end Sql

end SqlCompose
