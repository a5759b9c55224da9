import SqlCompose.Proofs.Clauses.Select
import SqlCompose.Proofs.Lexical.Write

/-!
# Statements with empty clauses

The main statement: in every SELECT, INSERT, UPDATE and DELETE of a built-in dialect, something
stands behind each WHERE, ON, GROUP BY, HAVING, ORDER BY, IN, SET and VALUES, in nested statements
too. Two clauses are written as the caller asks for them, even if that leaves them empty: a SELECT
list from which every name was taken out, and a RETURNING of no fields.
-/

namespace SqlCompose

namespace Sql

/-- No clause of a restriction is empty. -/
structure Restriction.Filled (d : Dialect) (lists : Prop) (r : Restriction) : Prop where
  filter : ∀ link ∈ r.filter, link.operand.Filled d lists
  orderBy : OrderFilled d r.orderBy

/-- The text of a restriction in which every clause is left out or has something behind its
keyword. -/
def Restriction.ClausesOpen (d : Dialect) (r : Restriction) : Prop :=
  ∃ filter order, r.text d = filter ++ order ++ r.rows.text d ∧
    Opens " WHERE " filter ∧ Opens " ORDER BY " order

theorem Restriction.Filled.clausesOpen {d : Dialect} {lists : Prop} {r : Restriction}
    (h : r.Filled d lists) : r.ClausesOpen d :=
  ⟨_, _, rfl, opens_whereText d none _, opens_orderText h.orderBy⟩

/-- The columns and the rows of an INSERT are there, and every cell has a text. -/
structure Insert.Filled (d : Dialect) (s : Insert) : Prop where
  columns : s.columns ≠ []
  rows : s.rows ≠ []
  cells : ∀ row ∈ s.rows, row ≠ [] ∧ ∀ cell ∈ row, cell.text d ≠ ""

/-- Something is assigned, every cell has a text, and no clause after them is empty. -/
structure Update.Filled (d : Dialect) (lists : Prop) (s : Update) : Prop where
  assignments : s.assignments ≠ []
  cells : ∀ a ∈ s.assignments, a.cell.text d ≠ ""
  restriction : s.restriction.Filled d lists

/-- No clause behind the table of a DELETE is empty. -/
def DeleteTarget.Filled (d : Dialect) (lists : Prop) : DeleteTarget → Prop
  | .rows restriction => restriction.Filled d lists
  | .matched _ inner => inner.Filled d lists ∧ inner.list.Filled d

def DeleteTarget.ClausesOpen (d : Dialect) : DeleteTarget → Prop
  | .rows restriction => restriction.ClausesOpen d
  | .matched _ inner => inner.ClausesOpen d

theorem DeleteTarget.Filled.clausesOpen {d : Dialect} {lists : Prop} {target : DeleteTarget}
    (h : target.Filled d lists) : target.ClausesOpen d := by
  cases target with
  | rows restriction => exact Restriction.Filled.clausesOpen h
  | matched label inner => exact h.1.clausesOpen

theorem Restriction.filled_default (d : Dialect) (lists : Prop) :
    Restriction.Filled d lists {} := ⟨List.forall_mem_nil _, List.forall_mem_nil _⟩

end Sql

/-- Content whose text is not empty, whatever the type of its column. -/
def Content.Spelled (d : Dialect) (content : Content) : Prop :=
  ∀ type, (content.cell type).text d ≠ ""

theorem Dialect.IsBuiltin.placeholder_ne_empty {d : Dialect} (hd : d.IsBuiltin) :
    d.placeholder ≠ "" := by
  cases hd <;> decide

/-- A schema without raw SQL has none that is empty. -/
theorem Schema.SpellsRaw.of_hasNoRaw {s : Schema} (h : s.hasNoRaw) : s.SpellsRaw := by
  intro m hm f hf
  rw [Schema.hasNoRaw, List.all_eq_true] at h
  have hclean := List.all_eq_true.mp (h m hm) f hf
  rw [Field.hasNoRaw] at hclean
  rw [Field.SpellsRaw]
  split
  · rename_i literal hdefault
    rw [hdefault] at hclean
    cases hclean
  · rename_i rule hdefault
    rw [hdefault, Bool.not_eq_true'] at hclean
    intro hflag
    cases hclean.symm.trans hflag
  · trivial
  · trivial

theorem Schema.SpellsRaw.of_model {s : Schema} (h : s.SpellsRaw) {name : String} {m : Model}
    (hm : s.model name = .ok m) : ∀ f ∈ m.fields, f.SpellsRaw := h m (Schema.mem_models_of_model hm)

namespace Composer

variable {c : Composer} {lists : Prop}

/-- The names of the result columns of a query that is no nested one. -/
def resultNames (c : Composer) (o : Options) (q : Query) : Set String :=
  { name | ∃ plan scope, JoinPlan.ofQuery q = .ok plan ∧ c.scope q plan = .ok scope ∧
    name ∈ c.listedNames { o with statement := .select, distinct := q.distinct?.isSome } q scope
      (c.dialect.orderSupport { o with statement := .select, distinct := q.distinct?.isSome }) }

/-- The RETURNING clause is empty if no field is asked for. -/
theorem returning_eq_nil_iff {m : Model} {o : Options} {returning : Option (List String)}
    (h : c.returning m o = .ok returning) : returning = some [] ↔ o.returning = some [] := by
  rw [Composer.returning] at h
  cases hnames : o.returning with
  | none =>
    rw [hnames] at h
    cases h
    simp
  | some names =>
    rw [hnames] at h
    dsimp only at h
    split at h
    · simp only [bind_eq_ok, pure_eq_ok] at h
      obtain ⟨columns, hcolumns, rfl⟩ := h
      have hlength := (mapM_eq_ok.mp hcolumns).length_eq
      rw [Option.some.injEq, Option.some.injEq, ← List.length_eq_zero_iff,
        ← List.length_eq_zero_iff, hlength]
    · cases h

section Contents

variable (hd : c.dialect.IsBuiltin)

include hd

theorem spelled_value (v : Value) : (Content.value v).Spelled c.dialect :=
  fun type => hd.spellsValues v (some type)

theorem spelled_of_computedContent {f : Field} (hf : f.SpellsRaw) {record : Option Record}
    {event : DefaultEvent} {content : Content}
    (h : c.computedContent f record event = some content) : content.Spelled c.dialect := by
  rw [computedContent] at h
  split at h
  · rename_i rule hrule
    rw [Field.SpellsRaw, hrule] at hf
    split at h
    · dsimp only at h
      split at h
      · rename_i hflag
        split at h
        · rename_i sql hvalue
          cases h
          exact fun _ => hf hflag _ sql hvalue
        · cases h
          exact fun _ => hd.spellsValues _ (some f.type)
      · cases h
        exact spelled_value hd _
    · cases h
  · cases h

theorem spelled_of_insertContent {o : Options} {record : Record} {f : Field} (hf : f.SpellsRaw)
    {content : Content} (h : c.insertContent o record f = .ok (some content)) :
    content.Spelled c.dialect := by
  rw [insertContent] at h
  split at h
  · cases h
    exact spelled_value hd _
  · split at h
    · cases h
      exact spelled_value hd _
    · rename_i literal hliteral
      rw [Field.SpellsRaw, hliteral] at hf
      simp only [bind_eq_ok, pure_eq_ok] at h
      obtain ⟨e, he, heq⟩ := h
      cases heq
      exact fun _ => text_ne_empty_of_literalExpr hf he
    · exact spelled_of_computedContent hd hf (pure_eq_ok.mp h)
    · cases h

theorem spelled_of_insertRow {o : Options} {m : Model} (hm : ∀ f ∈ m.fields, f.SpellsRaw)
    {record : Record} {row : Row} (h : c.insertRow o m record = .ok row) :
    ∀ content ∈ row.values, content.Spelled c.dialect := by
  simp only [insertRow, bind_eq_ok] at h
  obtain ⟨-, -, h⟩ := h
  refine foldlM_eq_ok_of_step (P := fun row : Row => ∀ content ∈ row.values,
    content.Spelled c.dialect) ?_ (List.forall_mem_nil _) h
  intro row f next hf hrow hstep
  simp only [fillRow, bind_eq_ok] at hstep
  obtain ⟨content, hcontent, hstep⟩ := hstep
  cases content with
  | none =>
    cases hstep
    exact hrow
  | some content =>
    cases hstep
    intro other hother
    rcases OrderedMap.mem_values_insert hother with hold | rfl
    · exact hrow other hold
    · exact spelled_of_insertContent hd (hm f (List.mem_of_mem_filter hf)) hcontent

theorem text_rowCell_ne_empty {row : Row} (hrow : ∀ content ∈ row.values, content.Spelled c.dialect)
    (f : Field) : (rowCell row f).text c.dialect ≠ "" := by
  rw [rowCell]
  split
  · rename_i content hget
    exact hrow content (OrderedMap.mem_values_of_get? hget) f.type
  · exact hd.placeholder_ne_empty

end Contents

/-- An INSERT names a column that some row sets, and has a cell for it in every row. -/
theorem filled_insertTree (hd : c.dialect.IsBuiltin) {o : Options} {model : String}
    {records : List Record} (hs : c.schema.SpellsRaw) {s : Sql.Insert}
    (h : c.insertTree o model records = .ok (some s)) :
    s.Filled c.dialect ∧ (s.ending.returning = some [] ↔ o.returning = some []) := by
  simp only [insertTree, bind_eq_ok] at h
  obtain ⟨m, hm, rows, hrows, h⟩ := h
  split at h
  · cases h
  · rename_i hfields
    simp only [bind_eq_ok, pure_eq_ok] at h
    obtain ⟨returning, hreturning, heq⟩ := h
    cases heq
    rw [List.isEmpty_iff] at hfields
    refine ⟨⟨?_, ?_, ?_⟩, returning_eq_nil_iff hreturning⟩
    · rwa [ne_eq, List.map_eq_nil_iff]
    · rw [ne_eq, List.map_eq_nil_iff]
      rintro rfl
      exact hfields (List.filter_eq_nil_iff.mpr fun _ _ => by simp)
    · refine List.forall_mem_map.mpr fun row hrow => ⟨?_, List.forall_mem_map.mpr fun f _ => ?_⟩
      · rwa [ne_eq, List.map_eq_nil_iff]
      · obtain ⟨record, -, hrecord⟩ := exists_of_mapM_eq_ok hrows hrow
        exact text_rowCell_ne_empty hd (spelled_of_insertRow hd (hs.of_model hm) hrecord) f

theorem text_ne_empty_of_assignments {m : Model} {record : Record} :
    ∀ a ∈ c.assignments m record, a.cell.text c.dialect ≠ "" := by
  intro a ha
  obtain ⟨f, -, h⟩ := List.mem_filterMap.mp ha
  rw [assignment] at h
  split at h
  · dsimp only at h
    split at h
    · cases h
    · rename_i htext
      cases h
      exact htext
  · cases h

section Restrictions

variable (hd : c.dialect.IsBuiltin) {o : Options} {q : Query} (hq : c.Supplied lists q.ops)

include hd hq

theorem linksFilled_of_filter {links : List Sql.Link} (h : c.filter o q = .ok links) :
    c.LinksFilled lists links := by
  simp only [filter, bind_eq_ok, pure_eq_ok] at h
  obtain ⟨all, hall, rfl⟩ := h
  exact (((composition_filled hd.spellsValues).2.1 q.ops hq).1 hall).settle

omit hd in
theorem orderFilled_of_plainOrder {scope : Scope} {terms : List Sql.OrderTerm}
    (h : c.plainOrder o q scope = .ok terms) : Sql.OrderFilled c.dialect terms := by
  simp only [plainOrder] at h
  split at h
  · exact orderFilled_of_orderTerms hq.forall_op h
  · cases h
    exact List.forall_mem_nil _

theorem filled_updateRestriction {m : Model} {r : Sql.Restriction}
    (h : c.updateRestriction o m q = .ok r) : r.Filled c.dialect lists := by
  rw [updateRestriction] at h
  split at h
  · cases h
  · simp only [bind_eq_ok, pure_eq_ok] at h
    obtain ⟨links, hlinks, _, _, _, _, terms, hterms, _, _, rfl⟩ := h
    exact ⟨linksFilled_of_filter hd hq hlinks, orderFilled_of_plainOrder hq hterms⟩

theorem filled_deleteRestriction {r : Sql.Restriction} (h : c.deleteRestriction o q = .ok r) :
    r.Filled c.dialect lists := by
  simp only [deleteRestriction, bind_eq_ok] at h
  obtain ⟨links, hlinks, h⟩ := h
  have hfilter := linksFilled_of_filter hd hq hlinks
  split at h
  · simp only [bind_eq_ok, pure_eq_ok] at h
    obtain ⟨_, _, _, _, terms, hterms, _, _, rfl⟩ := h
    exact ⟨hfilter, orderFilled_of_plainOrder hq hterms⟩
  · simp only [bind_eq_ok, pure_eq_ok] at h
    obtain ⟨-, rfl, -, -, rfl⟩ := h
    exact ⟨hfilter, List.forall_mem_nil _⟩

theorem filled_joinedTarget {m : Model} {target : Sql.DeleteTarget}
    (h : c.joinedTarget o m q = .ok target) : target.Filled c.dialect lists := by
  rw [joinedTarget] at h
  split at h
  · cases h
  · simp only [bind_eq_ok, pure_eq_ok] at h
    obtain ⟨⟨columns, inner⟩, hinner, rfl⟩ := h
    obtain ⟨plan, scope, hcomposed⟩ := selectTree_eq_ok hinner
    refine ⟨(composition_filled hd.spellsValues).1 q hq hinner, ?_⟩
    rw [hcomposed.list_eq]
    exact (by decide : "1" ≠ "")

end Restrictions

theorem filled_updateTree (hd : c.dialect.IsBuiltin) {o : Options} {model : String}
    {record : Record} {q : Option Query} (hq : ∀ q', q = some q' → c.Supplied lists q'.ops)
    {s : Sql.Update} (h : c.updateTree o model record q = .ok (some s)) :
    s.Filled c.dialect lists ∧ (s.ending.returning = some [] ↔ o.returning = some []) := by
  simp only [updateTree, bind_eq_ok] at h
  obtain ⟨m, -, -, -, h⟩ := h
  split at h
  · cases h
  · rename_i hassignments
    rw [List.isEmpty_iff] at hassignments
    cases q with
    | none =>
      simp only [bind_eq_ok, pure_eq_ok] at h
      obtain ⟨_, rfl, returning, hreturning, heq⟩ := h
      cases heq
      exact ⟨⟨hassignments, text_ne_empty_of_assignments, Sql.Restriction.filled_default _ _⟩,
        returning_eq_nil_iff hreturning⟩
    | some q =>
      simp only [bind_eq_ok, pure_eq_ok] at h
      obtain ⟨r, hr, returning, hreturning, heq⟩ := h
      cases heq
      exact ⟨⟨hassignments, text_ne_empty_of_assignments,
        filled_updateRestriction hd (hq q rfl) hr⟩, returning_eq_nil_iff hreturning⟩

theorem filled_deleteTree (hd : c.dialect.IsBuiltin) {o : Options} {model : String}
    {q : Option Query} (hq : ∀ q', q = some q' → c.Supplied lists q'.ops) {s : Sql.Delete}
    (h : c.deleteTree o model q = .ok s) :
    s.target.Filled c.dialect lists ∧ (s.ending.returning = some [] ↔ o.returning = some []) := by
  simp only [deleteTree, bind_eq_ok, pure_eq_ok] at h
  obtain ⟨m, -, target, htarget, returning, hreturning, rfl⟩ := h
  refine ⟨?_, returning_eq_nil_iff hreturning⟩
  rw [deleteTarget.eq_def] at htarget
  split at htarget
  · cases htarget
    exact Sql.Restriction.filled_default _ _
  · rename_i q
    split at htarget
    · exact filled_joinedTarget hd (hq q rfl) htarget
    · split at htarget
      · simp only [bind_eq_ok, pure_eq_ok] at htarget
        obtain ⟨r, hr, rfl⟩ := htarget
        exact filled_deleteRestriction hd (hq q rfl) hr
      · cases htarget
        exact Sql.Restriction.filled_default _ _

theorem ComposedFrom.resultNames_eq {o : Options} {q : Query} {plan : JoinPlan} {scope : Scope}
    {columns : ResultColumns} {s : Sql.Select}
    (h : c.ComposedFrom { o with statement := .select } none q plan scope columns s) :
    c.resultNames o q =
      c.listedNames { o with statement := .select, distinct := q.distinct?.isSome } q scope
        (c.dialect.orderSupport { o with statement := .select, distinct := q.distinct?.isSome }) := by
  ext name
  constructor
  · rintro ⟨plan', scope', hplan, hscope, hname⟩
    cases h.plan_eq.symm.trans hplan
    cases h.scope_eq.symm.trans hscope
    exact hname
  · intro hname
    exact ⟨plan, scope, h.plan_eq, h.scope_eq, hname⟩

/-- The list of a SELECT that is no nested one is empty if no name is left. -/
theorem list_eq_nil_iff {o : Options} {q : Query} {columns : ResultColumns} {s : Sql.Select}
    (hlist : o.selectList = none)
    (h : c.selectTree { o with statement := .select } none q = .ok (columns, s)) :
    s.list = .items [] ↔ c.resultNames o q = ∅ := by
  obtain ⟨plan, scope, hcomposed⟩ := selectTree_eq_ok h
  have hitems : s.list = .items columns.values := by
    have hgiven : Options.selectList { o with statement := .select } = none := hlist
    rw [hcomposed.list_eq, hgiven]
  have hkeys : columns.values = [] ↔ columns.keys = [] := by
    rw [OrderedMap.values, OrderedMap.keys, List.map_eq_nil_iff, List.map_eq_nil_iff]
  rw [hitems, Sql.SelectList.items.injEq, hkeys, hcomposed.resultNames_eq,
    List.eq_nil_iff_forall_not_mem, Set.eq_empty_iff_forall_notMem]
  exact forall_congr' fun name => not_congr (mem_keys_listedColumns hlist hcomposed.columns_eq)

/-- The list of a SELECT that is no nested one is filled where a name is left. -/
theorem listFilled_of_resultNames {o : Options} {q : Query} (hq : q.SpellsRaw)
    (hgiven : ∀ sql, o.selectList = some sql → sql ≠ "")
    (hnames : o.selectList = none → (c.resultNames o q).Nonempty) {columns : ResultColumns}
    {s : Sql.Select} (h : c.selectTree { o with statement := .select } none q = .ok (columns, s)) :
    s.list.Filled c.dialect := by
  obtain ⟨plan, scope, hcomposed⟩ := selectTree_eq_ok h
  rw [hcomposed.resultNames_eq] at hnames
  exact hcomposed.listFilled (fun op hop => hq op (.here hop)) hgiven hnames

end Composer

/-- In every statement that a built-in dialect composes of inputs without empty raw texts, something
stands behind each keyword. The exceptions are as the caller asks for them: a SELECT list is empty
if no name is left, and a RETURNING if it names no fields. -/
theorem clauses_filled {c : Composer} (hd : c.dialect.IsBuiltin) (o : Options) (model : String) :
    (∀ q r, q.SpellsRaw → (∀ sql, o.selectList = some sql → sql ≠ "") → c.select o q = .ok r →
      ∃ columns s, c.selectTree { o with statement := .select } none q = .ok (columns, s) ∧
        r.sql = s.text c.dialect ∧
        s.Filled c.dialect (c.SubSelectsListed q.ops) ∧ s.ClausesOpen c.dialect ∧
        ((o.selectList = none → (c.resultNames o q).Nonempty) → s.list.Filled c.dialect) ∧
        (o.selectList = none → (s.list = .items [] ↔ c.resultNames o q = ∅))) ∧
    (∀ records text, c.schema.SpellsRaw → c.insert o model records = .ok (some text) →
      ∃ s, c.insertTree o model records = .ok (some s) ∧ text = s.text c.dialect ∧
        s.Filled c.dialect ∧ (s.ending.returning = some [] ↔ o.returning = some [])) ∧
    (∀ record q text, (∀ q', q = some q' → q'.SpellsRaw) →
      c.update o model record q = .ok (some text) →
      ∃ s, c.updateTree o model record q = .ok (some s) ∧ text = s.text c.dialect ∧
        s.Filled c.dialect (∀ q', q = some q' → c.SubSelectsListed q'.ops) ∧
        s.restriction.ClausesOpen c.dialect ∧
        (s.ending.returning = some [] ↔ o.returning = some [])) ∧
    (∀ q text, (∀ q', q = some q' → q'.SpellsRaw) → c.delete o model q = .ok text →
      ∃ s, c.deleteTree o model q = .ok s ∧ text = s.text c.dialect ∧
        s.target.Filled c.dialect (∀ q', q = some q' → c.SubSelectsListed q'.ops) ∧
        s.target.ClausesOpen c.dialect ∧
        (s.ending.returning = some [] ↔ o.returning = some [])) := by
  have hsupplied : ∀ {q : Option Query}, (∀ q', q = some q' → q'.SpellsRaw) → ∀ q', q = some q' →
      c.Supplied (∀ q', q = some q' → c.SubSelectsListed q'.ops) q'.ops :=
    fun hraw q' hq => ⟨hraw q' hq, fun hlisted => hlisted q' hq⟩
  refine ⟨fun q r hq hgiven h => ?_, fun records text hs h => ?_, fun record q text hq h => ?_,
    fun q text hq h => ?_⟩
  · simp only [Composer.select, bind_eq_ok, pure_eq_ok] at h
    obtain ⟨⟨columns, s⟩, htree, rfl⟩ := h
    have hfilled : s.Filled c.dialect (c.SubSelectsListed q.ops) :=
      (Composer.composition_filled hd.spellsValues).1 q ⟨hq, id⟩ htree
    exact ⟨columns, s, htree, rfl, hfilled, hfilled.clausesOpen,
      fun hnames => Composer.listFilled_of_resultNames hq hgiven hnames htree,
      fun hlist => Composer.list_eq_nil_iff hlist htree⟩
  · simp only [Composer.insert, bind_eq_ok, pure_eq_ok, Option.map_eq_some_iff] at h
    obtain ⟨_, htree, s, rfl, rfl⟩ := h
    exact ⟨s, htree, rfl, Composer.filled_insertTree hd hs htree⟩
  · simp only [Composer.update, bind_eq_ok, pure_eq_ok, Option.map_eq_some_iff] at h
    obtain ⟨_, htree, s, rfl, rfl⟩ := h
    obtain ⟨hfilled, hreturning⟩ := Composer.filled_updateTree hd (hsupplied hq) htree
    exact ⟨s, htree, rfl, hfilled, hfilled.restriction.clausesOpen, hreturning⟩
  · simp only [Composer.delete, bind_eq_ok, pure_eq_ok] at h
    obtain ⟨s, htree, rfl⟩ := h
    obtain ⟨hfilled, hreturning⟩ := Composer.filled_deleteTree hd (hsupplied hq) htree
    exact ⟨s, htree, rfl, hfilled, hfilled.clausesOpen, hreturning⟩

theorem hostileQuery_inside {op : Operation} (h : op.Inside hostileQuery.ops) :
    op = .condition (.of ⟨"Person", "name"⟩ .eq (.value hostileName)) := by
  cases h with
  | here h => exact List.mem_singleton.mp h
  | condition h hv hi =>
    cases List.mem_singleton.mp h
    cases hv
  | group h hi => cases List.mem_singleton.mp h
  | having h hi => cases List.mem_singleton.mp h

theorem hostileQuery_listed : people.SubSelectsListed hostileQuery.ops := by
  intro condition nested hinside hv
  cases hostileQuery_inside hinside
  cases hv

theorem people_resultNames : (people.resultNames {} hostileQuery).Nonempty := by
  have hplan : JoinPlan.ofQuery hostileQuery = .ok ⟨[]⟩ := by cbv
  have hscope : ∃ m, people.scope hostileQuery ⟨[]⟩ = .ok ⟨m, []⟩ ∧
      ∃ f ∈ m.storedFields, f.fullName = "Person:id" := ⟨_, rfl, _, List.mem_cons_self, rfl⟩
  obtain ⟨m, hscope, f, hf, hname⟩ := hscope
  exact ⟨"Person:id", ⟨[]⟩, _, hplan, hscope, .inl ⟨m, List.mem_cons_self, f, hf, hname⟩⟩

theorem clauses_filled_hostile :
    people.dialect.IsBuiltin ∧ hostileQuery.SpellsRaw ∧ people.schema.SpellsRaw ∧
      (∃ r, ∃ s : Sql.Select, people.select {} hostileQuery = .ok r ∧
        r.sql = s.text people.dialect ∧ s.Filled people.dialect True ∧
        s.list.Filled people.dialect) ∧
      (∃ text, ∃ s : Sql.Insert, people.insert {} "Person" [hostilePerson] = .ok (some text) ∧
        text = s.text people.dialect ∧ s.Filled people.dialect) ∧
      (∃ text, ∃ s : Sql.Update,
        people.update {} "Person" hostilePerson (some hostileQuery) = .ok (some text) ∧
        text = s.text people.dialect ∧ s.Filled people.dialect True) ∧
      ∃ text, ∃ s : Sql.Delete, people.delete {} "Person" (some hostileQuery) = .ok text ∧
        text = s.text people.dialect ∧ s.target.Filled people.dialect True := by
  have hd : people.dialect.IsBuiltin := .sqlite
  have hquery : hostileQuery.SpellsRaw := by
    intro op hop
    rw [hostileQuery_inside hop]
    rfl
  have hgiven : ∀ q, some hostileQuery = some q → q.SpellsRaw := by
    intro q hq
    cases hq
    exact hquery
  have hschema : people.schema.SpellsRaw := .of_hasNoRaw (by cbv)
  have hselect : people.SubSelectsListed hostileQuery.ops = True := eq_true hostileQuery_listed
  have hlisted : (∀ q, some hostileQuery = some q → people.SubSelectsListed q.ops) = True :=
    eq_true fun q hq => Option.some.inj hq ▸ hostileQuery_listed
  obtain ⟨select, insert, update, delete⟩ := clauses_filled hd {} "Person"
  obtain ⟨_, s, -, htext, hfilled, -, hlist, -⟩ :=
    select _ _ hquery (fun _ h => by cases h) select_hostile
  rw [hselect] at hfilled
  obtain ⟨i, -, hitext, hifilled, -⟩ := insert _ _ hschema insert_hostile
  obtain ⟨u, -, hutext, hufilled, -⟩ := update _ _ _ hgiven update_hostile
  rw [hlisted] at hufilled
  obtain ⟨t, -, hdtext, hdfilled, -⟩ := delete _ _ hgiven delete_hostile
  rw [hlisted] at hdfilled
  exact ⟨hd, hquery, hschema, ⟨_, s, select_hostile, htext, hfilled, hlist fun _ => people_resultNames⟩,
    ⟨_, i, insert_hostile, hitext, hifilled⟩, ⟨_, u, update_hostile, hutext, hufilled⟩,
    ⟨_, t, delete_hostile, hdtext, hdfilled⟩⟩

/-- A projection that lists nothing leaves a SELECT without columns, and a RETURNING of no fields
is written all the same. -/
theorem empty_clauses_written :
    (people.select {} ⟨"Person", none, [.project ⟨.replace, []⟩]⟩).map (·.sql) =
        .ok "SELECT  FROM \"people\"" ∧
      people.delete { returning := some [] } "Person" none =
        .ok "DELETE FROM \"people\" RETURNING " := by
  constructor
  · decide +kernel
  · decide +kernel

end SqlCompose
