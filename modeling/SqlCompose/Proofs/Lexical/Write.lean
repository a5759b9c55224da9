import Mathlib
import SqlCompose.Proofs.Filter
import SqlCompose.Proofs.Lexical.Select
import SqlCompose.Write.Delete
import SqlCompose.Write.Insert

/-!
# Nothing a caller names or stores leaves its token

The main statement: whatever names the schema has and whatever values, patterns and aliases a
caller hands in, the text of a SELECT, INSERT, UPDATE or DELETE without raw SQL is scanned to its
end outside quoted tokens, with every parenthesis closed in its place. It speaks of the built-in
dialects; a dialect of an application has to be `Dialect.Regular` for the lemmas here.
-/

namespace SqlCompose

open Quoting

namespace Sql

/-- What follows the table of a DELETE. -/
def DeleteTarget.text (d : Dialect) : DeleteTarget → String
  | .rows restriction => restriction.text d
  | .matched label inner => " AS " ++ d.identifier label ++ " WHERE EXISTS (" ++ inner.text d ++ ")"

variable {d : Dialect} {rules : Quoting} (hd : d.Regular rules)

include hd

theorem neutral_tuple {entries : List String} (h : ∀ w ∈ entries, rules.Neutral w) :
    rules.Neutral (tupleText entries) :=
  .parens hd.quotesNames (.intercalate (hd.piece (by decide)) h)

theorem neutral_identifiers (names : List String) :
    ∀ w ∈ names.map d.identifier, rules.Neutral w :=
  List.forall_mem_map.mpr fun name _ => hd.identifier name

theorem neutral_ending {e : Ending} (ht : e.tail = none) : rules.Neutral (e.text d) := by
  obtain ⟨tail, returning⟩ := e
  cases ht
  refine Nests.empty.append ?_
  cases returning with
  | none => exact Nests.empty
  | some columns =>
    exact (hd.piece (by decide)).append
      (.intercalate (hd.piece (by decide)) (neutral_identifiers hd columns))

theorem neutral_restriction {r : Restriction}
    (hf : ∀ link ∈ r.filter, rules.Neutral (link.operand.text d))
    (ho : ∀ term ∈ r.orderBy, rules.Neutral (term.text d)) : rules.Neutral (r.text d) :=
  ((neutral_where hd (fun _ h => by cases h) (neutral_links hd hf)).append
    (neutral_clause hd " ORDER BY " (by decide) (List.forall_mem_map.mpr ho))).append
    (neutral_rows hd r.rows)

theorem neutral_unrestricted : rules.Neutral (Restriction.text d {}) :=
  neutral_restriction hd (List.forall_mem_nil _) (List.forall_mem_nil _)

theorem neutral_insert {s : Insert} (hr : ∀ row ∈ s.rows, ∀ cell ∈ row, rules.Neutral (cell.text d))
    (ht : s.ending.tail = none) : rules.Neutral (s.text d) := by
  have hinto : rules.Neutral "INSERT INTO " := hd.piece (by decide)
  have hrows : rules.Neutral
      (", ".intercalate (s.rows.map fun row => tupleText (row.map (·.text d)))) :=
    .intercalate (hd.piece (by decide)) (List.forall_mem_map.mpr fun row hrow =>
      neutral_tuple hd (List.forall_mem_map.mpr (hr row hrow)))
  exact (((((hinto.append (hd.identifier _)).append (hd.piece (by decide))).append
    (neutral_tuple hd (neutral_identifiers hd _))).append (hd.piece (by decide))).append
    hrows).append (neutral_ending hd ht)

theorem neutral_update {s : Update} (ha : ∀ a ∈ s.assignments, rules.Neutral (a.cell.text d))
    (hr : rules.Neutral (s.restriction.text d)) (ht : s.ending.tail = none) :
    rules.Neutral (s.text d) := by
  have hupdate : rules.Neutral "UPDATE " := hd.piece (by decide)
  have hassignments : rules.Neutral (", ".intercalate (s.assignments.map (·.text d))) := by
    refine .intercalate (hd.piece (by decide)) (List.forall_mem_map.mpr fun a hmem => ?_)
    exact ((hd.identifier _).append (hd.piece (by decide))).append (ha a hmem)
  exact (((((hupdate.append (hd.identifier _)).append (hd.piece (by decide))).append
    hassignments).append hr).append (neutral_ending hd ht))

theorem neutral_matched (label : String) {inner : Select} (hi : rules.Neutral (inner.text d)) :
    rules.Neutral (DeleteTarget.text d (.matched label inner)) := by
  have hwords : rules.Nests 0 1 " WHERE EXISTS (" := hd.piece (by decide)
  have has : rules.Neutral " AS " := hd.piece (by decide)
  exact (((has.append (hd.identifier label)).append hwords).append (hi.lift 1)).append
    (hd.piece (by decide))

theorem neutral_delete {s : Delete} (ht : rules.Neutral (s.target.text d))
    (he : s.ending.tail = none) : rules.Neutral (s.text d) := by
  obtain ⟨table, target, ending⟩ := s
  have hfrom : rules.Neutral "DELETE FROM " := hd.piece (by decide)
  have hending := neutral_ending hd he
  cases target with
  | rows restriction => exact ((hfrom.append (hd.identifier _)).append ht).append hending
  | matched label inner => exact ((hfrom.append (hd.identifier _)).append ht).append hending

end Sql

/-- Content that is a value. -/
def Content.IsValue (content : Content) : Prop := ∃ v, content = .value v

theorem Content.IsValue.neutral_cell {content : Content} (h : content.IsValue) {d : Dialect}
    {rules : Quoting} (hd : d.Regular rules) (type : ColumnType) :
    rules.Neutral ((content.cell type).text d) := by
  obtain ⟨v, rfl⟩ := h
  exact hd.value v _

namespace Composer

variable {c : Composer}

theorem isValue_of_computedContent {f : Field} (hf : f.hasNoRaw) {record : Option Record}
    {event : DefaultEvent} {content : Content}
    (h : c.computedContent f record event = some content) : content.IsValue := by
  rw [computedContent] at h
  split at h
  · rename_i rule hrule
    have hflag : rule.flags.literal = false := by simpa [Field.hasNoRaw, hrule] using hf
    rw [hflag] at h
    split at h
    · exact ⟨_, (Option.some.inj h).symm⟩
    · cases h
  · cases h

theorem isValue_of_insertContent {opts : Options} {record : Record} {f : Field}
    (hf : f.hasNoRaw) {content : Content}
    (h : c.insertContent opts record f = .ok (some content)) : content.IsValue := by
  rw [insertContent] at h
  split at h
  · cases h
    exact ⟨_, rfl⟩
  · split at h
    · cases h
      exact ⟨_, rfl⟩
    · rename_i literal hliteral
      rw [Field.hasNoRaw, hliteral] at hf
      cases hf
    · exact isValue_of_computedContent hf (pure_eq_ok.mp h)
    · cases h

theorem isValue_of_updateContent {record : Record} {f : Field} (hf : f.hasNoRaw)
    {content : Content} (h : c.updateContent record f = some content) : content.IsValue := by
  rw [updateContent] at h
  split at h
  · cases h
    exact ⟨_, rfl⟩
  · exact isValue_of_computedContent hf h

/-- A row holds values only. -/
def RowOfValues (row : Row) : Prop := ∀ content ∈ row.values, content.IsValue

theorem rowOfValues_of_insertRow {opts : Options} {m : Model} (hm : ∀ f ∈ m.fields, f.hasNoRaw)
    {record : Record} {row : Row} (h : c.insertRow opts m record = .ok row) : RowOfValues row := by
  simp only [insertRow, bind_eq_ok] at h
  obtain ⟨_, _, h⟩ := h
  refine foldlM_eq_ok_of_step (P := RowOfValues) (fun row f next hf hrow hstep => ?_)
    (fun _ hempty => by cases hempty) h
  simp only [fillRow, bind_eq_ok] at hstep
  obtain ⟨content, hcontent, hstep⟩ := hstep
  cases content with
  | none =>
    cases hstep
    exact hrow
  | some content =>
    cases hstep
    intro other hother
    rcases OrderedMap.mem_values_insert hother with hold | rfl
    · exact hrow other hold
    · exact isValue_of_insertContent (hm f (List.mem_of_mem_filter hf)) hcontent

variable {rules : Quoting} (hd : c.dialect.Regular rules)

include hd

theorem neutral_rowCell {row : Row} (hrow : RowOfValues row) (f : Field) :
    rules.Neutral ((rowCell row f).text c.dialect) := by
  rw [rowCell]
  split
  · exact (hrow _ (OrderedMap.mem_values_of_get? ‹_›)).neutral_cell hd f.type
  · exact hd.placeholder

theorem neutral_insertTree {opts : Options} {model : String} {records : List Record}
    (hs : c.schema.hasNoRaw) {s : Sql.Insert}
    (h : c.insertTree opts model records = .ok (some s)) :
    rules.Neutral (s.text c.dialect) := by
  simp only [insertTree, bind_eq_ok] at h
  obtain ⟨m, hm, rows, hrows, h⟩ := h
  split at h
  · cases h
  · simp only [bind_eq_ok, pure_eq_ok] at h
    obtain ⟨returning, _, heq⟩ := h
    cases heq
    refine Sql.neutral_insert hd ?_ (hd.insertTail _ _)
    refine List.forall_mem_map.mpr fun row hrow => List.forall_mem_map.mpr fun f _ => ?_
    obtain ⟨record, _, hrecord⟩ := exists_of_mapM_eq_ok hrows hrow
    exact neutral_rowCell hd (rowOfValues_of_insertRow (Schema.hasNoRaw_of_model hs hm) hrecord) f

theorem linksNeutral_of_filter {opts : Options} {q : Query} (hn : q.hasNoRaw)
    {links : List Sql.Link} (h : c.filter opts q = .ok links) : c.LinksNeutral rules links := by
  simp only [filter, bind_eq_ok, pure_eq_ok] at h
  obtain ⟨all, hall, rfl⟩ := h
  have hops := opsHaveNoRaw_iff.mpr (Query.forall_op_of_hasNoRaw hn)
  exact (((composition_neutral hd).2.1 q.ops hops).1 hall).settle

theorem neutral_plainOrder {opts : Options} {q : Query} (hn : q.hasNoRaw) {scope : Scope}
    {terms : List Sql.OrderTerm} (h : c.plainOrder opts q scope = .ok terms) :
    ∀ term ∈ terms, rules.Neutral (term.text c.dialect) := by
  simp only [plainOrder] at h
  split at h
  · exact neutral_orderTerms hd hn h
  · cases h
    exact List.forall_mem_nil _

theorem neutral_assignments {m : Model} (hm : ∀ f ∈ m.fields, f.hasNoRaw) (record : Record) :
    ∀ a ∈ c.assignments m record, rules.Neutral (a.cell.text c.dialect) := by
  intro a ha
  obtain ⟨f, hf, h⟩ := List.mem_filterMap.mp ha
  rw [assignment] at h
  split at h
  · rename_i content hcontent
    dsimp only at h
    split at h
    · cases h
    · cases h
      have hvalue := isValue_of_updateContent (hm f (List.mem_of_mem_filter hf)) hcontent
      exact hvalue.neutral_cell hd f.type
  · cases h

theorem neutral_updateRestriction {opts : Options} {m : Model} {q : Query} (hn : q.hasNoRaw)
    {r : Sql.Restriction} (h : c.updateRestriction opts m q = .ok r) :
    rules.Neutral (r.text c.dialect) := by
  rw [updateRestriction] at h
  split at h
  · cases h
  · simp only [bind_eq_ok, pure_eq_ok] at h
    obtain ⟨links, hlinks, _, _, _, _, terms, hterms, _, _, rfl⟩ := h
    exact Sql.neutral_restriction hd (linksNeutral_of_filter hd hn hlinks)
      (neutral_plainOrder hd hn hterms)

theorem neutral_updateTree {opts : Options} {model : String} {record : Record}
    {q : Option Query} (hs : c.schema.hasNoRaw) (hn : ∀ q', q = some q' → q'.hasNoRaw)
    {s : Sql.Update} (h : c.updateTree opts model record q = .ok (some s)) :
    rules.Neutral (s.text c.dialect) := by
  simp only [updateTree, bind_eq_ok] at h
  obtain ⟨m, hm, _, _, h⟩ := h
  split at h
  · cases h
  · have hassignments := neutral_assignments hd (Schema.hasNoRaw_of_model hs hm) record
    cases q with
    | none =>
      simp only [bind_eq_ok, pure_eq_ok] at h
      obtain ⟨_, rfl, _, _, heq⟩ := h
      cases heq
      exact Sql.neutral_update hd hassignments (Sql.neutral_unrestricted hd) (hd.updateTail _ _)
    | some q =>
      simp only [bind_eq_ok, pure_eq_ok] at h
      obtain ⟨r, hr, _, _, heq⟩ := h
      cases heq
      exact Sql.neutral_update hd hassignments (neutral_updateRestriction hd (hn q rfl) hr)
        (hd.updateTail _ _)

theorem neutral_deleteRestriction {opts : Options} {q : Query} (hn : q.hasNoRaw)
    {r : Sql.Restriction} (h : c.deleteRestriction opts q = .ok r) :
    rules.Neutral (r.text c.dialect) := by
  simp only [deleteRestriction, bind_eq_ok] at h
  obtain ⟨links, hlinks, h⟩ := h
  have hfilter := linksNeutral_of_filter hd hn hlinks
  split at h
  · simp only [bind_eq_ok, pure_eq_ok] at h
    obtain ⟨_, _, _, _, terms, hterms, _, _, rfl⟩ := h
    exact Sql.neutral_restriction hd hfilter (neutral_plainOrder hd hn hterms)
  · simp only [bind_eq_ok, pure_eq_ok] at h
    obtain ⟨_, rfl, _, _, rfl⟩ := h
    exact Sql.neutral_restriction hd hfilter (List.forall_mem_nil _)

theorem neutral_joinedTarget {opts : Options} {m : Model} {q : Query} (hn : q.hasNoRaw)
    {target : Sql.DeleteTarget} (h : c.joinedTarget opts m q = .ok target) :
    rules.Neutral (target.text c.dialect) := by
  rw [joinedTarget] at h
  split at h
  · cases h
  · simp only [bind_eq_ok, pure_eq_ok] at h
    obtain ⟨⟨columns, inner⟩, hinner, rfl⟩ := h
    have hlist : ∀ sql, (matchedOptions opts q).selectList = some sql → rules.Neutral sql := by
      intro sql hsql
      cases hsql
      exact hd.piece (by decide)
    refine Sql.neutral_matched hd _ ((composition_neutral hd).1 q hn hlist ?_ hinner)
    intro k hk
    cases hk
    exact ⟨rfl, rfl⟩

theorem neutral_deleteTree {opts : Options} {model : String} {q : Option Query}
    (hn : ∀ q', q = some q' → q'.hasNoRaw) {s : Sql.Delete}
    (h : c.deleteTree opts model q = .ok s) : rules.Neutral (s.text c.dialect) := by
  simp only [deleteTree, bind_eq_ok, pure_eq_ok] at h
  obtain ⟨m, _, target, htarget, _, _, rfl⟩ := h
  refine Sql.neutral_delete hd ?_ rfl
  rw [deleteTarget.eq_def] at htarget
  split at htarget
  · cases htarget
    exact Sql.neutral_unrestricted hd
  · rename_i q
    split at htarget
    · exact neutral_joinedTarget hd (hn q rfl) htarget
    · split at htarget
      · simp only [bind_eq_ok, pure_eq_ok] at htarget
        obtain ⟨r, hr, rfl⟩ := htarget
        exact neutral_deleteRestriction hd (hn q rfl) hr
      · cases htarget
        exact Sql.neutral_unrestricted hd

end Composer

/-- No name, value or pattern leaves its token: where a database reads a statement without raw SQL,
it ends outside quoted tokens and its parentheses are balanced. -/
theorem statement_balanced {c : Composer} {rules : Quoting} (hb : c.dialect.ReadBy rules)
    {opts : Options} (hl : opts.selectList = none) (model : String) :
    (∀ q s, q.hasNoRaw → c.select opts q = .ok s → rules.balanced s.sql) ∧
    (∀ records text, c.schema.hasNoRaw → c.insert opts model records = .ok (some text) →
      rules.balanced text) ∧
    (∀ record q text, c.schema.hasNoRaw → (∀ q', q = some q' → q'.hasNoRaw) →
      c.update opts model record q = .ok (some text) → rules.balanced text) ∧
    (∀ q text, (∀ q', q = some q' → q'.hasNoRaw) → c.delete opts model q = .ok text →
      rules.balanced text) := by
  have hd := hb.regular
  refine ⟨fun q s hn h => ?_, fun records text hs h => ?_, fun record q text hs hn h => ?_,
    fun q text hn h => ?_⟩
  · simp only [Composer.select, bind_eq_ok, pure_eq_ok] at h
    obtain ⟨⟨columns, s⟩, hselect, rfl⟩ := h
    refine balanced_of_neutral ((Composer.composition_neutral hd).1 q hn ?_ ?_ hselect)
    · intro sql hsql
      cases hl.symm.trans hsql
    · exact fun _ hk => by cases hk
  · simp only [Composer.insert, bind_eq_ok, pure_eq_ok, Option.map_eq_some_iff] at h
    obtain ⟨_, hinsert, s, rfl, rfl⟩ := h
    exact balanced_of_neutral (Composer.neutral_insertTree hd hs hinsert)
  · simp only [Composer.update, bind_eq_ok, pure_eq_ok, Option.map_eq_some_iff] at h
    obtain ⟨_, hupdate, s, rfl, rfl⟩ := h
    exact balanced_of_neutral (Composer.neutral_updateTree hd hs hn hupdate)
  · simp only [Composer.delete, bind_eq_ok, pure_eq_ok] at h
    obtain ⟨s, hdelete, rfl⟩ := h
    exact balanced_of_neutral (Composer.neutral_deleteTree hd hn hdelete)

/-- A name that tries to close its string and everything around it. -/
def hostileName : Value := .string "') OR (\"x\" = '--"

def hostilePerson : Record := (Record.new "Person").set "name" hostileName

def hostileQuery : Query :=
  ⟨"Person", none, [.condition (.of ⟨"Person", "name"⟩ .eq (.value hostileName))]⟩

theorem select_hostile :
    people.select {} hostileQuery = .ok
      ⟨"SELECT \"people\".\"id\" AS \"Person:id\", \"people\".\"name\" AS \"Person:name\", " ++
        "\"people\".\"age\" AS \"Person:age\" FROM \"people\" " ++
        "WHERE \"people\".\"name\" = ''') OR (\"x\" = ''--'", none⟩ := by
  -- The printers are opened first, since deriving the equations of their matches is slow.
  simp only [Composer.select, Sql.Select.text.eq_def]
  cbv

theorem insert_hostile :
    people.insert {} "Person" [hostilePerson] = .ok (some
      "INSERT INTO \"people\" (\"name\") VALUES (''') OR (\"x\" = ''--')") := by
  delta Composer.insert Sql.Insert.text
  cbv

theorem update_hostile :
    people.update {} "Person" hostilePerson (some hostileQuery) = .ok (some
      ("UPDATE \"people\" SET \"name\" = ''') OR (\"x\" = ''--' " ++
        "WHERE \"people\".\"name\" = ''') OR (\"x\" = ''--'")) := by
  cbv

theorem delete_hostile :
    people.delete {} "Person" (some hostileQuery) = .ok
      "DELETE FROM \"people\" WHERE \"people\".\"name\" = ''') OR (\"x\" = ''--'" := by
  delta Composer.delete Sql.Delete.text
  cbv

theorem statement_balanced_hostile :
    (∃ s, people.select {} hostileQuery = .ok s ∧ Quoting.balanced ⟨'"', false⟩ s.sql) ∧
    (∃ text, people.insert {} "Person" [hostilePerson] = .ok (some text) ∧
      Quoting.balanced ⟨'"', false⟩ text) ∧
    (∃ text, people.update {} "Person" hostilePerson (some hostileQuery) = .ok (some text) ∧
      Quoting.balanced ⟨'"', false⟩ text) ∧
    ∃ text, people.delete {} "Person" (some hostileQuery) = .ok text ∧
      Quoting.balanced ⟨'"', false⟩ text := by
  have hquery : hostileQuery.hasNoRaw := by cbv
  have hgiven : ∀ q, some hostileQuery = some q → q.hasNoRaw := by
    intro q hq
    cases hq
    exact hquery
  have hschema : people.schema.hasNoRaw := by cbv
  have hlist : Options.selectList {} = none := rfl
  obtain ⟨select, insert, update, delete⟩ :=
    statement_balanced (c := people) .sqlite hlist "Person"
  exact ⟨⟨_, select_hostile, select _ _ hquery select_hostile⟩,
    ⟨_, insert_hostile, insert _ _ hschema insert_hostile⟩,
    ⟨_, update_hostile, update _ _ _ hschema hgiven update_hostile⟩,
    ⟨_, delete_hostile, delete _ _ hgiven delete_hostile⟩⟩

end SqlCompose
