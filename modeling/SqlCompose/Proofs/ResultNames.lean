import SqlCompose.Proofs.Filter
import SqlCompose.Proofs.ProjectedNames

/-!
# Names of result columns

A caller reads a result row by the names in the projection that it was handed. With aliases on, an
entry shows its name behind `AS`, or it has no alias and goes by its own text. The name of a literal
and the alias that it shows are read off it by two recursions, though. They part where a field
literal wraps another literal, of which only the inner alias is shown, and where a DISTINCT is given
an alias, which is dropped. Everywhere else name and alias agree.
-/

namespace SqlCompose

/-- The name that a literal is given: its alias, and that of its field for a field literal. -/
def Literal.name? (literal : Literal) : Option String :=
  literal.label.or (if literal.isField then literal.fieldRef?.map FieldRef.text else none)

/-- Whether a literal shows another alias than the name it is given, or none. -/
def Literal.LosesName (literal : Literal) : Prop := literal.shownAlias ≠ literal.name?

/-- Only a field literal around another literal and a DISTINCT with an alias lose their name. -/
theorem Literal.shape_of_losesName {literal : Literal} (h : literal.LosesName) :
    (∃ inner, literal.kind = .field (.literal inner)) ∨
      literal.label ≠ none ∧
        (literal.kind = .distinctAll ∨ ∃ operand, literal.kind = .distinct operand) := by
  obtain ⟨kind, label, escape⟩ := literal
  rw [LosesName, Literal.shownAlias, Literal.name?] at h
  cases kind with
  | field operand =>
    cases operand with
    | literal inner => exact .inl ⟨inner, rfl⟩
    | field ref =>
      refine absurd ?_ h
      cases label <;> rfl
  | distinctAll | distinct operand =>
    refine .inr ⟨fun hlabel : label = none => ?_, by simp⟩
    refine h ?_
    rw [hlabel]
    rfl
  | raw | countAll | aggregate =>
    refine absurd ?_ h
    cases label <;> rfl

/-- The alias that an item of a projection record is given by the caller. -/
def ProjectionItem.givenAlias : ProjectionItem → Option String
  | .literal inner => inner.label
  | .raw _ label => label
  | .field _ | .model _ => none

/-- How a text comes to stand under a name in the projection of a query. -/
inductive Composer.NamedEntry (c : Composer) (o : Options) (items : List ProjectionItem) :
    String → String → Prop
  /-- The text ends in the name. -/
  | shown (key e : String) : NamedEntry c o items key (e ++ " AS " ++ c.dialect.identifier key)
  /-- The text is the name: a projected expression without an alias. -/
  | spelled {e : Sql.Expr} (hsource : c.Source o items (e.text c.dialect) ⟨e, none⟩) :
      NamedEntry c o items (e.text c.dialect) (e.text c.dialect)
  /-- The text is that of a literal that shows another alias than its name, or none. -/
  | lost {literal : Literal} {key : String} {item : Sql.Item} (hmem : .literal literal ∈ items)
      (hloses : literal.LosesName) (hkey : c.literalKey o literal = .ok key)
      (hitem : c.item o literal = .ok item) : NamedEntry c o items key (item.text c.dialect)

/-- An item is projected by some record, and no later record clears the projection or takes the
name out. -/
def Query.Keeps (q : Query) (c : Composer) (o : Options) (item : ProjectionItem) (name : String) :
    Prop :=
  ∃ before projection after, q.projections = before ++ projection :: after ∧
    projection.mode ≠ .remove ∧ item ∈ projection.items ∧
    ∀ later ∈ after, later.mode = .add ∨
      later.mode = .remove ∧ ∀ dropped ∈ later.items, ¬ c.TakesOut o dropped name

namespace Composer

variable {c : Composer} {o : Options}

theorem literalKey_eq (literal : Literal) :
    c.literalKey o literal = match literal.name? with
      | some name => .ok name
      | none => (·.text c.dialect) <$> c.expr o literal := by
  obtain ⟨kind, label, escape⟩ := literal
  cases label with
  | some label => rfl
  | none =>
    cases kind with
    | field operand =>
      have hname : Literal.name? ⟨.field operand, none, escape⟩ =
          operand.fieldRef?.map FieldRef.text := rfl
      have href : Literal.fieldRef? ⟨.field operand, none, escape⟩ = operand.fieldRef? := rfl
      simp only [literalKey, Literal.isField, hname, href]
      cases operand.fieldRef? <;> rfl
    | raw | countAll | aggregate | distinctAll | distinct => rfl

/-- What comes into the projection is named, or it is a literal that loses its name. -/
theorem Source.namedEntry (ha : o.aliased) {items : List ProjectionItem} {key : String}
    {item : Sql.Item} (h : c.Source o items key item) :
    c.NamedEntry o items key (item.text c.dialect) := by
  have hshown : o.noProjectionAliases = false := by
    rw [Options.aliased, Bool.and_eq_true, Bool.not_eq_true', Bool.not_eq_true'] at ha
    exact ha.2
  have hsource := h
  cases h with
  | column key column =>
    rw [columnItem, hshown]
    exact .shown key _
  | @literal literal key item hmem hkey hitem =>
    by_cases hloses : literal.LosesName
    · exact .lost hmem hloses hkey hitem
    · -- Name and shown alias agree: both are there, or the expression goes by its text.
      have hagree : literal.shownAlias = literal.name? := Decidable.not_not.mp hloses
      rw [literalKey_eq] at hkey
      simp only [Composer.item, ha, if_true, bind_eq_ok, pure_eq_ok, hagree] at hitem
      obtain ⟨e, he, rfl⟩ := hitem
      cases hname : literal.name? with
      | some name =>
        rw [hname] at hkey
        cases hkey
        exact .shown _ _
      | none =>
        rw [hname, he] at hkey
        cases hkey
        rw [hname] at hsource
        exact .spelled hsource
  | @raw sql label hmem =>
    rw [hshown] at hsource ⊢
    cases label with
    | some label => exact .shown _ _
    | none => exact .spelled (e := .raw sql) hsource

/-- A name that a record brings in stays unless a later one takes it out. -/
theorem mem_projectedNames_of_keeps {q : Query} {item : ProjectionItem} {name : String}
    (hbrings : c.Brings o item name) (hkept : q.Keeps c o item name) (names : Set String) :
    name ∈ c.projectedNames o names q.projections := by
  obtain ⟨before, projection, after, hsplit, hmode, hitem, hafter⟩ := hkept
  rw [hsplit, projectedNames, List.foldl_append, List.foldl_cons]
  generalize before.foldl (c.applyToNames o) names = start
  have hbrought : name ∈ c.applyToNames o start projection := by
    rw [applyToNames]
    cases hprojection : projection.mode with
    | replace => exact ⟨item, hitem, hbrings⟩
    | add => exact .inr ⟨item, hitem, hbrings⟩
    | remove => exact absurd hprojection hmode
  refine List.foldlRecOn (motive := fun names => name ∈ names) after _ hbrought ?_
  intro names hmem later hlater
  rw [applyToNames]
  rcases hafter later hlater with hadd | ⟨hremove, hkeep⟩
  · rw [hadd]
    exact .inl hmem
  · rw [hremove]
    refine ⟨hmem, ?_⟩
    rintro ⟨dropped, hdropped, hout⟩
    exact hkeep dropped hdropped hout

/-- An item with an alias brings it in as a name. -/
theorem brings_of_givenAlias {item : ProjectionItem} {name : String}
    (h : item.givenAlias = some name) : c.Brings o item name := by
  cases item with
  | field => cases h
  | model => cases h
  | literal literal =>
    have hlabel : literal.label = some name := h
    rw [Brings, literalKey, hlabel]
    rfl
  | raw sql label =>
    have hlabel : label = some name := h
    rw [Brings, hlabel, Option.getD_some]

/-- What a top-level SELECT hands out comes from the result columns that it lists. -/
theorem select_columns_eq {q : Query} {s : SelectQuery} {texts : OrderedMap String}
    (h : c.select o q = .ok s) (hs : s.columns = some texts) :
    ∃ scope support columns,
      c.listedColumns { o with statement := .select, distinct := q.distinct?.isSome } q scope
        support = .ok columns ∧ texts = c.columnTexts columns := by
  simp only [select, bind_eq_ok, pure_eq_ok] at h
  obtain ⟨⟨columns, tree⟩, htree, rfl⟩ := h
  obtain ⟨plan, scope, hcomposed⟩ := selectTree_eq_ok htree
  refine ⟨scope, _, columns, hcomposed.columns_eq, ?_⟩
  dsimp only at hs
  split at hs
  · exact (Option.some.inj hs).symm
  · cases hs

theorem mem_columnTexts {columns : ResultColumns} {key sql : String}
    (h : (key, sql) ∈ (c.columnTexts columns).entries) :
    ∃ item, (key, item) ∈ columns.entries ∧ sql = item.text c.dialect := by
  obtain ⟨⟨key', item⟩, hmem, heq⟩ := List.mem_map.mp h
  cases heq
  exact ⟨item, hmem, rfl⟩

end Composer

/-- With aliases on, every entry of the projection that a SELECT hands out shows its name, or is a
projected expression that goes by its text, or is a literal that loses its name; and an item with an
alias is found under it, unless a later record removes it. Only a field literal around another
literal and a DISTINCT with an alias lose their name. -/
theorem result_columns_named {c : Composer} {o : Options} (ha : o.aliased)
    (htop : o.isSubQuery = false) {q : Query} {s : SelectQuery} {columns : OrderedMap String}
    (h : c.select o q = .ok s) (hs : s.columns = some columns) :
    (∀ key sql, (key, sql) ∈ columns.entries → c.NamedEntry o q.projectedItems key sql) ∧
      (∀ item name, o.selectList = none → item.givenAlias = some name → q.Keeps c o item name →
        ∃ sql, columns.get? name = some sql ∧ c.NamedEntry o q.projectedItems name sql) ∧
      ∀ literal : Literal, literal.LosesName →
        (∃ inner, literal.kind = .field (.literal inner)) ∨
          literal.label ≠ none ∧
            (literal.kind = .distinctAll ∨ ∃ operand, literal.kind = .distinct operand) := by
  obtain ⟨scope, support, items, hitems, rfl⟩ := Composer.select_columns_eq h hs
  have htop' : ¬ Options.isSubQuery
      { o with statement := .select, distinct := q.distinct?.isSome } = true := by
    simp [htop]
  have hnamed : ∀ key sql, (key, sql) ∈ (c.columnTexts items).entries →
      c.NamedEntry o q.projectedItems key sql := by
    intro key sql hentry
    obtain ⟨item, hmem, rfl⟩ := Composer.mem_columnTexts hentry
    have hsource := Composer.allSourced_listedColumns hitems (key, item) hmem
    rw [if_neg htop'] at hsource
    have hown : c.Source o q.projectedItems key item := hsource.of_eq rfl rfl
    exact hown.namedEntry ha
  refine ⟨hnamed, fun item name hlist hgiven hkept => ?_, fun _ => Literal.shape_of_losesName⟩
  have hmem : name ∈ (c.columnTexts items).keys := by
    rw [Composer.columnTexts, OrderedMap.keys_map, Composer.mem_keys_listedColumns hlist hitems,
      Composer.listedNames, if_neg htop']
    have hbrings : c.Brings o item name := Composer.brings_of_givenAlias hgiven
    exact .inl (Composer.mem_projectedNames_of_keeps hbrings hkept _)
  obtain ⟨⟨key, sql⟩, hentry, rfl⟩ := List.mem_map.mp hmem
  exact ⟨sql, OrderedMap.get?_eq_some_of_mem hentry, hnamed _ _ hentry⟩

def countOfPeople : LiteralKind := .aggregate .count (.field ⟨"Person", "id"⟩)

/-- People as a SELECT of one literal. -/
def peopleBy (literal : Literal) : Query :=
  ⟨"Person", none, [.project ⟨.replace, [.literal literal]⟩]⟩

theorem result_columns_named_countOfPeople :
    Options.aliased { returnFieldProjection := true } ∧
      Options.isSubQuery { returnFieldProjection := true } = false ∧
      ∃ s columns,
        people.select { returnFieldProjection := true }
          (peopleBy ⟨countOfPeople, some "total", true⟩) = .ok s ∧
        s.columns = some columns ∧
        columns.entries = [("total", "COUNT(\"people\".\"id\") AS \"total\"")] ∧
        ∃ sql, columns.get? "total" = some sql ∧
          people.NamedEntry { returnFieldProjection := true }
            (peopleBy ⟨countOfPeople, some "total", true⟩).projectedItems "total" sql := by
  have ha : Options.aliased { returnFieldProjection := true } := rfl
  have htop : Options.isSubQuery { returnFieldProjection := true } = false := rfl
  have hselect : (people.select { returnFieldProjection := true }
      (peopleBy ⟨countOfPeople, some "total", true⟩)).map (fun s => s.columns.map (·.entries)) =
        .ok (some [("total", "COUNT(\"people\".\"id\") AS \"total\"")]) := by
    decide +kernel
  obtain ⟨s, h, hcolumns⟩ := map_eq_ok.mp hselect
  obtain ⟨columns, hs, hentries⟩ := Option.map_eq_some_iff.mp hcolumns
  have hkept : (peopleBy ⟨countOfPeople, some "total", true⟩).Keeps people
      { returnFieldProjection := true } (.literal ⟨countOfPeople, some "total", true⟩) "total" :=
    ⟨[], _, [], rfl, by simp, List.mem_singleton_self _, List.forall_mem_nil _⟩
  obtain ⟨-, hfound, -⟩ := result_columns_named ha htop h hs
  exact ⟨ha, htop, s, columns, h, hs, hentries, hfound _ "total" rfl rfl hkept⟩

/-- With the alias on a field literal around the count, the column that the projection calls by it
has no alias. -/
theorem wrapped_count_loses_alias :
    ∃ s columns,
      people.select { returnFieldProjection := true }
        (peopleBy ⟨.field (.literal (.of countOfPeople)), some "total", true⟩) = .ok s ∧
      s.columns = some columns ∧
      columns.entries = [("total", "COUNT(\"people\".\"id\")")] ∧
      ¬ ∃ e, "COUNT(\"people\".\"id\")" = e ++ " AS " ++ people.dialect.identifier "total" := by
  have hselect : (people.select { returnFieldProjection := true }
      (peopleBy ⟨.field (.literal (.of countOfPeople)), some "total", true⟩)).map
        (fun s => s.columns.map (·.entries)) =
          .ok (some [("total", "COUNT(\"people\".\"id\")")]) := by
    decide +kernel
  obtain ⟨s, h, hcolumns⟩ := map_eq_ok.mp hselect
  obtain ⟨columns, hs, hentries⟩ := Option.map_eq_some_iff.mp hcolumns
  refine ⟨s, columns, h, hs, hentries, ?_⟩
  rintro ⟨e, he⟩
  -- An alias ends in a quotation mark, the count in a parenthesis.
  have hquoted : people.dialect.identifier "total" = "\"total\"" := rfl
  have hlast := congrArg (fun text => text.toList.getLast?) he
  simp [hquoted, String.toList_append] at hlast

end SqlCompose
