import Mathlib
import SqlCompose.Define.ColumnChange
import SqlCompose.Proofs.Filter
import SqlCompose.Proofs.Permission.Select
import SqlCompose.Write.Delete
import SqlCompose.Write.Insert

/-!
# Permissions never rewrite a statement

Everything that can be asked of a composer, under a setting and under one that permits more. What
is composed under the first is composed alike under the second, and what only the second composes
was refused for a permission that the first lacks. Granting more never changes an accepted text.
-/

namespace SqlCompose

/-- What can be asked of a composer. -/
inductive Request
  | select (opts : Options) (q : Query)
  | insert (opts : Options) (model : String) (records : List Record)
  | update (opts : Options) (model : String) (record : Record) (q : Option Query)
  | delete (opts : Options) (model : String) (q : Option Query)
  | createTable (opts : Options) (model : String)
  | createTableStatements (opts : Options) (model : String)
  | alterTable (opts : Options) (model : String) (current proposed : Field)
  | createIndex (opts : Options) (model : String) (fields : List String)
  | dropIndex (opts : Options) (model : String) (fields : List String)
  | dropTable (opts : Options) (model : String)
  | truncateTable (opts : Options) (model : String)
  | addColumn (opts : Options) (model field : String)
  | dropColumn (opts : Options) (model field : String)

/-- What a composer answers: statements in order, none where there is nothing to do, and the result
columns of a SELECT where they were asked for. -/
structure Answer where
  statements : List String
  columns : Option (OrderedMap String) := none

namespace Composer

/-- The answer to a request. -/
def answer (c : Composer) : Request → Except Error Answer
  | .select opts q => do
      let s ← c.select opts q
      return ⟨[s.sql], s.columns⟩
  | .insert opts model records => do return ⟨(← c.insert opts model records).toList, none⟩
  | .update opts model record q => do return ⟨(← c.update opts model record q).toList, none⟩
  | .delete opts model q => do return ⟨[← c.delete opts model q], none⟩
  | .createTable opts model => do return ⟨[← c.createTable opts model], none⟩
  | .createTableStatements opts model => do return ⟨← c.createTableStatements opts model, none⟩
  | .alterTable opts model current proposed => do
      return ⟨← c.alterTable opts model current proposed, none⟩
  | .createIndex opts model fields => do return ⟨[← c.createIndex opts model fields], none⟩
  | .dropIndex opts model fields => do return ⟨[← c.dropIndex opts model fields], none⟩
  | .dropTable opts model => do return ⟨[← c.dropTable opts model], none⟩
  | .truncateTable opts model => do return ⟨[← c.truncateTable opts model], none⟩
  | .addColumn opts model field => do return ⟨[← c.addColumn opts model field], none⟩
  | .dropColumn opts model field => do return ⟨[← c.dropColumn opts model field], none⟩

variable {c : Composer} {cap : Capability} {policy : EmptyListPolicy}

section Rows

variable (h : c.Grants cap policy)

include h

theorem relaxed_returning (m : Model) (opts : Options) :
    c.Relaxed cap policy (·.returning m opts) := by
  simp only [Relaxed, returning]
  split
  · exact .refl _
  · exact .provided h.returning (fun hs hg => .returning hs hg) (.refl _)

theorem relaxed_insertContent (opts : Options) (record : Record) (f : Field) :
    c.Relaxed cap policy (·.insertContent opts record f) := by
  simp only [Relaxed, insertContent]
  split
  · exact .refl _
  · split
    · exact .refl _
    · refine (relaxed_expr h opts _).bind fun e => .of_eq ?_
      simp only [granting, Sql.Expr.text_withCapability]
    · exact .refl _
    · exact .refl _

theorem relaxed_insertRow (opts : Options) (m : Model) (record : Record) :
    c.Relaxed cap policy (·.insertRow opts m record) := by
  refine .bind_right (checkRecord m record) fun _ => .foldlM (fun row f => ?_) m.storedFields _
  exact (relaxed_insertContent h opts record f).bind_left _

theorem relaxed_insertTree (opts : Options) (model : String) (records : List Record) :
    c.Relaxed cap policy (·.insertTree opts model records) := by
  refine .bind_right (c.schema.model model) fun m => ?_
  refine .bind (.mapM (relaxed_insertRow h _ m) records) fun rows => ?_
  dsimp only
  split
  · exact .refl _
  · exact (relaxed_returning h m _).bind_left _

theorem relaxed_insert (opts : Options) (model : String) (records : List Record) :
    c.Relaxed cap policy (·.insert opts model records) :=
  (relaxed_insertTree h opts model records).bind fun _ => .refl _

theorem relaxed_plainOrder (opts : Options) (q : Query) (scope : Scope) :
    c.Relaxed cap policy (·.plainOrder opts q scope) := by
  have hsupport : (c.granting cap policy).dialect.orderSupport = c.dialect.orderSupport := rfl
  simp only [Relaxed, plainOrder, hsupport]
  split
  · exact relaxed_orderTerms h opts _ scope q
  · exact .refl _

theorem relaxed_updateRestriction (opts : Options) (m : Model) (q : Query) :
    c.Relaxed cap policy (·.updateRestriction opts m q) := by
  simp only [Relaxed, updateRestriction]
  split
  · exact .refl _
  · refine .bind (relaxed_filter h opts q) fun filter => .bind_right (JoinPlan.ofQuery q) ?_
    intro plan
    refine .bind_right (c.scope q plan) fun scope => ?_
    exact (relaxed_plainOrder h opts q scope).bind_left _

/-- What is assigned is decided before any permission is asked for. -/
theorem relaxed_updateTree (opts : Options) (model : String) (record : Record)
    (q : Option Query) : c.Relaxed cap policy (·.updateTree opts model record q) := by
  refine .bind_right (c.schema.model model) fun m => .bind_right (checkRecord m record) fun _ => ?_
  have hassignments : (c.granting cap policy).assignments m record = c.assignments m record := rfl
  dsimp only
  rw [hassignments]
  split
  · exact .refl _
  · cases q with
    | none => exact .bind_right _ fun restriction => (relaxed_returning h m _).bind_left _
    | some q =>
      refine .bind (relaxed_updateRestriction h _ m q) fun restriction => ?_
      exact (relaxed_returning h m _).bind_left _

theorem relaxed_update (opts : Options) (model : String) (record : Record) (q : Option Query) :
    c.Relaxed cap policy (·.update opts model record q) := by
  refine (relaxed_updateTree h opts model record q).bind fun s => .of_eq ?_
  have htext : ∀ s : Sql.Update, s.text (c.dialect.withCapability cap) = s.text c.dialect := by
    intro s
    simp only [Sql.Update.text, Sql.Restriction.text, Sql.linkTexts_withCapability,
      Sql.OrderTerm.text_withCapability]
    rfl
  simp only [granting, htext]

theorem relaxed_deleteRestriction (opts : Options) (q : Query) :
    c.Relaxed cap policy (·.deleteRestriction opts q) := by
  have hsupport : (c.granting cap policy).dialect.orderSupport = c.dialect.orderSupport := rfl
  refine .bind (relaxed_filter h opts q) fun filter => ?_
  simp only [hsupport]
  split
  · refine .bind_right (JoinPlan.ofQuery q) fun plan => .bind_right (c.scope q plan) fun scope => ?_
    exact (relaxed_plainOrder h opts q scope).bind_left _
  · exact .refl _

theorem relaxed_deleteTarget (opts : Options) (m : Model) (q : Option Query) :
    c.Relaxed cap policy (·.deleteTarget opts m q) := by
  cases q with
  | none => exact .refl _
  | some q =>
    simp only [Relaxed, deleteTarget]
    split
    · simp only [joinedTarget]
      split
      · exact .refl _
      · exact (relaxed_selectTree h _ _ q).bind_left _
    · split
      · exact (relaxed_deleteRestriction h opts q).bind_left _
      · exact .refl _

theorem relaxed_delete (opts : Options) (model : String) (q : Option Query) :
    c.Relaxed cap policy (·.delete opts model q) := by
  have htree : c.Relaxed cap policy (·.deleteTree opts model q) := by
    refine .bind_right (c.schema.model model) fun m => ?_
    refine .bind (relaxed_deleteTarget h _ m q) fun target => ?_
    exact (relaxed_returning h m _).bind_left _
  refine htree.bind fun s => .of_eq ?_
  obtain ⟨table, target, ending⟩ := s
  cases target with
  | rows restriction =>
    simp only [granting, Sql.Delete.text, Sql.Restriction.text, Sql.linkTexts_withCapability,
      Sql.OrderTerm.text_withCapability]
    rfl
  | matched label inner =>
    simp only [granting, Sql.Delete.text, Sql.Select.text_withCapability]
    rfl

end Rows

section Definitions

variable (h : c.Grants cap policy)

include h

theorem relaxed_columnDefault (opts : Options) (f : Field) :
    c.Relaxed cap policy (·.columnDefault opts f) := by
  simp only [Relaxed, columnDefault]
  split
  · exact .refl _
  · refine (relaxed_expr h opts _).bind fun e => .of_eq ?_
    simp only [granting, Sql.Expr.text_withCapability]
  · exact .refl _
  · exact .refl _

theorem relaxed_columnDefinition (opts : Options) (inlineKey : Bool) (f : Field) :
    c.Relaxed cap policy (·.columnDefinition opts inlineKey f) :=
  (relaxed_columnDefault h opts f).bind_left _

theorem relaxed_createTable (opts : Options) (model : String) :
    c.Relaxed cap policy (·.createTable opts model) := by
  refine .bind_left (.bind_right (c.schema.model model) fun m => ?_) _
  exact .bind_left (.mapM (relaxed_columnDefinition h _ _) m.storedFields) _

theorem relaxed_createIndexOver (opts : Options) (m : Model) (name : String)
    (columns : List String) : c.Relaxed cap policy (·.createIndexOver opts m name columns) := by
  refine .guarded ?_ ?_ (.guarded ?_ ?_ (.refl _))
  all_goals simp only [Bool.and_eq_true, Bool.not_eq_true', Bool.eq_false_iff]
  · exact fun hq => ⟨hq.1, fun hs => hq.2 (h.concurrentIndex hs)⟩
  · exact fun hp hq => .createIndexConcurrently hp.2 (by_contra fun hg => hq ⟨hp.1, hg⟩)
  · exact fun hq => ⟨hq.1, fun hs => hq.2 (h.createIndexIfNotExists hs)⟩
  · exact fun hp hq => .createIndexIfNotExists hp.2 (by_contra fun hg => hq ⟨hp.1, hg⟩)

theorem relaxed_dropIndexNamed (opts : Options) (m : Model) (name : String) :
    c.Relaxed cap policy (·.dropIndexNamed opts m name) := by
  have htable : (c.granting cap policy).dialect.capability.dropIndexOnTable =
      c.dialect.capability.dropIndexOnTable := h.dropIndexOnTable
  simp only [Relaxed, dropIndexNamed, htable]
  refine .guarded ?_ ?_ (.refl _)
  all_goals simp only [Bool.and_eq_true, Bool.not_eq_true', Bool.eq_false_iff]
  · exact fun hq => ⟨hq.1, fun hs => hq.2 (h.concurrentIndex hs)⟩
  · exact fun hp hq => .dropIndexConcurrently hp.2 (by_contra fun hg => hq ⟨hp.1, hg⟩)

theorem relaxed_createIndexTree (opts : Options) (model : String) (fields : List String) :
    c.Relaxed cap policy (·.createIndexTree opts model fields) := by
  refine .bind_right (c.schema.model model) fun m => .bind_right (indexColumns m fields) ?_
  exact fun columns => relaxed_createIndexOver h opts m _ columns

theorem relaxed_createIndexes (opts : Options) (m : Model) (seen : List String)
    (indexes : List (List String)) :
    c.Relaxed cap policy (·.createIndexes opts m seen indexes) := by
  induction indexes generalizing seen with
  | nil => exact .refl _
  | cons fields rest ih =>
    simp only [Relaxed, createIndexes] at ih ⊢
    refine .bind_right (c.indexName m fields) fun name => ?_
    split
    · exact ih seen
    · exact (relaxed_createIndexTree h opts m.name fields).bind fun index => (ih _).bind_left _

theorem relaxed_createTableStatements (opts : Options) (model : String) :
    c.Relaxed cap policy (·.createTableStatements opts model) := by
  refine .bind (relaxed_createTable h opts model) fun table => ?_
  refine .bind_right (c.schema.model model) fun m => ?_
  exact (relaxed_createIndexes h opts m [] _).bind_left _

theorem relaxed_attributeChange (m : Model) (f : Field) (changed : ColumnAttribute)
    (differs : Bool) (change : Sql.ColumnChange) :
    c.Relaxed cap policy (·.attributeChange m f changed differs change) := by
  simp only [Relaxed, attributeChange]
  split
  · exact .bind_left (.provided h.alterColumn (fun hs hg => .alterColumn _ _ _ hs hg) (.refl _)) _
  · exact .refl _

theorem relaxed_shapeChanges (m : Model) (current proposed : Field)
    (currentDefault proposedDefault : Option String) :
    c.Relaxed cap policy (·.shapeChanges m current proposed currentDefault proposedDefault) := by
  have hmodify : (c.granting cap policy).dialect.capability.modifyColumn =
      c.dialect.capability.modifyColumn := h.modifyColumn
  have htype : (c.granting cap policy).dialect.typeName = c.dialect.typeName := rfl
  simp only [Relaxed, shapeChanges, hmodify, htype]
  split
  · exact .refl _
  · refine .bind (relaxed_attributeChange h m current _ _ _) fun nullability => ?_
    refine .bind (relaxed_attributeChange h m current _ _ _) fun default => ?_
    exact (relaxed_attributeChange h m current _ _ _).bind_left _

theorem relaxed_keyChanges (m : Model) (current proposed : Field) :
    c.Relaxed cap policy (·.keyChanges m current proposed) := by
  refine .bind (relaxed_attributeChange h m current _ _ _) fun key => ?_
  exact (relaxed_attributeChange h m current _ _ _).bind_left _

theorem relaxed_indexChanges (opts : Options) (m : Model) (current proposed : Field) :
    c.Relaxed cap policy (·.indexChanges opts m current proposed) := by
  refine .bind_right (c.columnIndexes m current current.column) fun old => ?_
  refine .bind_right (c.columnIndexes m proposed current.column) fun new => ?_
  refine .bind (.mapM (fun name => ?_) _) fun dropped => .bind_left (.mapM (fun entry => ?_) _) _
  · exact (relaxed_dropIndexNamed h opts m name).bind_left _
  · exact (relaxed_createIndexOver h opts m entry.1 entry.2).bind_left _

theorem relaxed_alterTable (opts : Options) (model : String) (current proposed : Field) :
    c.Relaxed cap policy (·.alterTable opts model current proposed) := by
  refine .bind_left (.bind_right (c.schema.model model) fun m => ?_) _
  refine .bind (relaxed_columnDefault h _ current) fun currentDefault => ?_
  refine .bind (relaxed_columnDefault h _ proposed) fun proposedDefault => ?_
  refine .bind (relaxed_shapeChanges h m current proposed _ _) fun shape => ?_
  refine .bind (relaxed_keyChanges h m current proposed) fun keys => ?_
  exact (relaxed_indexChanges h _ m current proposed).bind_left _

theorem relaxed_dropIndex (opts : Options) (model : String) (fields : List String) :
    c.Relaxed cap policy (·.dropIndex opts model fields) := by
  refine .bind_right (c.schema.model model) fun m => .bind_right (indexColumns m fields) ?_
  exact fun columns => (relaxed_dropIndexNamed h opts m _).bind_left _

theorem relaxed_truncateTable (opts : Options) (model : String) :
    c.Relaxed cap policy (·.truncateTable opts model) := by
  have htruncate : (c.granting cap policy).dialect.capability.truncate =
      c.dialect.capability.truncate := h.truncate
  simp only [Relaxed, truncateTable, htruncate]
  exact .refl _

theorem relaxed_addColumn (opts : Options) (model field : String) :
    c.Relaxed cap policy (·.addColumn opts model field) := by
  refine .bind_left (.bind_right (c.schema.model model) fun m => ?_) _
  refine .bind_right (m.field field) fun f => ?_
  exact (relaxed_columnDefinition h _ _ f).bind_left _

end Definitions

/-- Every request is relaxed by a grant. -/
theorem relaxed_answer (h : c.Grants cap policy) (r : Request) :
    c.Relaxed cap policy (·.answer r) := by
  cases r with
  | select opts q => exact (relaxed_select h opts q).bind_left _
  | insert opts model records => exact (relaxed_insert h opts model records).bind_left _
  | update opts model record q => exact (relaxed_update h opts model record q).bind_left _
  | delete opts model q => exact (relaxed_delete h opts model q).bind_left _
  | createTable opts model => exact (relaxed_createTable h opts model).bind_left _
  | createTableStatements opts model =>
    exact (relaxed_createTableStatements h opts model).bind_left _
  | alterTable opts model current proposed =>
    exact (relaxed_alterTable h opts model current proposed).bind_left _
  | createIndex opts model fields =>
    exact .bind_left (.bind_left (relaxed_createIndexTree h opts model fields) _) _
  | dropIndex opts model fields => exact (relaxed_dropIndex h opts model fields).bind_left _
  | truncateTable opts model => exact (relaxed_truncateTable h opts model).bind_left _
  | addColumn opts model field => exact (relaxed_addColumn h opts model field).bind_left _
  | dropTable | dropColumn => exact .refl _

end Composer

/-- Under a setting that permits more, every accepted request has the same answer, and every refusal
stays that is not about what is permitted now. So a request that only the permissive setting accepts
was refused for a missing feature, or for an empty list where the policy is what differs. -/
theorem permissions_never_rewrite {c : Composer} {cap : Capability} {policy : EmptyListPolicy}
    (h : c.Grants cap policy) (r : Request) :
    (∀ a, c.answer r = .ok a → (c.granting cap policy).answer r = .ok a) ∧
    (∀ e, c.answer r = .error e → ¬ c.Lifts cap policy e →
      (c.granting cap policy).answer r = .error e) ∧
    ∀ a e, (c.granting cap policy).answer r = .ok a → c.answer r = .error e →
      c.Lifts cap policy e ∧
        ((e.kind = .unsupportedFeature ∧ cap ≠ c.dialect.capability) ∨
          (e.kind = .invalidOperator ∧ policy ≠ c.config.emptyList)) := by
  have hr := Composer.relaxed_answer h r
  refine ⟨fun a => hr.ok, fun e he hkept => ?_, fun a e ha he => ?_⟩
  · rcases hr with heq | ⟨e', hlifted, he'⟩
    · exact heq.trans he
    · cases he.symm.trans he'
      exact absurd hlifted hkept
  · have hlifted := hr.error ha he
    exact ⟨hlifted, hlifted.kind⟩

/-- Counts one person of every name, among those of no age at all. -/
def oneOfEachName : Query :=
  ⟨"Person", none, [
    .project ⟨.replace, [.raw "1" none]⟩,
    .distinct (some (.field ⟨"Person", "name"⟩)),
    .condition (.of ⟨"Person", "age"⟩ .eq (.value (.list [])))]⟩

/-- The composer for one table, with DISTINCT ON and empty lists permitted. -/
def permissivePeople : Composer :=
  people.granting { Dialect.sqliteCapability with distinctOn := true } .elide

/-- The statement that this composer makes of it. -/
def oneByName : Sql.Select where
  distinct := some (.distinctOn (.column ⟨"people", "name", true⟩))
  list := .items [⟨.raw "1", none⟩]
  table := "people"
  joins := []
  correlation := none
  filter := []
  groupBy := []
  having := []
  orderBy := []
  rows := {}

theorem people_oneOfEachName : people.select {} oneOfEachName =
    .error (.unsupportedFeature (.distinctOn "SQLite")) := by
  cbv

theorem permissivePeople_oneOfEachName : permissivePeople.select {} oneOfEachName =
    .ok ⟨"SELECT DISTINCT ON(\"people\".\"name\") 1 FROM \"people\"", none⟩ := by
  have htree : permissivePeople.selectTree { statement := .select } none oneOfEachName =
      .ok (⟨[("1", ⟨.raw "1", none⟩)], by decide⟩, oneByName) := by
    cbv
  exact bind_eq_ok.mpr ⟨_, htree, rfl⟩

theorem permissions_never_rewrite_oneOfEachName :
    people.Grants { Dialect.sqliteCapability with distinctOn := true } .elide ∧
    people.Lifts { Dialect.sqliteCapability with distinctOn := true } .elide
      (.unsupportedFeature (.distinctOn "SQLite")) ∧
    people.answer (.select {} oneOfEachName) = .error (.unsupportedFeature (.distinctOn "SQLite")) ∧
    permissivePeople.answer (.select {} oneOfEachName) =
      .ok ⟨["SELECT DISTINCT ON(\"people\".\"name\") 1 FROM \"people\""], none⟩ := by
  have h : people.Grants { Dialect.sqliteCapability with distinctOn := true } .elide := by
    constructor <;> decide
  have hstrict : people.answer (.select {} oneOfEachName) =
      .error (.unsupportedFeature (.distinctOn "SQLite")) := by
    rw [Composer.answer, people_oneOfEachName]
    rfl
  have hgranted : permissivePeople.answer (.select {} oneOfEachName) =
      .ok ⟨["SELECT DISTINCT ON(\"people\".\"name\") 1 FROM \"people\""], none⟩ := by
    rw [Composer.answer, permissivePeople_oneOfEachName]
    rfl
  exact ⟨h, ((permissions_never_rewrite h _).2.2 _ _ hgranted hstrict).1, hstrict, hgranted⟩

end SqlCompose
