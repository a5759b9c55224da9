import Mathlib
import SqlCompose.Proofs.Correlation
import SqlCompose.Proofs.Filter

/-!
# A condition always restricts

An UPDATE or DELETE with a WHERE clause is split into what stands before it, its body and what
follows. The main statement says what the body of a restricted statement is under the refusing
policy: the filter of the query or, in a deletion through joins, an EXISTS with the correlation and
that filter. Such a deletion tells the rows apart only where no table hides its alias.
-/

namespace SqlCompose

namespace Sql

/-- What follows WHERE. It is empty where there is no WHERE clause. -/
def Restriction.body (d : Dialect) (r : Restriction) : String := chainText (linkTexts d r.filter)

/-- What follows the WHERE clause, or stands in its place. -/
def Restriction.rest (d : Dialect) (r : Restriction) : String :=
  clauseText " ORDER BY " (r.orderBy.map (·.text d)) ++ r.rows.text d

theorem Restriction.text_of_body {d : Dialect} {r : Restriction} (h : r.body d ≠ "") :
    r.text d = " WHERE " ++ r.body d ++ r.rest d := by
  rw [Restriction.body] at h
  simp only [Restriction.text, whereText, if_neg h, Restriction.body, Restriction.rest,
    String.append_assoc]

/-- An UPDATE up to its WHERE clause. -/
def Update.head (d : Dialect) (s : Update) : String :=
  "UPDATE " ++ d.identifier s.table ++ " SET " ++ ", ".intercalate (s.assignments.map (·.text d))

theorem Update.text_of_body {d : Dialect} {s : Update} (h : s.restriction.body d ≠ "") :
    s.text d = s.head d ++ " WHERE " ++ s.restriction.body d ++
      (s.restriction.rest d ++ s.ending.text d) := by
  rw [Update.text, Restriction.text_of_body h, Update.head]
  simp only [String.append_assoc]

/-- A DELETE up to its WHERE clause. -/
def Delete.head (d : Dialect) (s : Delete) : String :=
  match s.target with
  | .rows _ => "DELETE FROM " ++ d.identifier s.table
  | .matched label _ => "DELETE FROM " ++ d.identifier s.table ++ " AS " ++ d.identifier label

/-- What follows WHERE in a DELETE. It is empty where there is no WHERE clause. -/
def Delete.body (d : Dialect) (s : Delete) : String :=
  match s.target with
  | .rows restriction => restriction.body d
  | .matched _ inner => "EXISTS (" ++ inner.text d ++ ")"

/-- What follows the WHERE clause of a DELETE, or stands in its place. -/
def Delete.rest (d : Dialect) (s : Delete) : String :=
  match s.target with
  | .rows restriction => restriction.rest d ++ s.ending.text d
  | .matched _ _ => s.ending.text d

theorem Delete.text_of_body {d : Dialect} {s : Delete} (h : s.body d ≠ "") :
    s.text d = s.head d ++ " WHERE " ++ s.body d ++ s.rest d := by
  obtain ⟨table, target, ending⟩ := s
  cases target with
  | rows restriction =>
    have hb : restriction.body d ≠ "" := h
    simp only [Delete.text, Delete.head, Delete.body, Delete.rest, Restriction.text_of_body hb,
      String.append_assoc]
  | matched label inner =>
    simp only [Delete.text, Delete.head, Delete.body, Delete.rest, String.append_assoc]
    rfl

end Sql

namespace Composer

variable {c : Composer}

/-- The filter of a query with something to filter by has a text. -/
theorem filterText_ne_empty (hp : c.config.emptyList = .refuse) {opts : Options} {q : Query}
    (hq : q.hasFilter) {text : String} (h : c.filterText opts q = .ok text) : text ≠ "" := by
  simp only [filterText, filter, bind_eq_ok, pure_eq_ok] at h
  obtain ⟨_, ⟨links, hlinks, rfl⟩, rfl⟩ := h
  intro he
  rw [Sql.chainText_linkTexts_eq_empty_iff, settle_eq_nil_iff, links_eq_nil_iff hp hlinks] at he
  rw [Query.hasFilter, he] at hq
  cases hq

/-- The body of a restriction is the filter of the query, whatever else restricts the rows. -/
theorem filterText_of_deleteRestriction {opts : Options} {q : Query} {r : Sql.Restriction}
    (h : c.deleteRestriction opts q = .ok r) : c.filterText opts q = .ok (r.body c.dialect) := by
  rw [deleteRestriction, bind_eq_ok] at h
  obtain ⟨filter, hfilter, h⟩ := h
  have hr : r.filter = filter := by
    -- The order is looked at only where the dialect has one; the filter is the same.
    simp only at h
    split at h
    · simp only [bind_eq_ok, pure_eq_ok] at h
      obtain ⟨_, _, _, _, _, _, _, _, rfl⟩ := h
      rfl
    · simp only [bind_eq_ok, pure_eq_ok] at h
      obtain ⟨_, _, _, _, rfl⟩ := h
      rfl
  rw [filterText, hfilter, Sql.Restriction.body, hr]
  rfl

theorem filterText_of_updateRestriction {opts : Options} {m : Model} {q : Query}
    {r : Sql.Restriction} (h : c.updateRestriction opts m q = .ok r) :
    ¬ q.hasJoins ∧ c.filterText opts q = .ok (r.body c.dialect) := by
  rw [updateRestriction] at h
  split at h
  · cases h
  · rename_i hj
    simp only [bind_eq_ok, pure_eq_ok] at h
    obtain ⟨filter, hfilter, _, _, _, _, _, _, _, _, rfl⟩ := h
    refine ⟨hj, ?_⟩
    rw [filterText, hfilter]
    rfl

/-- A deletion without joins has the filter of its query as its body. -/
theorem filterText_of_deleteTree {opts : Options} {model : String} {q : Query}
    (hq : q.hasCondition) (hj : ¬ q.hasJoins) {s : Sql.Delete}
    (h : c.deleteTree opts model (some q) = .ok s) : c.FiltersBy opts q (s.body c.dialect) := by
  simp only [deleteTree, deleteTarget, hq, hj, if_true, Bool.false_eq_true, if_false, bind_eq_ok,
    pure_eq_ok] at h
  obtain ⟨m, _, _, ⟨r, hr, rfl⟩, returning, _, rfl⟩ := h
  refine ⟨_, ?_, filterText_of_deleteRestriction hr⟩
  rfl

/-- An UPDATE of the rows of a query is never joined, and has the filter as its body. -/
theorem filterText_of_updateTree {opts : Options} {model : String} {record : Record} {q : Query}
    {s : Sql.Update} (h : c.updateTree opts model record (some q) = .ok (some s)) :
    ¬ q.hasJoins ∧ c.FiltersBy opts q (s.restriction.body c.dialect) := by
  simp only [updateTree, bind_eq_ok] at h
  obtain ⟨m, _, _, _, h⟩ := h
  split at h
  · cases h
  · simp only [bind_eq_ok, pure_eq_ok] at h
    obtain ⟨r, hr, returning, _, heq⟩ := h
    cases heq
    obtain ⟨hj, hfilter⟩ := filterText_of_updateRestriction hr
    refine ⟨hj, _, ?_, hfilter⟩
    rfl

theorem FiltersBy.ne_empty (hp : c.config.emptyList = .refuse) {opts : Options} {q : Query}
    (hq : q.hasFilter) {text : String} (h : c.FiltersBy opts q text) : text ≠ "" := by
  obtain ⟨o, _, hfilter⟩ := h
  exact filterText_ne_empty hp hq hfilter

end Composer

/-- Under the refusing policy no condition of a query is lost on the way: an UPDATE or DELETE that
it restricts has a WHERE clause with a body. Without joins the body is the filter of the query.
Through joins it is an EXISTS, with the correlation and the filter, if there is one, inside; it
tells the rows apart exactly if no table hides the alias and there is a table to compare with. -/
theorem restricted_statement_spares_iff {c : Composer} (hp : c.config.emptyList = .refuse)
    {q : Query} (hq : q.hasCondition) (opts : Options) (model : String) :
    (∀ text, c.delete opts model (some q) = .ok text →
      ∃ s, c.deleteTree opts model (some q) = .ok s ∧ s.body c.dialect ≠ "" ∧
        text = s.head c.dialect ++ " WHERE " ++ s.body c.dialect ++ s.rest c.dialect ∧
        (¬ q.hasJoins → c.FiltersBy opts q (s.body c.dialect)) ∧
        (q.hasJoins → ∃ m label inner tie filter,
          JoinedDelete c opts model m q text label inner tie filter ∧
          s.body c.dialect = "EXISTS (" ++ inner.text c.dialect ++ ")" ∧
          (q.hasFilter → filter ≠ "") ∧
          (¬ tie.TakesAllOrNone inner.tables label ↔
            label ∉ inner.tables ∧ m.table ∈ inner.tables))) ∧
    (∀ record text, c.update opts model record (some q) = .ok (some text) →
      ∃ s, c.updateTree opts model record (some q) = .ok (some s) ∧
        s.restriction.body c.dialect ≠ "" ∧
        text = s.head c.dialect ++ " WHERE " ++ s.restriction.body c.dialect ++
          (s.restriction.rest c.dialect ++ s.ending.text c.dialect) ∧
        c.FiltersBy opts q (s.restriction.body c.dialect)) := by
  constructor
  · intro text h
    obtain ⟨s, hs, htext⟩ := bind_eq_ok.mp h
    cases htext
    by_cases hj : q.hasJoins
    · obtain ⟨m, label, inner, tie, filter, hdelete⟩ := Composer.joinedDelete hj h
      obtain ⟨ending, htree⟩ := hdelete.tree_eq
      obtain ⟨key, _, rfl⟩ := hdelete.tie_eq
      obtain rfl : s = ⟨m.table, .matched label inner, ending⟩ :=
        Except.ok.inj (hs.symm.trans htree)
      have hbody : Sql.Delete.body c.dialect ⟨m.table, .matched label inner, ending⟩ ≠ "" :=
        Sql.append_ne_empty_right _ (by decide)
      refine ⟨_, hs, hbody, Sql.Delete.text_of_body hbody, absurd hj, fun _ =>
        ⟨m, label, inner, _, filter, hdelete, rfl, fun hf => hdelete.filtersBy.ne_empty hp hf, ?_⟩⟩
      rw [Sql.Correlation.takesAllOrNone_byColumn_iff, not_or, not_not]
    · have hfilter := Composer.filterText_of_deleteTree hq hj hs
      have hbody := hfilter.ne_empty hp (Query.hasFilter_of_hasCondition hq hj)
      exact ⟨s, hs, hbody, Sql.Delete.text_of_body hbody, fun _ => hfilter, fun h => absurd h hj⟩
  · intro record text h
    simp only [Composer.update, bind_eq_ok, pure_eq_ok, Option.map_eq_some_iff] at h
    obtain ⟨_, hs, s, rfl, rfl⟩ := h
    obtain ⟨hj, hfilter⟩ := Composer.filterText_of_updateTree hs
    have hbody := hfilter.ne_empty hp (Query.hasFilter_of_hasCondition hq hj)
    exact ⟨s, hs, hbody, Sql.Update.text_of_body hbody, hfilter⟩

/-- People who are not minors, by a negated group. -/
def adults : Query :=
  ⟨"Person", none, [.group ⟨.and, true, some ⟨"Person", none,
    [.condition (.of ⟨"Person", "age"⟩ .lt (.value (.int 18)))]⟩⟩]⟩

theorem restricted_statement_spares_iff_adults :
    (people.config.emptyList = .refuse ∧ adults.hasCondition ∧
      ∃ s, people.deleteTree {} "Person" (some adults) = .ok s ∧ s.body people.dialect ≠ "" ∧
        "DELETE FROM \"people\" WHERE NOT (\"people\".\"age\" < 18)" =
          s.head people.dialect ++ " WHERE " ++ s.body people.dialect ++ s.rest people.dialect ∧
        people.FiltersBy {} adults (s.body people.dialect)) ∧
    (members.config.emptyList = .refuse ∧ admins.hasCondition ∧
      ∃ text inner tie filter, members.delete {} "User" (some admins) = .ok text ∧
        JoinedDelete members {} "User" userModel admins text "_users" inner tie filter ∧
        filter ≠ "" ∧ ¬ tie.TakesAllOrNone inner.tables "_users") := by
  constructor
  · have hp : people.config.emptyList = .refuse := rfl
    have hq : adults.hasCondition := by cbv
    have hj : ¬ adults.hasJoins := by
      have h : adults.hasJoins = false := by cbv
      rw [h]
      decide
    have h : people.delete {} "Person" (some adults) =
        .ok "DELETE FROM \"people\" WHERE NOT (\"people\".\"age\" < 18)" := by cbv
    obtain ⟨s, hs, hbody, htext, hfilter, _⟩ :=
      (restricted_statement_spares_iff hp hq {} "Person").1 _ h
    exact ⟨hp, hq, s, hs, hbody, htext, hfilter hj⟩
  · have hp : members.config.emptyList = .refuse := rfl
    have hq : admins.hasCondition := by cbv
    have hj : admins.hasJoins := by cbv
    have hf : admins.hasFilter := by cbv
    obtain ⟨text, h⟩ := members_delete_admins
    obtain ⟨s, _, _, _, _, hjoined⟩ := (restricted_statement_spares_iff hp hq {} "User").1 _ h
    obtain ⟨m, label, inner, tie, filter, hdelete, _, hfilter, hspares⟩ := hjoined hj
    obtain rfl : userModel = m := Except.ok.inj hdelete.model_eq
    obtain rfl : label = "_users" := hdelete.label_eq
    refine ⟨hp, hq, text, inner, tie, filter, h, hdelete, hfilter hf, hspares.mpr ?_⟩
    have htables : inner.tables = ["users", "roles"] := hdelete.tables_of_scope admins_plan rfl
    rw [htables]
    decide

def markModel : Model := ⟨"Mark", "_users", [
  { Field.named "id" (.integer 8) with column := "id", model := "Mark", primaryKey := true },
  { Field.named "userID" (.integer 8) with column := "user_id", model := "Mark" },
  { Field.named "name" .text with column := "name", model := "Mark" }]⟩

/-- Users and their marks, in a table that has the name of the alias. -/
def moderation : Composer where
  schema := ⟨⟨[("User", userModel), ("Mark", markModel)], by decide⟩, by decide⟩
  dialect := .sqlite
  config := {}

/-- Users with a mark of a certain name. -/
def spammers : Query :=
  ⟨"User", none, [
    .condition (.joining ⟨"User", "id"⟩ {} ⟨"Mark", some ⟨"Mark", "userID"⟩, []⟩),
    .condition (.of ⟨"Mark", "name"⟩ .eq (.value (.string "spam")))]⟩

theorem spammers_plan : JoinPlan.ofQuery spammers =
    .ok ⟨[⟨"Mark", [⟨{}, ⟨"User", "id"⟩, .eq, ⟨"Mark", "userID"⟩, .and⟩]⟩]⟩ := by
  cbv

theorem moderation_delete_spammers :
    ∃ text, moderation.delete {} "User" (some spammers) = .ok text :=
  Composer.delete_of_isOk (by cbv)

/-- The table of the marks hides the alias. The correlation then compares the numbers of a mark and
of its user, and where it finds them equal once, every user goes. -/
theorem restricted_delete_takes_all_spammers :
    moderation.config.emptyList = .refuse ∧ spammers.hasCondition ∧ ∃ text inner tie filter,
      moderation.delete {} "User" (some spammers) = .ok text ∧
      JoinedDelete moderation {} "User" userModel spammers text "_users" inner tie filter ∧
      inner.tables = ["users", "_users"] ∧
      ∀ (α : Type) (found : Set (String → String → α)),
        (∃ introduced ∈ found, introduced "_users" "id" = introduced "users" "id") →
          ∀ row, tie.Takes inner.tables "_users" found row := by
  obtain ⟨text, h⟩ := moderation_delete_spammers
  have hj : spammers.hasJoins := by cbv
  have hq : spammers.hasCondition := by cbv
  obtain ⟨m, label, inner, tie, filter, hdelete⟩ := Composer.joinedDelete hj h
  obtain rfl : userModel = m := Except.ok.inj hdelete.model_eq
  obtain rfl : label = "_users" := hdelete.label_eq
  have htables : inner.tables = ["users", "_users"] := hdelete.tables_of_scope spammers_plan rfl
  obtain ⟨key, hkey, htie⟩ := hdelete.tie_eq
  obtain rfl : userKey = key := Option.some.inj hkey
  refine ⟨rfl, hq, text, inner, tie, filter, h, hdelete, htables, ?_⟩
  rintro α found ⟨introduced, hfound, heq⟩ row
  refine ⟨introduced, hfound, ?_⟩
  rw [htie, htables, Sql.Correlation.holds_byColumn_iff, if_pos (by decide)]
  exact ⟨by decide, heq⟩

end SqlCompose
