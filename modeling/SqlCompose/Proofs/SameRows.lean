import SqlCompose.Proofs.Isolation
import SqlCompose.Proofs.Restriction

/-!
# UPDATE and DELETE choose their rows alike

A query without joins restricts both statements by its filter, its order and its row count. Under
a built-in dialect the three are the same for both, and refused together; the reasons given may
differ, since the refusal of an offset names the statement. They part where DELETE does not look:
without a condition it takes every row, and in a dialect that does not order it never asks for the
model that the query is rooted at.
-/

namespace SqlCompose

/-- Without join edges there is nothing to collect. -/
theorem JoinEdge.collect_eq_nil {root : String} {ops : List Operation}
    (h : anyCondition Condition.isJoinEdge ops = false) : collect root ops = .ok [] := by
  induction ops using collect.induct with
  | case1 =>
    rw [collect]
    rfl
  | case2 condition rest nested hs hj ih =>
    rw [anyCondition, hj] at h
    cases h
  | case3 condition rest hn ih =>
    rw [anyCondition, Bool.or_eq_false_iff] at h
    rw [collect]
    split
    · next hj _ =>
      rw [h.1] at hj
      cases hj
    · exact ih h.2
  | case4 connector negated model target inner rest ihi ihr =>
    rw [anyCondition, Bool.or_eq_false_iff] at h
    rw [collect, ihi h.1, ihr h.2]
    rfl
  | case5 head rest hc hg ih =>
    rw [anyCondition] at h
    · rw [collect]
      · exact ih h
      all_goals assumption
    all_goals assumption

theorem JoinPlan.ofQuery_eq_nil {q : Query} (hj : ¬ q.hasJoins) : ofQuery q = .ok ⟨[]⟩ := by
  have hnone : anyCondition Condition.isJoinEdge q.ops = false := by
    simpa [Query.hasJoins] using hj
  rw [ofQuery, JoinEdge.collect_eq_nil hnone]
  rfl

section Outcomes

variable {ε α β : Type}

theorem toOption_bind (x : Except ε α) (f : α → Except ε β) :
    (x >>= f).toOption = x.toOption.bind fun a => (f a).toOption := by
  cases x <;> rfl

theorem toOption_map (x : Except ε α) (f : α → β) : (x.map f).toOption = x.toOption.map f := by
  cases x <;> rfl

theorem toOption_pure (a : α) : (pure a : Except ε α).toOption = some a := rfl

end Outcomes

/-- The options under which an UPDATE is composed. -/
def Options.updating (o : Options) : Options :=
  { o with statement := .update, noProjectionAliases := true }

/-- The options under which a DELETE is composed. -/
def Options.deleting (o : Options) : Options :=
  { o with statement := .delete, noProjectionAliases := true }

/-- A built-in dialect orders both statements or neither. -/
theorem Dialect.IsBuiltin.orderSupport_deleting {d : Dialect} (hd : d.IsBuiltin) (o : Options) :
    d.orderSupport o.deleting = d.orderSupport o.updating := by
  cases hd <;> rfl

theorem Dialect.IsBuiltin.limitSupport_deleting {d : Dialect} (hd : d.IsBuiltin) (o : Options) :
    d.limitSupport o.deleting = d.limitSupport o.updating := by
  cases hd <;> rfl

/-- An UPDATE of a built-in dialect ends with its restriction. -/
theorem Dialect.IsBuiltin.updateTail_eq_none {d : Dialect} (hd : d.IsBuiltin) (m : Model)
    (o : Options) : d.updateTail m o = none := by
  cases hd <;> rfl

theorem Sql.Ending.text_nil (d : Dialect) : Ending.text d {} = "" := rfl

/-- Every row is chosen where nothing is said. -/
theorem Sql.Restriction.text_nil (d : Dialect) : Restriction.text d {} = "" := by
  rw [text, linkTexts]
  rfl

namespace Composer

variable {c : Composer}

section Clauses

variable (hd : c.dialect.IsBuiltin) (o : Options) (q : Query)

include hd

theorem filter_deleting : c.filter o.deleting q = c.filter o.updating q := by
  have hsame := ((composition_isolated hd).2.1 q.ops o.deleting o.updating rfl).1
  rw [filter, filter, hsame]

theorem plainOrder_deleting (scope : Scope) :
    c.plainOrder o.deleting q scope = c.plainOrder o.updating q scope := by
  rw [plainOrder, plainOrder, hd.orderSupport_deleting]
  rfl

/-- The row counts agree, and an offset is refused in both statements. -/
theorem rowLimit_deleting :
    (c.rowLimit o.deleting q).toOption = (c.rowLimit o.updating q).toOption := by
  have hsub : o.deleting.isSubQuery = o.updating.isSubQuery := rfl
  have hlimit : o.deleting.forceLimit = o.updating.forceLimit := rfl
  have hoffset : o.deleting.forceOffset = o.updating.forceOffset := rfl
  simp only [rowLimit, hsub, hlimit, hoffset, hd.limitSupport_deleting]
  generalize o.updating.forceOffset.or _ = offset
  cases hn : o.updating.isSubQuery <;> cases offset <;> rfl

end Clauses

/-- The rows that a query without joins picks, where its own model is the only one in scope. -/
def chosenRows (c : Composer) (opts : Options) (q : Query) (root : Model) :
    Except Error Sql.Restriction := do
  let filter ← c.filter opts q
  let orderBy ← c.plainOrder opts q ⟨root, []⟩
  let rows ← c.rowLimit opts q
  return ⟨filter, orderBy, rows⟩

theorem chosenRows_deleting (hd : c.dialect.IsBuiltin) (o : Options) (q : Query) (root : Model) :
    (c.chosenRows o.deleting q root).toOption = (c.chosenRows o.updating q root).toOption := by
  simp only [chosenRows, toOption_bind, toOption_pure, filter_deleting hd, plainOrder_deleting hd,
    rowLimit_deleting hd]

/-- Without joins a query has the model it is rooted at in scope, and no other. -/
theorem ofQuery_bind_scope {q : Query} (hj : ¬ q.hasJoins) :
    (JoinPlan.ofQuery q >>= fun plan => c.scope q plan) = c.scope q ⟨[]⟩ := by
  rw [JoinPlan.ofQuery_eq_nil hj]
  rfl

section Registered

variable {opts : Options} {q : Query} {root : Model} (hroot : c.schema.model q.model = .ok root)

include hroot

theorem scope_eq_ok : c.scope q ⟨[]⟩ = .ok ⟨root, []⟩ := by
  rw [scope, hroot]
  rfl

theorem updateRestriction_eq (m : Model) (hj : ¬ q.hasJoins) :
    c.updateRestriction opts m q = c.chosenRows opts q root := by
  rw [updateRestriction, if_neg hj, chosenRows]
  simp only [← bind_assoc, ofQuery_bind_scope hj, scope_eq_ok hroot]
  rfl

theorem deleteRestriction_eq (hj : ¬ q.hasJoins) :
    c.deleteRestriction opts q = c.chosenRows opts q root := by
  rw [deleteRestriction, chosenRows]
  by_cases ho : (c.dialect.orderSupport opts).isAllowed
  · simp only [if_pos ho, ← bind_assoc, ofQuery_bind_scope hj, scope_eq_ok hroot]
    rfl
  · simp only [if_neg ho, plainOrder]

end Registered

section Unregistered

variable {opts : Options} {q : Query} {e : Error} (hroot : c.schema.model q.model = .error e)

include hroot

theorem scope_eq_error : c.scope q ⟨[]⟩ = .error e := by
  rw [scope, hroot]
  rfl

theorem updateRestriction_eq_none (m : Model) (hj : ¬ q.hasJoins) :
    (c.updateRestriction opts m q).toOption = none := by
  rw [updateRestriction, if_neg hj]
  simp only [← bind_assoc, ofQuery_bind_scope hj, scope_eq_error hroot]
  rw [toOption_bind]
  exact Option.bind_eq_none_iff.mpr fun _ _ => rfl

theorem deleteRestriction_eq_none (hj : ¬ q.hasJoins)
    (ho : (c.dialect.orderSupport opts).isAllowed) :
    (c.deleteRestriction opts q).toOption = none := by
  rw [deleteRestriction]
  simp only [if_pos ho, ← bind_assoc, ofQuery_bind_scope hj, scope_eq_error hroot]
  rw [toOption_bind]
  exact Option.bind_eq_none_iff.mpr fun _ _ => rfl

end Unregistered

/-- Where DELETE asks for the model of the query too, both restrictions are the same. -/
theorem deleteRestriction_toOption (hd : c.dialect.IsBuiltin) {o : Options} {q : Query} (m : Model)
    (hj : ¬ q.hasJoins)
    (hroot : (c.dialect.orderSupport o.deleting).isAllowed ∨
      ∃ root, c.schema.model q.model = .ok root) :
    (c.deleteRestriction o.deleting q).toOption =
      (c.updateRestriction o.updating m q).toOption := by
  cases hmodel : c.schema.model q.model with
  | ok root =>
    rw [deleteRestriction_eq hmodel hj, updateRestriction_eq hmodel m hj]
    exact chosenRows_deleting hd o q root
  | error e =>
    have ho : (c.dialect.orderSupport o.deleting).isAllowed := by
      refine hroot.resolve_right ?_
      rintro ⟨root, hok⟩
      cases hok.symm.trans hmodel
    rw [deleteRestriction_eq_none hmodel hj ho, updateRestriction_eq_none hmodel m hj]

/-- An UPDATE up to the end of its SET list. -/
def updateHead (c : Composer) (m : Model) (record : Record) : String :=
  "UPDATE " ++ c.dialect.identifier m.table ++ " SET " ++
    ", ".intercalate ((c.assignments m record).map (·.text c.dialect))

/-- A DELETE up to the name of its table. -/
def deleteHead (c : Composer) (m : Model) : String := "DELETE FROM " ++ c.dialect.identifier m.table

theorem text_deleteHead (m : Model) (r : Sql.Restriction) :
    Sql.Delete.text c.dialect ⟨m.table, .rows r, {}⟩ = c.deleteHead m ++ r.text c.dialect := by
  rw [Sql.Delete.text, Sql.Ending.text_nil, String.append_empty]
  rfl

theorem returning_eq_none {opts : Options} (m : Model) (hr : opts.returning = none) :
    c.returning m opts = .ok none := by
  rw [returning, hr]
  rfl

section Statements

variable {opts : Options} {model : String} {m : Model} {q : Query}
  (hm : c.schema.model model = .ok m) (hr : opts.returning = none)

include hm hr

/-- A restricted UPDATE is its head and the text of the restriction. -/
theorem update_eq_restriction (hd : c.dialect.IsBuiltin) {record : Record}
    (hcheck : checkRecord m record = .ok ()) (hset : c.assignments m record ≠ []) :
    c.update opts model record (some q) = (c.updateRestriction opts.updating m q).map
      fun r => some (c.updateHead m record ++ r.text c.dialect) := by
  have hreturning : c.returning m opts.updating = .ok none := returning_eq_none m hr
  have hsome : ¬ (c.assignments m record).isEmpty := by simpa using hset
  rw [update, updateTree, hm]
  change ((checkRecord m record >>= fun _ => _) >>= _) = _
  rw [hcheck]
  change ((if (c.assignments m record).isEmpty then _ else
    c.updateRestriction opts.updating m q >>= fun _ => c.returning m opts.updating >>= _) >>= _) = _
  rw [if_neg hsome, hreturning]
  cases c.updateRestriction opts.updating m q with
  | error e => rfl
  | ok r =>
    change Except.ok (some (Sql.Update.text c.dialect ⟨m.table, c.assignments m record, r,
      ⟨c.dialect.updateTail m opts.updating, none⟩⟩)) = _
    rw [hd.updateTail_eq_none, Sql.Update.text, Sql.Ending.text_nil, String.append_empty]
    rfl

theorem delete_eq_target :
    c.delete opts model (some q) = (c.deleteTarget opts.deleting m (some q)).map
      fun target => Sql.Delete.text c.dialect ⟨m.table, target, {}⟩ := by
  have hreturning : c.returning m opts.deleting = .ok none := returning_eq_none m hr
  rw [delete, deleteTree, hm]
  change ((c.deleteTarget opts.deleting m (some q) >>= fun _ =>
    c.returning m opts.deleting >>= _) >>= _) = _
  rw [hreturning]
  cases c.deleteTarget opts.deleting m (some q) <;> rfl

/-- A restricted DELETE is its head and the text of the restriction. -/
theorem delete_eq_restriction (hj : ¬ q.hasJoins) (hc : q.hasCondition) :
    c.delete opts model (some q) = (c.deleteRestriction opts.deleting q).map
      fun r => c.deleteHead m ++ r.text c.dialect := by
  rw [delete_eq_target hm hr, deleteTarget, if_neg hj, if_pos hc]
  cases c.deleteRestriction opts.deleting q with
  | error e => rfl
  | ok r =>
    change Except.ok (Sql.Delete.text c.dialect ⟨m.table, .rows r, {}⟩) = _
    rw [text_deleteHead]
    rfl

/-- Without a condition every row goes, whatever else the query says. -/
theorem delete_eq_head (hj : ¬ q.hasJoins) (hc : ¬ q.hasCondition) :
    c.delete opts model (some q) = .ok (c.deleteHead m) := by
  rw [delete_eq_target hm hr, deleteTarget, if_neg hj, if_neg hc]
  change Except.ok (Sql.Delete.text c.dialect ⟨m.table, .rows {}, {}⟩) = _
  rw [text_deleteHead, Sql.Restriction.text_nil, String.append_empty]

end Statements

theorem settle_nil : c.settle [] = [] := (settle_eq_nil_iff []).mpr rfl

/-- A query without a condition has no operands. -/
theorem links_eq_nil {opts : Options} {ops : List Operation} (h : hasConditionIn ops = false) :
    c.links opts ops = .ok [] := by
  induction ops using hasConditionIn.induct with
  | case1 =>
    rw [links]
    rfl
  | case2 condition rest =>
    rw [hasConditionIn] at h
    cases h
  | case3 connector negated model target inner rest ihi ihr =>
    rw [hasConditionIn, Bool.or_eq_false_iff] at h
    rw [links, ihi h.1, ihr h.2]
    change Except.ok (if (c.settle []).isEmpty then _ else _) = _
    rw [settle_nil]
    rfl
  | case4 head rest hc hg ih =>
    rw [hasConditionIn] at h
    · rw [links]
      · exact ih h
      all_goals assumption
    all_goals assumption

theorem filter_eq_nil {opts : Options} {q : Query} (hc : ¬ q.hasCondition) :
    c.filter opts q = .ok [] := by
  have hnone : hasConditionIn q.ops = false := by simpa [Query.hasCondition] using hc
  rw [filter, links_eq_nil hnone]
  change Except.ok (c.settle []) = _
  rw [settle_nil]

end Composer

namespace Sql

theorem clauseText_eq_empty_iff {keyword : String} (hk : keyword ≠ "") (entries : List String) :
    clauseText keyword entries = "" ↔ entries = [] := by
  rw [clauseText]
  cases entries with
  | nil => simp
  | cons first rest => simp [append_ne_empty_left _ hk]

theorem RowLimit.text_eq_empty_iff (d : Dialect) (r : RowLimit) : r.text d = "" ↔ r = {} := by
  have hlimit : ∀ s : String, " LIMIT " ++ s ≠ "" := fun s => append_ne_empty_left s (by decide)
  have hoffset : ∀ s : String, " OFFSET " ++ s ≠ "" := fun s => append_ne_empty_left s (by decide)
  obtain ⟨limit, offset⟩ := r
  rw [text, String.append_eq_empty_iff]
  rcases limit with _ | (_ | _) <;> cases offset <;> simp [hlimit, hoffset]

/-- A restriction without text restricts nothing. -/
theorem Restriction.text_eq_empty_iff (d : Dialect) (r : Restriction) :
    r.text d = "" ↔ r = {} := by
  obtain ⟨filter, orderBy, rows⟩ := r
  have hwhere : ∀ s, whereText none s = "" ↔ s = "" := by
    intro s
    rw [whereText]
    by_cases hs : s = ""
    · simp [hs]
    · simp [hs]
  rw [text, String.append_eq_empty_iff, String.append_eq_empty_iff, hwhere,
    chainText_linkTexts_eq_empty_iff, clauseText_eq_empty_iff (by decide), List.map_eq_nil_iff,
    RowLimit.text_eq_empty_iff]
  simp [and_assoc]

end Sql

namespace Composer

variable {c : Composer}

/-- A query whose own model is registered and that neither orders nor counts the rows of a
statement. -/
def AppendsNothing (c : Composer) (opts : Options) (q : Query) : Prop :=
  (∃ root, c.schema.model q.model = .ok root ∧ c.plainOrder opts q ⟨root, []⟩ = .ok []) ∧
    c.rowLimit opts q = .ok {}

theorem chosenRows_eq_nil_iff {opts : Options} {q : Query} (hc : ¬ q.hasCondition) (root : Model) :
    c.chosenRows opts q root = .ok {} ↔
      c.plainOrder opts q ⟨root, []⟩ = .ok [] ∧ c.rowLimit opts q = .ok {} := by
  rw [chosenRows, filter_eq_nil hc]
  constructor
  · intro h
    simp only [bind_eq_ok, pure_eq_ok] at h
    obtain ⟨filter, -, orderBy, horder, rows, hrows, heq⟩ := h
    cases heq
    exact ⟨horder, hrows⟩
  · rintro ⟨horder, hrows⟩
    rw [horder, hrows]
    rfl

/-- An UPDATE without a condition restricts nothing only if the query says nothing more. -/
theorem updateRestriction_eq_nil_iff {opts : Options} {q : Query} (m : Model)
    (hj : ¬ q.hasJoins) (hc : ¬ q.hasCondition) :
    c.updateRestriction opts m q = .ok {} ↔ c.AppendsNothing opts q := by
  cases hmodel : c.schema.model q.model with
  | ok root =>
    rw [updateRestriction_eq hmodel m hj, chosenRows_eq_nil_iff hc, AppendsNothing, hmodel]
    simp
  | error e =>
    have hrefused : (c.updateRestriction opts m q).toOption = none :=
      updateRestriction_eq_none hmodel m hj
    constructor
    · intro h
      rw [h] at hrefused
      cases hrefused
    · rintro ⟨⟨root, hroot, -⟩, -⟩
      cases hroot.symm.trans hmodel

theorem map_head_eq_ok_iff {x : Except Error Sql.Restriction} {head : String} :
    x.map (fun r => some (head ++ r.text c.dialect)) = .ok (some head) ↔ x = .ok {} := by
  rw [map_eq_ok]
  constructor
  · rintro ⟨r, hr, heq⟩
    have htext : head ++ r.text c.dialect = head ++ "" := by
      rw [String.append_empty]
      exact Option.some.inj heq
    have hnil := (Sql.Restriction.text_eq_empty_iff c.dialect r).mp
      ((String.append_right_inj head).mp htext)
    rw [hr, hnil]
  · rintro rfl
    exact ⟨{}, rfl, by rw [Sql.Restriction.text_nil, String.append_empty]⟩

end Composer

/-- For a query with a condition and without joins, UPDATE and DELETE append the same text to
their heads or are both refused, if DELETE orders rows or the query's own model is registered. The
text is that of the filter, the order and the row count.
Without a condition DELETE appends nothing; UPDATE does the same only where the query neither
orders nor counts rows. -/
theorem update_and_delete_restrict_alike {c : Composer} (hd : c.dialect.IsBuiltin)
    {opts : Options} (hr : opts.returning = none) (model : String) (record : Record) {q : Query}
    (hj : ¬ q.hasJoins) :
    (∀ e, c.schema.model model = .error e →
      c.update opts model record (some q) = .error e ∧
        c.delete opts model (some q) = .error e) ∧
    ∀ m, c.schema.model model = .ok m → Composer.checkRecord m record = .ok () →
      c.assignments m record ≠ [] →
      (q.hasCondition →
        ((c.dialect.orderSupport opts.deleting).isAllowed ∨
          ∃ root, c.schema.model q.model = .ok root) →
        ∃ tail : Option String,
          (c.update opts model record (some q)).toOption =
            tail.map (fun t => some (c.updateHead m record ++ t)) ∧
          (c.delete opts model (some q)).toOption = tail.map (c.deleteHead m ++ ·) ∧
          ∀ root, c.schema.model q.model = .ok root →
            tail = (c.chosenRows opts.updating q root).toOption.map (·.text c.dialect)) ∧
      (¬ q.hasCondition →
        c.delete opts model (some q) = .ok (c.deleteHead m) ∧
        (c.update opts model record (some q) = .ok (some (c.updateHead m record)) ↔
          c.AppendsNothing opts.updating q)) := by
  constructor
  · intro e he
    rw [Composer.update, Composer.updateTree, Composer.delete, Composer.deleteTree, he]
    exact ⟨rfl, rfl⟩
  · intro m hm hcheck hset
    have hupdate := Composer.update_eq_restriction hm hr hd hcheck hset (q := q)
    constructor
    · intro hc hroot
      have hdelete := Composer.delete_eq_restriction hm hr hj hc
      have hsame := Composer.deleteRestriction_toOption hd m hj hroot
      let rows := (c.updateRestriction opts.updating m q).toOption
      refine ⟨rows.map (·.text c.dialect), ?_, ?_, ?_⟩
      · rw [hupdate, toOption_map, Option.map_map]
        rfl
      · rw [hdelete, toOption_map, hsame, Option.map_map]
        rfl
      · intro root hmodel
        rw [← Composer.updateRestriction_eq hmodel m hj]
    · intro hc
      refine ⟨Composer.delete_eq_head hm hr hj hc, ?_⟩
      rw [hupdate, Composer.map_head_eq_ok_iff, Composer.updateRestriction_eq_nil_iff m hj hc]

/-- The table of people in MySQL, which orders and counts the rows of both statements. -/
def peopleMysql : Composer := { people with dialect := .mysql }

/-- Ann, a year older than when she was read. -/
def olderAnn : Record :=
  (Record.loaded "Person" [("id", .int 7), ("name", .string "Ann"), ("age", .int 30)]).set "age"
    (.int 31)

/-- The eldest person of age. -/
def eldestAdult : Query :=
  ⟨"Person", none, [.condition (.of ⟨"Person", "age"⟩ .ge (.value (.int 18))),
    .order ⟨.replace, [⟨.field ⟨"Person", "age"⟩, .desc⟩]⟩, .limit 1]⟩

theorem delete_eldestAdult : peopleMysql.delete {} "Person" (some eldestAdult) =
    .ok ("DELETE FROM \x60people\x60 WHERE \x60people\x60.\x60age\x60 >= 18 " ++
      "ORDER BY \x60people\x60.\x60age\x60 DESC LIMIT 1") := by
  cbv

theorem update_and_delete_restrict_alike_eldest :
    peopleMysql.dialect.IsBuiltin ∧ ¬ eldestAdult.hasJoins ∧ eldestAdult.hasCondition ∧
      ∃ m tail, peopleMysql.schema.model "Person" = .ok m ∧
        Composer.checkRecord m olderAnn = .ok () ∧ peopleMysql.assignments m olderAnn ≠ [] ∧
        (peopleMysql.update {} "Person" olderAnn (some eldestAdult)).toOption =
          some (some (peopleMysql.updateHead m olderAnn ++ tail)) ∧
        "DELETE FROM \x60people\x60 WHERE \x60people\x60.\x60age\x60 >= 18 " ++
            "ORDER BY \x60people\x60.\x60age\x60 DESC LIMIT 1" =
          peopleMysql.deleteHead m ++ tail := by
  have hd : peopleMysql.dialect.IsBuiltin := .mysql
  have hj : ¬ eldestAdult.hasJoins := by cbv; decide
  have hc : eldestAdult.hasCondition := by cbv
  obtain ⟨m, hm, hcheck, hset⟩ : ∃ m, peopleMysql.schema.model "Person" = .ok m ∧
      Composer.checkRecord m olderAnn = .ok () ∧ peopleMysql.assignments m olderAnn ≠ [] := by
    refine ⟨_, rfl, rfl, ?_⟩
    cbv
    decide
  have hroot : (peopleMysql.dialect.orderSupport (Options.deleting {})).isAllowed ∨
      ∃ root, peopleMysql.schema.model eldestAdult.model = .ok root := .inl rfl
  obtain ⟨tail, hupdate, hdelete, -⟩ := ((update_and_delete_restrict_alike hd rfl "Person" olderAnn
    hj).2 m hm hcheck hset).1 hc hroot
  rw [delete_eldestAdult] at hdelete
  cases tail with
  | none => cases hdelete
  | some tail =>
    exact ⟨hd, hj, hc, m, tail, hm, hcheck, hset, hupdate, Option.some.inj hdelete⟩

/-- Any five people. -/
def anyFive : Query := ⟨"Person", none, [.limit 5]⟩

/-- The people of age, by a query that is rooted at a model nobody registered. -/
def strayAdults : Query :=
  ⟨"Ghost", none, [.condition (.of ⟨"Person", "age"⟩ .ge (.value (.int 18)))]⟩

theorem update_anyFive : peopleMysql.update {} "Person" olderAnn (some anyFive) =
    .ok (some "UPDATE \x60people\x60 SET \x60age\x60 = 31 LIMIT 5") := by
  cbv

theorem delete_anyFive : peopleMysql.delete {} "Person" (some anyFive) =
    .ok "DELETE FROM \x60people\x60" := by
  cbv

theorem update_strayAdults : people.update {} "Person" olderAnn (some strayAdults) =
    .error (.invalidStatement (.unknownModel "Ghost")) := by
  cbv

theorem delete_strayAdults : people.delete {} "Person" (some strayAdults) =
    .ok "DELETE FROM \"people\" WHERE \"people\".\"age\" >= 18" := by
  cbv

/-- MySQL counts the rows of both statements, and still a DELETE without a condition drops the
count that the UPDATE keeps. In SQLite a query with a stray root is refused by UPDATE only. -/
theorem unconditional_delete_drops_limit :
    (peopleMysql.dialect.IsBuiltin ∧ ¬ anyFive.hasJoins ∧
      peopleMysql.dialect.limitSupport (Options.updating {}) ∧
      peopleMysql.dialect.limitSupport (Options.deleting {}) ∧
      peopleMysql.update {} "Person" olderAnn (some anyFive) =
        .ok (some ("UPDATE \x60people\x60 SET \x60age\x60 = 31" ++ " LIMIT 5")) ∧
      peopleMysql.delete {} "Person" (some anyFive) = .ok ("DELETE FROM \x60people\x60" ++ "")) ∧
    people.dialect.IsBuiltin ∧ ¬ strayAdults.hasJoins ∧
      people.update {} "Person" olderAnn (some strayAdults) =
        .error (.invalidStatement (.unknownModel "Ghost")) ∧
      people.delete {} "Person" (some strayAdults) =
        .ok "DELETE FROM \"people\" WHERE \"people\".\"age\" >= 18" := by
  have hfive : ¬ anyFive.hasJoins := by cbv; decide
  have hstray : ¬ strayAdults.hasJoins := by cbv; decide
  exact ⟨⟨.mysql, hfive, rfl, rfl, update_anyFive, delete_anyFive⟩, .sqlite, hstray,
    update_strayAdults, delete_strayAdults⟩

end SqlCompose
