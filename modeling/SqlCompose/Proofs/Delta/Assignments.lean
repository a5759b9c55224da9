import Mathlib
import SqlCompose.Proofs.Delta.History
import SqlCompose.Proofs.Lexical.Literal
import SqlCompose.Write.Update

/-!
# An UPDATE writes the changes

An UPDATE sets the dirty fields to their current values, and clean ones whose default is computed
for updates. `Record.Writes` says so field by field, in terms of the record and the model alone; the
assignments are then found to be a list of what it says, in the order of the model.
-/

namespace SqlCompose

/-- What a computed default writes into a column of a type: its value, or a string as SQL. -/
def ComputedDefault.text (rule : ComputedDefault) (d : Dialect) (context : DefaultContext)
    (type : ColumnType) : String :=
  match rule.flags.literal, rule.value context with
  | true, .string sql => sql
  | _, v => d.value v (some type)

/-- The text that an UPDATE of a record has to write into a field. -/
inductive Record.Writes (d : Dialect) (r : Record) (f : Field) : String → Prop
  | changed {v : Value} (hdirty : r.Dirty f.name v) : Writes d r f (d.value v (some f.type))
  | computed {rule : ComputedDefault} (hclean : ∀ v, ¬ r.Dirty f.name v)
      (hdefault : f.default = some (.computed rule)) (hupdate : rule.flags.onUpdate)
      (hlocal : rule.flags.remote = false)
      (htext : rule.text d ⟨.update, f.ref, some r⟩ f.type ≠ "") :
      Writes d r f (rule.text d ⟨.update, f.ref, some r⟩ f.type)

namespace Composer

variable {c : Composer} {r : Record} {f : Field}

theorem computedContent_of_appliesTo {record : Option Record} {event : DefaultEvent}
    {rule : ComputedDefault} (hdefault : f.default = some (.computed rule))
    (happlies : rule.appliesTo event) :
    ∃ content, c.computedContent f record event = some content ∧
      (content.cell f.type).text c.dialect =
        rule.text c.dialect ⟨event, f.ref, record⟩ f.type := by
  rw [computedContent, hdefault, ComputedDefault.text]
  dsimp only
  rw [if_pos happlies]
  cases rule.flags.literal with
  | false => exact ⟨.value _, rfl, rfl⟩
  | true => cases rule.value ⟨event, f.ref, record⟩ <;> exact ⟨.raw _, rfl, rfl⟩

theorem appliesTo_of_computedContent {record : Option Record} {event : DefaultEvent}
    {content : Content} (h : c.computedContent f record event = some content) :
    ∃ rule, f.default = some (.computed rule) ∧ rule.appliesTo event := by
  unfold computedContent at h
  split at h
  · rename_i rule hdefault
    split at h
    · rename_i happlies
      exact ⟨rule, hdefault, happlies⟩
    · cases h
  · cases h

/-- A computed default has content for updates if it is evaluated for them, and not in the
database. -/
theorem computedContent_text {text : String} :
    (∃ content, c.computedContent f (some r) .update = some content ∧
      (content.cell f.type).text c.dialect = text) ↔
    ∃ rule, f.default = some (.computed rule) ∧ rule.flags.onUpdate ∧ rule.flags.remote = false ∧
      rule.text c.dialect ⟨.update, f.ref, some r⟩ f.type = text := by
  have happlies : ∀ rule : ComputedDefault,
      rule.appliesTo .update ↔ rule.flags.onUpdate ∧ rule.flags.remote = false := by
    intro rule
    rw [ComputedDefault.appliesTo, Bool.and_eq_true, Bool.not_eq_true']
  constructor
  · rintro ⟨content, hcontent, rfl⟩
    obtain ⟨rule, hdefault, hrule⟩ := appliesTo_of_computedContent hcontent
    obtain ⟨other, hother, htext⟩ : ∃ other, c.computedContent f (some r) .update = some other ∧
        (other.cell f.type).text c.dialect =
          rule.text c.dialect ⟨.update, f.ref, some r⟩ f.type :=
      computedContent_of_appliesTo hdefault hrule
    obtain rfl := Option.some.inj (hother.symm.trans hcontent)
    obtain ⟨hupdate, hlocal⟩ := (happlies rule).mp hrule
    exact ⟨rule, hdefault, hupdate, hlocal, htext.symm⟩
  · rintro ⟨rule, hdefault, hupdate, hlocal, rfl⟩
    exact computedContent_of_appliesTo hdefault ((happlies rule).mpr ⟨hupdate, hlocal⟩)

theorem assignment_eq_some_iff {a : Sql.Assignment} :
    c.assignment r f = some a ↔
      ∃ content, c.updateContent r f = some content ∧
        (content.cell f.type).text c.dialect ≠ "" ∧ ⟨f.column, content.cell f.type⟩ = a := by
  rw [assignment]
  cases c.updateContent r f with
  | none => simp
  | some content => simp

theorem assignment_iff_writes (hd : c.dialect.SpellsValues) {text : String} :
    (∃ a, c.assignment r f = some a ∧ a.cell.text c.dialect = text) ↔
      r.Writes c.dialect f text := by
  simp only [assignment_eq_some_iff]
  constructor
  · rintro ⟨a, ⟨content, hcontent, htext, rfl⟩, rfl⟩
    rw [updateContent] at hcontent
    cases hv : r.changedValue? f.name with
    | some v =>
      rw [hv] at hcontent
      obtain rfl := Option.some.inj hcontent
      exact .changed (Record.changedValue?_eq_some_iff.mp hv)
    | none =>
      rw [hv] at hcontent
      obtain ⟨rule, hdefault, hupdate, hlocal, heq⟩ :=
        computedContent_text.mp ⟨content, hcontent, rfl⟩
      rw [← heq] at htext ⊢
      exact .computed (Record.changedValue?_eq_none_iff.mp hv) hdefault hupdate hlocal htext
  · intro hwrites
    cases hwrites with
    | changed hdirty =>
      rename_i v
      have hcontent : c.updateContent r f = some (.value v) := by
        rw [updateContent, Record.changedValue?_eq_some_iff.mpr hdirty]
      exact ⟨_, ⟨_, hcontent, hd _ _, rfl⟩, rfl⟩
    | computed hclean hdefault hupdate hlocal htext =>
      obtain ⟨content, hcomputed, heq⟩ :=
        computedContent_text.mpr ⟨_, hdefault, hupdate, hlocal, rfl⟩
      have hcontent : c.updateContent r f = some content := by
        rw [updateContent, Record.changedValue?_eq_none_iff.mpr hclean]
        exact hcomputed
      exact ⟨_, ⟨content, hcontent, heq ▸ htext, rfl⟩, heq⟩

/-- What the fields of a model are set to, as texts. -/
def sets (c : Composer) (m : Model) (r : Record) : List (Field × String) :=
  m.storedFields.filterMap fun f => (c.assignment r f).map fun a => (f, a.cell.text c.dialect)

theorem mem_sets_iff {m : Model} {text : String} :
    (f, text) ∈ c.sets m r ↔
      f ∈ m.storedFields ∧ ∃ a, c.assignment r f = some a ∧ a.cell.text c.dialect = text := by
  rw [sets, List.mem_filterMap]
  constructor
  · rintro ⟨other, hmem, hset⟩
    obtain ⟨a, ha, heq⟩ := Option.map_eq_some_iff.mp hset
    obtain ⟨rfl, rfl⟩ := Prod.mk.inj heq
    exact ⟨hmem, a, ha, rfl⟩
  · rintro ⟨hmem, a, ha, rfl⟩
    exact ⟨f, hmem, Option.map_eq_some_iff.mpr ⟨a, ha, rfl⟩⟩

theorem sets_sublist (c : Composer) (m : Model) (r : Record) :
    ((c.sets m r).map Prod.fst).Sublist m.storedFields := by
  have hguard : ∀ f, ((c.assignment r f).map fun a => (f, a.cell.text c.dialect)).map Prod.fst =
      Option.guard (fun f => (c.assignment r f).isSome) f := by
    intro f
    cases ha : c.assignment r f <;> simp [Option.guard, ha]
  rw [sets, List.map_filterMap, funext hguard, List.filterMap_eq_filter]
  exact List.filter_sublist

theorem assignments_text (c : Composer) (m : Model) (r : Record) :
    (c.assignments m r).map (·.text c.dialect) =
      (c.sets m r).map fun set => c.dialect.identifier set.1.column ++ " = " ++ set.2 := by
  rw [assignments, sets, List.map_filterMap, List.map_filterMap]
  refine congrArg (List.filterMap · m.storedFields) (funext fun f => ?_)
  cases ha : c.assignment r f with
  | none => rfl
  | some a =>
    obtain ⟨content, -, -, rfl⟩ := assignment_eq_some_iff.mp ha
    rfl

theorem sets_isEmpty (c : Composer) (m : Model) (r : Record) :
    (c.assignments m r).isEmpty = (c.sets m r).isEmpty := by
  have htexts := congrArg List.isEmpty (assignments_text c m r)
  rw [List.isEmpty_map, List.isEmpty_map] at htexts
  exact htexts

/-- What follows the assignments of an UPDATE that returns nothing. -/
def updateEnding (c : Composer) (opts : Options) (m : Model) : Sql.Ending :=
  ⟨c.dialect.updateTail m { opts with statement := .update, noProjectionAliases := true }, none⟩

end Composer

/-- The UPDATE of every row that sets fields to texts; there is none without fields. -/
def Model.updateText (m : Model) (d : Dialect) (sets : List (Field × String))
    (ending : Sql.Ending) : Option String :=
  if sets.isEmpty then none
  else some ("UPDATE " ++ d.identifier m.table ++ " SET " ++
    ", ".intercalate (sets.map fun set => d.identifier set.1.column ++ " = " ++ set.2) ++
    ending.text d)

namespace Composer

variable {c : Composer} {opts : Options} {model : String} {m : Model} {r : Record}

theorem checkRecord_eq_ok (hmodel : r.model = m.name)
    (hknown : ∀ change ∈ r.changes, ∃ f ∈ m.fields, f.name = change.field) :
    checkRecord m r = .ok () := by
  have hnone : (r.changes.find? fun change => (m.field? change.field).isNone) = none := by
    rw [List.find?_eq_none]
    intro change hchange
    obtain ⟨f, hf, hname⟩ := hknown change hchange
    have hfound : (m.field? change.field).isSome :=
      List.find?_isSome.mpr ⟨f, hf, beq_iff_eq.mpr hname⟩
    rw [Option.isNone_iff_eq_none]
    exact Option.isSome_iff_ne_none.mp hfound
  rw [checkRecord, if_pos hmodel, hnone]
  rfl

theorem updateTree_eq_none (hm : c.schema.model model = .ok m) (hcheck : checkRecord m r = .ok ())
    (hsets : c.sets m r = []) (q : Option Query) : c.updateTree opts model r q = .ok none := by
  have hempty : (c.assignments m r).isEmpty := by
    rw [sets_isEmpty, hsets]
    rfl
  rw [updateTree, hm]
  change (checkRecord m r >>= fun _ => _) = _
  rw [hcheck]
  change (if (c.assignments m r).isEmpty then _ else _) = _
  rw [if_pos hempty]
  rfl

theorem update_eq (hm : c.schema.model model = .ok m) (hcheck : checkRecord m r = .ok ())
    (hr : opts.returning = none) :
    c.update opts model r none =
      .ok (m.updateText c.dialect (c.sets m r) (c.updateEnding opts m)) := by
  have hempty := sets_isEmpty c m r
  cases hsets : (c.sets m r).isEmpty with
  | true =>
    rw [update, updateTree_eq_none hm hcheck (List.isEmpty_iff.mp hsets), Model.updateText,
      if_pos hsets]
    rfl
  | false =>
    have hreturning : c.returning m
        { opts with statement := .update, noProjectionAliases := true } = .ok none := by
      rw [returning, hr]
      rfl
    rw [hsets] at hempty
    have htree : c.updateTree opts model r none =
        .ok (some ⟨m.table, c.assignments m r, {}, c.updateEnding opts m⟩) := by
      rw [updateTree, hm]
      change (checkRecord m r >>= fun _ => _) = _
      rw [hcheck]
      change (if (c.assignments m r).isEmpty then _ else c.returning m _ >>= _) = _
      rw [hempty, hreturning]
      rfl
    have hall : Sql.Restriction.text c.dialect {} = "" := by
      rw [Sql.Restriction.text, Sql.linkTexts]
      rfl
    have htext : Sql.Update.text c.dialect
        ⟨m.table, c.assignments m r, {}, c.updateEnding opts m⟩ =
        "UPDATE " ++ c.dialect.identifier m.table ++ " SET " ++ ", ".intercalate ((c.sets m r).map
          fun set => c.dialect.identifier set.1.column ++ " = " ++ set.2) ++
        (c.updateEnding opts m).text c.dialect := by
      rw [Sql.Update.text, assignments_text, hall, String.append_empty]
    rw [update, htree, Model.updateText, hsets, ← htext]
    rfl

end Composer

/-- What an UPDATE of a record has to set, once for each field and in the order of the model. -/
structure IsDelta (d : Dialect) (m : Model) (r : Record) (sets : List (Field × String)) : Prop where
  ordered : (sets.map Prod.fst).Sublist m.storedFields
  once : ((sets.map Prod.fst).map (·.name)).Nodup
  mem_iff : ∀ f text, (f, text) ∈ sets ↔ f ∈ m.storedFields ∧ r.Writes d f text

theorem isDelta_sets {c : Composer} {m : Model} (hd : c.dialect.SpellsValues)
    (hnames : (m.fields.map (·.name)).Nodup) (r : Record) :
    IsDelta c.dialect m r (c.sets m r) where
  ordered := c.sets_sublist m r
  once := by
    have hfields : ((c.sets m r).map Prod.fst).Sublist m.fields :=
      (c.sets_sublist m r).trans List.filter_sublist
    exact hnames.sublist (hfields.map _)
  mem_iff := by
    intro f text
    rw [Composer.mem_sets_iff, Composer.assignment_iff_writes hd]

/-- An UPDATE sets the dirty fields and the clean ones whose default is computed for updates, and
nothing else; it is missing if there are none. A dialect that spells both truth values has a text
for every value, so no dirty field is passed over. The record may have any history, of which it has
forgotten nothing. -/
theorem update_writes_delta {c : Composer} {opts : Options} {model : String} {m : Model}
    {r : Record} (hreached : r.Reached) (hm : c.schema.model model = .ok m)
    (hmodel : r.model = m.name) (hnames : (m.fields.map (·.name)).Nodup)
    (hknown : ∀ change ∈ r.changes, ∃ f ∈ m.fields, f.name = change.field)
    (hr : opts.returning = none) (hd : c.dialect.SpellsValues) :
    (∃ sets, IsDelta c.dialect m r sets ∧
      c.update opts model r none =
        .ok (m.updateText c.dialect sets (c.updateEnding opts m))) ∧
    (c.update opts model r none = .ok none ↔
      ∀ f ∈ m.storedFields, ∀ text, ¬ r.Writes c.dialect f text) ∧
    (∀ key ∈ r.persisted.keys, key ∈ r.values.keys) ∧
    ∀ field v, r.get? field = some v →
      (∃ change ∈ r.changes, change.field = field ∧ change.current = v) ∨
        ∃ p, r.persisted.get? field = some p ∧ p.equal v := by
  have hdelta := isDelta_sets hd hnames r
  have hupdate := Composer.update_eq hm (Composer.checkRecord_eq_ok hmodel hknown) hr
  have hnone : m.updateText c.dialect (c.sets m r) (c.updateEnding opts m) = none ↔
      c.sets m r = [] := by
    rw [Model.updateText]
    cases c.sets m r <;> simp
  refine ⟨⟨_, hdelta, hupdate⟩, ?_, hreached.persisted_keys, fun _ _ => Record.change_or_persisted⟩
  rw [hupdate, Except.ok.injEq, hnone, List.eq_nil_iff_forall_not_mem]
  constructor
  · intro hempty f hf text hwrites
    exact hempty (f, text) ((hdelta.mem_iff f text).mpr ⟨hf, hwrites⟩)
  · rintro hnothing ⟨f, text⟩ hset
    obtain ⟨hf, hwrites⟩ := (hdelta.mem_iff f text).mp hset
    exact hnothing f hf text hwrites

/-- A model that keeps the time of the last change. -/
def noteModel : Model where
  name := "Note"
  table := "notes"
  fields := [
    { Field.named "id" (.integer 8) with column := "id", model := "Note", primaryKey := true },
    { Field.named "body" .text with column := "body", model := "Note" },
    { Field.named "changed" .datetime with
      column := "changed"
      model := "Note"
      default := some (.computed
        ⟨{ DefaultFlags.updating with literal := true }, fun _ => .string "CURRENT_TIMESTAMP"⟩) }]

def notes : Composer where
  schema := ⟨⟨[("Note", noteModel)], by decide⟩, by decide⟩
  dialect := .postgresql
  config := {}

/-- A note that was saved under its number, got a body, was saved again and corrected. -/
def correctedNote : Record :=
  ((Record.loaded "Note" [("id", .int 7)]).set "body" (.string "frist")).markPersisted.set "body"
    (.string "first")

theorem update_writes_delta_corrected :
    correctedNote.Reached ∧ notes.schema.model "Note" = .ok noteModel ∧
    correctedNote.model = noteModel.name ∧ (noteModel.fields.map (·.name)).Nodup ∧
    (∀ change ∈ correctedNote.changes, ∃ f ∈ noteModel.fields, f.name = change.field) ∧
    ({} : Options).returning = none ∧ notes.dialect.SpellsValues ∧
    ∃ sets, IsDelta notes.dialect noteModel correctedNote sets ∧
      noteModel.updateText notes.dialect sets (notes.updateEnding {} noteModel) =
        some "UPDATE \"notes\" SET \"body\" = 'first', \"changed\" = CURRENT_TIMESTAMP" := by
  have hreached : correctedNote.Reached := .set _ _ (.markPersisted (.set _ _ (.loaded _ _)))
  have hm : notes.schema.model "Note" = .ok noteModel := rfl
  have hmodel : correctedNote.model = noteModel.name := rfl
  have hnames : (noteModel.fields.map (·.name)).Nodup := by decide
  have hknown : ∀ change ∈ correctedNote.changes,
      ∃ f ∈ noteModel.fields, f.name = change.field := by
    have hchanges : correctedNote.changes =
        [⟨"body", some (.string "frist"), .string "first"⟩] := by
      cbv
    rw [hchanges]
    intro change hchange
    rw [List.mem_singleton.mp hchange]
    exact ⟨_, .tail _ (.head _), rfl⟩
  have hr : ({} : Options).returning = none := rfl
  have hd : notes.dialect.SpellsValues := Dialect.IsBuiltin.postgresql.spellsValues
  obtain ⟨⟨sets, hdelta, hupdate⟩, -⟩ :=
    update_writes_delta hreached hm hmodel hnames hknown hr hd
  have htext : notes.update {} "Note" correctedNote none =
      .ok (some "UPDATE \"notes\" SET \"body\" = 'first', \"changed\" = CURRENT_TIMESTAMP") := by
    cbv
  exact ⟨hreached, hm, hmodel, hnames, hknown, hr, hd, sets, hdelta,
    Except.ok.inj (hupdate.symm.trans htext)⟩

end SqlCompose
