import SqlCompose.Record

/-!
# The changes of a record

A record gets its values one by one and is persisted from time to time. Whatever happens to it, a
field that was persisted has a current value, and a field whose current value is not equal to the
persisted one is among the changes, with the current value.
-/

namespace SqlCompose

theorem OrderedMap.mem_entries_iff {α : Type} {m : OrderedMap α} {key : String} {value : α} :
    (key, value) ∈ m.entries ↔ m.get? key = some value :=
  ⟨OrderedMap.get?_eq_some_of_mem, Entries.mem_of_find?_eq_some⟩

namespace Record

/-- The field has this value, and no equal one was persisted. -/
def Dirty (r : Record) (field : String) (v : Value) : Prop :=
  r.get? field = some v ∧ ∀ p, r.persisted.get? field = some p → p.equal v = false

variable {r : Record} {field : String} {v : Value}

theorem changeOf_eq_some_iff {change : Change} :
    r.changeOf field v = some change ↔
      (∀ p, r.persisted.get? field = some p → p.equal v = false) ∧
        change = ⟨field, r.persisted.get? field, v⟩ := by
  rw [changeOf, eq_comm (a := change)]
  cases r.persisted.get? field with
  | none => simp
  | some p => cases hp : p.equal v <;> simp [hp]

/-- The changes are the dirty fields, each with what was persisted and what is there now. -/
theorem mem_changes_iff {change : Change} :
    change ∈ r.changes ↔
      r.Dirty change.field change.current ∧ change.previous = r.persisted.get? change.field := by
  rw [changes, List.mem_filterMap]
  constructor
  · rintro ⟨⟨field, v⟩, hentry, hchange⟩
    obtain ⟨hdiffers, rfl⟩ := changeOf_eq_some_iff.mp hchange
    exact ⟨⟨OrderedMap.mem_entries_iff.mp hentry, hdiffers⟩, rfl⟩
  · rintro ⟨⟨hcurrent, hdiffers⟩, hprevious⟩
    refine ⟨(change.field, change.current), OrderedMap.mem_entries_iff.mpr hcurrent, ?_⟩
    exact changeOf_eq_some_iff.mpr ⟨hdiffers, by rw [← hprevious]⟩

theorem changes_eq_nil_iff : r.changes = [] ↔ ∀ field v, ¬ r.Dirty field v := by
  rw [List.eq_nil_iff_forall_not_mem]
  constructor
  · intro hempty field v hdirty
    exact hempty ⟨field, r.persisted.get? field, v⟩ (mem_changes_iff.mpr ⟨hdirty, rfl⟩)
  · intro hclean change hchange
    exact hclean _ _ (mem_changes_iff.mp hchange).1

/-- The value that has to be written into a field is the current one of a dirty field. -/
theorem changedValue?_eq_some_iff : r.changedValue? field = some v ↔ r.Dirty field v := by
  rw [changedValue?, Option.map_eq_some_iff]
  constructor
  · rintro ⟨change, hfind, rfl⟩
    have hdirty := (mem_changes_iff.mp (List.mem_of_find?_eq_some hfind)).1
    have hfield : change.field == field := by simpa using List.find?_some hfind
    rw [← beq_iff_eq.mp hfield]
    exact hdirty
  · intro hdirty
    have hmem : (⟨field, r.persisted.get? field, v⟩ : Change) ∈ r.changes :=
      mem_changes_iff.mpr ⟨hdirty, rfl⟩
    have hfound : (r.changes.find? fun change => change.field == field).isSome :=
      List.find?_isSome.mpr ⟨_, hmem, beq_self_eq_true field⟩
    obtain ⟨change, hchange⟩ := Option.isSome_iff_exists.mp hfound
    have hfield : change.field == field := by simpa using List.find?_some hchange
    have hother := (mem_changes_iff.mp (List.mem_of_find?_eq_some hchange)).1.1
    -- A field has one current value, so the change that is found carries it.
    rw [beq_iff_eq.mp hfield, hdirty.1] at hother
    exact ⟨change, hchange, (Option.some.inj hother).symm⟩

theorem changedValue?_eq_none_iff : r.changedValue? field = none ↔ ∀ v, ¬ r.Dirty field v := by
  simp only [Option.eq_none_iff_forall_ne_some, ne_eq, changedValue?_eq_some_iff]

/-- What assignments and persisting make of a new record or one read from the database. -/
inductive Reached : Record → Prop
  | new (model : String) : Reached (.new model)
  | loaded (model : String) (values : List (String × Value)) : Reached (.loaded model values)
  | set {r : Record} (field : String) (v : Value) (h : Reached r) : Reached (r.set field v)
  | markPersisted {r : Record} (h : Reached r) : Reached r.markPersisted

theorem keys_set (r : Record) (field : String) (v : Value) :
    ∀ key ∈ r.values.keys, key ∈ (r.set field v).values.keys := by
  intro key hkey
  change key ∈ (r.values.alter field _).keys
  rw [OrderedMap.keys_alter]
  split
  · exact hkey
  · exact List.mem_append_left _ hkey

/-- A field that was persisted has a current value. -/
theorem Reached.persisted_keys (h : Reached r) :
    ∀ key ∈ r.persisted.keys, key ∈ r.values.keys := by
  induction h with
  | new => exact fun _ hkey => hkey
  | loaded => exact fun _ hkey => hkey
  | set field v _ ih => exact fun key hkey => keys_set _ field v key (ih key hkey)
  | markPersisted => exact fun _ hkey => hkey

/-- No assignment is lost: the value of a field has to be written, or an equal one was. -/
theorem change_or_persisted (h : r.get? field = some v) :
    (∃ change ∈ r.changes, change.field = field ∧ change.current = v) ∨
      ∃ p, r.persisted.get? field = some p ∧ p.equal v := by
  by_cases hp : ∃ p, r.persisted.get? field = some p ∧ p.equal v
  · exact .inr hp
  · have hdirty : r.Dirty field v := by
      refine ⟨h, fun p hpersisted => ?_⟩
      exact Bool.eq_false_iff.mpr fun hequal => hp ⟨p, hpersisted, hequal⟩
    exact .inl ⟨⟨field, r.persisted.get? field, v⟩, mem_changes_iff.mpr ⟨hdirty, rfl⟩, rfl, rfl⟩

end Record

end SqlCompose
