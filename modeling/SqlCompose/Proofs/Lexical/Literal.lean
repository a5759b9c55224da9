import SqlCompose.Dialect.Builtin
import SqlCompose.Proofs.Filter

/-!
# Every value has a literal

A list is the only value whose literal as a scalar is empty, and no coercion makes one. So a
dialect that spells both truth values writes a text for every value, in a column of any type.
-/

namespace SqlCompose

open Sql (append_ne_empty_left append_ne_empty_right)

theorem int_text_ne_empty (n : Int) : toString n ≠ "" := by
  rw [Int.toString_eq_repr, Int.repr_eq_if]
  split
  · exact Nat.repr_ne_empty
  · exact append_ne_empty_left _ (by decide)

namespace NumberLayout

theorem withPoint_ne_empty (whole : String) {fraction : String} (h : fraction ≠ "") :
    withPoint whole fraction ≠ "" := by
  rw [withPoint, if_neg h]
  exact append_ne_empty_right _ h

/-- A layout that keeps a fraction digit writes something, whatever the number. -/
theorem magnitudeText_ne_empty {layout : NumberLayout} (h : 0 < layout.leastFraction)
    (d : Decimal) : layout.magnitudeText d ≠ "" := by
  rw [magnitudeText]
  dsimp only
  split
  · refine withPoint_ne_empty _ ?_
    by_cases hfraction : (placed d).2 = ""
    · rw [hfraction]
      refine append_ne_empty_right _ ?_
      rw [ne_eq, String.ofList_eq_empty_iff, List.replicate_eq_nil_iff]
      exact Nat.sub_ne_zero_of_lt h
    · exact append_ne_empty_left _ hfraction
  · exact append_ne_empty_left _ (append_ne_empty_right _ (by decide))

theorem write_ne_empty {layout : NumberLayout} (h : 0 < layout.leastFraction) (x : Binary64) :
    layout.write x ≠ "" := by
  have hmagnitude :
      (if x.isFinite then layout.magnitudeText x.shortest else "inf") ≠ "" := by
    split
    · exact magnitudeText_ne_empty h _
    · decide
  rw [write]
  dsimp only
  split
  · decide
  · split
    · exact append_ne_empty_right _ hmagnitude
    · exact hmagnitude

end NumberLayout

namespace ColumnType

theorem toTruth_isList {v w : Value} (h : toTruth v = some w) : w.isList = false := by
  unfold toTruth at h
  split at h <;> grind [Value.isList, Option.map_eq_some_iff]

theorem toInteger_isList {v w : Value} (h : toInteger v = some w) : w.isList = false := by
  unfold toInteger at h
  split at h <;> grind [Value.isList, Option.map_eq_some_iff]

theorem toDouble_isList {v w : Value} (h : toDouble v = some w) : w.isList = false := by
  unfold toDouble at h
  split at h <;> grind [Value.isList, Option.map_eq_some_iff]

theorem toText_isList {v w : Value} (h : toText v = some w) : w.isList = false := by
  unfold toText at h
  split at h <;> grind [Value.isList]

theorem toBytes_isList {v w : Value} (h : toBytes v = some w) : w.isList = false := by
  unfold toBytes at h
  split at h <;> grind [Value.isList]

/-- No coercion makes a list. -/
theorem coerce_isList {type : ColumnType} {v w : Value} (hv : v.isList = false)
    (h : type.coerce v = some w) : w.isList = false := by
  have hscalar : type.coerceScalar v = some w → w.isList = false := by
    intro h
    cases type with
    | boolean => exact toTruth_isList h
    | integer => exact toInteger_isList h
    | float | numeric => exact toDouble_isList h
    | text | varchar => exact toText_isList h
    | blob => exact toBytes_isList h
    | uuid | date | time | datetime | json | custom =>
      obtain rfl := Option.some.inj h
      exact hv
  cases v with
  | null =>
    obtain rfl := Option.some.inj h
    rfl
  | list => cases hv
  | bool | int | double | string | bytes => exact hscalar h

end ColumnType

namespace Lexicon

/-- Both truth values have a spelling. -/
def SpellsTruth (lexicon : Lexicon) : Prop := lexicon.trueText ≠ "" ∧ lexicon.falseText ≠ ""

variable {lexicon : Lexicon}

theorem scalar_ne_empty (hs : lexicon.SpellsTruth) {v : Value} (hv : v.isList = false) :
    lexicon.scalar v ≠ "" := by
  cases v with
  | null =>
    rw [scalar]
    decide
  | bool b =>
    rw [scalar]
    cases b with
    | false => exact hs.2
    | true => exact hs.1
  | int n => exact int_text_ne_empty _
  | double x =>
    rw [scalar]
    split
    · exact NumberLayout.write_ne_empty Nat.one_pos x
    · decide
  | string s => exact mt String.ofList_eq_empty_iff.mp (by simp)
  | bytes data => exact append_ne_empty_right _ (mt String.ofList_eq_empty_iff.mp (by simp))
  | list values => cases hv

theorem value_of_isList_eq_false {v : Value} (hv : v.isList = false) (type : Option ColumnType) :
    lexicon.value type v = lexicon.scalar ((type.bind (·.coerce v)).getD v) := by
  cases v with
  | list values => cases hv
  | null | bool | int | double | string | bytes =>
    rw [value]
    intros; contradiction

theorem value_ne_empty (hs : lexicon.SpellsTruth) (type : Option ColumnType) (v : Value) :
    lexicon.value type v ≠ "" := by
  have hscalar : v.isList = false → lexicon.scalar ((type.bind (·.coerce v)).getD v) ≠ "" := by
    intro hv
    cases hw : type.bind (·.coerce v) with
    | none => exact scalar_ne_empty hs hv
    | some w =>
      obtain ⟨t, -, hcoerce⟩ := Option.bind_eq_some_iff.mp hw
      exact scalar_ne_empty hs (ColumnType.coerce_isList hv hcoerce)
  cases v with
  | list values =>
    rw [value]
    exact append_ne_empty_right _ (by decide)
  | null | bool | int | double | string | bytes =>
    rw [value_of_isList_eq_false rfl]
    exact hscalar rfl

end Lexicon

namespace Dialect

variable {d : Dialect}

/-- Every value has a spelling. -/
def SpellsValues (d : Dialect) : Prop := ∀ v type, d.value v type ≠ ""

theorem SpelledBy.spellsValues {lexicon : Lexicon} (h : d.SpelledBy lexicon)
    (hs : lexicon.SpellsTruth) : d.SpellsValues := by
  intro v type
  rw [h.value_eq]
  exact Lexicon.value_ne_empty hs type v

theorem IsBuiltin.spellsValues (h : d.IsBuiltin) : d.SpellsValues := by
  cases h with
  | postgresql => exact postgresql_spelledBy.spellsValues ⟨by decide, by decide⟩
  | sqlite => exact sqlite_spelledBy.spellsValues ⟨by decide, by decide⟩
  | mysql => exact mysql_spelledBy.spellsValues ⟨by decide, by decide⟩

end Dialect

end SqlCompose
