import SqlCompose.Proofs.FirstOccurrences
import SqlCompose.Proofs.Lexical.Literal

/-!
# Normalised lists

What a coercion makes is of the kind that the column type stores, so the same coercion leaves it
alone. Equality of values is symmetric and transitive, so a normalised list holds the first
occurrences of the coerced entries, and normalising it again changes nothing. A NaN equals nothing,
so every one of them stays.
-/

namespace SqlCompose

theorem Binary64.equal_trans {x y z : Binary64} (hxy : x.equal y) (hyz : y.equal z) :
    x.equal z := by
  simp only [equal, Bool.and_eq_true, Bool.or_eq_true, Bool.not_eq_true', beq_iff_eq] at *
  refine ⟨⟨hxy.1.1, hyz.1.2⟩, ?_⟩
  rcases hxy.2 with hbits | hzero
  · obtain rfl : x = y := congrArg Binary64.mk hbits
    exact hyz.2
  · rcases hyz.2 with hbits | hzero'
    · obtain rfl : y = z := congrArg Binary64.mk hbits
      exact .inr hzero
    · exact .inr ⟨hzero.1, hzero'.2⟩

namespace Value

mutual

theorem equal_comm : ∀ u v : Value, u.equal v = v.equal u
  | .list us, v => by
      cases v with
      | list vs => rw [equal, equal, equalLists_comm us vs]
      | _ => simp only [equal]
  | .double x, v => by
      cases v with
      | double y => rw [equal, equal, Binary64.equal_comm]
      | _ => simp only [equal]
  | .null, v | .bool _, v | .int _, v | .string _, v | .bytes _, v => by
      cases v <;> simp only [equal, Bool.beq_comm]

theorem equalLists_comm : ∀ us vs : List Value, equalLists us vs = equalLists vs us
  | [], vs => by cases vs <;> simp only [equalLists]
  | u :: us, vs => by
      cases vs with
      | nil => simp only [equalLists]
      | cons v vs => rw [equalLists, equalLists, equal_comm u v, equalLists_comm us vs]

end

mutual

theorem equal_trans : ∀ {u v w : Value}, u.equal v → v.equal w → u.equal w
  | .list us, v, w, huv, hvw => by
      cases v <;> simp only [equal, Bool.false_eq_true] at huv
      cases w <;> simp only [equal, Bool.false_eq_true] at hvw
      rw [equal]
      exact equalLists_trans huv hvw
  | .double x, v, w, huv, hvw => by
      cases v <;> simp only [equal, Bool.false_eq_true] at huv
      cases w <;> simp only [equal, Bool.false_eq_true] at hvw
      rw [equal]
      exact Binary64.equal_trans huv hvw
  | .null, v, w, huv, hvw | .bool _, v, w, huv, hvw | .int _, v, w, huv, hvw
  | .string _, v, w, huv, hvw | .bytes _, v, w, huv, hvw => by
      cases v <;> simp only [equal, Bool.false_eq_true, beq_iff_eq] at huv
      all_goals first | exact hvw | exact huv ▸ hvw

theorem equalLists_trans : ∀ {us vs ws : List Value},
    equalLists us vs → equalLists vs ws → equalLists us ws
  | [], vs, ws, huv, hvw => by
      cases vs with
      | nil => exact hvw
      | cons v vs => simp only [equalLists, Bool.false_eq_true] at huv
  | u :: us, vs, ws, huv, hvw => by
      cases vs with
      | nil => simp only [equalLists, Bool.false_eq_true] at huv
      | cons v vs =>
        cases ws with
        | nil => simp only [equalLists, Bool.false_eq_true] at hvw
        | cons w ws =>
          simp only [equalLists, Bool.and_eq_true] at huv hvw ⊢
          exact ⟨equal_trans huv.1 hvw.1, equalLists_trans huv.2 hvw.2⟩

end

end Value

namespace ColumnType

theorem toTruth_of_toTruth {v w : Value} (h : toTruth v = some w) : toTruth w = some w := by
  unfold toTruth at h
  split at h <;> grind [toTruth, Option.map_eq_some_iff]

theorem toInteger_of_toInteger {v w : Value} (h : toInteger v = some w) :
    toInteger w = some w := by
  unfold toInteger at h
  split at h <;> grind [toInteger, Option.map_eq_some_iff]

theorem toDouble_of_toDouble {v w : Value} (h : toDouble v = some w) : toDouble w = some w := by
  unfold toDouble at h
  split at h <;> grind [toDouble, Option.map_eq_some_iff]

theorem toText_of_toText {v w : Value} (h : toText v = some w) : toText w = some w := by
  unfold toText at h
  split at h <;> grind [toText]

theorem toBytes_of_toBytes {v w : Value} (h : toBytes v = some w) : toBytes w = some w := by
  unfold toBytes at h
  split at h <;> grind [toBytes]

theorem isList_of_coerce {type : ColumnType} {v w : Value} (h : type.coerce v = some w) :
    w.isList = false := by
  refine coerce_isList ?_ h
  cases v with
  | list values => cases h
  | null | bool | int | double | string | bytes => rfl

theorem coerceScalar_of_coerceScalar {type : ColumnType} {v w : Value}
    (h : type.coerceScalar v = some w) : type.coerceScalar w = some w := by
  cases type with
  | boolean => exact toTruth_of_toTruth h
  | integer => exact toInteger_of_toInteger h
  | float | numeric => exact toDouble_of_toDouble h
  | text | varchar => exact toText_of_toText h
  | blob => exact toBytes_of_toBytes h
  | uuid | date | time | datetime | json | custom => rfl

/-- A coerced value is left alone by the same coercion. -/
theorem coerce_of_coerce {type : ColumnType} {v w : Value} (h : type.coerce v = some w) :
    type.coerce w = some w := by
  have hlist := isList_of_coerce h
  have hscalar : type.coerceScalar v = some w → type.coerce w = some w := by
    intro hv
    cases w with
    | null => rfl
    | list values => cases hlist
    | bool | int | double | string | bytes => exact coerceScalar_of_coerceScalar hv
  cases v with
  | null =>
    obtain rfl := Option.some.inj h
    rfl
  | list values => cases h
  | bool | int | double | string | bytes => exact hscalar h

/-- The entries kept after others are the first occurrences that equal none of those. -/
theorem keepFirst_eq (kept values : List Value) :
    keepFirst kept values =
      (firstOccurrences Value.equal values).filter fun v => !kept.any (·.equal v) := by
  induction values generalizing kept with
  | nil => rfl
  | cons v rest ih =>
    rw [keepFirst, firstOccurrences_cons, List.filter_cons, List.filter_filter]
    split
    · rename_i hv
      rw [if_neg (by simp [hv]), ih]
      refine List.filter_congr fun w _ => ?_
      -- What equals the entry left out equals the kept one that it equals.
      rw [eq_comm, Bool.and_eq_left_iff_imp, Bool.not_eq_true', Bool.not_eq_true']
      intro hw
      by_contra hvw
      obtain ⟨u, hu, huv⟩ := List.any_eq_true.mp hv
      have huw : u.equal w := Value.equal_trans huv (Bool.not_eq_false _ ▸ hvw)
      exact absurd (List.any_eq_false.mp hw u hu) (not_not.mpr huw)
    · rename_i hv
      rw [if_pos (by simp [hv]), ih]
      refine congrArg (v :: ·) (List.filter_congr fun w _ => ?_)
      rw [List.any_append, List.any_cons, List.any_nil, Bool.or_false, Bool.not_or]

theorem normalize_eq (type : ColumnType) (values : List Value) :
    type.normalize values = firstOccurrences Value.equal (values.filterMap type.coerce) := by
  rw [normalize, keepFirst_eq, List.filter_eq_self]
  exact fun _ _ => rfl

theorem exists_of_mem_normalize {type : ColumnType} {values : List Value} {w : Value}
    (h : w ∈ type.normalize values) : ∃ v ∈ values, type.coerce v = some w :=
  List.mem_filterMap.mp ((firstOccurrences_sublist _).mem (normalize_eq type values ▸ h))

/-- Each entry of a normalised list is one that coercion leaves alone. -/
theorem coerce_of_mem_normalize {type : ColumnType} {values : List Value} {w : Value}
    (h : w ∈ type.normalize values) : type.coerce w = some w := by
  obtain ⟨v, -, hv⟩ := exists_of_mem_normalize h
  exact coerce_of_coerce hv

theorem pairwise_normalize (type : ColumnType) (values : List Value) :
    (type.normalize values).Pairwise fun u v => u.equal v = false :=
  normalize_eq type values ▸ pairwise_firstOccurrences _

/-- A normalised list is left alone. -/
theorem normalize_normalize (type : ColumnType) (values : List Value) :
    type.normalize (type.normalize values) = type.normalize values := by
  have hcoerced : (type.normalize values).filterMap type.coerce = type.normalize values := by
    rw [List.filterMap_congr fun _ => coerce_of_mem_normalize, List.filterMap_some]
  rw [normalize_eq, hcoerced]
  exact firstOccurrences_eq_self (pairwise_normalize type values)

end ColumnType

/-- A value is written on a column like what it is coerced to. -/
theorem Dialect.SpelledBy.value_of_coerce {d : Dialect} {lexicon : Lexicon}
    (hd : d.SpelledBy lexicon) {type : ColumnType} {v w : Value} (h : type.coerce v = some w) :
    d.value v (some type) = d.value w none := by
  have hw : w.isList = false := ColumnType.isList_of_coerce h
  have hv : v.isList = false := by
    cases v with
    | list values => cases h
    | null | bool | int | double | string | bytes => rfl
  rw [hd.value_eq, hd.value_eq, Lexicon.value_of_isList_eq_false hv,
    Lexicon.value_of_isList_eq_false hw, Option.bind_some, h]
  rfl

theorem Dialect.SpelledBy.coerce_of_mem_normalize {d : Dialect} {lexicon : Lexicon}
    (hd : d.SpelledBy lexicon) {f : Field} {values : List Value} {v : Value}
    (h : v ∈ d.normalize f values) : f.type.coerce v = some v :=
  ColumnType.coerce_of_mem_normalize (hd.normalize_eq f values ▸ h)

/-- A normalised list holds the first occurrences of what its entries are coerced to. It has no two
equal entries, and coercion and normalisation leave it alone. A dialect that goes by a lexicon
normalises so, and writes a value like what it is coerced to. -/
theorem normalize_keeps_first_occurrences (f : Field) (values : List Value) :
    f.type.normalize values = firstOccurrences Value.equal (values.filterMap f.type.coerce) ∧
      (f.type.normalize values).Sublist (values.filterMap f.type.coerce) ∧
      (f.type.normalize values).Pairwise (fun u v => u.equal v = false ∧ v.equal u = false) ∧
      (∀ v ∈ f.type.normalize values, f.type.coerce v = some v) ∧
      f.type.normalize (f.type.normalize values) = f.type.normalize values ∧
      ∀ (d : Dialect) (lexicon : Lexicon), d.SpelledBy lexicon →
        d.normalize f values = f.type.normalize values ∧
        ∀ v w : Value, f.type.coerce v = some w →
          d.value v (some f.type) = d.value w (some f.type) := by
  have hfirst := ColumnType.normalize_eq f.type values
  refine ⟨hfirst, hfirst ▸ firstOccurrences_sublist _, ?_,
    fun _ => ColumnType.coerce_of_mem_normalize, ColumnType.normalize_normalize f.type values,
    fun d lexicon hd => ⟨hd.normalize_eq f values, fun v w h => ?_⟩⟩
  · refine (ColumnType.pairwise_normalize f.type values).imp fun {u v} huv => ⟨huv, ?_⟩
    rw [Value.equal_comm, huv]
  · rw [hd.value_of_coerce h, hd.value_of_coerce (ColumnType.coerce_of_coerce h)]

/-- A rating between zero and five. -/
def rating : Field := Field.named "rating" (.float 8)

/-- Ratings with zeros of both signs, a text that is none and two that are NaN. -/
def ratings : List Value :=
  [.int 3, .string " 3.0", .double (.zero true), .string "none", .int 0, .double .nan,
    .double .nan, .null, .null]

theorem normalize_keeps_first_occurrences_ratings :
    Dialect.mysql.SpelledBy Dialect.mysqlLexicon ∧
      Dialect.mysql.normalize rating ratings = rating.type.normalize ratings ∧
      rating.type.normalize ratings =
        [.double (.ofInt 3), .double (.zero true), .double .nan, .double .nan, .null] ∧
      rating.type.coerce (.double .nan) = some (.double .nan) ∧
      rating.type.coerce (.string " 3.0") = some (.double (.ofInt 3)) ∧
      Dialect.mysql.value (.string " 3.0") (some rating.type) = "3.0" := by
  have hthree : rating.type.coerce (.string " 3.0") = some (.double (.ofInt 3)) := by
    have hread : Number.readDouble (Character.trim " 3.0".toList) = some (.ofInt 3) := by
      decide +kernel
    exact congrArg (Option.map Value.double) hread
  have hnone : rating.type.coerce (.string "none") = none := by
    have hread : Number.readDouble (Character.trim "none".toList) = none := by decide +kernel
    exact congrArg (Option.map Value.double) hread
  obtain ⟨hfirst, -, -, hfixed, -, hspelled⟩ := normalize_keeps_first_occurrences rating ratings
  obtain ⟨hnormalize, hwritten⟩ := hspelled _ _ Dialect.mysql_spelledBy
  have hlist : rating.type.normalize ratings =
      [.double (.ofInt 3), .double (.zero true), .double .nan, .double .nan, .null] := by
    rw [hfirst, ratings]
    simp only [List.filterMap_cons, hthree, hnone]
    rfl
  refine ⟨Dialect.mysql_spelledBy, hnormalize, hlist, hfixed _ (by simp [hlist]), hthree, ?_⟩
  rw [hwritten _ _ hthree]
  decide +kernel

end SqlCompose
