import SqlCompose.Dialect.Builtin
import SqlCompose.Proofs.Normalization
import SqlCompose.Proofs.Number.Nearest

/-!
# Numbers written into columns of numbers

A column of integers takes a double without a fraction, and a column of doubles takes an integer.
The double is clamped to the integers of 64 bits and the integer is rounded to 53 bits. So what is
written is the nearest number that the type holds, and it is the given one exactly if the type holds
that. A column of integers refuses a fraction, which is then written as it is.
-/

namespace SqlCompose

/-- The number that a value stands for. -/
def Value.number? : Value → Option ℚ
  | .int n => some n.toInt
  | .double x => if x.isFinite then some x.toRat else none
  | _ => none

/-- An integral double stands for its integer part. -/
theorem Value.number?_of_isIntegral {x : Binary64} {n : ℤ} (h : x.isIntegral)
    (hn : x.truncate = n) : (Value.double x).number? = some (n : ℚ) := by
  have hx : x.isFinite := (Bool.and_eq_true_iff.mp h).1
  rw [number?, if_pos hx, Binary64.toRat_eq_truncate h, hn]

namespace ColumnType

/-- Types of columns of numbers. -/
def isNumeric : ColumnType → Bool
  | .integer _ | .float _ | .numeric _ _ => true
  | _ => false

/-- The numbers that the values of a type stand for. The size of a column does not matter. -/
def Holds : ColumnType → ℚ → Prop
  | .integer _, q => ∃ n : Int64, q = n.toInt
  | .float _, q | .numeric _ _, q => ∃ x : Binary64, x.isFinite ∧ q = x.toRat
  | _, _ => False

/-- A value stands for a number of a type, and no number of the type is nearer to the given one. -/
def NearestTo (type : ColumnType) (q : ℚ) (w : Value) : Prop :=
  ∃ r, w.number? = some r ∧ type.Holds r ∧ ∀ s, type.Holds s → |r - q| ≤ |s - q|

variable {type : ColumnType} {q : ℚ} {w : Value}

theorem nearestTo_of_holds (hw : w.number? = some q) (hq : type.Holds q) : type.NearestTo q w := by
  refine ⟨q, hw, hq, fun s _ => ?_⟩
  rw [sub_self, abs_zero]
  exact abs_nonneg _

/-- The nearest number is the given one if that is a number of the type. -/
theorem NearestTo.number?_eq_iff (h : type.NearestTo q w) :
    w.number? = some q ↔ type.Holds q := by
  obtain ⟨r, hw, hr, hnearest⟩ := h
  rw [hw, Option.some.injEq]
  refine ⟨fun hrq => hrq ▸ hr, fun hq => ?_⟩
  have hle := hnearest q hq
  rw [sub_self, abs_zero] at hle
  exact sub_eq_zero.mp (abs_nonpos_iff.mp hle)

/-- The integers below `2 ^ 53` in magnitude are numbers of every type of numbers. -/
theorem holds_intCast (htype : type.isNumeric) {n : ℤ} (hn : n.natAbs < 2 ^ 53) :
    type.Holds n := by
  cases type with
  | integer size =>
    refine ⟨Int64.ofInt n, ?_⟩
    rw [Int64.toInt_ofInt_of_le (by omega) (by omega)]
  | float | numeric =>
    exact ⟨.ofInt n, (Binary64.ofInt_nearest (by omega)).1, (Binary64.toRat_ofInt hn).symm⟩
  | _ => cases htype

theorem coerce_integer_double (size : Nat) (x : Binary64) :
    (integer size).coerce (.double x) =
      if x.isIntegral then some (.int x.toInt64Clamped) else none := rfl

/-- An integer is clamped to the nearest one of 64 bits. -/
theorem nearestTo_clamped (size : Nat) {x : Binary64} (hx : x.isIntegral) :
    (integer size).NearestTo x.toRat (.int x.toInt64Clamped) := by
  refine ⟨_, rfl, ⟨_, rfl⟩, ?_⟩
  rintro _ ⟨n, rfl⟩
  have hle := n.le_toInt
  have hlt := n.toInt_lt
  rw [Binary64.toRat_eq_truncate hx, Binary64.toInt_toInt64Clamped]
  have hclamped : |max (-2 ^ 63) (min x.truncate (2 ^ 63 - 1)) - x.truncate| ≤
      |n.toInt - x.truncate| := by
    rw [Int.abs_eq_natAbs, Int.abs_eq_natAbs]
    omega
  exact_mod_cast hclamped

/-- A double made of an integer is a nearest one. -/
theorem nearestTo_ofInt (htype : type.isNumeric) (hinteger : type.isInteger = false) (n : Int64) :
    type.NearestTo n.toInt (.double (.ofInt n.toInt)) := by
  have hlower := n.le_toInt
  have hupper := n.toInt_lt
  have hbits : n.toInt.natAbs < 2 ^ 64 := by omega
  have hfinite := (Binary64.ofInt_nearest hbits).1
  have hnumber : (Value.double (.ofInt n.toInt)).number? = some (Binary64.ofInt n.toInt).toRat :=
    if_pos hfinite
  cases type with
  | float | numeric =>
    refine ⟨_, hnumber, ⟨_, hfinite, rfl⟩, ?_⟩
    rintro _ ⟨x, -, rfl⟩
    exact Binary64.abs_toRat_ofInt_sub_le hbits x
  | integer => cases hinteger
  | _ => cases htype

/-- A number is refused by a column of integers if it has a fraction, and else becomes the nearest
number of the type. -/
theorem coerce_number (htype : type.isNumeric) {v : Value} (hv : v.number? = some q) :
    (type.coerce v = none ↔ type.isInteger ∧ ¬ ∃ n : ℤ, q = n) ∧
      ∀ w, type.coerce v = some w → type.NearestTo q w := by
  cases v with
  | int n =>
    obtain rfl : (n.toInt : ℚ) = q := Option.some.inj hv
    have hint : ∃ k : ℤ, (n.toInt : ℚ) = k := ⟨_, rfl⟩
    cases type with
    | integer size =>
      refine ⟨⟨nofun, fun h => absurd hint h.2⟩, ?_⟩
      rintro _ ⟨⟩
      exact nearestTo_of_holds rfl ⟨n, rfl⟩
    | float | numeric =>
      refine ⟨⟨nofun, nofun⟩, ?_⟩
      rintro _ ⟨⟩
      exact nearestTo_ofInt rfl rfl n
    | _ => cases htype
  | double x =>
    obtain ⟨hx, rfl⟩ : x.isFinite ∧ x.toRat = q := by
      simpa [Value.number?] using hv
    have hintegral := Binary64.isIntegral_iff hx
    cases type with
    | integer size =>
      rw [← hintegral, coerce_integer_double]
      split
      · rename_i h
        refine ⟨⟨nofun, fun hnot => absurd h hnot.2⟩, ?_⟩
        rintro _ ⟨⟩
        exact nearestTo_clamped size h
      · rename_i h
        exact ⟨⟨fun _ => ⟨rfl, h⟩, fun _ => rfl⟩, nofun⟩
    | float | numeric =>
      refine ⟨⟨nofun, nofun⟩, ?_⟩
      rintro _ ⟨⟩
      exact nearestTo_of_holds hv ⟨x, hx, rfl⟩
    | _ => cases htype
  | _ => cases hv

end ColumnType

/-- A column of integers refuses a fraction, which is written as it is. Any other number becomes the
nearest one of the type, so it is kept exactly if it is a number of the type, as every integer below
`2 ^ 53` in magnitude is. Each entry of a normalised list is the nearest to one that was given. -/
theorem coerced_number_nearest {type : ColumnType} (htype : type.isNumeric) :
    (∀ (v : Value) (q : ℚ), v.number? = some q →
      (type.coerce v = none ↔ type.isInteger ∧ ¬ ∃ n : ℤ, q = n) ∧
        (type.coerce v = none → ∀ (d : Dialect) (lexicon : Lexicon), d.SpelledBy lexicon →
          d.value v (some type) = d.value v none) ∧
        ∀ w, type.coerce v = some w →
          type.NearestTo q w ∧ (w.number? = some q ↔ type.Holds q) ∧
            ∀ (d : Dialect) (lexicon : Lexicon), d.SpelledBy lexicon →
              d.value v (some type) = d.value w none) ∧
      (∀ values : List Value, ∀ w ∈ type.normalize values,
        (∃ v ∈ values, ∀ q, v.number? = some q → type.NearestTo q w) ∧
          ∀ (d : Dialect) (lexicon : Lexicon), d.SpelledBy lexicon →
            d.value w (some type) = d.value w none) ∧
      ∀ n : ℤ, n.natAbs < 2 ^ 53 → type.Holds n := by
  refine ⟨fun v q hv => ?_, fun values w hw => ?_, fun n => ColumnType.holds_intCast htype⟩
  · obtain ⟨hnone, hsome⟩ := ColumnType.coerce_number htype hv
    refine ⟨hnone, fun h d lexicon hd => ?_, fun w h => ?_⟩
    · have hlist : v.isList = false := by
        cases v with
        | list values => cases hv
        | null | bool | int | double | string | bytes => rfl
      rw [hd.value_eq, hd.value_eq, Lexicon.value_of_isList_eq_false hlist,
        Lexicon.value_of_isList_eq_false hlist, Option.bind_some, h]
      rfl
    · exact ⟨hsome w h, (hsome w h).number?_eq_iff, fun _ _ hd => hd.value_of_coerce h⟩
  · obtain ⟨v, hv, hcoerce⟩ := ColumnType.exists_of_mem_normalize hw
    exact ⟨⟨v, hv, fun q hq => (ColumnType.coerce_number htype hq).2 w hcoerce⟩,
      fun _ _ hd => hd.value_of_coerce (ColumnType.coerce_of_mem_normalize hw)⟩

/-- A count of views, which a double stores. -/
def viewCount : Field := Field.named "views" (.float 8)

theorem coerced_number_nearest_viewCount :
    viewCount.type.isNumeric ∧
      viewCount.type.NearestTo 9007199254740993 (.double (.ofInt 9007199254740992)) ∧
      ¬ viewCount.type.Holds 9007199254740993 ∧ viewCount.type.Holds (9007199254740991 : ℤ) ∧
      Dialect.sqlite.value (.int 9007199254740993) (some viewCount.type) =
        "9007199254740992.0" := by
  have hrounded : Binary64.ofInt 9007199254740993 = .ofInt 9007199254740992 := by decide
  have hcoerce : viewCount.type.coerce (.int 9007199254740993) =
      some (.double (.ofInt 9007199254740992)) :=
    congrArg (fun x => some (Value.double x)) hrounded
  have hnumeric : viewCount.type.isNumeric := rfl
  obtain ⟨hnumbers, -, hsmall⟩ := coerced_number_nearest hnumeric
  obtain ⟨hnearest, hkept, hwritten⟩ :=
    (hnumbers (.int 9007199254740993) 9007199254740993 rfl).2.2 _ hcoerce
  refine ⟨hnumeric, hnearest, fun hheld => ?_, hsmall _ (by decide), ?_⟩
  · have hnumber := hkept.mpr hheld
    rw [Value.number?_of_isIntegral (n := 9007199254740992) (by decide) (by decide)] at hnumber
    exact absurd (Option.some.inj hnumber) (by decide)
  · rw [hwritten _ _ Dialect.sqlite_spelledBy]
    decide +kernel

/-- The double `2 ^ 63` becomes the greatest integer of 64 bits, and the integer `2 ^ 53 + 1` a
double that is less by one. -/
theorem coercion_changes_number :
    (ColumnType.integer 8).coerce (.double (.ofInt 9223372036854775808)) =
        some (.int 9223372036854775807) ∧
      (Value.double (.ofInt 9223372036854775808)).number? = some 9223372036854775808 ∧
      (Value.int 9223372036854775807).number? = some 9223372036854775807 ∧
      Dialect.sqlite.value (.double (.ofInt 9223372036854775808)) (some (.integer 8)) =
        "9223372036854775807" ∧
      (ColumnType.float 8).coerce (.int 9007199254740993) =
        some (.double (.ofInt 9007199254740992)) ∧
      (Value.int 9007199254740993).number? = some 9007199254740993 ∧
      (Value.double (.ofInt 9007199254740992)).number? = some 9007199254740992 := by
  have hgreat : (Binary64.ofInt 9223372036854775808).isIntegral ∧
      (Binary64.ofInt 9223372036854775808).truncate = 9223372036854775808 ∧
      (Binary64.ofInt 9223372036854775808).toInt64Clamped = 9223372036854775807 := by decide
  have hround : (Binary64.ofInt 9007199254740992).isIntegral ∧
      (Binary64.ofInt 9007199254740992).truncate = 9007199254740992 ∧
      Binary64.ofInt 9007199254740993 = .ofInt 9007199254740992 := by decide
  have hcoerce : (ColumnType.integer 8).coerce (.double (.ofInt 9223372036854775808)) =
      some (.int 9223372036854775807) := by
    rw [ColumnType.coerce_integer_double, if_pos hgreat.1, hgreat.2.2]
  refine ⟨hcoerce, Value.number?_of_isIntegral hgreat.1 hgreat.2.1, rfl, ?_,
    congrArg (fun x => some (Value.double x)) hround.2.2, rfl,
    Value.number?_of_isIntegral hround.1 hround.2.1⟩
  rw [Dialect.sqlite_spelledBy.value_of_coerce hcoerce]
  decide

end SqlCompose
