import SqlCompose.Proofs.Truth

/-!
# The meaning of comparisons

What a comparison says about one row, in the three-valued logic of SQL. Operands are known by their
texts alone, and so are sub-selects: a `Meaning` gives the values that they have on the row, and how
the database compares values. NULL is no value, and whatever is compared with it is unknown, except
by IS. The text of a literal is taken for one operand, raw text too.
-/

namespace SqlCompose

/-- What a database makes of the parts of a comparison on one row. -/
structure Meaning (α : Type) where
  /-- The value of an operand, where it is not NULL. -/
  operand : String → Option α
  /-- The values that a sub-select of one column yields. -/
  rows : String → List (Option α)
  order : α → α → Ordering
  /-- Whether a value fits a pattern. -/
  fits : α → α → Bool
  /-- Whether a value is what stands after IS, which need not be a comparison of equals. -/
  agrees : α → α → Bool

namespace Meaning

variable {α : Type} (means : Meaning α)

/-- Whether an operator holds of two values. The ones of EXISTS compare no values. -/
def holds (op : Operator) (a b : α) : Bool :=
  match op with
  | .eq => means.order a b == .eq
  | .ne => means.order a b != .eq
  | .gt => means.order a b == .gt
  | .ge => means.order a b != .lt
  | .lt => means.order a b == .lt
  | .le => means.order a b != .gt
  | .like => means.fits a b
  | .notLike => !means.fits a b
  | .rowExists => false
  | .noRowExists => true

theorem holds_invert (op : Operator) (a b : α) :
    means.holds op.invert a b = !means.holds op a b := by
  cases op <;> simp [holds, Operator.invert, bne]

/-- The comparison of two operands, one of which may be NULL. -/
def compare (op : Operator) : Option α → Option α → Truth
  | some a, some b => .ofBool (means.holds op a b)
  | _, _ => .unknown

theorem compare_invert (op : Operator) (x y : Option α) :
    means.compare op.invert x y = (means.compare op x y).not := by
  cases x with
  | none => rfl
  | some a =>
    cases y with
    | none => rfl
    | some b => rw [compare, compare, holds_invert, Truth.not_ofBool]

/-- The comparison by IS, which is never unknown. -/
def is : Option α → Option α → Truth
  | none, none => .yes
  | some a, some b => .ofBool (means.agrees a b)
  | _, _ => .no

/-- Whether a value is one of several. -/
def isIn (x : Option α) (entries : List (Option α)) : Truth :=
  Truth.any (entries.map (means.compare .eq x))

/-- The comparison with the values of a sub-select. Without a quantifier it has to yield one value,
and NULL stands for none. -/
def compareRows (op : Operator) (x : Option α) (rows : List (Option α)) :
    Option Quantifier → Truth
  | none => means.compare op x rows.head?.join
  | some .any => Truth.any (rows.map (means.compare op x))
  | some .all => Truth.all (rows.map (means.compare op x))

end Meaning

/-- The other quantifier. -/
def Quantifier.other : Quantifier → Quantifier
  | any => all
  | all => any

/-- What holds of no row of a sub-select does not hold of some: the negated comparison takes the
other quantifier. -/
theorem Meaning.compareRows_invert {α : Type} (means : Meaning α) (op : Operator) (x : Option α)
    (rows : List (Option α)) (quantifier : Option Quantifier) :
    means.compareRows op.invert x rows quantifier =
      (means.compareRows op x rows (quantifier.map Quantifier.other)).not := by
  have hrows : rows.map (means.compare op.invert x) =
      (rows.map (means.compare op x)).map Truth.not := by
    rw [List.map_map]
    exact List.map_congr_left fun y _ => means.compare_invert op x y
  cases quantifier with
  | none => exact means.compare_invert op x _
  | some quantifier =>
    cases quantifier with
    | any =>
      change Truth.any (rows.map (means.compare op.invert x)) =
        (Truth.all (rows.map (means.compare op x))).not
      rw [Truth.not_all, hrows]
    | all =>
      change Truth.all (rows.map (means.compare op.invert x)) =
        (Truth.any (rows.map (means.compare op x))).not
      rw [Truth.not_any, hrows]

namespace Sql

variable {α : Type} (means : Meaning α) (d : Dialect)

/-- The meaning of a comparison. A tail, such as a `COLLATE` clause, belongs to the operand before
it. -/
def Comparison.truth : Comparison → Truth
  | .compare left op right tail =>
      means.compare op (means.operand (left.text d)) (means.operand (withTail (right.text d) tail))
  | .is left negated right tail =>
      let t := means.is (means.operand (left.text d)) (means.operand (withTail (right.text d) tail))
      if negated then t.not else t
  | .inList left negated entries =>
      let t := means.isIn (means.operand (left.text d))
        (entries.map fun entry => means.operand (entry.text d))
      if negated then t.not else t

mutual

/-- The meaning of an operand of a filter. -/
def Predicate.truth : Predicate → Truth
  | .comparison c => c.truth means d
  | .combined connector parts =>
      match connector with
      | .and => Truth.all (parts.map (·.truth means d))
      | .or => Truth.any (parts.map (·.truth means d))
  | .inSelect left negated inner =>
      let t := means.isIn (means.operand (left.text d)) (means.rows (inner.text d))
      if negated then t.not else t
  | .compareSelect left op quantifier inner =>
      means.compareRows op (means.operand (left.text d)) (means.rows (inner.text d)) quantifier
  | .rowExists negated inner =>
      let t := Truth.ofBool !(means.rows (inner.text d)).isEmpty
      if negated then t.not else t
  | .group negated body =>
      if negated then (chainTruth (linkTruths body)).not else chainTruth (linkTruths body)

/-- The meanings of the operands of a level, each with its connector. -/
def linkTruths : List Link → List (Connector × Truth)
  | [] => []
  | ⟨connector, operand⟩ :: rest => (connector, operand.truth) :: linkTruths rest

end

end Sql

end SqlCompose
