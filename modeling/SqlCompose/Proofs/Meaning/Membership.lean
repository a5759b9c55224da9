import SqlCompose.Proofs.Meaning.Negation
import SqlCompose.Proofs.Meaning.Text

/-!
# Comparisons with lists

A list is compared in parts, one for each of NULL and the truth values and one for all other
entries. Read as SQL, the parts together say that the column is one of the entries, or with the
other operator that it is none. Each entry is written as it is after normalisation: the coercion at
the time of writing finds nothing left to do.
-/

namespace SqlCompose

open Reading

variable {α : Type}

/-- Whether a column has a value. NULL and the truth values are compared by IS. -/
def Meaning.isValue (means : Meaning α) (d : Dialect) (x : Option α) (v : Value) : Truth :=
  let y := means.operand (d.value v none)
  if v.isSpecial then means.is x y else means.compare .eq x y

/-- Whether a column has one of several values. -/
def Meaning.isOneOf (means : Meaning α) (d : Dialect) (x : Option α) (entries : List Value) :
    Truth :=
  Truth.any (entries.map (means.isValue d x))

namespace Composer

variable {c : Composer} {m : Model} {f : Field} {op : Operator} {values : List Value}

section Parts

variable (ht : ∀ f op, c.dialect.comparisonTail f op = none)

include ht

theorem isLiteral_listParts (hvalues : ∀ v ∈ values, v.isList = false) :
    ∀ part ∈ c.listParts m f op values, part.IsLiteral := by
  intro part hpart
  rw [listParts, List.mem_append] at hpart
  rcases hpart with hpart | hpart
  · obtain ⟨v, hv, rfl⟩ := List.mem_map.mp hpart
    exact ⟨rfl, hvalues v (List.mem_filter.mp hv).1, ht f op⟩
  · rw [sharedParts] at hpart
    split at hpart
    · cases hpart
    · rename_i hordinary
      rw [List.mem_singleton.mp hpart]
      refine ⟨rfl, by simpa using hordinary, fun entry hentry => ?_⟩
      obtain ⟨v, hv, rfl⟩ := List.mem_map.mp hentry
      exact hvalues v (List.mem_filter.mp hv).1

variable {lexicon : Lexicon} (hs : c.dialect.SpelledBy lexicon)

include hs

theorem test_specialPart {v : Value} (hv : f.type.coerce v = some v) :
    (c.specialPart m f op v).test c.dialect =
      .is ((m.column f).text c.dialect) (op == .ne) (c.dialect.value v none) := by
  rw [specialPart, ht, Sql.Comparison.test, Sql.withTail, Sql.Term.text,
    hs.value_of_coerce hv]

omit ht in
theorem map_test_sharedParts {ordinary : List Value}
    (h : ∀ v ∈ ordinary, f.type.coerce v = some v) :
    (sharedParts m f op ordinary).map (·.test c.dialect) =
      if ordinary.isEmpty then []
      else [.isIn ((m.column f).text c.dialect) (op == .ne)
        (ordinary.map fun v => c.dialect.value v none)] := by
  rw [sharedParts]
  split
  · rfl
  · rw [List.map_singleton, Sql.Comparison.test, List.map_map]
    congr 2
    exact List.map_congr_left fun v hv => hs.value_of_coerce (h v hv)

/-- Each entry is compared with once. -/
theorem operands_listParts (hvalues : ∀ v ∈ values, f.type.coerce v = some v) :
    (((c.listParts m f op values).map (·.test c.dialect)).flatMap Test.operands).Perm
      (values.map fun v => c.dialect.value v none) := by
  have hspecial : (((values.filter (·.isSpecial)).map (c.specialPart m f op)).map
      (·.test c.dialect)).flatMap Test.operands =
        (values.filter (·.isSpecial)).map fun v => c.dialect.value v none := by
    rw [List.map_map, List.flatMap_map, List.map_eq_flatMap]
    refine List.flatMap_congr fun v hv => ?_
    rw [Function.comp_apply, test_specialPart ht hs (hvalues v (List.mem_filter.mp hv).1)]
    rfl
  have hshared : ((sharedParts m f op (values.filter fun v => !v.isSpecial)).map
      (·.test c.dialect)).flatMap Test.operands =
        (values.filter fun v => !v.isSpecial).map fun v => c.dialect.value v none := by
    rw [map_test_sharedParts hs fun v hv => hvalues v (List.mem_filter.mp hv).1]
    split
    · rename_i hnone
      rw [List.isEmpty_iff.mp hnone]
      rfl
    · exact List.flatMap_singleton _ _
  rw [listParts, List.map_append, List.flatMap_append, hspecial, hshared, ← List.map_append]
  exact (List.filter_append_perm _ values).map _

/-- Read as SQL, the parts of a list say that the column has one of its entries. -/
theorem any_truth_listParts (means : Meaning α)
    (hvalues : ∀ v ∈ values, f.type.coerce v = some v) :
    Truth.any ((c.listParts m f .eq values).map (·.truth means c.dialect)) =
      means.isOneOf c.dialect (means.operand ((m.column f).text c.dialect)) values := by
  let x := means.operand ((m.column f).text c.dialect)
  have htests : (c.listParts m f .eq values).map (·.truth means c.dialect) =
      ((c.listParts m f .eq values).map (·.test c.dialect)).map (·.truth means) := by
    rw [List.map_map]
    exact List.map_congr_left fun part _ => (part.truth_test means c.dialect).symm
  have hspecial : (((values.filter (·.isSpecial)).map (c.specialPart m f .eq)).map
      (·.test c.dialect)).map (·.truth means) =
        (values.filter (·.isSpecial)).map (means.isValue c.dialect x) := by
    rw [List.map_map, List.map_map]
    refine List.map_congr_left fun v hv => ?_
    obtain ⟨hmem, hv⟩ := List.mem_filter.mp hv
    rw [Function.comp_apply, Function.comp_apply, test_specialPart ht hs (hvalues v hmem),
      Meaning.isValue, if_pos hv]
    rfl
  have hshared : Truth.any (((sharedParts m f .eq (values.filter fun v => !v.isSpecial)).map
      (·.test c.dialect)).map (·.truth means)) =
        Truth.any ((values.filter fun v => !v.isSpecial).map (means.isValue c.dialect x)) := by
    have hcompare : ((values.filter fun v => !v.isSpecial).map fun v =>
        c.dialect.value v none).map (fun w => means.compare .eq x (means.operand w)) =
          (values.filter fun v => !v.isSpecial).map (means.isValue c.dialect x) := by
      rw [List.map_map]
      refine List.map_congr_left fun v hv => ?_
      have hv : ¬ v.isSpecial := by simpa using (List.mem_filter.mp hv).2
      rw [Function.comp_apply, Meaning.isValue, if_neg hv]
    rw [map_test_sharedParts hs fun v hv => hvalues v (List.mem_filter.mp hv).1]
    split
    · rename_i hnone
      rw [List.isEmpty_iff.mp hnone]
      rfl
    · rw [← hcompare, List.map_singleton]
      refine (Truth.or_no _).trans ?_
      change means.isIn x (List.map means.operand _) = _
      rw [Meaning.isIn, List.map_map]
      rfl
  rw [htests, listParts, List.map_append, List.map_append, Truth.any_append, hshared, hspecial,
    ← Truth.any_append, ← List.map_append]
  exact Truth.any_perm ((List.filter_append_perm _ values).map _)

end Parts

theorem truth_joinParts_eq (means : Meaning α) (d : Dialect) {parts : List Sql.Comparison}
    (hne : parts ≠ []) :
    (joinParts .eq parts).truth means d = Truth.any (parts.map (·.truth means d)) := by
  obtain _ | ⟨first, _ | ⟨next, rest⟩⟩ := parts
  · exact absurd rfl hne
  · rw [joinParts, Sql.Predicate.truth]
    exact (Truth.or_no _).symm
  · have hjoined : joinParts .eq (first :: next :: rest) = .combined .or (first :: next :: rest) :=
      rfl
    rw [hjoined, Sql.Predicate.truth]

/-- The parts of a list, joined, say that the column has one of its entries, or with the other
operator that it has none. -/
theorem truth_joinParts_listParts (ht : ∀ f op, c.dialect.comparisonTail f op = none)
    {lexicon : Lexicon} (hs : c.dialect.SpelledBy lexicon) (hop : op.isEquality)
    (hne : values ≠ []) (means : Meaning α) (hvalues : ∀ v ∈ values, f.type.coerce v = some v) :
    (joinParts op (c.listParts m f op values)).truth means c.dialect =
      let t := means.isOneOf c.dialect (means.operand ((m.column f).text c.dialect)) values
      if op = .eq then t else t.not := by
  have hparts : c.listParts m f .eq values ≠ [] :=
    mt (listComparisons_eq_nil_iff (listComparisons_eq rfl values)).mp hne
  have heq : (joinParts .eq (c.listParts m f .eq values)).truth means c.dialect =
      means.isOneOf c.dialect (means.operand ((m.column f).text c.dialect)) values := by
    rw [truth_joinParts_eq means c.dialect hparts, any_truth_listParts ht hs means hvalues]
  cases op with
  | eq => exact heq
  | ne =>
    have hinvert := @joinParts_invert .eq rfl (c.listParts m f .eq values)
    rw [← listParts_invert ht rfl] at hinvert
    have hnegated : joinParts .ne (c.listParts m f .ne values) =
        (joinParts .eq (c.listParts m f .eq values)).negated := hinvert
    rw [hnegated, Sql.Predicate.truth_negated,
      Sql.Predicate.exchanged_of_not_isQuantified (joinParts_isQuantified _ _), heq]
    rfl
  | gt | ge | lt | le | like | notLike | rowExists | noRowExists => cases hop

end Composer

/-- A comparison of a field with a list asks whether the column has one of the entries of the
normalised list, and by the other operator whether it has none: that is what a database reads from
its text, word by word and under every meaning of the operands. Each entry is compared with once,
NULL and the truth values by IS. The text is one operand of AND and OR, in parentheses exactly if
it has several parts. Every operator but those of equality is refused. -/
theorem list_comparison_is_membership {c : Composer} {rules : Quoting}
    (hd : c.dialect.ReadBy rules) (m : Model) (f : Field) (op : Operator) (values : List Value) :
    (op.isEquality = false →
      c.listCondition m f op values = .error (.invalidOperator op.name f.fullName .onList)) ∧
    (op.isEquality → c.dialect.normalize f values ≠ [] →
      ∃ p clause, c.listCondition m f op values = .ok (some p) ∧
        Clause.read (rules.words (p.text c.dialect)) = some clause ∧
        IsOperand (rules.words (p.text c.dialect)) ∧
        (clause.enclosed ↔ 1 < clause.tests.length) ∧
        clause.operands.Perm ((c.dialect.normalize f values).map fun v => c.dialect.value v none) ∧
        (c.dialect.normalize f values).Pairwise (fun u v => u.equal v = false) ∧
        ∀ (α : Type) (means : Meaning α), clause.truth means =
          let t := means.isOneOf c.dialect (means.operand ((m.column f).text c.dialect))
            (c.dialect.normalize f values)
          if op = .eq then t else t.not) := by
  refine ⟨fun hop => Composer.listCondition_eq_error hop values, fun hop hne => ?_⟩
  have ht := hd.regular.comparisonTail
  obtain ⟨lexicon, hs, -⟩ := hd.exists_lexicon
  have hcoerced : ∀ v ∈ c.dialect.normalize f values, f.type.coerce v = some v :=
    fun _ => hs.coerce_of_mem_normalize
  have hlists : ∀ v ∈ c.dialect.normalize f values, v.isList = false := fun v hv =>
    ColumnType.isList_of_coerce (hcoerced v hv)
  have hparts : c.listParts m f op (c.dialect.normalize f values) ≠ [] :=
    mt (Composer.listComparisons_eq_nil_iff (Composer.listComparisons_eq hop _)).mp hne
  obtain ⟨clause, hread⟩ := exists_readAs_joinParts hd hparts
    (Composer.isLiteral_listParts ht hlists)
  have hlength : clause.tests.length = (c.listParts m f op (c.dialect.normalize f values)).length := by
    rw [← List.length_map Prod.snd, hread.tests, List.length_map]
  have hoperands : clause.operands = ((c.listParts m f op (c.dialect.normalize f values)).map
      (·.test c.dialect)).flatMap Test.operands := by
    rw [← hread.tests, List.flatMap_map]
    rfl
  refine ⟨_, clause, Composer.listCondition_eq hop hne, hread.read, hread.single, ?_, ?_,
    hs.normalize_eq f values ▸ ColumnType.pairwise_normalize _ _, fun α means => ?_⟩
  · rw [hlength]
    exact hread.enclosed
  · rw [hoperands]
    exact Composer.operands_listParts ht hs hcoerced
  · rw [hread.truth, Composer.truth_joinParts_listParts ht hs hop hne means hcoerced]

/-- The name of a role. -/
def roleName : Field := { Field.named "name" .text with column := "name", model := "Role" }

/-- No name, a name, and a number that is given as text, too. -/
def someNames : List Value := [.null, .string "admin", .int 3, .bool true, .string "3"]

theorem list_comparison_is_membership_names :
    members.dialect.ReadBy ⟨'"', false⟩ ∧ Operator.gt.isEquality = false ∧
    Operator.ne.isEquality ∧ members.dialect.normalize roleName someNames ≠ [] ∧
    members.listCondition roleModel roleName .gt someNames =
      .error (.invalidOperator "GT" "Role:name" .onList) ∧
    ∃ p clause, members.listCondition roleModel roleName .ne someNames = .ok (some p) ∧
      p.text .sqlite =
        "(\"roles\".\"name\" IS NOT NULL AND \"roles\".\"name\" NOT IN ('admin','3'))" ∧
      Clause.read (Quoting.words ⟨'"', false⟩ (p.text .sqlite)) = some clause ∧
      ∀ (α : Type) (means : Meaning α), clause.truth means =
        (means.isOneOf .sqlite (means.operand "\"roles\".\"name\"")
          [.null, .string "admin", .string "3"]).not := by
  have hd : members.dialect.ReadBy ⟨'"', false⟩ := .sqlite
  have hentries : members.dialect.normalize roleName someNames =
      [.null, .string "admin", .string "3"] := rfl
  have hne : members.dialect.normalize roleName someNames ≠ [] := by
    rw [hentries]
    exact List.cons_ne_nil _ _
  have hp : members.listCondition roleModel roleName .ne someNames =
      .ok (some (.combined .and [
        .is ⟨"roles", "name", true⟩ true (.value .null (some .text)) none,
        .inList ⟨"roles", "name", true⟩ true [.value (.string "admin") (some .text),
          .value (.string "3") (some .text)]])) := by
    rw [Composer.listCondition_eq rfl hne, hentries]
    rfl
  have hrefused := (list_comparison_is_membership hd roleModel roleName .gt someNames).1 rfl
  obtain ⟨p, clause, hlist, hclause, -, -, -, -, htruth⟩ :=
    (list_comparison_is_membership hd roleModel roleName .ne someNames).2 rfl hne
  cases hp.symm.trans hlist
  refine ⟨hd, rfl, rfl, hne, hrefused, _, clause, hp, rfl, hclause, ?_⟩
  intro α means
  rw [htruth, hentries]
  rfl

end SqlCompose
