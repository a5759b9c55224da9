import Mathlib
import SqlCompose.Proofs.Composition
import SqlCompose.Proofs.Configuration
import SqlCompose.Proofs.Truth

/-!
# Dropping repeated conditions

A composer may drop an operand of a WHERE or HAVING clause that reads like the one before it. It
does not look at connectors. Composing with repeats dropped is the same as composing with them kept
and dropping them from the finished tree, at any depth. A filter keeps its truth where the terms of
every level absorb the drop. Repeats joined by AND always are absorbed; one joined by OR may take
rows with it.
-/

namespace SqlCompose

namespace Sql

mutual

/-- An operand with the repeats inside it dropped, on every level. -/
def Predicate.settled (d : Dialect) : Predicate → Predicate
  | .comparison c => .comparison c
  | .combined connector parts => .combined connector parts
  | .inSelect left negated inner => .inSelect left negated (inner.settled d)
  | .compareSelect left op quantifier inner =>
      .compareSelect left op quantifier (inner.settled d)
  | .rowExists negated inner => .rowExists negated (inner.settled d)
  | .group negated body => .group negated (dropRepeats d none (settledLinks d body))

/-- Operands with the repeats inside them dropped, themselves all kept. -/
def settledLinks (d : Dialect) : List Link → List Link
  | [] => []
  | ⟨connector, operand⟩ :: rest => ⟨connector, operand.settled d⟩ :: settledLinks d rest

/-- A SELECT statement with the repeats in its filters dropped. -/
def Select.settled (d : Dialect) : Select → Select
  | ⟨distinct, list, table, joins, correlation, filter, groupBy, having, orderBy, rows⟩ =>
      ⟨distinct, list, table, joins, correlation, dropRepeats d none (settledLinks d filter),
        groupBy, dropRepeats d none (settledLinks d having), orderBy, rows⟩

end

end Sql

namespace Composer

variable (c : Composer)

/-- The composer that drops repeated conditions. -/
def dropping : Composer := c.withConfig { c.config with dedupeConditions := true }

/-- The composer that keeps repeated conditions. -/
def keeping : Composer := c.withConfig { c.config with dedupeConditions := false }

theorem settle_dropping (links : List Sql.Link) :
    c.dropping.settle links = dropRepeats c.dialect none links := rfl

theorem settle_keeping (links : List Sql.Link) : c.keeping.settle links = links := rfl

/-- Comparisons with lists hold no filter of their own. -/
theorem map_settled_listCondition (d : Dialect) (m : Model) (f : Field) (op : Operator)
    (values : List Value) :
    Option.map (·.settled d) <$> c.listCondition m f op values = c.listCondition m f op values := by
  unfold listCondition
  split
  · rw [map_bind]
    refine bind_congr fun parts => ?_
    split
    · split <;> rfl
    · rfl
    · rfl
  · rfl

theorem map_settled_columnCondition (d : Dialect) (m : Model) (f : Field) (op : Operator)
    (other : FieldRef) :
    (·.settled d) <$> c.columnCondition m f op other = c.columnCondition m f op other := by
  unfold columnCondition
  split
  · rfl
  · rw [map_bind]
    rfl

theorem map_settled_literalCondition (d : Dialect) (m : Model) (f : Field) (op : Operator)
    (literal : Literal) :
    (·.settled d) <$> c.literalCondition m f op literal = c.literalCondition m f op literal := by
  unfold literalCondition
  split
  · rfl
  · rfl
  · rw [map_bind]
    rfl

theorem settled_selectPredicate (d : Dialect) (left : Sql.Column) (op : Operator)
    (quantifier : Option Quantifier) (inner : Sql.Select) :
    (selectPredicate left op quantifier inner).settled d =
      selectPredicate left op quantifier (inner.settled d) := by
  unfold selectPredicate
  split <;> rw [Sql.Predicate.settled]

theorem predicate_dropping {condition : Condition}
    (hnested : ∀ nested, condition.value = .query nested → ∀ opts correlation,
      c.dropping.selectTree opts correlation nested =
        (fun r => (r.1, r.2.settled c.dialect)) <$> c.keeping.selectTree opts correlation nested)
    (opts : Options) :
    c.dropping.predicate opts condition =
      Option.map (·.settled c.dialect) <$> c.keeping.predicate opts condition := by
  obtain ⟨field, op, value, negate, connector, quantifier, join⟩ := condition
  rw [predicate, predicate, map_bind]
  refine bind_congr fun mf => ?_
  obtain ⟨m, f⟩ := mf
  dsimp only
  generalize (if negate = true then op.invert else op) = op
  by_cases he : op.isExists
  · rw [if_pos he, if_pos he]
    cases value with
    | query nested =>
      dsimp only
      rw [hnested nested rfl, bind_map_left, map_bind]
      rfl
    | value _ | field _ | literal _ => rfl
  · rw [if_neg he, if_neg he]
    cases value with
    | value v =>
      cases v with
      | list values => exact (map_settled_listCondition c.keeping _ _ _ _ _).symm
      | _ =>
        dsimp only
        rw [map_bind]
        rfl
    | field other =>
      rw [map_bind]
      change (c.keeping.columnCondition m f op other >>= fun p => pure (some p)) = _
      conv_lhs => rw [← map_settled_columnCondition c.keeping c.dialect, bind_map_left]
      rfl
    | literal inner =>
      rw [map_bind, dropping, withConfig_literalCondition, ← withConfig_literalCondition c]
      change (c.keeping.literalCondition m f op inner >>= fun p => pure (some p)) = _
      conv_lhs => rw [← map_settled_literalCondition c.keeping c.dialect, bind_map_left]
      rfl
    | query nested =>
      dsimp only
      split
      · rfl
      · split
        · rfl
        · rw [hnested nested rfl, bind_map_left, map_bind]
          simp only [map_pure, Option.map_some, settled_selectPredicate]

theorem composition_dropping :
    (∀ q opts correlation, c.dropping.selectTree opts correlation q =
      (fun r => (r.1, r.2.settled c.dialect)) <$> c.keeping.selectTree opts correlation q) ∧
    (∀ ops,
      (∀ opts, c.dropping.links opts ops =
        Sql.settledLinks c.dialect <$> c.keeping.links opts ops) ∧
      (∀ opts, c.dropping.havingLinks opts ops =
        Sql.settledLinks c.dialect <$> c.keeping.havingLinks opts ops)) ∧
    (∀ condition opts, c.dropping.predicate opts condition =
      Option.map (·.settled c.dialect) <$> c.keeping.predicate opts condition) := by
  refine Query.composition_induct ?_ ?_ ?_ ?_
  · intro model target ops hops opts correlation
    rw [selectTree, selectTree]
    simp only [hops.1, hops.2, map_bind]
    refine bind_congr fun plan => bind_congr fun scope => ?_
    simp only [dropping, keeping, withConfig_listedColumns, withConfig_distinctExpr,
      withConfig_groupExprs, withConfig_orderTerms, withConfig_dialect, withConfig_columnTexts,
      withConfig_joins, withConfig_rowLimit]
    -- From here on the two statements differ in their filters only.
    refine bind_congr fun columns => bind_congr fun distinct => bind_congr fun joins => ?_
    rw [bind_map_left]
    refine bind_congr fun filter => bind_congr fun groupBy => ?_
    split
    · split
      · simp only [map_bind, map_pure]
        rfl
      · simp only [map_bind, map_pure]
        rfl
    · rw [bind_map_left, map_bind]
      refine bind_congr fun having => ?_
      split
      · simp only [map_bind, map_pure]
        rfl
      · simp only [map_bind, map_pure]
        rfl
  · exact fun condition hnested opts => predicate_dropping c hnested opts
  · constructor
    · intro opts
      rw [links, links]
      rfl
    · intro opts
      rw [havingLinks, havingLinks]
      rfl
  · intro op rest hop hrest
    constructor
    · intro opts
      rcases op with condition | ⟨connector, negated, _ | ⟨model, target, inner⟩⟩ | _ | _ | _ | _
      · rw [links, links, hop.condition rfl, hrest.1]
        simp only [bind_map_left, map_bind, map_pure]
        refine bind_congr fun operand => bind_congr fun others => ?_
        cases operand <;> rfl
      · simp only [links, hrest.1]
      · rw [links, links, (hop.group rfl).1, hrest.1]
        simp only [bind_map_left, map_bind, map_pure]
        refine bind_congr fun body => bind_congr fun others => ?_
        rw [settle_dropping, settle_keeping]
        -- A group goes when it is empty, and dropping repeats empties none.
        cases body with
        | nil => rfl
        | cons link more =>
          obtain ⟨k, operand⟩ := link
          simp only [List.isEmpty_cons, Bool.false_eq_true, if_false, Sql.settledLinks,
            Sql.Predicate.settled, dropRepeats, reduceCtorEq]
      all_goals simp only [links, hrest.1]
    · intro opts
      rcases op with _ | _ | _ | _ | _ | ⟨model, target, inner⟩
      all_goals simp only [havingLinks, hrest.2]
      split
      · rfl
      · exact (hop.having rfl).1 opts

/-- Dropping repeats refuses the same queries, and settles the filter of the others. -/
theorem filter_dropping (opts : Options) (q : Query) :
    c.dropping.filter opts q =
      (fun links => dropRepeats c.dialect none (Sql.settledLinks c.dialect links)) <$>
        c.keeping.filter opts q := by
  rw [filter, filter, (c.composition_dropping.2.1 q.ops).1, bind_map_left, map_bind]
  rfl

end Composer

namespace Sql

/-- The conditions of a filter, those inside groups in their place. -/
def conditionsIn : List Link → List Predicate
  | [] => []
  | ⟨_, .group _ body⟩ :: rest => conditionsIn body ++ conditionsIn rest
  | ⟨_, operand⟩ :: rest => operand :: conditionsIn rest

/-- The levels inside the groups of a filter. -/
def innerLevels : List Link → List (List Link)
  | [] => []
  | ⟨_, .group _ body⟩ :: rest => body :: innerLevels body ++ innerLevels rest
  | _ :: rest => innerLevels rest

/-- The valuation gives a condition one truth value, whether or not the repeats in its sub-select
are dropped. -/
def Alike (d : Dialect) (v : String → Truth) (links : List Link) : Prop :=
  ∀ p ∈ conditionsIn links, v ((p.settled d).text d) = v (p.text d)

/-- The repeats dropped from a level are absorbed: its terms before and after contain terms of
each other. -/
def Absorbed (d : Dialect) (level : List Link) : Prop :=
  let before := linkFormulas d (settledLinks d level)
  let after := linkFormulas d (dropRepeats d none (settledLinks d level))
  after.Entails before ∧ before.Entails after

variable {d : Dialect}

theorem Absorbed.filterTruth_eq {level : List Link} (h : Absorbed d level) (v : String → Truth) :
    filterTruth d v (dropRepeats d none (settledLinks d level)) =
      filterTruth d v (settledLinks d level) := by
  cases level with
  | nil => simp [settledLinks, dropRepeats]
  | cons link rest =>
    obtain ⟨connector, operand⟩ := link
    refine Level.Entails.levelTruth_eq h.1 h.2 ?_ ?_ v
    · simp [settledLinks, dropRepeats, linkFormulas]
    · simp [settledLinks, linkFormulas]

theorem Predicate.formula_eq_atom (d : Dialect) (p : Predicate)
    (hg : ∀ negated body, p ≠ .group negated body) : p.formula d = .atom (p.text d) := by
  rw [Predicate.formula]
  exact hg

theorem Predicate.settled_ne_group (d : Dialect) (p : Predicate)
    (hg : ∀ negated body, p ≠ .group negated body) :
    ∀ negated body, p.settled d ≠ .group negated body := by
  cases p with
  | group negated body => exact absurd rfl (hg negated body)
  | comparison | combined | inSelect | compareSelect | rowExists => simp [Predicate.settled]

/-- Terms with the same operands, whatever their order and number. -/
def SameTerms (first second : List (List Formula)) : Prop :=
  List.Forall₂ (fun t u => ∀ f, f ∈ t ↔ f ∈ u) first second

theorem SameTerms.entails {first second : Level} (h : SameTerms (orTerms first) (orTerms second)) :
    first.Entails second ∧ second.Entails first := by
  constructor
  · intro term hterm
    obtain ⟨part, hpart, hsame⟩ := exists_mem_right_of_forall₂ h hterm
    exact ⟨part, hpart, fun f hf => (hsame f).mpr hf⟩
  · intro term hterm
    obtain ⟨part, hpart, hsame⟩ := exists_mem_right_of_forall₂ (List.Forall₂.flip h) hterm
    exact ⟨part, hpart, fun f hf => (hsame f).mp hf⟩

/-- Every operand that repeats the one before it is joined by AND. -/
def RepeatsByAnd (d : Dialect) (links : List Link) : Prop :=
  links.IsChain fun before link => link.operand.text d = before.operand.text d →
    link.connector = .and ∧ link.operand.formula d = before.operand.formula d

theorem sameTerms_dropRepeats {link : Link} {rest : List Link}
    (h : RepeatsByAnd d (link :: rest)) :
    SameTerms (orTerms (linkFormulas d (link :: rest)))
      (orTerms (linkFormulas d (link :: dropRepeats d (some (link.operand.text d)) rest))) := by
  induction rest generalizing link with
  | nil => exact List.forall₂_same.mpr fun _ _ _ => Iff.rfl
  | cons next rest ih =>
    rw [RepeatsByAnd, List.isChain_cons_cons] at h
    have hsame := ih h.2
    obtain ⟨connector, operand⟩ := link
    obtain ⟨joint, repeated⟩ := next
    simp only [linkFormulas] at hsame ⊢
    by_cases ht : repeated.text d = operand.text d
    -- The repeat stands in the first term already, so it adds nothing to it.
    · obtain ⟨hand, hformula⟩ := h.1 ht
      dsimp only at hand hformula
      rw [dropRepeats, if_pos (by rw [ht]), hand, hformula, orTerms]
      rw [hand, ht, hformula] at hsame
      obtain ⟨term, others, hterm⟩ := orTerms_cons (operand.formula d) (linkFormulas d rest)
      obtain ⟨part, parts, hpart⟩ := orTerms_cons (operand.formula d)
        (linkFormulas d (dropRepeats d (some (operand.text d)) rest))
      rw [hterm, hpart] at hsame
      rw [hterm, hpart, List.modifyHead_cons]
      obtain ⟨hhead, htail⟩ := List.forall₂_cons.mp hsame
      refine .cons (fun f => ?_) htail
      rw [← hhead f]
      simp
    · rw [dropRepeats, if_neg (by simpa using Ne.symm ht)]
      simp only [linkFormulas]
      cases joint with
      | or =>
        rw [orTerms, orTerms]
        exact .cons (fun _ => Iff.rfl) hsame
      | and =>
        obtain ⟨term, others, hterm⟩ := orTerms_cons (repeated.formula d) (linkFormulas d rest)
        obtain ⟨part, parts, hpart⟩ := orTerms_cons (repeated.formula d)
          (linkFormulas d (dropRepeats d (some (repeated.text d)) rest))
        rw [hterm, hpart] at hsame
        rw [orTerms, orTerms, hterm, hpart, List.modifyHead_cons, List.modifyHead_cons]
        obtain ⟨hhead, htail⟩ := List.forall₂_cons.mp hsame
        refine .cons (fun f => ?_) htail
        rw [List.mem_cons, hhead f]
        exact List.mem_cons.symm

/-- Repeats joined by AND may be dropped. -/
theorem RepeatsByAnd.absorbed {level : List Link} (h : RepeatsByAnd d (settledLinks d level)) :
    Absorbed d level := by
  rw [Absorbed]
  cases hs : settledLinks d level with
  | nil => exact ⟨nofun, nofun⟩
  | cons link rest =>
    rw [hs] at h
    rw [dropRepeats, if_neg (by simp)]
    exact (sameTerms_dropRepeats h).entails.symm

theorem operandTruths_settledLinks {v : String → Truth} {links : List Link}
    (hv : Alike d v links) (ha : ∀ level ∈ innerLevels links, Absorbed d level) :
    operandTruths v (linkFormulas d (settledLinks d links)) =
      operandTruths v (linkFormulas d links) := by
  induction links using innerLevels.induct with
  | case1 => rfl
  | case2 connector negated body rest ihbody ihrest =>
    have hbody : Alike d v body := fun p hp => hv p (by simp [conditionsIn, hp])
    have hrest : Alike d v rest := fun p hp => hv p (by simp [conditionsIn, hp])
    have hinner := ihbody hbody fun level hl => ha level (by simp [innerLevels, hl])
    have hothers := ihrest hrest fun level hl => ha level (by simp [innerLevels, hl])
    have htruth := (ha body (by simp [innerLevels])).filterTruth_eq v
    rw [filterTruth, filterTruth, levelTruth, levelTruth, hinner] at htruth
    simp only [settledLinks, linkFormulas, operandTruths, hothers, Predicate.settled,
      Predicate.formula, Formula.truth, htruth]
  | case3 link rest hgroup ih =>
    obtain ⟨connector, operand⟩ := link
    have hg : ∀ negated body, operand ≠ .group negated body :=
      fun negated body he => hgroup connector negated body (by rw [he])
    have hconditions : conditionsIn (⟨connector, operand⟩ :: rest) =
        operand :: conditionsIn rest := by
      rw [conditionsIn]
      exact hg
    have hlevels : innerLevels (⟨connector, operand⟩ :: rest) = innerLevels rest := by
      rw [innerLevels]
      exact hgroup
    rw [Alike, hconditions, List.forall_mem_cons] at hv
    have hothers := ih hv.2 (hlevels ▸ ha)
    simp only [settledLinks, linkFormulas, operandTruths, hothers, operand.formula_eq_atom d hg,
      (operand.settled d).formula_eq_atom d (operand.settled_ne_group d hg), Formula.truth, hv.1]

/-- Operands whose texts do not depend on the treatment of repeats, and that are no groups. -/
def IsFlat (d : Dialect) (links : List Link) : Prop :=
  ∀ link ∈ links, link.operand.settled d = link.operand ∧
    ∀ negated body, link.operand ≠ .group negated body

theorem settledLinks_eq_map (d : Dialect) (links : List Link) :
    settledLinks d links = links.map fun link => ⟨link.connector, link.operand.settled d⟩ := by
  induction links with
  | nil => rw [settledLinks, List.map_nil]
  | cons link rest ih =>
    obtain ⟨connector, operand⟩ := link
    rw [settledLinks, List.map_cons, ih]

theorem IsFlat.settledLinks_eq {links : List Link} (h : IsFlat d links) :
    settledLinks d links = links := by
  have hsame : ∀ link ∈ links, (⟨link.connector, link.operand.settled d⟩ : Link) = link := by
    intro link hl
    rw [(h link hl).1]
    cases link
    rfl
  rw [settledLinks_eq_map, List.map_congr_left hsame, List.map_id']

theorem IsFlat.formulas_are_atoms {links : List Link} (h : IsFlat d links)
    {kept : List Link} (hs : kept.Sublist links) :
    ∀ o ∈ linkFormulas d kept, ∃ text, o.2 = .atom text := by
  intro o ho
  rw [linkFormulas_eq_map] at ho
  obtain ⟨link, hl, rfl⟩ := List.mem_map.mp ho
  exact ⟨_, link.operand.formula_eq_atom d (h link (hs.subset hl)).2⟩

theorem IsFlat.absorbed {links : List Link} (h : IsFlat d links)
    (ht : ∀ v, filterTruth d v (dropRepeats d none links) = .yes ↔ filterTruth d v links = .yes) :
    Absorbed d links := by
  rw [Absorbed, h.settledLinks_eq]
  cases links with
  | nil => simp [dropRepeats, linkFormulas, Level.Entails, orTerms]
  | cons link rest =>
    have hall := h.formulas_are_atoms (List.Sublist.refl _)
    have hkept := h.formulas_are_atoms (dropRepeats_sublist d none _)
    refine ⟨.of_forall_yes hall hkept ?_ fun v => (ht v).mp,
      .of_forall_yes hkept hall ?_ fun v => (ht v).mpr⟩
    · rw [linkFormulas_eq_map]
      simp
    · rw [linkFormulas_eq_map]
      simp [dropRepeats]

end Sql

theorem Sql.IsFlat.mem_conditionsIn {d : Dialect} {links : List Sql.Link}
    (h : Sql.IsFlat d links) {p : Sql.Predicate} (hp : p ∈ Sql.conditionsIn links) :
    ∃ link ∈ links, link.operand = p := by
  induction links using Sql.conditionsIn.induct with
  | case1 =>
    rw [Sql.conditionsIn] at hp
    cases hp
  | case2 connector negated body rest =>
    exact absurd rfl ((h _ List.mem_cons_self).2 negated body)
  | case3 connector operand rest hg ih =>
    rw [Sql.conditionsIn] at hp
    · rcases List.mem_cons.mp hp with rfl | hrest
      · exact ⟨_, List.mem_cons_self, rfl⟩
      · obtain ⟨link, hl, he⟩ := ih (fun link hl => h link (List.mem_cons_of_mem _ hl)) hrest
        exact ⟨link, List.mem_cons_of_mem _ hl, he⟩
    · exact hg

theorem Sql.IsFlat.alike {d : Dialect} {links : List Sql.Link} (h : Sql.IsFlat d links)
    (v : String → Truth) : Sql.Alike d v links := by
  intro p hp
  obtain ⟨link, hl, rfl⟩ := h.mem_conditionsIn hp
  rw [(h link hl).1]

/-- A query has a filter with its repeats dropped whenever it has one with them kept. Both have
the same truth wherever the repeats dropped on each level are absorbed, and for a filter without
groups nowhere else. -/
theorem dropping_keeps_rows (c : Composer) (opts : Options) (q : Query) {all : List Sql.Link}
    (h : c.keeping.filter opts q = .ok all) :
    ∃ kept, c.dropping.filter opts q = .ok kept ∧
      (∀ v, Sql.Alike c.dialect v all →
        (∀ level ∈ all :: Sql.innerLevels all, Sql.Absorbed c.dialect level) →
        Sql.filterTruth c.dialect v kept = Sql.filterTruth c.dialect v all) ∧
      (Sql.IsFlat c.dialect all →
        ((∀ v, Sql.filterTruth c.dialect v kept = .yes ↔
            Sql.filterTruth c.dialect v all = .yes) ↔
          Sql.Absorbed c.dialect all)) := by
  have hkept := c.filter_dropping opts q
  rw [h] at hkept
  refine ⟨_, hkept, ?_, ?_⟩
  · intro v hv ha
    rw [List.forall_mem_cons] at ha
    rw [ha.1.filterTruth_eq v, Sql.filterTruth, Sql.filterTruth, levelTruth, levelTruth,
      Sql.operandTruths_settledLinks hv ha.2]
  · intro hflat
    dsimp only
    rw [hflat.settledLinks_eq]
    constructor
    · exact hflat.absorbed
    · intro ha v
      have htruth := ha.filterTruth_eq v
      rw [hflat.settledLinks_eq] at htruth
      rw [htruth]

/-- People of age with a name, joined by a connector to the same name again. -/
def named (connector : Connector) : Query :=
  let name : Condition := .of ⟨"Person", "name"⟩ .eq (.value (.string "Ann"))
  ⟨"Person", none, [
    .condition (.of ⟨"Person", "age"⟩ .ge (.value (.int 18))),
    .condition name,
    .condition { name with connector := connector }]⟩

/-- The filter of `named` with its repeat. -/
def namedFilter (connector : Connector) : List Sql.Link :=
  let age : Sql.Predicate :=
    .comparison (.compare ⟨"people", "age", true⟩ .ge (.value (.int 18) (some (.integer 4))) none)
  let name : Sql.Predicate :=
    .comparison (.compare ⟨"people", "name", true⟩ .eq (.value (.string "Ann") (some .text)) none)
  [⟨.and, age⟩, ⟨.and, name⟩, ⟨connector, name⟩]

theorem filter_named (connector : Connector) :
    people.keeping.filter {} (named connector) = .ok (namedFilter connector) := by
  cbv

theorem namedFilter_isFlat (connector : Connector) :
    Sql.IsFlat people.dialect (namedFilter connector) := by
  simp [Sql.IsFlat, namedFilter, Sql.Predicate.settled]

theorem dropRepeats_namedFilter (connector : Connector) :
    dropRepeats people.dialect none (namedFilter connector) = (namedFilter connector).take 2 := by
  rw [namedFilter, dropRepeats, if_neg (by decide), dropRepeats, if_neg (by decide), dropRepeats,
    if_pos rfl]
  rfl

theorem dropping_keeps_rows_named :
    people.keeping.filter {} (named .and) = .ok (namedFilter .and) ∧
      ∃ kept, people.dropping.filter {} (named .and) = .ok kept ∧
        ∀ v, Sql.filterTruth people.dialect v kept =
          Sql.filterTruth people.dialect v (namedFilter .and) := by
  have hf := filter_named .and
  have hflat := namedFilter_isFlat .and
  obtain ⟨kept, hkept, htruth, -⟩ := dropping_keeps_rows people {} (named .and) hf
  refine ⟨hf, kept, hkept, fun v => htruth v (hflat.alike v) ?_⟩
  have habsorbed : Sql.Absorbed people.dialect (namedFilter .and) := by
    refine Sql.RepeatsByAnd.absorbed ?_
    rw [hflat.settledLinks_eq]
    refine .cons_cons (fun ht => ?_) (.cons_cons (fun _ => ⟨rfl, rfl⟩) (.singleton _))
    exact absurd ht (by decide)
  simpa [namedFilter, Sql.innerLevels] using habsorbed

/-- Dropping a repeat after OR loses rows: people with the name who are under age. -/
theorem dropping_loses_rows :
    people.keeping.filter {} (named .or) = .ok (namedFilter .or) ∧
      people.dropping.filter {} (named .or) = .ok ((namedFilter .or).take 2) ∧
      ∃ v, Sql.Alike people.dialect v (namedFilter .or) ∧
        Sql.filterTruth people.dialect v (namedFilter .or) = .yes ∧
        Sql.filterTruth people.dialect v ((namedFilter .or).take 2) = .no := by
  have hflat := namedFilter_isFlat .or
  refine ⟨filter_named .or, ?_,
    fun text => if text = "\"people\".\"name\" = 'Ann'" then .yes else .no, hflat.alike _, ?_, ?_⟩
  · have hsettled := hflat.settledLinks_eq
    rw [Composer.filter_dropping, filter_named, ← dropRepeats_namedFilter]
    exact congrArg (fun links => Except.ok (dropRepeats people.dialect none links)) hsettled
  · decide
  · decide

end SqlCompose
