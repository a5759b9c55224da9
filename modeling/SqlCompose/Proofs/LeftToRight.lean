import SqlCompose.Proofs.Reading.Filter
import SqlCompose.Proofs.Reading.Grouping

/-!
# Records from left to right

Records are evaluated in their order, each joined to all before it, a group by its own records.
Their filter is a flat text instead, in which AND is read as tighter than OR. It has the truth value
of the records under every valuation if on every level each AND stands before each OR, and, where no
text of a condition occurs twice, only then.
-/

namespace SqlCompose

open Reading

/-- A truth value joined to what stands before it, if something does. -/
def Connector.joinTo (connector : Connector) : Option Truth → Option Truth → Option Truth
  | sofar, none => sofar
  | none, some t => some t
  | some sofar, some t => some (connector.join sofar t)

/-- The truth value of records from left to right, `sofar` that of the ones before. A condition
without a truth value is skipped, and so is a group of such. -/
def recordsTruth (value : Condition → Option Truth) (sofar : Option Truth) :
    List Operation → Option Truth
  | [] => sofar
  | .condition condition :: rest =>
      recordsTruth value (condition.connector.joinTo sofar (value condition)) rest
  | .group ⟨connector, negated, some ⟨_, _, inner⟩⟩ :: rest =>
      let body := recordsTruth value none inner
      let operand := if negated then body.map Truth.not else body
      recordsTruth value (connector.joinTo sofar operand) rest
  | _ :: rest => recordsTruth value sofar rest

namespace Composer

variable {c : Composer} {opts : Options}

/-- The truth value of a condition under a valuation of texts. One that is left out has none. -/
def conditionTruth (c : Composer) (opts : Options) (v : String → Truth) (condition : Condition) :
    Option Truth :=
  match c.predicate opts condition with
  | .ok (some operand) => some (v (operand.text c.dialect))
  | _ => none

/-- The truth value of the records of a query from left to right, if it has conditions. -/
def truthOfRecords (c : Composer) (opts : Options) (v : String → Truth) (q : Query) :
    Option Truth :=
  recordsTruth (c.conditionTruth opts v) none q.ops

end Composer

/-- The truth value of a level from left to right behind other operands. -/
def joinLevel (v : String → Truth) (sofar : Option Truth) (level : List (Connector × Factor)) :
    Option Truth :=
  level.foldl (fun sofar o => o.1.joinTo sofar (some (o.2.value truthFromLeft v))) sofar

theorem joinLevel_some (v : String → Truth) (sofar : Truth) (level : List (Connector × Factor)) :
    joinLevel v (some sofar) level =
      some (level.foldl (fun sofar o => o.1.join sofar (o.2.value truthFromLeft v)) sofar) := by
  induction level generalizing sofar with
  | nil => rfl
  | cons o level ih => exact ih _

/-- A level of its own is the chain of its operands. -/
theorem joinLevel_none (v : String → Truth) (k : Connector) (first : Factor)
    (others : List (Connector × Factor)) :
    joinLevel v none ((k, first) :: others) =
      some ((Chain.of first others).value truthFromLeft v) := by
  show joinLevel v (some (first.value truthFromLeft v)) others = _
  rw [joinLevel_some, Chain.value, Chain.values_of, List.map_cons, truthFromLeft, List.foldl_map]

namespace Composer

variable {c : Composer} {opts : Options}

theorem conditionTruth_of_elides {condition : Condition} (h : c.Elides condition)
    (v : String → Truth) : c.conditionTruth opts v condition = none := by
  unfold conditionTruth
  split
  · next operand hoperand =>
    cases (predicate_eq_none_iff hoperand).mpr h
  · rfl

theorem conditionTruth_of_predicate {condition : Condition} {operand : Sql.Predicate}
    (h : c.predicate opts condition = .ok (some operand)) (v : String → Truth) :
    c.conditionTruth opts v condition = some (v (operand.text c.dialect)) := by
  rw [conditionTruth, h]

/-- Records have the truth value of the operands that they stand for. -/
theorem Reads.recordsTruth_eq {ops : List Operation} {level : List (Connector × Factor)}
    (h : c.Reads opts ops level) (v : String → Truth) (sofar : Option Truth) :
    recordsTruth (c.conditionTruth opts v) sofar ops = joinLevel v sofar level := by
  induction h generalizing sofar with
  | nil =>
    rw [recordsTruth]
    rfl
  | elided helides _ ih =>
    rw [recordsTruth, conditionTruth_of_elides helides, ih, Connector.joinTo]
  | condition hstays hoperand _ ih =>
    rw [recordsTruth, conditionTruth_of_predicate hoperand, ih, joinLevel, joinLevel,
      List.foldl_cons, Factor.value]
  | @group connector unread negated q rest first others level _ _ ihi ihr =>
    obtain ⟨model, target, inner⟩ := q
    have hbody : recordsTruth (c.conditionTruth opts v) none inner = _ :=
      (ihi none).trans (joinLevel_none v unread first others)
    rw [recordsTruth, hbody, ihr, joinLevel, joinLevel, List.foldl_cons, Factor.value_group]
    cases negated <;> rfl
  | @hollow connector negated q rest level _ _ ihi ihr =>
    obtain ⟨model, target, inner⟩ := q
    have hbody : recordsTruth (c.conditionTruth opts v) none inner = none := ihi none
    rw [recordsTruth, hbody, ihr]
    cases negated <;> rfl
  | bare _ ih =>
    rw [recordsTruth]
    · exact ih sofar
    all_goals simp
  | other hcondition hgroup _ ih =>
    rw [recordsTruth]
    · exact ih sofar
    · exact hcondition
    · intro connector negated model target inner
      exact hgroup _

/-- The truth value of the records of a query is the one of their chain from left to right. -/
theorem Reads.truthOfRecords_eq {q : Query} {unread : Connector} {first : Factor}
    {others : List (Connector × Factor)} (h : c.Reads opts q.ops ((unread, first) :: others))
    (v : String → Truth) :
    c.truthOfRecords opts v q = some ((Chain.of first others).value truthFromLeft v) :=
  (h.recordsTruth_eq v none).trans (joinLevel_none v unread first others)

/-- A condition that has an operand stands for it. -/
theorem Reads.of_predicate {condition : Condition} {operand : Sql.Predicate} {text : String}
    {rest : List Operation} {level : List (Connector × Factor)}
    (h : c.predicate opts condition = .ok (some operand)) (htext : operand.text c.dialect = text)
    (hrest : c.Reads opts rest level) :
    c.Reads opts (.condition condition :: rest)
      ((condition.connector, .atom text) :: level) := by
  subst htext
  refine .condition (fun helides => ?_) h hrest
  cases (predicate_eq_none_iff h).mpr helides

/-- The filter of a query is the text of the chain of the operands that its records stand for. -/
theorem exists_reads_of_filterText (hk : c.config.dedupeConditions = false) {q : Query}
    {text : String} (h : c.filterText opts q = .ok text) :
    ∃ level, c.Reads opts q.ops level ∧ (text = "" ↔ level = []) ∧
      ∀ chain, chain? level = some chain → spell chain.pieces = text := by
  simp only [filterText, filter, bind_eq_ok, pure_eq_ok] at h
  obtain ⟨_, ⟨links, hlinks, rfl⟩, rfl⟩ := h
  have hsettle : c.settle links = links := by simp [settle, hk]
  obtain ⟨level, hreads, hprints⟩ := exists_reads_of_links hk hlinks
  rw [hsettle]
  refine ⟨level, hreads, ?_, ?_⟩
  · rw [Sql.chainText_linkTexts_eq_empty_iff]
    cases hprints <;> simp
  · intro chain hchain
    rw [linkTexts_of_printsAs hprints]
    cases level with
    | nil => cases hchain
    | cons entry others =>
      obtain rfl : Chain.of entry.2 others = chain := Option.some.inj hchain
      exact spell_of entry.1 entry.2 others

end Composer

/-- With repeats kept, the filter of a query is read back as the chain of the operands that its
records stand for, and has a truth value exactly if these have one. Under every valuation of the
texts of its conditions it has, AND read as tighter than OR, the truth value that its records have
from left to right, if on every level each AND stands before each OR. If no text of a condition
occurs twice it has it only then. -/
theorem filter_groups_from_left_iff {c : Composer} (hk : c.config.dedupeConditions = false)
    {opts : Options} {q : Query} {text : String} (h : c.filterText opts q = .ok text) :
    ∃ level, c.Reads opts q.ops level ∧ (text = "" ↔ level = []) ∧
      (level = [] → ∀ v, c.truthOfRecords opts v q = none) ∧
      ∀ chain, chain? level = some chain →
        (∃ pieces, spell pieces = text ∧ parse pieces = some chain) ∧
        (chain.AndsFirst → ∀ v, c.truthOfRecords opts v q = some (chain.value chainTruth v)) ∧
        (chain.atoms.Nodup →
          ((∀ v, c.truthOfRecords opts v q = some (chain.value chainTruth v)) ↔
            chain.AndsFirst)) := by
  obtain ⟨level, hreads, hempty, hspell⟩ := Composer.exists_reads_of_filterText hk h
  refine ⟨level, hreads, hempty, ?_, ?_⟩
  · rintro rfl v
    exact hreads.recordsTruth_eq v none
  · intro chain hchain
    have hrecords : ∀ v, c.truthOfRecords opts v q = some (chain.value truthFromLeft v) := by
      intro v
      obtain _ | ⟨⟨unread, first⟩, others⟩ := level
      · cases hchain
      · obtain rfl : Chain.of first others = chain := Option.some.inj hchain
        exact hreads.truthOfRecords_eq v
    have hagree : ∀ v, c.truthOfRecords opts v q = some (chain.value chainTruth v) ↔
        chain.value chainTruth v = chain.value truthFromLeft v := by
      intro v
      rw [hrecords, Option.some.injEq, eq_comm]
    refine ⟨⟨chain.pieces, hspell chain hchain, parse_pieces chain⟩, fun hands v => ?_,
      fun hatoms => ?_⟩
    · exact (hagree v).mpr (Chain.value_eq hands)
    · rw [forall_congr' hagree]
      exact Chain.forall_value_eq_iff hatoms

/-- A condition on the number of a person. -/
def isFirst : Condition := .of ⟨"Person", "id"⟩ .eq (.value (.int 1))

/-- A condition on the age of a person. -/
def isOld : Condition := .of ⟨"Person", "age"⟩ .gt (.value (.int 60))

/-- A condition on the name of a person, behind OR. -/
def orIsRoot : Condition :=
  { Condition.of ⟨"Person", "name"⟩ .eq (.value (.string "root")) with connector := .or }

theorem reads_isFirst {rest : List Operation} {level : List (Connector × Factor)}
    (h : people.keeping.Reads {} rest level) :
    people.keeping.Reads {} (.condition isFirst :: rest)
      ((.and, .atom "\"people\".\"id\" = 1") :: level) :=
  .of_predicate rfl (by rw [Sql.Predicate.text]; rfl) h

theorem reads_isOld {rest : List Operation} {level : List (Connector × Factor)}
    (h : people.keeping.Reads {} rest level) :
    people.keeping.Reads {} (.condition isOld :: rest)
      ((.and, .atom "\"people\".\"age\" > 60") :: level) :=
  .of_predicate rfl (by rw [Sql.Predicate.text]; rfl) h

theorem reads_orIsRoot {rest : List Operation} {level : List (Connector × Factor)}
    (h : people.keeping.Reads {} rest level) :
    people.keeping.Reads {} (.condition orIsRoot :: rest)
      ((.or, .atom "\"people\".\"name\" = 'root'") :: level) :=
  .of_predicate rfl (by rw [Sql.Predicate.text]; rfl) h

/-- The person with one number, and those that are neither old nor root. -/
def firstOrOrdinary : Query :=
  ⟨"Person", none, [
    .condition isFirst,
    .group ⟨.or, true, some ⟨"Person", none, [.condition isOld, .condition orIsRoot]⟩⟩]⟩

/-- The chain that the filter of these people is read as. -/
def firstOrOrdinaryChain : Chain :=
  .link (.atom "\"people\".\"id\" = 1") .or (.one (.group true
    (.link (.atom "\"people\".\"age\" > 60") .or
      (.one (.atom "\"people\".\"name\" = 'root'")))))

theorem filter_groups_from_left_iff_firstOrOrdinary :
    people.keeping.config.dedupeConditions = false ∧
    people.keeping.filterText {} firstOrOrdinary =
      .ok ("\"people\".\"id\" = 1 OR NOT (\"people\".\"age\" > 60 OR " ++
        "\"people\".\"name\" = 'root')") ∧
    firstOrOrdinaryChain.AndsFirst ∧ firstOrOrdinaryChain.atoms.Nodup ∧
    ∀ v, people.keeping.truthOfRecords {} v firstOrOrdinary =
      some (firstOrOrdinaryChain.value chainTruth v) := by
  have hk : people.keeping.config.dedupeConditions = false := rfl
  have htext : people.keeping.filterText {} firstOrOrdinary =
      .ok ("\"people\".\"id\" = 1 OR NOT (\"people\".\"age\" > 60 OR " ++
        "\"people\".\"name\" = 'root')") := by
    rfl
  have hexplicit : people.keeping.Reads {} firstOrOrdinary.ops _ :=
    reads_isFirst (.group (reads_isOld (reads_orIsRoot .nil)) .nil)
  have hands : firstOrOrdinaryChain.AndsFirst := by
    simp [firstOrOrdinaryChain, Chain.AndsFirst, Factor.AndsFirst, Connector.AndsFirst,
      Chain.connectors]
  have hatoms : firstOrOrdinaryChain.atoms.Nodup := by
    simp [firstOrOrdinaryChain, Chain.atoms, Factor.atoms]
  obtain ⟨level, hreads, -, -, hchain⟩ := filter_groups_from_left_iff hk htext
  obtain rfl := hreads.unique hexplicit
  obtain ⟨-, -, hiff⟩ := hchain firstOrOrdinaryChain rfl
  exact ⟨hk, htext, hands, hatoms, (hiff hatoms).mpr hands⟩

/-- People that are old or root, but with one number. -/
def oldOrRoot : Query :=
  ⟨"Person", none, [.condition isOld, .condition orIsRoot, .condition isFirst]⟩

/-- The chain that the filter of these people is read as. -/
def oldOrRootChain : Chain :=
  .link (.atom "\"people\".\"age\" > 60") .or
    (.link (.atom "\"people\".\"name\" = 'root'") .and (.one (.atom "\"people\".\"id\" = 1")))

/-- The filter does not group these people from left to right: an old one of another number passes,
though its number is asked for last. -/
theorem filter_groups_by_precedence :
    people.keeping.config.dedupeConditions = false ∧
    people.keeping.filterText {} oldOrRoot =
      .ok ("\"people\".\"age\" > 60 OR \"people\".\"name\" = 'root' AND " ++
        "\"people\".\"id\" = 1") ∧
    (∃ pieces, spell pieces = "\"people\".\"age\" > 60 OR \"people\".\"name\" = 'root' AND " ++
        "\"people\".\"id\" = 1" ∧ parse pieces = some oldOrRootChain) ∧
    ∃ v : String → Truth, oldOrRootChain.value chainTruth v = .yes ∧
      people.keeping.truthOfRecords {} v oldOrRoot = some .no := by
  refine ⟨rfl, by rfl, ⟨oldOrRootChain.pieces, by decide +kernel, parse_pieces _⟩, ?_⟩
  have hreads : people.keeping.Reads {} oldOrRoot.ops _ :=
    reads_isOld (reads_orIsRoot (reads_isFirst .nil))
  refine ⟨fun text => Truth.ofBool (text == "\"people\".\"age\" > 60"), by rfl, ?_⟩
  rw [hreads.truthOfRecords_eq]
  rfl

end SqlCompose
