import SqlCompose.Proofs.Placement
import SqlCompose.Proofs.Reading.Grammar

/-!
# A filter prints its records

The records of a query are a tree: conditions, some of which are left out of the filter, and groups
of records, which vanish with their last operand. `Composer.Reads` says which operands such a tree
amounts to. The text of the filter is what the grammar derives from them, so it is read back as
the same tree, and leaving a condition out never leaves a connector or parentheses behind.
-/

namespace SqlCompose

open Reading

namespace Composer

variable {c : Composer}

/-- A comparison with a list that normalisation leaves without entries. -/
def ComparesEmptyList (c : Composer) (condition : Condition) : Prop :=
  ∃ values m f, condition.value = .value (.list values) ∧
    c.schema.resolve condition.field = .ok (m, f) ∧ c.dialect.normalize f values = []

/-- The conditions without an operand: join edges, and by configuration empty lists. -/
def Elides (c : Composer) (condition : Condition) : Prop :=
  condition.isJoinEdge ∨ c.config.emptyList = .elide ∧ c.ComparesEmptyList condition

theorem listComparisons_eq_nil_iff {m : Model} {f : Field} {op : Operator} {values : List Value}
    {parts : List Sql.Comparison} (h : c.listComparisons m f op values = .ok parts) :
    parts = [] ↔ values = [] := by
  rw [listComparisons] at h
  obtain ⟨special, hspecial, h⟩ := bind_eq_ok.mp h
  have hlength := (mapM_eq_ok.mp hspecial).length_eq
  constructor
  · rintro rfl
    simp only at h
    split at h
    · next hordinary =>
      obtain rfl : special = [] := pure_eq_ok.mp h
      have hnone : values.filter (·.isSpecial) = [] := List.eq_nil_of_length_eq_zero hlength
      have hrest : values.filter (fun v => !v.isSpecial) = [] := List.isEmpty_iff.mp hordinary
      rw [List.filter_eq_nil_iff] at hnone hrest
      refine List.eq_nil_iff_forall_not_mem.mpr fun v hv => hrest v hv ?_
      simpa using hnone v hv
    · have hparts := pure_eq_ok.mp h
      simp at hparts
  · rintro rfl
    cases hspecial
    cases h
    rfl

theorem listCondition_eq_none_iff {m : Model} {f : Field} {op : Operator} {values : List Value}
    {operand : Option Sql.Predicate} (h : c.listCondition m f op values = .ok operand) :
    operand = none ↔ c.config.emptyList = .elide ∧ c.dialect.normalize f values = [] := by
  rw [listCondition] at h
  split at h
  · obtain ⟨parts, hparts, h⟩ := bind_eq_ok.mp h
    rw [← listComparisons_eq_nil_iff hparts]
    split at h
    · split at h
      · cases h
      · next helide =>
        cases h
        simp [helide]
    · cases h
      simp
    · next hnil _ =>
      have hne : parts ≠ [] := hnil
      cases h
      simp [hne]
  · cases h

theorem comparesEmptyList_iff {condition : Condition} {values : List Value} {m : Model} {f : Field}
    (hvalue : condition.value = .value (.list values))
    (hfield : c.schema.resolve condition.field = .ok (m, f)) :
    c.ComparesEmptyList condition ↔ c.dialect.normalize f values = [] := by
  constructor
  · rintro ⟨others, m', f', hothers, hfield', hempty⟩
    obtain rfl : values = others := by
      rw [hvalue] at hothers
      cases hothers
      rfl
    cases hfield.symm.trans hfield'
    exact hempty
  · intro hempty
    exact ⟨values, m, f, hvalue, hfield, hempty⟩

theorem not_comparesEmptyList {condition : Condition}
    (h : ∀ values, condition.value ≠ .value (.list values)) : ¬ c.ComparesEmptyList condition := by
  rintro ⟨values, m, f, hvalue, -⟩
  exact h values hvalue

/-- A condition has no operand exactly if it is left out. -/
theorem predicate_eq_none_iff {opts : Options} {condition : Condition}
    {operand : Option Sql.Predicate} (h : c.predicate opts condition = .ok operand) :
    operand = none ↔ c.Elides condition := by
  obtain ⟨field, op, value, negate, connector, quantifier, join⟩ := condition
  have hexists : (if negate = true then op.invert else op).isExists = op.isExists := by
    split <;> simp
  rw [predicate] at h
  obtain ⟨⟨m, f⟩, hfield, h⟩ := bind_eq_ok.mp h
  generalize (if negate = true then op.invert else op) = effective at h hexists
  simp only [hexists] at h
  unfold Elides
  by_cases he : op.isExists
  · rw [if_pos he] at h
    cases value with
    | query nested =>
      obtain ⟨⟨columns, inner⟩, _, h⟩ := bind_eq_ok.mp h
      cases h
      simp [Condition.isJoinEdge, he, not_comparesEmptyList]
    | value | field | literal => cases h
  · rw [if_neg he] at h
    cases value with
    | value v =>
      cases v with
      | list values =>
        rw [listCondition_eq_none_iff h, comparesEmptyList_iff rfl hfield]
        simp [Condition.isJoinEdge]
      | null | bool | int | double | string | bytes =>
        obtain ⟨part, _, h⟩ := bind_eq_ok.mp h
        cases h
        simp [Condition.isJoinEdge, not_comparesEmptyList]
    | field other =>
      obtain ⟨part, _, h⟩ := bind_eq_ok.mp h
      cases h
      simp [Condition.isJoinEdge, not_comparesEmptyList]
    | literal literal =>
      obtain ⟨part, _, h⟩ := bind_eq_ok.mp h
      cases h
      simp [Condition.isJoinEdge, not_comparesEmptyList]
    | query nested =>
      by_cases hc : nested.hasCondition
      · simp only [hc, Bool.not_true, Bool.false_eq_true, if_false] at h
        split at h
        · cases h
        · obtain ⟨⟨columns, inner⟩, _, h⟩ := bind_eq_ok.mp h
          cases h
          simp [Condition.isJoinEdge, hc, not_comparesEmptyList]
      · simp only [hc, Bool.not_false, if_true] at h
        cases h
        simp [Condition.isJoinEdge, he, hc]

/-- The operands that records stand for, each with the connector of its record. -/
inductive Reads (c : Composer) (opts : Options) :
    List Operation → List (Connector × Factor) → Prop
  | nil : Reads c opts [] []
  | elided {condition : Condition} {rest : List Operation} {level : List (Connector × Factor)}
      (helides : c.Elides condition) (hrest : Reads c opts rest level) :
      Reads c opts (.condition condition :: rest) level
  | condition {condition : Condition} {operand : Sql.Predicate} {rest : List Operation}
      {level : List (Connector × Factor)} (hstays : ¬ c.Elides condition)
      (hoperand : c.predicate opts condition = .ok (some operand))
      (hrest : Reads c opts rest level) :
      Reads c opts (.condition condition :: rest)
        ((condition.connector, .atom (operand.text c.dialect)) :: level)
  | group {connector unread : Connector} {negated : Bool} {q : Query} {rest : List Operation}
      {first : Factor} {others level : List (Connector × Factor)}
      (hinner : Reads c opts q.ops ((unread, first) :: others)) (hrest : Reads c opts rest level) :
      Reads c opts (.group ⟨connector, negated, some q⟩ :: rest)
        ((connector, .group negated (.of first others)) :: level)
  | hollow {connector : Connector} {negated : Bool} {q : Query} {rest : List Operation}
      {level : List (Connector × Factor)} (hinner : Reads c opts q.ops [])
      (hrest : Reads c opts rest level) :
      Reads c opts (.group ⟨connector, negated, some q⟩ :: rest) level
  | bare {connector : Connector} {negated : Bool} {rest : List Operation}
      {level : List (Connector × Factor)} (hrest : Reads c opts rest level) :
      Reads c opts (.group ⟨connector, negated, none⟩ :: rest) level
  | other {op : Operation} {rest : List Operation} {level : List (Connector × Factor)}
      (hcondition : ∀ condition, op ≠ .condition condition) (hgroup : ∀ g, op ≠ .group g)
      (hrest : Reads c opts rest level) : Reads c opts (op :: rest) level

namespace Reads

variable {opts : Options}

/-- Records stand for one list of operands only. -/
theorem unique {ops : List Operation} {level other : List (Connector × Factor)}
    (h : c.Reads opts ops level) (ho : c.Reads opts ops other) : level = other := by
  induction h generalizing other with
  | nil =>
    cases ho
    rfl
  | elided helides _ ih =>
    cases ho with
    | elided _ hrest => exact ih hrest
    | condition hstays => exact absurd helides hstays
    | other hcondition => exact absurd rfl (hcondition _)
  | condition hstays hoperand _ ih =>
    cases ho with
    | elided helides => exact absurd helides hstays
    | condition _ hoperand' hrest =>
      cases hoperand.symm.trans hoperand'
      rw [ih hrest]
    | other hcondition => exact absurd rfl (hcondition _)
  | group _ _ ihi ihr =>
    cases ho with
    | group hinner hrest =>
      cases ihi hinner
      rw [ihr hrest]
    | hollow hinner => cases ihi hinner
    | other _ hgroup => exact absurd rfl (hgroup _)
  | hollow _ _ ihi ihr =>
    cases ho with
    | group hinner => cases ihi hinner
    | hollow _ hrest => exact ihr hrest
    | other _ hgroup => exact absurd rfl (hgroup _)
  | bare _ ih =>
    cases ho with
    | bare hrest => exact ih hrest
    | other _ hgroup => exact absurd rfl (hgroup _)
  | other hcondition hgroup _ ih =>
    cases ho with
    | elided | condition => exact absurd rfl (hcondition _)
    | group | hollow | bare => exact absurd rfl (hgroup _)
    | other _ _ hrest => exact ih hrest

end Reads

end Composer

section Text

/-- The last operand read so far only gets longer. -/
theorem foldl_linked (head text : String) (rest : List (Connector × String)) :
    rest.foldl (fun text link => text ++ " " ++ link.1.sql ++ " " ++ link.2) (head ++ text) =
      head ++ rest.foldl (fun text link => text ++ " " ++ link.1.sql ++ " " ++ link.2) text := by
  induction rest generalizing text with
  | nil => rfl
  | cons link rest ih =>
    rw [List.foldl_cons, List.foldl_cons, ← ih]
    simp only [String.append_assoc]

theorem Sql.chainText_link (unread : Connector) (first : String) (link : Connector × String)
    (rest : List (Connector × String)) :
    chainText ((unread, first) :: link :: rest) =
      first ++ (" " ++ link.1.sql ++ " ") ++ chainText (link :: rest) := by
  have h := foldl_linked (first ++ (" " ++ link.1.sql ++ " ")) link.2 rest
  simp only [← String.append_assoc] at h
  rw [chainText, List.foldl_cons, chainText, ← String.append_assoc, ← String.append_assoc]
  exact h

/-- The grammar derives the text that a filter prints. -/
theorem spell_of (unread : Connector) (first : Factor) (others : List (Connector × Factor)) :
    spell (Chain.of first others).pieces =
      Sql.chainText ((unread, spell first.pieces) ::
        others.map fun entry => (entry.1, spell entry.2.pieces)) := by
  induction others generalizing unread first with
  | nil =>
    rw [Chain.of, Chain.pieces, Chain.tokens]
    rfl
  | cons entry others ih =>
    obtain ⟨connector, next⟩ := entry
    rw [Chain.of, spell_link, ih connector next, List.map_cons, Sql.chainText_link]

/-- An operand of the grammar with the connector and the text of a filter's operand. -/
def PrintsAs (d : Dialect) (entry : Connector × Factor) (link : Sql.Link) : Prop :=
  entry.1 = link.connector ∧ spell entry.2.pieces = link.operand.text d

theorem linkTexts_of_printsAs {d : Dialect} {level : List (Connector × Factor)}
    {links : List Sql.Link} (h : List.Forall₂ (PrintsAs d) level links) :
    Sql.linkTexts d links = level.map fun entry => (entry.1, spell entry.2.pieces) := by
  induction h with
  | nil => rw [Sql.linkTexts, List.map_nil]
  | @cons entry link level links hprints _ ih =>
    obtain ⟨connector, operand⟩ := link
    rw [Sql.linkTexts, List.map_cons, ih, hprints.1, hprints.2]

end Text

namespace Composer

variable {c : Composer}

/-- The operands that records stand for are those of their filter, one by one. -/
theorem exists_reads_of_links (hk : c.config.dedupeConditions = false) {opts : Options}
    {ops : List Operation} {links : List Sql.Link} (h : c.links opts ops = .ok links) :
    ∃ level, c.Reads opts ops level ∧ List.Forall₂ (PrintsAs c.dialect) level links := by
  have hsettle : ∀ body, c.settle body = body := fun body => by simp [settle, hk]
  induction ops using conditionsOf.induct generalizing links with
  | case1 =>
    rw [Composer.links, pure_eq_ok] at h
    rw [← h]
    exact ⟨[], .nil, .nil⟩
  | case2 condition rest ih =>
    simp only [Composer.links, bind_eq_ok, pure_eq_ok] at h
    obtain ⟨operand, hoperand, others, hothers, rfl⟩ := h
    obtain ⟨level, hreads, hprints⟩ := ih hothers
    have hnone := predicate_eq_none_iff hoperand
    cases operand with
    | none => exact ⟨level, .elided (hnone.mp rfl) hreads, hprints⟩
    | some operand =>
      have hstays : ¬ c.Elides condition := by
        intro helides
        cases hnone.mpr helides
      exact ⟨_, .condition hstays hoperand hreads, .cons ⟨rfl, spell_atom _⟩ hprints⟩
  | case3 connector negated model target inner rest ihi ihr =>
    simp only [Composer.links, bind_eq_ok, pure_eq_ok, hsettle] at h
    obtain ⟨body, hbody, others, hothers, rfl⟩ := h
    obtain ⟨inside, hinside, hbodyPrints⟩ := ihi hbody
    obtain ⟨level, hreads, hprints⟩ := ihr hothers
    -- A group without operands is left out with its parentheses and its connector.
    cases hbodyPrints with
    | nil => exact ⟨level, .hollow hinside hreads, hprints⟩
    | @cons entry link inside body hentry hrest =>
      obtain ⟨unread, first⟩ := entry
      have hbodyText : spell (Chain.of first inside).pieces =
          Sql.chainText (Sql.linkTexts c.dialect (link :: body)) := by
        rw [spell_of unread, linkTexts_of_printsAs (.cons hentry hrest), List.map_cons]
      have hgroup : spell (Factor.group negated (.of first inside)).pieces =
          (Sql.Predicate.group negated (link :: body)).text c.dialect := by
        rw [spell_group, hbodyText, Sql.Predicate.text]
      exact ⟨_, .group hinside hreads, .cons ⟨rfl, hgroup⟩ hprints⟩
  | case4 head rest hc hg ih =>
    rw [Composer.links] at h
    · obtain ⟨level, hreads, hprints⟩ := ih h
      refine ⟨level, ?_, hprints⟩
      by_cases hgroup : ∃ g, head = .group g
      · obtain ⟨⟨connector, negated, _ | ⟨model, target, inner⟩⟩, rfl⟩ := hgroup
        · exact .bare hreads
        · exact absurd rfl (hg connector negated model target inner)
      · exact .other hc (fun g hg => hgroup ⟨g, hg⟩) hreads
    all_goals assumption

end Composer

/-- With repeats kept, the text of a filter is what the grammar derives from its records: the
records stand for one list of operands, the text is empty exactly if there are none, and else it
is read, the texts of conditions as atoms, as the chain of these operands and as no other. No
connector leads, trails or is doubled in it, and no parentheses are empty. -/
theorem filter_prints_records {c : Composer} (hk : c.config.dedupeConditions = false)
    {opts : Options} {q : Query} {text : String} (h : c.filterText opts q = .ok text) :
    ∃ level, c.Reads opts q.ops level ∧ (∀ other, c.Reads opts q.ops other → other = level) ∧
      (text = "" ↔ level = []) ∧
      ∀ chain, chain? level = some chain → ∃ pieces tokens, spell pieces = text ∧
        parse pieces = some chain ∧ (∀ other : Chain, other.pieces = pieces → other = chain) ∧
        lex pieces = some tokens ∧ Alternates tokens := by
  simp only [Composer.filterText, Composer.filter, bind_eq_ok, pure_eq_ok] at h
  obtain ⟨_, ⟨links, hlinks, rfl⟩, rfl⟩ := h
  have hsettle : c.settle links = links := by simp [Composer.settle, hk]
  obtain ⟨level, hreads, hprints⟩ := Composer.exists_reads_of_links hk hlinks
  refine ⟨level, hreads, fun other ho => ho.unique hreads, ?_, ?_⟩
  · rw [hsettle, Sql.chainText_linkTexts_eq_empty_iff]
    cases hprints <;> simp
  · intro chain hchain
    rw [hsettle, linkTexts_of_printsAs hprints]
    obtain _ | ⟨⟨unread, first⟩, others⟩ := level
    · cases hchain
    · obtain rfl : Chain.of first others = chain := Option.some.inj hchain
      have hparse : parse (Chain.of first others).pieces = some (.of first others) :=
        parse_eq_some_iff.mpr rfl
      have honly : ∀ other : Chain, other.pieces = (Chain.of first others).pieces →
          other = .of first others := by
        intro other hpieces
        have hother := parse_eq_some_iff.mpr hpieces.symm
        exact Option.some.inj (hother.symm.trans hparse)
      refine ⟨(Chain.of first others).pieces, (Chain.of first others).tokens, ?_, hparse, honly,
        lex_flatMap _, Chain.alternates_tokens _⟩
      rw [spell_of unread, List.map_cons]

/-- Users and roles, where empty lists are left out and repeats are kept. -/
def lenientMembers : Composer :=
  { members with config := { emptyList := .elide, dedupeConditions := false } }

/-- Records of which a join edge, an empty list, a group around another one and a group without
records are left out. -/
def mostlyElided : Query :=
  let nameless : Condition := .of ⟨"Role", "name"⟩ .eq (.value (.list []))
  ⟨"User", none, [
    .condition (.joining ⟨"User", "id"⟩ {} ⟨"Role", some ⟨"Role", "userID"⟩, []⟩),
    .group ⟨.or, true, some ⟨"User", none, [
      .condition nameless,
      .condition { Condition.of ⟨"Role", "name"⟩ .eq (.value (.string "admin")) with
        connector := .or },
      .condition { Condition.of ⟨"User", "id"⟩ .gt (.value (.int 3)) with connector := .or }]⟩⟩,
    .group ⟨.or, true, some ⟨"User", none, [
      .group ⟨.and, false, some ⟨"User", none, [.condition nameless]⟩⟩]⟩⟩,
    .group ⟨.or, false, none⟩,
    .condition (.of ⟨"User", "id"⟩ .ne (.value (.int 9)))]⟩

theorem filter_prints_records_elided :
    lenientMembers.config.dedupeConditions = false ∧
    ∃ text, lenientMembers.filterText {} mostlyElided = .ok text ∧
      text = "NOT (\"roles\".\"name\" = 'admin' OR \"users\".\"id\" > 3) AND " ++
        "\"users\".\"id\" != 9" ∧
      ∃ level chain pieces, lenientMembers.Reads {} mostlyElided.ops level ∧
        chain? level = some chain ∧ spell pieces = text ∧ parse pieces = some chain := by
  have hk : lenientMembers.config.dedupeConditions = false := rfl
  have htext : lenientMembers.filterText {} mostlyElided =
      .ok ("NOT (\"roles\".\"name\" = 'admin' OR \"users\".\"id\" > 3) AND " ++
        "\"users\".\"id\" != 9") := by
    cbv
  obtain ⟨level, hreads, -, hempty, hparse⟩ := filter_prints_records hk htext
  cases hchain : chain? level with
  | none => exact absurd (hempty.mpr (chain?_eq_none_iff.mp hchain)) (by decide)
  | some chain =>
    obtain ⟨pieces, tokens, hspell, hread, -⟩ := hparse chain hchain
    exact ⟨hk, _, htext, rfl, level, chain, pieces, hreads, hchain, hspell, hread⟩

end SqlCompose
