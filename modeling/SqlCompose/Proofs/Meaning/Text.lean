import SqlCompose.Proofs.ComposedComparison
import SqlCompose.Proofs.Lexical.Words
import SqlCompose.Proofs.Normalization
import SqlCompose.Proofs.Reading.Clause

/-!
# The text of a comparison says what it means

A database reads the text of a comparison with values word by word. What it reads is the comparison
of the tree: the operands are the texts of the column and of the values, and several comparisons
are one operand of AND and OR because parentheses stand around them. So a meaning given to the
words of the text is the meaning of the tree.
-/

namespace SqlCompose

open Reading

namespace Sql

/-- A term that is one value. -/
def Term.IsLiteral : Term → Prop
  | .value v _ => v.isList = false
  | .expr _ => False

/-- A comparison of a quoted column with values, and with nothing behind it. -/
def Comparison.IsLiteral : Comparison → Prop
  | .compare left op right tail =>
      left.quoted ∧ op.isExists = false ∧ right.IsLiteral ∧ tail = none
  | .is left _ right tail => left.quoted ∧ right.IsLiteral ∧ tail = none
  | .inList left _ entries => left.quoted ∧ entries ≠ [] ∧ ∀ entry ∈ entries, entry.IsLiteral

/-- What is read from the text of a comparison. -/
def Comparison.test (d : Dialect) : Comparison → Test
  | .compare left op right tail => .compare (left.text d) op (withTail (right.text d) tail)
  | .is left negated right tail => .is (left.text d) negated (withTail (right.text d) tail)
  | .inList left negated entries => .isIn (left.text d) negated (entries.map (·.text d))

theorem Comparison.truth_test {α : Type} (means : Meaning α) (d : Dialect) (c : Comparison) :
    (c.test d).truth means = c.truth means d := by
  cases c with
  | compare | is => rfl
  | inList left negated entries =>
    simp only [test, Test.truth, truth, List.map_map, Function.comp_def]

theorem Comparison.wellFormed_test (d : Dialect) {c : Comparison} (hc : c.IsLiteral) :
    (c.test d).WellFormed := by
  cases c with
  | compare left op right tail => exact hc.2.1
  | is left negated right tail => trivial
  | inList left negated entries => exact mt List.map_eq_nil_iff.mp hc.2.1

section Reading

variable {d : Dialect} {rules : Quoting} (h : d.ReadBy rules)

include h

theorem Term.operandWord {term : Term} (ht : term.IsLiteral) :
    rules.OperandWord (term.text d) := by
  cases term with
  | value v type => exact h.operandWord_value ht type
  | expr e => cases ht

theorem closes_operator {op : Operator} (hexists : op.isExists = false) :
    rules.Closes (" " ++ op.sql ++ " ") (operatorWords op) := by
  have hlist : (" " ++ op.sql ++ " ").toList = ' ' :: op.sql.toList ++ [' '] := by simp
  refine Quoting.closes_of_plain h.quotesNames ?_ ?_
  · rw [hlist]
    cases op <;> rfl
  · rw [hlist]
    cases op with
    | rowExists | noRowExists => cases hexists
    | eq | ne | gt | ge | lt | le | like | notLike => decide

/-- A column and a value with an operator, or more words, between them. -/
theorem reads_between {column : Column} {term : Term} (hcolumn : column.quoted)
    (hterm : term.IsLiteral) {between : String} {ws : List String}
    (hbetween : rules.Closes between ws) (hbreaks : Quoting.Breaks between.toList) :
    rules.Reads (column.text d ++ between ++ term.text d)
      (column.text d :: (ws ++ [term.text d])) :=
  (((h.operandWord_column hcolumn).reads h.quotesNames).append_closes hbetween hbreaks).append_reads
    ((Term.operandWord h hterm).reads h.quotesNames)

theorem reads_entries {entries : List Term} (hentries : ∀ entry ∈ entries, entry.IsLiteral) :
    rules.Reads (",".intercalate (entries.map (·.text d)))
      ([","].intercalate ((entries.map (·.text d)).map fun entry => [entry])) := by
  have hcomma : rules.Closes "," [","] :=
    Quoting.closes_of_plain h.quotesNames (by decide) (by decide)
  refine .intercalate hcomma ⟨',', [], rfl, rfl⟩ ?_
  rw [List.forall₂_map_right_iff, List.forall₂_map_right_iff, List.forall₂_map_left_iff,
    List.forall₂_same]
  exact fun entry hmem => (Term.operandWord h (hentries entry hmem)).reads h.quotesNames

namespace Comparison

variable {c : Comparison}

/-- A comparison with values is read as the test that it stands for. -/
theorem reads (hc : c.IsLiteral) : rules.Reads (c.text d) (c.test d).words := by
  have hq := h.quotesNames
  cases c with
  | compare left op right tail =>
    obtain ⟨hleft, hexists, hright, rfl⟩ := hc
    have hall := reads_between h hleft hright (closes_operator h hexists)
      ⟨' ', (op.sql ++ " ").toList, by simp, rfl⟩
    rw [text, withTail]
    simp only [String.append_assoc] at hall ⊢
    exact hall
  | is left negated right tail =>
    obtain ⟨hleft, hright, rfl⟩ := hc
    rw [text, withTail]
    cases negated with
    | true =>
      have his : rules.Closes " IS NOT " ["IS", "NOT"] :=
        Quoting.closes_of_plain hq (by decide) (by decide)
      exact reads_between h hleft hright his ⟨' ', _, rfl, rfl⟩
    | false =>
      have his : rules.Closes " IS " ["IS"] := Quoting.closes_of_plain hq (by decide) (by decide)
      exact reads_between h hleft hright his ⟨' ', _, rfl, rfl⟩
  | inList left negated entries =>
    obtain ⟨hleft, _, hentries⟩ := hc
    have hclosing : rules.Closes ")" [")"] := Quoting.closes_of_plain hq (by decide) (by decide)
    have hlist := ((reads_entries h hentries).append_closes hclosing ⟨')', [], rfl, rfl⟩).reads
    have hcolumn := (h.operandWord_column hleft).reads hq
    rw [text, String.append_assoc]
    cases negated with
    | true =>
      have hin : rules.Closes " NOT IN (" ["NOT", "IN", "("] :=
        Quoting.closes_of_plain hq (by decide) (by decide)
      exact (hcolumn.append_closes hin ⟨' ', _, rfl, rfl⟩).append_reads hlist
    | false =>
      have hin : rules.Closes " IN (" ["IN", "("] :=
        Quoting.closes_of_plain hq (by decide) (by decide)
      exact (hcolumn.append_closes hin ⟨' ', _, rfl, rfl⟩).append_reads hlist

theorem plain_test (hc : c.IsLiteral) : (c.test d).Plain := by
  have hword : ∀ {text : String}, rules.OperandWord text → text ∉ reserved := by
    intro text htext hmem
    simp only [reserved, List.mem_cons, List.not_mem_nil, or_false] at hmem
    rcases hmem with heq | heq | heq | heq
    all_goals exact htext.ne (by decide) heq
  cases c with
  | compare left op right tail =>
    obtain ⟨hleft, _, hright, rfl⟩ := hc
    refine ⟨hword (h.operandWord_column hleft), fun w hw => ?_⟩
    rw [List.mem_singleton.mp hw]
    exact hword (Term.operandWord h hright)
  | is left negated right tail =>
    obtain ⟨hleft, hright, rfl⟩ := hc
    refine ⟨hword (h.operandWord_column hleft), fun w hw => ?_⟩
    rw [List.mem_singleton.mp hw]
    exact hword (Term.operandWord h hright)
  | inList left negated entries =>
    obtain ⟨hleft, _, hentries⟩ := hc
    refine ⟨hword (h.operandWord_column hleft), fun w hw => ?_⟩
    obtain ⟨entry, hentry, rfl⟩ := List.mem_map.mp hw
    exact hword (Term.operandWord h (hentries entry hentry))

end Comparison

/-- Comparisons in parentheses with a connector between each two of them. -/
theorem reads_combined {c : Connector} {parts : List Comparison}
    (hparts : ∀ part ∈ parts, part.IsLiteral) :
    rules.Reads ((Predicate.combined c parts).text d)
      ("(" :: [c.sql].intercalate ((parts.map (·.test d)).map Test.words) ++ [")"]) := by
  have hq := h.quotesNames
  have hopening : rules.Closes "(" ["("] := Quoting.closes_of_plain hq (by decide) (by decide)
  have hclosing : rules.Closes ")" [")"] := Quoting.closes_of_plain hq (by decide) (by decide)
  have hconnector : rules.Closes (" " ++ c.sql ++ " ") [c.sql] := by
    cases c <;> exact Quoting.closes_of_plain hq (by decide) (by decide)
  have hbreaks : Quoting.Breaks (" " ++ c.sql ++ " ").toList := by
    cases c <;> exact ⟨' ', _, rfl, rfl⟩
  have hbody : rules.Reads ((" " ++ c.sql ++ " ").intercalate (parts.map (·.text d)))
      ([c.sql].intercalate ((parts.map (·.test d)).map Test.words)) := by
    refine .intercalate hconnector hbreaks ?_
    rw [List.map_map, List.forall₂_map_right_iff, List.forall₂_map_left_iff, List.forall₂_same]
    exact fun part hpart => part.reads h (hparts part hpart)
  rw [Predicate.text, String.append_assoc]
  exact hopening.append_reads (hbody.append_closes hclosing ⟨')', [], rfl, rfl⟩).reads

end Reading

end Sql

/-- What a database reads from the text of several comparisons that were made one operand. -/
structure ReadAs (d : Dialect) (rules : Quoting) (p : Sql.Predicate) (parts : List Sql.Comparison)
    (clause : Clause) : Prop where
  read : Clause.read (rules.words (p.text d)) = some clause
  /-- The text is one operand of AND and OR wherever it stands. -/
  single : IsOperand (rules.words (p.text d))
  enclosed : clause.enclosed ↔ 1 < parts.length
  tests : clause.tests.map Prod.snd = parts.map (·.test d)
  truth : ∀ (α : Type) (means : Meaning α), clause.truth means = p.truth means d

/-- Comparisons that are made one operand are read as one operand, with the meaning of the tree. -/
theorem exists_readAs_joinParts {d : Dialect} {rules : Quoting} (h : d.ReadBy rules)
    {op : Operator} {parts : List Sql.Comparison} (hne : parts ≠ [])
    (hparts : ∀ part ∈ parts, part.IsLiteral) :
    ∃ clause, ReadAs d rules (Composer.joinParts op parts) parts clause := by
  have hwell : ∀ t ∈ parts.map (·.test d), t.WellFormed := by
    intro t ht
    obtain ⟨part, hpart, rfl⟩ := List.mem_map.mp ht
    exact part.wellFormed_test d (hparts part hpart)
  have hplain : ∀ t ∈ parts.map (·.test d), t.Plain := by
    intro t ht
    obtain ⟨part, hpart, rfl⟩ := List.mem_map.mp ht
    exact part.plain_test h (hparts part hpart)
  obtain _ | ⟨first, _ | ⟨next, rest⟩⟩ := parts
  · exact absurd rfl hne
  · rw [List.forall_mem_singleton] at hparts
    have hwords : rules.words ((Composer.joinParts op [first]).text d) = (first.test d).words :=
      Quoting.words_of_reads (first.reads h hparts)
    have hfirst : (first.test d).Plain := first.plain_test h hparts
    refine ⟨⟨false, [(.and, first.test d)]⟩, ?_, ?_, by simp, rfl, fun α means => ?_⟩
    · rw [hwords, Clause.read_test (first.wellFormed_test d hparts) hfirst]
    · rw [hwords]
      exact (Test.passes_words hfirst).isOperand
    · have hfirstTruth : (Composer.joinParts op [first]).truth means d = first.truth means d := by
        rw [Composer.joinParts, Sql.Predicate.truth]
      rw [hfirstTruth, ← first.truth_test means d]
      exact (Clause.truth_joined means false .and .or _ []).trans (Truth.or_no _)
  · obtain ⟨c, hjoined⟩ : ∃ c, Composer.joinParts op (first :: next :: rest) =
        .combined c (first :: next :: rest) := ⟨_, rfl⟩
    have hwords := Quoting.words_of_reads (Sql.reads_combined h (c := c) hparts)
    rw [hjoined]
    refine ⟨⟨true, (.and, first.test d) :: ((next :: rest).map (·.test d)).map (c, ·)⟩,
      ?_, ?_, by simp, ?_, fun α means => ?_⟩
    · rw [hwords]
      exact Clause.read_parens hwell hplain
    · rw [hwords]
      exact Clause.isOperand_parens hplain
    · rw [List.map_cons, List.map_map]
      exact congrArg (first.test d :: ·) (List.map_id _)
    · have htruths : ((first :: next :: rest).map (·.test d)).map (·.truth means) =
          (first :: next :: rest).map (·.truth means d) := by
        rw [List.map_map]
        exact List.map_congr_left fun part _ => part.truth_test means d
      rw [Clause.truth_joined]
      cases c with
      | and | or =>
        rw [Sql.Predicate.truth, ← htruths]
        rfl

end SqlCompose
