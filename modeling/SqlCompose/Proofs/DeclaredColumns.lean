import SqlCompose.Define.Table
import SqlCompose.Dialect.Builtin
import SqlCompose.Proofs.Success

/-!
# Columns and keys of a table

A table is declared by one definition for each stored field, then the key where it has several
stored fields, then the references. The key of one stored field stands with its column. Whether it
does is decided by the stored key fields when a table is created, and by all key fields when a
column is added, so a column is added as it would have been created unless the key has one stored
field and a virtual one.
-/

namespace SqlCompose

/-- The stored fields of the primary key, in the order of declaration. -/
def Model.storedKeys (m : Model) : List Field := m.storedFields.filter (·.primaryKey)

theorem Model.mem_storedKeys {m : Model} {f : Field} (hf : f ∈ m.storedFields) :
    f ∈ m.storedKeys ↔ f.primaryKey := by
  rw [storedKeys, List.mem_filter, and_iff_right hf]

/-- A stored field is the whole stored key if it is a key field and there is no other one. -/
theorem Model.storedKeys_eq_singleton_iff {m : Model} {f : Field} (hf : f ∈ m.storedFields) :
    m.storedKeys = [f] ↔ f.primaryKey ∧ m.storedKeys.length = 1 := by
  rw [← m.mem_storedKeys hf]
  constructor
  · intro h
    rw [h]
    simp
  · rintro ⟨hmem, hlength⟩
    obtain ⟨key, hkey⟩ := List.length_eq_one_iff.mp hlength
    rw [hkey, List.mem_singleton] at hmem
    rw [hkey, hmem]

theorem Composer.keyFields_eq (m : Model) : keyFields m = m.storedKeys := by
  unfold keyFields Model.primaryKeys Model.storedKeys Model.storedFields
  rw [List.filter_filter, List.filter_filter]
  exact List.filter_congr fun f _ => Bool.and_comm _ _

/-- The key fields are as many as the stored ones exactly if none of them is virtual. -/
theorem Model.length_primaryKeys_eq_iff (m : Model) :
    m.primaryKeys.length = m.storedKeys.length ↔ ∀ key ∈ m.primaryKeys, key.isVirtual = false := by
  have hkeys : m.storedKeys = m.primaryKeys.filter fun f => !f.isVirtual :=
    (Composer.keyFields_eq m).symm
  rw [hkeys, eq_comm, List.length_filter_eq_length_iff]
  simp only [Bool.not_eq_eq_eq_not, Bool.not_true]

namespace Composer

variable (c : Composer)

/-- The definition of the column of a field, with the key or without it. -/
def columnOfField (f : Field) (isKey : Bool) (default : Option String) : Sql.ColumnDefinition where
  column := f.column
  type := c.dialect.typeName f
  primaryKey := isKey
  generated := if isKey && f.autoIncrement then c.dialect.autoIncrement else none
  unique := f.unique && !f.primaryKey
  notNull := if isKey then !f.autoIncrement else !f.nullable
  default := default

/-- The default is all that can be refused in the definition of a column. -/
theorem columnDefinition_eq (opts : Options) (inlineKey : Bool) (f : Field) :
    c.columnDefinition opts inlineKey f =
      (c.columnDefault opts f).map (c.columnOfField f (f.primaryKey && inlineKey)) := by
  unfold columnDefinition columnOfField
  cases c.columnDefault opts f with
  | error e => rfl
  | ok default =>
    by_cases hkey : (f.primaryKey && inlineKey) = true
    · have hprimary : f.primaryKey = true := ((Bool.and_eq_true _ _).mp hkey).1
      show (if (f.primaryKey && inlineKey) = true then _ else _) = _
      rw [if_pos hkey, hkey]
      simp [hprimary, Except.map, pure, Except.pure]
    · show (if (f.primaryKey && inlineKey) = true then _ else _) = _
      rw [if_neg hkey, Bool.eq_false_iff.mpr hkey]
      simp [Except.map, pure, Except.pure]

/-- The text of a definition tells whether the key stands with the column: PRIMARY KEY is longer
than the NOT NULL that may take its place. -/
theorem columnOfField_text_eq_iff (f : Field) (a b : Bool) (default : Option String) :
    (c.columnOfField f a default).text c.dialect = (c.columnOfField f b default).text c.dialect ↔
      a = b := by
  have hdiffer : (c.columnOfField f true default).text c.dialect ≠
      (c.columnOfField f false default).text c.dialect := by
    intro h
    have hlength := congrArg String.length h
    simp only [Sql.ColumnDefinition.text, columnOfField, String.length_append, Sql.wordsIf,
      Sql.optionalWord, Bool.false_and, Bool.true_and, if_true, Bool.false_eq_true, if_false]
      at hlength
    have hkey : " PRIMARY KEY".length = 12 := rfl
    have hnull : " NOT NULL".length = 9 := rfl
    have hnone : "".length = 0 := rfl
    have hbound : (if (!f.nullable) = true then " NOT NULL" else "").length ≤ 9 := by
      split <;> omega
    omega
  constructor
  · intro h
    cases a <;> cases b
    · rfl
    · exact absurd h.symm hdiffer
    · exact absurd h hdiffer
    · rfl
  · intro h
    rw [h]

variable {c}

/-- The constraint of a field that refers to another one: both columns, and what happens to the
row when the other one changes or goes. -/
def References (c : Composer) (f : Field) (k : Sql.ForeignKeyConstraint) : Prop :=
  ∃ key m target, f.foreignKey = some key ∧ c.schema.resolve key.target = .ok (m, target) ∧
    k = ⟨f.column, m.table, target.column, key.onDelete, key.onUpdate⟩

theorem foreignKeyConstraint_isSome {f : Field} {k : Option Sql.ForeignKeyConstraint}
    (h : c.foreignKeyConstraint f = .ok k) : k.isSome = f.isForeignKey := by
  unfold foreignKeyConstraint at h
  cases hkey : f.foreignKey with
  | none =>
    rw [hkey] at h
    obtain rfl := pure_eq_ok.mp h
    simp [Field.isForeignKey, hkey]
  | some key =>
    rw [hkey] at h
    simp only [bind_eq_ok, pure_eq_ok] at h
    obtain ⟨_, _, rfl⟩ := h
    simp [Field.isForeignKey, hkey]

theorem references_of_foreignKeyConstraint {f : Field} {k : Sql.ForeignKeyConstraint}
    (h : c.foreignKeyConstraint f = .ok (some k)) : c.References f k := by
  unfold foreignKeyConstraint at h
  cases hkey : f.foreignKey with
  | none =>
    rw [hkey] at h
    cases h
  | some key =>
    rw [hkey] at h
    simp only [bind_eq_ok, pure_eq_ok, Option.some.injEq] at h
    obtain ⟨⟨m, target⟩, hresolve, rfl⟩ := h
    exact ⟨key, m, target, hkey, hresolve, rfl⟩

/-- What a table is made of. All comes from the stored fields of its model. -/
theorem createTableTree_eq_ok {opts : Options} {model : String} {t : Sql.CreateTable}
    (h : c.createTableTree opts model = .ok t) :
    ∃ m, c.schema.model model = .ok m ∧ t.table = m.table ∧
      List.Forall₂ (fun f column => ∃ default,
          c.columnDefault { opts with statement := .ddl } f = .ok default ∧
          column = c.columnOfField f (f.primaryKey && m.storedKeys.length == 1) default)
        m.storedFields t.columns ∧
      t.primaryKey = (if m.storedKeys.length = 1 then [] else m.storedKeys.map (·.column)) ∧
      List.Forall₂ c.References (m.storedFields.filter (·.isForeignKey)) t.foreignKeys := by
  simp only [createTableTree, bind_eq_ok, pure_eq_ok, keyFields_eq] at h
  obtain ⟨m, hm, columns, hcolumns, references, hreferences, rfl⟩ := h
  refine ⟨m, hm, rfl, ?_, ?_, ?_⟩
  · refine (mapM_eq_ok.mp hcolumns).imp fun f column hcolumn => ?_
    rw [columnDefinition_eq, map_eq_ok] at hcolumn
    obtain ⟨default, hdefault, rfl⟩ := hcolumn
    exact ⟨default, hdefault, rfl⟩
  · simp only [beq_iff_eq]
  · have hsome := forall₂_filter_filterMap (p := (·.isForeignKey)) (mapM_eq_ok.mp hreferences)
      fun f _ k hk => foreignKeyConstraint_isSome hk
    exact hsome.imp fun f k => references_of_foreignKeyConstraint

end Composer

namespace Sql

/-- The key of a table as a definition of its own, where it has several fields. -/
def keyClause (d : Dialect) (keys : List Field) : List String :=
  if 2 ≤ keys.length then
    ["PRIMARY KEY (" ++ ", ".intercalate (keys.map fun f => d.identifier f.column) ++ ")"]
  else []

theorem CreateTable.definitions_eq (d : Dialect) {t : CreateTable} {keys : List Field}
    (h : t.primaryKey = if keys.length = 1 then [] else keys.map (·.column)) :
    t.definitions d =
      t.columns.map (·.text d) ++ keyClause d keys ++ t.foreignKeys.map (·.text d) := by
  have hkey : (if t.primaryKey.isEmpty then []
      else ["PRIMARY KEY (" ++ ", ".intercalate (t.primaryKey.map d.identifier) ++ ")"]) =
      keyClause d keys := by
    rw [h, keyClause]
    match keys with
    | [] => rfl
    | [_] => rfl
    | first :: second :: rest => simp [Function.comp_def]
  rw [definitions, hkey]

end Sql

/-- A membership: a key of two stored columns and a virtual field, one of them a reference. -/
def membership : Model := ⟨"Membership", "memberships", [
  ({ Field.named "userID" (.integer 8) with column := "user_id" }.asPrimaryKey.referencing
    ⟨"User", "id"⟩).onDelete .cascade,
  { Field.named "label" .text with column := "label", primaryKey := true, isVirtual := true },
  { Field.named "role" (.varchar 16) with column := "role" }.asPrimaryKey,
  { Field.named "note" .text with column := "note", unique := true, nullable := false }]⟩

/-- A session: a key of one stored column and a virtual field. -/
def session : Model := ⟨"Session", "sessions", [
  { Field.named "token" .text with column := "token", primaryKey := true, isVirtual := true },
  { Field.named "id" (.integer 8) with column := "id" }.asPrimaryKey,
  { Field.named "started" .datetime with column := "started", nullable := false }]⟩

/-- Users, their memberships and their sessions. -/
def memberships : Composer where
  schema := ⟨⟨[
    ("User", ⟨"User", "users", [
      { Field.named "id" (.integer 8) with column := "id", model := "User" }.asPrimaryKey]⟩),
    ("Membership", membership),
    ("Session", session)], by decide⟩, by decide⟩
  dialect := .sqlite
  config := {}

/-- The key stands with an added column as it stands with the created one, unless the field is the
only stored one of a key that has a virtual field too. -/
theorem Model.inlineKey_eq_iff {m : Model} {f : Field} (hf : f ∈ m.storedFields) :
    (f.primaryKey && m.primaryKeys.length == 1) = (f.primaryKey && m.storedKeys.length == 1) ↔
      ¬ (m.storedKeys = [f] ∧ ∃ key ∈ m.fields, key.primaryKey ∧ key.isVirtual) := by
  have hvirtual : (∃ key ∈ m.fields, key.primaryKey ∧ key.isVirtual) ↔
      m.primaryKeys.length ≠ m.storedKeys.length := by
    rw [ne_eq, m.length_primaryKeys_eq_iff]
    simp [primaryKeys]
  have hle : m.storedKeys.length ≤ m.primaryKeys.length := by
    rw [← Composer.keyFields_eq]
    exact List.length_filter_le _ _
  rw [hvirtual, m.storedKeys_eq_singleton_iff hf]
  by_cases hkey : f.primaryKey = true
  · have hpos : 0 < m.storedKeys.length :=
      List.length_pos_of_mem ((m.mem_storedKeys hf).mpr hkey)
    rw [hkey, Bool.true_and, Bool.true_and, Bool.eq_iff_iff, beq_iff_eq, beq_iff_eq]
    simp only [true_and]
    omega
  · simp [hkey]

/-- The column of every stored field of a table that can be created can be added too. It is added
with the definition that the table gives it, character by character, exactly if the field is not
the only stored one of a key that has a virtual field too. -/
theorem added_column_alike_iff {c : Composer} {opts : Options} {model text : String}
    (h : c.createTable opts model = .ok text) :
    ∃ m t rest, c.schema.model model = .ok m ∧ c.createTableTree opts model = .ok t ∧
      text = t.text c.dialect ∧
      t.definitions c.dialect = t.columns.map (·.text c.dialect) ++ rest ∧
      List.Forall₂
        (fun f created => m.field f.name = .ok f →
          ∃ added : Sql.ColumnDefinition,
            c.addColumn opts model f.name = .ok ("ALTER TABLE " ++ c.dialect.identifier m.table ++
              " ADD COLUMN " ++ added.text c.dialect) ∧
            (added.text c.dialect = created.text c.dialect ↔
              ¬ (m.storedKeys = [f] ∧ ∃ key ∈ m.fields, key.primaryKey ∧ key.isVirtual)))
        m.storedFields t.columns := by
  simp only [Composer.createTable, bind_eq_ok, pure_eq_ok] at h
  obtain ⟨t, ht, rfl⟩ := h
  obtain ⟨m, hm, -, hcolumns, hkey, -⟩ := Composer.createTableTree_eq_ok ht
  have hdefinitions := Sql.CreateTable.definitions_eq c.dialect hkey
  rw [List.append_assoc] at hdefinitions
  refine ⟨m, t, _, hm, ht, rfl, hdefinitions, ?_⟩
  rw [List.forall₂_iff_get] at hcolumns ⊢
  refine ⟨hcolumns.1, fun i hf hcolumn hfield => ?_⟩
  obtain ⟨default, hdefault, heq⟩ := hcolumns.2 i hf hcolumn
  have hstored : m.storedFields.get ⟨i, hf⟩ ∈ m.storedFields := List.get_mem _ _
  generalize m.storedFields.get ⟨i, hf⟩ = f at hfield hdefault heq hstored
  refine ⟨c.columnOfField f (f.primaryKey && m.primaryKeys.length == 1) default, ?_, ?_⟩
  · simp only [Composer.addColumn, Composer.addedColumn, Composer.columnDefinition_eq, bind_eq_ok,
      pure_eq_ok]
    refine ⟨_, ⟨m, hm, f, hfield, _, ?_, rfl⟩, rfl⟩
    rw [hdefault]
    rfl
  · rw [heq, c.columnOfField_text_eq_iff, Model.inlineKey_eq_iff hstored]

/-- The start of a session is added as it would be created. -/
theorem added_column_alike_iff_sessions :
    memberships.createTable {} "Session" = .ok ("CREATE TABLE \"sessions\" ( " ++
      "\"id\" INTEGER PRIMARY KEY NOT NULL, \"started\" DATETIME NOT NULL )") ∧
    session.field "started" = .ok session.fields[2] ∧
    ∃ t added, memberships.createTableTree {} "Session" = .ok t ∧
      memberships.addColumn {} "Session" "started" = .ok ("ALTER TABLE \"sessions\" ADD COLUMN " ++
        Sql.ColumnDefinition.text memberships.dialect added) ∧
      t.columns[1]?.map (·.text memberships.dialect) = some (added.text memberships.dialect) := by
  have h : memberships.createTable {} "Session" = .ok ("CREATE TABLE \"sessions\" ( " ++
      "\"id\" INTEGER PRIMARY KEY NOT NULL, \"started\" DATETIME NOT NULL )") := by
    decide +kernel
  obtain ⟨m, t, _, hm, ht, -, -, hall⟩ := added_column_alike_iff h
  obtain rfl : session = m := Except.ok.inj hm
  obtain ⟨hlength, hall⟩ := List.forall₂_iff_get.mp hall
  have hcolumn : 1 < t.columns.length := by
    rw [← hlength]
    decide
  obtain ⟨added, hadded, halike⟩ := hall 1 (by decide) hcolumn rfl
  refine ⟨h, rfl, t, added, ht, hadded, ?_⟩
  have hother : session.storedKeys ≠ [session.fields[2]] := fun hkeys =>
    absurd (congrArg (List.map Field.name) hkeys) (by decide)
  rw [List.getElem?_eq_getElem hcolumn, Option.map_some, halike.mpr fun hkey => hother hkey.1]
  rfl

/-- The key of the sessions is created with its column and added without it. -/
theorem added_column_loses_key :
    memberships.createTable {} "Session" = .ok ("CREATE TABLE \"sessions\" ( " ++
      "\"id\" INTEGER PRIMARY KEY NOT NULL, \"started\" DATETIME NOT NULL )") ∧
    session.field "id" = .ok session.fields[1] ∧
    memberships.addColumn {} "Session" "id" =
      .ok "ALTER TABLE \"sessions\" ADD COLUMN \"id\" INTEGER NOT NULL" ∧
    "\"id\" INTEGER NOT NULL" ≠ "\"id\" INTEGER PRIMARY KEY NOT NULL" := by
  refine ⟨?_, rfl, ?_, ?_⟩ <;> decide +kernel

end SqlCompose
