import SqlCompose.Proofs.FirstOccurrences
import SqlCompose.Proofs.Migration.IndexHistory
import SqlCompose.Proofs.OrderClause

/-!
# The indexes of a new table

A table is created with an index for each list of columns that its model declares, but of several
lists whose indexes have one name only the first. The name is made of the sorted columns with a low
line between them. So lists of the same columns share a name, and so may lists of different columns
where the name of a column has an underscore itself.
-/

namespace SqlCompose

/-- Exactly one of some indexes covers just these columns, in any order. -/
def CoveredOnce (indexes : List Sql.CreateIndex) (columns : List String) : Prop :=
  indexes.countP (·.columns.isPerm columns) = 1

instance (indexes : List Sql.CreateIndex) (columns : List String) :
    Decidable (CoveredOnce indexes columns) :=
  inferInstanceAs (Decidable (_ = 1))

theorem mergeSort_eq_of_perm {a b : List String} (h : a.Perm b) :
    a.mergeSort (fun x y => x ≤ y) = b.mergeSort (fun x y => x ≤ y) := by
  have hsorted : ∀ l : List String,
      (l.mergeSort fun x y => x ≤ y).Pairwise fun x y => decide (x ≤ y) = true := by
    refine List.pairwise_mergeSort (fun x y z hxy hyz => ?_) fun x y => ?_
    · exact decide_eq_true (String.le_trans (of_decide_eq_true hxy) (of_decide_eq_true hyz))
    · simpa using String.le_total x y
  refine List.Perm.eq_of_pairwise (fun x y _ _ hxy hyx => ?_) (hsorted a) (hsorted b) ?_
  · exact String.le_antisymm (of_decide_eq_true hxy) (of_decide_eq_true hyx)
  · exact (List.mergeSort_perm a _).trans (h.trans (List.mergeSort_perm b _).symm)

/-- Words without the separator are found again between the separators. -/
theorem intercalate_injective {a b : List String} (ha : a ≠ []) (hb : b ≠ [])
    (hplain : ∀ word ∈ a ++ b, '_' ∉ word.toList)
    (h : "_".intercalate a = "_".intercalate b) : a = b := by
  have hsplit : ∀ words : List String, words ≠ [] → (∀ word ∈ words, '_' ∉ word.toList) →
      ("_".intercalate words).toList.splitOn '_' = words.map String.toList := by
    intro words hne hwords
    rw [String.toList_intercalate]
    refine List.splitOn_intercalate '_' ?_ (by simpa using hne)
    simpa using hwords
  rw [List.forall_mem_append] at hplain
  have hmap := hsplit b hb hplain.2
  rw [← h, hsplit a ha hplain.1] at hmap
  exact List.map_injective_iff.mpr (fun x y hxy => String.toList_inj.mp hxy) hmap

namespace Composer

variable {c : Composer} {opts : Options} {m : Model}

/-- Indexes over the same columns share their name. -/
theorem indexNameOver_eq_of_perm {a b : List String} (h : a.Perm b) :
    c.indexNameOver m a = c.indexNameOver m b := by
  rw [indexNameOver, indexNameOver, mergeSort_eq_of_perm h]

theorem perm_of_indexNameOver_eq {a b : List String} (ha : a ≠ []) (hb : b ≠ [])
    (hplain : ∀ column ∈ a ++ b, '_' ∉ column.toList)
    (h : c.indexNameOver m a = c.indexNameOver m b) : a.Perm b := by
  rw [indexNameOver, indexNameOver, String.append_right_inj] at h
  have hasort := List.mergeSort_perm a fun x y => x ≤ y
  have hbsort := List.mergeSort_perm b fun x y => x ≤ y
  have hne : ∀ l : List String, l ≠ [] → l.mergeSort (fun x y => x ≤ y) ≠ [] := by
    intro l hl he
    exact hl (List.Perm.nil_eq (he ▸ List.mergeSort_perm l _)).symm
  have hsorted := intercalate_injective (hne a ha) (hne b hb) (by simpa using hplain) h
  exact hasort.symm.trans (hsorted ▸ hbsort)

/-- Whether the indexes over two lists of columns share their name. -/
def sameIndexName (c : Composer) (m : Model) (a b : List String) : Bool :=
  c.indexNameOver m a == c.indexNameOver m b

theorem createIndexTree_eq_ok (hm : c.schema.model m.name = .ok m) {fields : List String}
    {index : Sql.CreateIndex} (h : c.createIndexTree opts m.name fields = .ok index) :
    indexColumns m fields = .ok index.columns ∧
      index.name = c.indexNameOver m index.columns ∧ index.table = m.table := by
  simp only [createIndexTree, bind_eq_ok] at h
  obtain ⟨m', hm', columns, hcolumns, hover⟩ := h
  obtain rfl : m = m' := Except.ok.inj (hm.symm.trans hm')
  obtain ⟨hname, rfl, htable⟩ := createIndexOver_eq_ok hover
  exact ⟨hcolumns, hname, htable⟩

/-- The indexes created are over the first of the lists with one name, where that is not a name of
an index already there. -/
theorem createIndexes_columns (hm : c.schema.model m.name = .ok m) {seen : List String}
    {lists : List (List String)} {indexes : List Sql.CreateIndex}
    (h : c.createIndexes opts m seen lists = .ok indexes) :
    ∃ declared, List.Forall₂ (fun fields columns => indexColumns m fields = .ok columns)
        lists declared ∧
      indexes.map (·.columns) = (firstOccurrences (c.sameIndexName m) declared).filter
        (fun columns => !seen.contains (c.indexNameOver m columns)) ∧
      ∀ index ∈ indexes, index.name = c.indexNameOver m index.columns ∧ index.table = m.table := by
  induction lists generalizing seen indexes with
  | nil =>
    obtain rfl := pure_eq_ok.mp h
    exact ⟨[], .nil, rfl, nofun⟩
  | cons fields rest ih =>
    rw [createIndexes, bind_eq_ok] at h
    obtain ⟨name, hname, h⟩ := h
    simp only [indexName, bind_eq_ok, pure_eq_ok] at hname
    obtain ⟨columns, hcolumns, rfl⟩ := hname
    split at h
    · rename_i hseen
      obtain ⟨declared, hdeclared, hcreated, hall⟩ := ih h
      refine ⟨columns :: declared, .cons hcolumns hdeclared, ?_, hall⟩
      rw [hcreated, firstOccurrences_cons, List.filter_cons, if_neg (by rw [hseen]; decide),
        List.filter_filter]
      refine List.filter_congr fun other _ => ?_
      -- A list with the name of this one is left out for the same reason.
      rw [eq_comm, Bool.and_eq_left_iff_imp, Bool.not_eq_true', Bool.not_eq_true']
      intro hother
      refine beq_eq_false_iff_ne.mpr fun he => ?_
      rw [he, hother] at hseen
      exact Bool.false_ne_true hseen
    · rename_i hseen
      simp only [bind_eq_ok, pure_eq_ok] at h
      obtain ⟨index, hindex, others, hothers, rfl⟩ := h
      obtain ⟨hcovered, hname, htable⟩ := createIndexTree_eq_ok hm hindex
      obtain rfl : columns = index.columns := Except.ok.inj (hcolumns.symm.trans hcovered)
      obtain ⟨declared, hdeclared, hcreated, hall⟩ := ih hothers
      refine ⟨index.columns :: declared, .cons hcolumns hdeclared, ?_,
        List.forall_mem_cons.mpr ⟨⟨hname, htable⟩, hall⟩⟩
      rw [List.map_cons, hcreated, firstOccurrences_cons, List.filter_cons,
        if_pos (by rw [Bool.eq_false_iff.mpr hseen]; rfl), List.filter_filter]
      refine congrArg (index.columns :: ·) (List.filter_congr fun other _ => ?_)
      rw [sameIndexName, List.contains_append, Bool.not_or]
      congr 2
      rw [List.contains_cons, List.contains_nil, Bool.or_false, Bool.beq_comm]

/-- The index over some of the declared columns is created if the first declared list with the name
of that index is over the same columns. -/
theorem coveredOnce_iff {declared : List (List String)} {indexes : List Sql.CreateIndex}
    (hcreated : indexes.map (·.columns) = firstOccurrences (c.sameIndexName m) declared)
    (columns : List String) :
    CoveredOnce indexes columns ↔
      ∃ first, declared.find? (c.sameIndexName m · columns) = some first ∧
        first.Perm columns := by
  have hname : ∀ other : List String, other.isPerm columns →
      c.indexNameOver m other = c.indexNameOver m columns :=
    fun other h => indexNameOver_eq_of_perm (List.isPerm_iff.mp h)
  have hsame : ∀ x y : List String, x.isPerm columns → y.isPerm columns → c.sameIndexName m x y :=
    fun x y hx hy => beq_iff_eq.mpr ((hname x hx).trans (hname y hy).symm)
  have hcount : CoveredOnce indexes columns ↔
      ∃ first ∈ firstOccurrences (c.sameIndexName m) declared, first.isPerm columns := by
    rw [← countP_eq_one_iff_of_pairwise (pairwise_firstOccurrences _) hsame, ← hcreated,
      List.countP_map]
    rfl
  rw [hcount]
  refine exists_congr fun first => ?_
  have hself : c.sameIndexName m first first := beq_self_eq_true _
  rw [mem_firstOccurrences_iff hself, List.isPerm_iff]
  refine and_congr_left fun hperm => ?_
  have hpredicate : (c.sameIndexName m · first) = (c.sameIndexName m · columns) := by
    funext other
    rw [sameIndexName, sameIndexName, indexNameOver_eq_of_perm hperm]
  rw [hpredicate]

/-- Every declared list of columns has its index if names tell the declared lists apart. -/
theorem forall_coveredOnce_iff {declared : List (List String)} {indexes : List Sql.CreateIndex}
    (hcreated : indexes.map (·.columns) = firstOccurrences (c.sameIndexName m) declared) :
    (∀ columns ∈ declared, CoveredOnce indexes columns) ↔
      ∀ a ∈ declared, ∀ b ∈ declared, c.indexNameOver m a = c.indexNameOver m b → a.Perm b := by
  constructor
  · intro hall a ha b hb hab
    obtain ⟨first, hfirst, hperma⟩ := (coveredOnce_iff hcreated a).mp (hall a ha)
    obtain ⟨second, hsecond, hpermb⟩ := (coveredOnce_iff hcreated b).mp (hall b hb)
    have hpredicate : (c.sameIndexName m · a) = (c.sameIndexName m · b) := by
      funext other
      rw [sameIndexName, sameIndexName, hab]
    obtain rfl : first = second := by
      rw [hpredicate, hsecond] at hfirst
      exact (Option.some.inj hfirst).symm
    exact hperma.symm.trans hpermb
  · intro hnames columns hcolumns
    have hsome : (declared.find? (c.sameIndexName m · columns)).isSome :=
      List.find?_isSome.mpr ⟨columns, hcolumns, beq_self_eq_true _⟩
    obtain ⟨first, hfirst⟩ := Option.isSome_iff_exists.mp hsome
    have hsame := List.find?_some hfirst
    have hname : c.indexNameOver m first = c.indexNameOver m columns := beq_iff_eq.mp hsame
    exact (coveredOnce_iff hcreated columns).mpr
      ⟨first, hfirst, hnames first (List.mem_of_find?_eq_some hfirst) columns hcolumns hname⟩

end Composer

/-- A table is created with indexes over lists of columns that its model declares. Such a list has
exactly one index if and only if the first declared list with the name of that index is over the
same columns. So every list has its index if and only if lists that share a name are over the same
columns. Lists of the same columns always share their name, and only these do if no column has an
underscore in its name. -/
theorem declared_index_created_iff {c : Composer} {opts : Options} {model : String}
    {texts : List String} (h : c.createTableStatements opts model = .ok texts) :
    ∃ m table indexes declared,
      c.schema.model model = .ok m ∧
      c.createTable opts model = .ok table ∧
      texts = table :: indexes.map (·.text c.dialect) ∧
      List.Forall₂ (fun fields columns => Composer.indexColumns m fields = .ok columns)
        (Composer.declaredIndexes m) declared ∧
      (∀ index ∈ indexes, index.columns ∈ declared ∧
        index.name = c.indexNameOver m index.columns ∧ index.table = m.table) ∧
      (∀ columns ∈ declared, CoveredOnce indexes columns ↔
        ∃ first, declared.find? (c.sameIndexName m · columns) = some first ∧
          first.Perm columns) ∧
      ((∀ columns ∈ declared, CoveredOnce indexes columns) ↔
        ∀ a ∈ declared, ∀ b ∈ declared,
          c.indexNameOver m a = c.indexNameOver m b → a.Perm b) ∧
      (∀ a b : List String, a.Perm b → c.indexNameOver m a = c.indexNameOver m b) ∧
      ∀ a b : List String, a ≠ [] → b ≠ [] → (∀ column ∈ a ++ b, '_' ∉ column.toList) →
        c.indexNameOver m a = c.indexNameOver m b → a.Perm b := by
  simp only [Composer.createTableStatements, bind_eq_ok, pure_eq_ok] at h
  obtain ⟨table, htable, m, hm, indexes, hindexes, rfl⟩ := h
  have hown : c.schema.model m.name = .ok m := Schema.name_of_model hm ▸ hm
  obtain ⟨declared, hdeclared, hfiltered, hall⟩ := Composer.createIndexes_columns hown hindexes
  have hcreated : indexes.map (·.columns) = firstOccurrences (c.sameIndexName m) declared := by
    rw [hfiltered, List.filter_eq_self]
    exact fun _ _ => rfl
  have hmem : ∀ index ∈ indexes, index.columns ∈ declared := by
    intro index hindex
    have hsublist : (indexes.map (·.columns)).Sublist declared :=
      hcreated ▸ firstOccurrences_sublist declared
    exact hsublist.mem (List.mem_map_of_mem hindex)
  exact ⟨m, table, indexes, declared, hm, htable, rfl, hdeclared,
    fun index hindex => ⟨hmem index hindex, hall index hindex⟩,
    fun columns _ => Composer.coveredOnce_iff hcreated columns,
    Composer.forall_coveredOnce_iff hcreated,
    fun _ _ => Composer.indexNameOver_eq_of_perm,
    fun _ _ => Composer.perm_of_indexNameOver_eq⟩

/-- A person with an index over two columns, declared on both, and one over a third column whose
name is made of theirs. -/
def parted : Model :=
  ⟨"Person", "people", [
    { Field.named "first" .text with
      column := "first", model := "Person", indexes := [.composite ["name"]] },
    { Field.named "name" .text with
      column := "name", model := "Person", indexes := [.composite ["first"]] },
    { Field.named "firstName" .text with
      column := "first_name", model := "Person", indexes := [.single] }]⟩

def partedPeople : Composer :=
  { blank with schema := Schema.empty.put parted }

theorem parted_columns :
    (Composer.declaredIndexes parted).mapM (Composer.indexColumns parted) =
      .ok [["first", "name"], ["name", "first"], ["first_name"]] := by
  decide +kernel

theorem parted_indexes :
    partedPeople.createIndexes {} parted [] (Composer.declaredIndexes parted) =
      .ok [⟨"idx_people_first_name", "people", ["first", "name"], false, false⟩] := by
  cbv

theorem parted_statements : partedPeople.createTableStatements {} "Person" = .ok
    ["CREATE TABLE \"people\" ( \"first\" TEXT, \"name\" TEXT, \"first_name\" TEXT )",
      "CREATE INDEX \"idx_people_first_name\" ON \"people\" (\"first\", \"name\")"] := by
  have htable : partedPeople.createTable {} "Person" =
      .ok "CREATE TABLE \"people\" ( \"first\" TEXT, \"name\" TEXT, \"first_name\" TEXT )" := by
    decide +kernel
  simp only [Composer.createTableStatements, bind_eq_ok, pure_eq_ok]
  exact ⟨_, htable, parted, rfl, _, parted_indexes, rfl⟩

theorem declared_index_created_iff_parted :
    partedPeople.createTableStatements {} "Person" = .ok
        ["CREATE TABLE \"people\" ( \"first\" TEXT, \"name\" TEXT, \"first_name\" TEXT )",
          "CREATE INDEX \"idx_people_first_name\" ON \"people\" (\"first\", \"name\")"] ∧
      ∃ indexes, CoveredOnce indexes ["first", "name"] ∧ CoveredOnce indexes ["name", "first"] ∧
        ¬ CoveredOnce indexes ["first_name"] := by
  obtain ⟨m, table, indexes, declared, hm, -, -, hdeclared, -, hfirst, hall, hperm, -⟩ :=
    declared_index_created_iff parted_statements
  obtain rfl : parted = m := Except.ok.inj hm
  obtain rfl : [["first", "name"], ["name", "first"], ["first_name"]] = declared :=
    Except.ok.inj (parted_columns.symm.trans (mapM_eq_ok.mpr hdeclared))
  have hname : partedPeople.indexNameOver parted ["first", "name"] =
      partedPeople.indexNameOver parted ["first_name"] := by
    cbv
  have hfind : ∀ columns : List String,
      partedPeople.indexNameOver parted ["first", "name"] =
        partedPeople.indexNameOver parted columns →
      [["first", "name"], ["name", "first"], ["first_name"]].find?
        (partedPeople.sameIndexName parted · columns) = some ["first", "name"] :=
    fun columns h => List.find?_cons_of_pos (beq_iff_eq.mpr h)
  have hswap : ["first", "name"].Perm ["name", "first"] := List.Perm.swap ..
  refine ⟨parted_statements, indexes,
    (hfirst ["first", "name"] (by simp)).mpr ⟨_, hfind _ rfl, List.Perm.refl _⟩,
    (hfirst ["name", "first"] (by simp)).mpr ⟨_, hfind _ (hperm _ _ hswap), hswap⟩, fun hlost => ?_⟩
  obtain ⟨first, hfound, hlone⟩ := (hfirst ["first_name"] (by simp)).mp hlost
  obtain rfl : ["first", "name"] = first :=
    Option.some.inj ((hfind _ hname).symm.trans hfound)
  exact absurd hlone.length_eq (by decide)

/-- The columns of a model have different names, and yet one of its indexes is not created, since
another one has its name. -/
theorem declared_index_lost :
    (parted.fields.map (·.column)).Nodup ∧
      ["firstName"] ∈ Composer.declaredIndexes parted ∧
      Composer.indexColumns parted ["firstName"] = .ok ["first_name"] ∧
      partedPeople.createIndexes {} parted [] (Composer.declaredIndexes parted) =
        .ok [⟨"idx_people_first_name", "people", ["first", "name"], false, false⟩] ∧
      partedPeople.createTableStatements {} "Person" = .ok
        ["CREATE TABLE \"people\" ( \"first\" TEXT, \"name\" TEXT, \"first_name\" TEXT )",
          "CREATE INDEX \"idx_people_first_name\" ON \"people\" (\"first\", \"name\")"] ∧
      ¬ CoveredOnce [⟨"idx_people_first_name", "people", ["first", "name"], false, false⟩]
        ["first_name"] ∧
      partedPeople.indexName parted ["first", "name"] =
        partedPeople.indexName parted ["firstName"] ∧
      ¬ ["first", "name"].Perm ["first_name"] := by
  have hname : partedPeople.indexName parted ["first", "name"] =
      partedPeople.indexName parted ["firstName"] := by
    cbv
  exact ⟨by decide, by decide, by decide +kernel, parted_indexes, parted_statements, by decide,
    hname, by decide⟩

end SqlCompose
