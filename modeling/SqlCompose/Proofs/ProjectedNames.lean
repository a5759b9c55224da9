import Mathlib.Data.Set.Basic
import SqlCompose.Proofs.Composition

/-!
# Projection records as operations on names

The names of the result columns of a query are a set, and its projection records act on it: one
replaces it by the names of its items, one adds them, one takes them out. Which item stands under a
name is another matter, since the first one stays; `Source` says where it can come from.
-/

namespace SqlCompose

namespace OrderedMap

variable {α β : Type} {m : OrderedMap α} {name : String}

theorem mem_keys_foldl_insertNew (key : β → String) (value : β → α) {xs : List β} :
    name ∈ (xs.foldl (fun m x => m.insertNew (key x) (value x)) m).keys ↔
      name ∈ m.keys ∨ ∃ x ∈ xs, key x = name := by
  induction xs generalizing m with
  | nil => simp
  | cons x rest ih => rw [List.foldl_cons, ih, mem_keys_insertNew, or_assoc, List.exists_mem_cons_iff]

theorem mem_entries_foldl_insertNew {key : β → String} {value : β → α} {xs : List β}
    {entry : String × α}
    (h : entry ∈ (xs.foldl (fun m x => m.insertNew (key x) (value x)) m).entries) :
    entry ∈ m.entries ∨ ∃ x ∈ xs, entry = (key x, value x) := by
  induction xs generalizing m with
  | nil => exact .inl h
  | cons x rest ih =>
    rcases ih h with hold | ⟨y, hy, rfl⟩
    · rcases mem_entries_insertNew hold with hold | rfl
      · exact .inl hold
      · exact .inr ⟨x, List.mem_cons_self, rfl⟩
    · exact .inr ⟨y, List.mem_cons_of_mem _ hy, rfl⟩

/-- A property of every name and value of a map. -/
def Forall (P : String → α → Prop) (m : OrderedMap α) : Prop :=
  ∀ entry ∈ m.entries, P entry.1 entry.2

theorem forall_empty {P : String → α → Prop} : Forall P .empty := List.forall_mem_nil _

theorem Forall.insertNew {P : String → α → Prop} (hm : m.Forall P) {value : α} (h : P name value) :
    (m.insertNew name value).Forall P := by
  intro entry hentry
  rcases mem_entries_insertNew hentry with hold | rfl
  · exact hm entry hold
  · exact h

theorem Forall.erase {P : String → α → Prop} (hm : m.Forall P) (key : String) :
    (m.erase key).Forall P := fun entry hentry => hm entry (List.mem_of_mem_filter hentry)

theorem mem_keys_foldl_erase (key : β → String) {xs : List β} :
    name ∈ (xs.foldl (fun m x => m.erase (key x)) m).keys ↔
      name ∈ m.keys ∧ ¬ ∃ x ∈ xs, key x = name := by
  induction xs generalizing m with
  | nil => simp
  | cons x rest ih =>
    rw [List.foldl_cons, ih, mem_keys_erase, List.exists_mem_cons_iff, not_or, and_assoc]

theorem mem_entries_of_foldl_erase {key : β → String} {xs : List β} {entry : String × α}
    (h : entry ∈ (xs.foldl (fun m x => m.erase (key x)) m).entries) : entry ∈ m.entries := by
  induction xs generalizing m with
  | nil => exact h
  | cons x rest ih => exact List.mem_of_mem_filter (ih h)

end OrderedMap

/-- The items that the records of a query project or take out. -/
def Query.projectedItems (q : Query) : List ProjectionItem := q.projections.flatMap (·.items)

namespace Composer

variable (c : Composer) (o : Options)

/-- An item of a projection record brings a name in. -/
def Brings (item : ProjectionItem) (name : String) : Prop :=
  match item with
  | .field ref => ref.text = name
  | .model model => ∃ m, c.schema.model model = .ok m ∧ ∃ f ∈ m.storedFields, f.fullName = name
  | .literal literal => c.literalKey o literal = .ok name
  | .raw sql label => label.getD sql = name

/-- An item of a projection record takes a name out. Of a model go the fields without column, too. -/
def TakesOut (item : ProjectionItem) (name : String) : Prop :=
  match item with
  | .model model => ∃ m, c.schema.model model = .ok m ∧ ∃ f ∈ m.fields, f.fullName = name
  | .field _ | .literal _ | .raw _ _ => c.Brings o item name

/-- What a projection record does to the names of the result columns. -/
def applyToNames (names : Set String) (projection : Projection) : Set String :=
  match projection.mode with
  | .replace => { name | ∃ item ∈ projection.items, c.Brings o item name }
  | .add => { name | name ∈ names ∨ ∃ item ∈ projection.items, c.Brings o item name }
  | .remove => { name | name ∈ names ∧ ¬ ∃ item ∈ projection.items, c.TakesOut o item name }

/-- The names that projection records leave. -/
def projectedNames (names : Set String) (projections : List Projection) : Set String :=
  projections.foldl (c.applyToNames o) names

/-- The names of the stored fields in scope. -/
def storedNames (scope : Scope) : Set String :=
  { name | ∃ m ∈ scope.models, ∃ f ∈ m.storedFields, f.fullName = name }

/-- The names of the fields in scope that a query is ordered by. -/
def orderedNames (q : Query) (scope : Scope) : Set String :=
  { name | ∃ entry ∈ q.order, ∃ ref, entry.expr = .field ref ∧ scope.contains ref.model ∧
    ref.text = name }

/-- The names of the result columns of a nested query. -/
def nestedNames (q : Query) : Set String :=
  match q.projections, q.target with
  | [], none => ∅
  | [], some target => { target.text }
  | projections, _ => c.projectedNames o ∅ projections

/-- The names of the result columns that a SELECT lists. -/
def listedNames (q : Query) (scope : Scope) (support : OrderSupport) : Set String :=
  if o.isSubQuery then c.nestedNames o q
  else
    c.projectedNames o (storedNames scope) q.projections ∪
      if support.isAllowed && q.groupBy.isEmpty then orderedNames q scope else ∅

/-- Where an entry of the result columns comes from. -/
inductive Source (items : List ProjectionItem) : String → Sql.Item → Prop
  /-- The column of a field. -/
  | column (key : String) (column : Sql.Column) : Source items key (columnItem o key column)
  /-- A projected literal. -/
  | literal {literal : Literal} {key : String} {item : Sql.Item}
      (hmem : .literal literal ∈ items) (hkey : c.literalKey o literal = .ok key)
      (hitem : c.item o literal = .ok item) : Source items key item
  /-- A projected text. -/
  | raw {sql : String} {label : Option String} (hmem : .raw sql label ∈ items) :
      Source items (label.getD sql) ⟨.raw sql, if o.noProjectionAliases then none else label⟩

variable {c o}

/-- Of the options an expression reads only whether it stands inside a literal. -/
theorem expr_congr {o' : Options} (hf : o.subField = o'.subField) : c.expr o = c.expr o' := by
  funext literal
  rw [expr, expr, hf]

theorem literalKey_congr {o' : Options} (hf : o.subField = o'.subField) :
    c.literalKey o = c.literalKey o' := by
  funext literal
  rw [literalKey, literalKey, expr_congr hf]

/-- Of the options a source reads those for literals and aliases only. -/
theorem Source.of_eq {o' : Options} {items : List ProjectionItem} {key : String} {item : Sql.Item}
    (h : c.Source o items key item) (hf : o.subField = o'.subField)
    (ha : o.noProjectionAliases = o'.noProjectionAliases) : c.Source o' items key item := by
  cases h with
  | column key column =>
    rw [columnItem, ha]
    exact .column key column
  | literal hmem hkey hitem =>
    refine .literal hmem (literalKey_congr hf ▸ hkey) ?_
    rw [← hitem, Composer.item, Composer.item, expr_congr hf, Options.aliased, Options.aliased, hf,
      ha]
  | raw hmem =>
    rw [ha]
    exact .raw hmem

section Names

variable {columns next : ResultColumns} {name : String}

theorem mem_keys_projectModel (m : Model) :
    name ∈ (projectModel o columns m).keys ↔
      name ∈ columns.keys ∨ ∃ f ∈ m.storedFields, f.fullName = name :=
  OrderedMap.mem_keys_foldl_insertNew Field.fullName _

theorem mem_keys_projectModels (models : List Model) :
    name ∈ (models.foldl (projectModel o) columns).keys ↔
      name ∈ columns.keys ∨ ∃ m ∈ models, ∃ f ∈ m.storedFields, f.fullName = name := by
  induction models generalizing columns with
  | nil => simp
  | cons m rest ih =>
    rw [List.foldl_cons, ih, mem_keys_projectModel, or_assoc, List.exists_mem_cons_iff]

theorem mem_keys_projectField {ref : FieldRef} (h : c.projectField o columns ref = .ok next) :
    name ∈ next.keys ↔ name ∈ columns.keys ∨ ref.text = name := by
  simp only [projectField, bind_eq_ok, pure_eq_ok] at h
  obtain ⟨column, -, rfl⟩ := h
  exact OrderedMap.mem_keys_insertNew

theorem mem_keys_projectItem {item : ProjectionItem}
    (h : c.projectItem o columns item = .ok next) :
    name ∈ next.keys ↔ name ∈ columns.keys ∨ c.Brings o item name := by
  cases item with
  | field ref => exact mem_keys_projectField h
  | model model =>
    simp only [projectItem, bind_eq_ok, pure_eq_ok] at h
    obtain ⟨m, hm, rfl⟩ := h
    simp only [mem_keys_projectModel, Brings, hm, Except.ok.injEq, exists_eq_left']
  | literal literal =>
    simp only [projectItem, bind_eq_ok, pure_eq_ok] at h
    obtain ⟨key, hkey, item, -, rfl⟩ := h
    rw [OrderedMap.mem_keys_insertNew, Brings, hkey, Except.ok.injEq]
  | raw sql label =>
    cases h
    exact OrderedMap.mem_keys_insertNew

theorem mem_keys_unprojectItem {item : ProjectionItem}
    (h : c.unprojectItem o columns item = .ok next) :
    name ∈ next.keys ↔ name ∈ columns.keys ∧ ¬ c.TakesOut o item name := by
  cases item with
  | field ref =>
    cases h
    exact OrderedMap.mem_keys_erase
  | model model =>
    simp only [unprojectItem, bind_eq_ok, pure_eq_ok] at h
    obtain ⟨m, hm, rfl⟩ := h
    simp only [TakesOut, hm, Except.ok.injEq, exists_eq_left']
    exact OrderedMap.mem_keys_foldl_erase Field.fullName
  | literal literal =>
    simp only [unprojectItem, bind_eq_ok, pure_eq_ok] at h
    obtain ⟨key, hkey, rfl⟩ := h
    rw [OrderedMap.mem_keys_erase, TakesOut, Brings, hkey, ne_eq, Except.ok.injEq]
  | raw sql label =>
    cases h
    exact OrderedMap.mem_keys_erase

theorem mem_keys_projectItems {items : List ProjectionItem}
    (h : items.foldlM (c.projectItem o) columns = .ok next) :
    name ∈ next.keys ↔ name ∈ columns.keys ∨ ∃ item ∈ items, c.Brings o item name :=
  foldlM_eq_ok_of_adds (fun _ _ _ hstep => mem_keys_projectItem hstep) h

theorem mem_keys_unprojectItems {items : List ProjectionItem}
    (h : items.foldlM (c.unprojectItem o) columns = .ok next) :
    name ∈ next.keys ↔ name ∈ columns.keys ∧ ¬ ∃ item ∈ items, c.TakesOut o item name := by
  induction items generalizing columns with
  | nil =>
    cases h
    simp
  | cons item rest ih =>
    rw [List.foldlM_cons, bind_eq_ok] at h
    obtain ⟨middle, hitem, hrest⟩ := h
    rw [ih hrest, mem_keys_unprojectItem hitem, List.exists_mem_cons_iff, not_or, and_assoc]

/-- A record acts on the names as its mode says. -/
theorem mem_keys_applyProjection {names : Set String} {projection : Projection}
    (hnames : ∀ name, name ∈ columns.keys ↔ name ∈ names)
    (h : c.applyProjection o columns projection = .ok next) :
    name ∈ next.keys ↔ name ∈ c.applyToNames o names projection := by
  rw [applyProjection] at h
  rw [applyToNames]
  cases hmode : projection.mode with
  | replace =>
    rw [hmode] at h
    rw [mem_keys_projectItems h, OrderedMap.keys_empty]
    simp
  | add =>
    rw [hmode] at h
    rw [mem_keys_projectItems h, hnames]
    rfl
  | remove =>
    rw [hmode] at h
    rw [mem_keys_unprojectItems h, hnames]
    rfl

theorem mem_keys_applyProjections {names : Set String} {projections : List Projection}
    (hnames : ∀ name, name ∈ columns.keys ↔ name ∈ names)
    (h : projections.foldlM (c.applyProjection o) columns = .ok next) :
    name ∈ next.keys ↔ name ∈ c.projectedNames o names projections := by
  induction projections generalizing columns names with
  | nil =>
    cases h
    exact hnames name
  | cons projection rest ih =>
    rw [List.foldlM_cons, bind_eq_ok] at h
    obtain ⟨middle, hmiddle, hrest⟩ := h
    exact ih (fun _ => mem_keys_applyProjection hnames hmiddle) hrest

theorem mem_keys_absorbOrder {scope : Scope} {entry : OrderEntry}
    (h : c.absorbOrder o scope columns entry = .ok next) :
    name ∈ next.keys ↔ name ∈ columns.keys ∨
      ∃ ref, entry.expr = .field ref ∧ scope.contains ref.model ∧ ref.text = name := by
  obtain ⟨ref | literal, direction⟩ := entry
  · by_cases hscope : scope.contains ref.model
    · simp only [absorbOrder, hscope, if_true] at h
      rw [mem_keys_projectField h]
      simp [hscope]
    · simp only [absorbOrder, hscope, Bool.false_eq_true, if_false] at h
      cases h
      simp [hscope]
  · cases h
    simp

theorem mem_keys_absorbOrders {scope : Scope} {entries : List OrderEntry}
    (h : entries.foldlM (c.absorbOrder o scope) columns = .ok next) :
    name ∈ next.keys ↔ name ∈ columns.keys ∨ ∃ entry ∈ entries,
      ∃ ref, entry.expr = .field ref ∧ scope.contains ref.model ∧ ref.text = name :=
  foldlM_eq_ok_of_adds (fun _ _ _ hstep => mem_keys_absorbOrder hstep) h

theorem mem_keys_resultColumns {q : Query} {scope : Scope} {absorb : Bool}
    (h : c.resultColumns o q scope absorb = .ok columns) :
    name ∈ columns.keys ↔
      name ∈ c.projectedNames o (storedNames scope) q.projections ∪
        if absorb then orderedNames q scope else ∅ := by
  simp only [resultColumns, bind_eq_ok] at h
  obtain ⟨projected, hprojected, h⟩ := h
  have hstored : ∀ name, name ∈ (scope.models.foldl (projectModel o) .empty).keys ↔
      name ∈ storedNames scope := by
    intro name
    rw [mem_keys_projectModels, OrderedMap.keys_empty]
    simp [storedNames]
  have hall : ∀ name, name ∈ projected.keys ↔
      name ∈ c.projectedNames o (storedNames scope) q.projections :=
    fun _ => mem_keys_applyProjections hstored hprojected
  cases absorb with
  | false =>
    cases h
    simpa using hall name
  | true =>
    rw [if_pos rfl] at h
    rw [mem_keys_absorbOrders h, hall]
    rfl

theorem mem_keys_nestedColumns {q : Query} (h : c.nestedColumns o q = .ok columns) :
    name ∈ columns.keys ↔ name ∈ c.nestedNames o q := by
  rw [nestedColumns] at h
  rw [nestedNames]
  have hempty : ∀ name, name ∈ (OrderedMap.empty : ResultColumns).keys ↔ name ∈ (∅ : Set String) :=
    fun name => by simp
  rcases hprojections : q.projections with _ | ⟨projection, rest⟩
  · rcases htarget : q.target with _ | target
    · rw [hprojections, htarget] at h
      cases h
    · rw [hprojections, htarget] at h
      rw [mem_keys_projectField h, hempty]
      exact ⟨fun h => (h.resolve_left id).symm, fun h => .inr h.symm⟩
  · -- Whether aliases are shown makes no difference to the names.
    rw [hprojections] at h
    have hall : name ∈ columns.keys ↔
        name ∈ c.projectedNames o.withoutAliases ∅ (projection :: rest) :=
      mem_keys_applyProjections hempty h
    exact hall

/-- The result columns of a SELECT that lists its own have the names that its records leave. -/
theorem mem_keys_listedColumns {q : Query} {scope : Scope} {support : OrderSupport}
    (hlist : o.selectList = none) (h : c.listedColumns o q scope support = .ok columns) :
    name ∈ columns.keys ↔ name ∈ c.listedNames o q scope support := by
  rw [listedColumns, hlist] at h
  rw [listedNames]
  by_cases hsub : o.isSubQuery
  · rw [if_pos hsub]
    rw [if_neg (by simp), if_pos hsub] at h
    exact mem_keys_nestedColumns h
  · rw [if_neg hsub]
    rw [if_neg (by simp), if_neg hsub] at h
    exact mem_keys_resultColumns h

end Names

/-- A property of all that may come into the result columns: the column of a field, the columns of
a model that is in scope or named by a record, a projected literal, a projected text. -/
structure HoldsOfItems (c : Composer) (o : Options) (models : List Model)
    (items : List ProjectionItem) (P : String → Sql.Item → Prop) : Prop where
  field : ∀ {ref m f}, c.schema.resolve ref = .ok (m, f) →
    P ref.text (columnItem o ref.text (m.column f))
  stored : ∀ {m f}, (m ∈ models ∨ ∃ name, c.schema.model name = .ok m) → f ∈ m.storedFields →
    P f.fullName (columnItem o f.fullName (m.column f))
  literal : ∀ {literal key item}, .literal literal ∈ items → c.literalKey o literal = .ok key →
    c.item o literal = .ok item → P key item
  raw : ∀ {sql label}, .raw sql label ∈ items →
    P (label.getD sql) ⟨.raw sql, if o.noProjectionAliases then none else label⟩

namespace HoldsOfItems

variable {models : List Model} {items : List ProjectionItem} {P : String → Sql.Item → Prop}
  (hP : c.HoldsOfItems o models items P) {columns next : ResultColumns} (hc : columns.Forall P)

include hP hc

theorem projectModel {m : Model} (hm : m ∈ models ∨ ∃ name, c.schema.model name = .ok m) :
    (projectModel o columns m).Forall P := by
  intro entry hentry
  rcases OrderedMap.mem_entries_foldl_insertNew hentry with hold | ⟨f, hf, rfl⟩
  · exact hc entry hold
  · exact hP.stored hm hf

theorem projectField {ref : FieldRef} (h : c.projectField o columns ref = .ok next) :
    next.Forall P := by
  simp only [Composer.projectField, columnOf, bind_eq_ok, pure_eq_ok] at h
  obtain ⟨column, ⟨⟨m, f⟩, hresolve, rfl⟩, rfl⟩ := h
  exact hc.insertNew (hP.field hresolve)

theorem projectItem {item : ProjectionItem} (hitem : item ∈ items)
    (h : c.projectItem o columns item = .ok next) : next.Forall P := by
  cases item with
  | field ref => exact hP.projectField hc h
  | model name =>
    simp only [Composer.projectItem, bind_eq_ok, pure_eq_ok] at h
    obtain ⟨m, hm, rfl⟩ := h
    exact hP.projectModel hc (.inr ⟨name, hm⟩)
  | literal literal =>
    simp only [Composer.projectItem, bind_eq_ok, pure_eq_ok] at h
    obtain ⟨key, hkey, it, hit, rfl⟩ := h
    exact hc.insertNew (hP.literal hitem hkey hit)
  | raw sql label =>
    cases h
    exact hc.insertNew (hP.raw hitem)

omit hP in
theorem unprojectItem {item : ProjectionItem} (h : c.unprojectItem o columns item = .ok next) :
    next.Forall P := by
  cases item with
  | field ref =>
    cases h
    exact hc.erase _
  | model name =>
    simp only [Composer.unprojectItem, bind_eq_ok, pure_eq_ok] at h
    obtain ⟨m, -, rfl⟩ := h
    exact fun entry hentry => hc entry (OrderedMap.mem_entries_of_foldl_erase hentry)
  | literal literal =>
    simp only [Composer.unprojectItem, bind_eq_ok, pure_eq_ok] at h
    obtain ⟨key, -, rfl⟩ := h
    exact hc.erase _
  | raw sql label =>
    cases h
    exact hc.erase _

theorem applyProjections {projections : List Projection}
    (hitems : ∀ projection ∈ projections, ∀ item ∈ projection.items, item ∈ items)
    (h : projections.foldlM (c.applyProjection o) columns = .ok next) : next.Forall P := by
  refine foldlM_eq_ok_of_step (fun _ projection _ hp hb hs => ?_) hc h
  have hin := hitems projection hp
  have hempty : OrderedMap.Forall P .empty := OrderedMap.forall_empty
  rw [applyProjection] at hs
  split at hs
  · exact foldlM_eq_ok_of_step (fun _ item _ hi hb hs => hP.projectItem hb (hin item hi) hs)
      hempty hs
  · exact foldlM_eq_ok_of_step (fun _ item _ hi hb hs => hP.projectItem hb (hin item hi) hs) hb hs
  · exact foldlM_eq_ok_of_step (fun _ _ _ _ hb hs => unprojectItem hb hs) hb hs

theorem absorbOrder {scope : Scope} {entry : OrderEntry}
    (h : c.absorbOrder o scope columns entry = .ok next) : next.Forall P := by
  rw [Composer.absorbOrder] at h
  split at h
  · split at h
    · exact hP.projectField hc h
    · cases h
      exact hc
  · cases h
    exact hc

end HoldsOfItems

theorem Query.mem_projectedItems {q : Query} {projection : Projection}
    (hp : projection ∈ q.projections) {item : ProjectionItem} (hi : item ∈ projection.items) :
    item ∈ q.projectedItems :=
  List.mem_flatMap.mpr ⟨projection, hp, hi⟩

/-- What holds of all that may come in holds of what a SELECT lists. A nested one has no aliases. -/
theorem forall_listedColumns {q : Query} {scope : Scope} {support : OrderSupport}
    {columns : ResultColumns} {P : String → Sql.Item → Prop}
    (hP : c.HoldsOfItems (if o.isSubQuery then o.withoutAliases else o) scope.models
      q.projectedItems P)
    (h : c.listedColumns o q scope support = .ok columns) : columns.Forall P := by
  have hitems : ∀ projection ∈ q.projections, ∀ item ∈ projection.items,
      item ∈ q.projectedItems := fun _ hp _ hi => Query.mem_projectedItems hp hi
  have hempty : OrderedMap.Forall P .empty := OrderedMap.forall_empty
  rw [listedColumns] at h
  split at h
  · cases h
    exact hempty
  · split at h
    · rename_i hsub
      rw [if_pos hsub] at hP
      rw [nestedColumns] at h
      split at h
      · cases h
      · exact hP.projectField hempty h
      · exact hP.applyProjections hempty hitems h
    · rename_i hsub
      rw [if_neg hsub] at hP
      simp only [resultColumns, bind_eq_ok] at h
      obtain ⟨projected, hprojected, h⟩ := h
      have hstored : (scope.models.foldl (Composer.projectModel o) .empty).Forall P :=
        List.foldlRecOn scope.models _ hempty fun _ hb m hm => hP.projectModel hb (.inl hm)
      have hall := hP.applyProjections hstored hitems hprojected
      split at h
      · exact foldlM_eq_ok_of_step (fun _ _ _ _ hb hs => hP.absorbOrder hb hs) hall h
      · cases h
        exact hall

/-- Every entry of the result columns has a source. -/
def AllSourced (c : Composer) (o : Options) (items : List ProjectionItem)
    (columns : ResultColumns) : Prop :=
  ∀ entry ∈ columns.entries, c.Source o items entry.1 entry.2

/-- A SELECT lists columns of fields and what its records project. A nested one has no aliases. -/
theorem allSourced_listedColumns {q : Query} {scope : Scope} {support : OrderSupport}
    {columns : ResultColumns} (h : c.listedColumns o q scope support = .ok columns) :
    c.AllSourced (if o.isSubQuery then o.withoutAliases else o) q.projectedItems columns :=
  forall_listedColumns ⟨fun _ => .column _ _, fun _ _ => .column _ _, .literal, .raw⟩ h

end Composer

end SqlCompose
