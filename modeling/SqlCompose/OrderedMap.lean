/-!
# Maps that keep insertion order

An `OrderedMap` holds one value for each text key. A key keeps the position of its first
insertion, whatever is stored under it later. `get?_alter` says what a write changes, and
`keys_alter` that a write moves no key.
-/

namespace SqlCompose

namespace Entries

universe u

variable {α : Type u}

/-- The value under a key in a list of entries. -/
def find? (key : String) : List (String × α) → Option α
  | [] => none
  | (k, v) :: rest => if k = key then some v else find? key rest

/-- Replaces the value under a key in its place, or appends a new entry. -/
def alter (key : String) (f : Option α → α) : List (String × α) → List (String × α)
  | [] => [(key, f none)]
  | (k, v) :: rest => if k = key then (k, f (some v)) :: rest else (k, v) :: alter key f rest

theorem map_fst_alter (key : String) (f : Option α → α) (entries : List (String × α)) :
    (alter key f entries).map Prod.fst =
      if key ∈ entries.map Prod.fst then entries.map Prod.fst
      else entries.map Prod.fst ++ [key] := by
  induction entries with
  | nil => simp [alter]
  | cons entry rest ih =>
      obtain ⟨k, v⟩ := entry
      by_cases hk : k = key
      · simp [alter, hk]
      · have hk' : ¬ key = k := fun h => hk h.symm
        simp only [alter, hk, ↓reduceIte, List.map_cons, List.mem_cons, hk', false_or, ih]
        split <;> simp

theorem nodup_map_fst_alter (key : String) (f : Option α → α) {entries : List (String × α)}
    (h : (entries.map Prod.fst).Nodup) : ((alter key f entries).map Prod.fst).Nodup := by
  rw [map_fst_alter]
  split
  · exact h
  · rename_i hkey
    refine List.nodup_append.2 ⟨h, by simp, ?_⟩
    intro a ha b hb
    rw [List.mem_singleton] at hb
    subst hb
    intro hab
    exact hkey (hab ▸ ha)

/-- A function that is applied to every value commutes with a write that it carries over. -/
theorem map_alter {β : Type u} {g : α → β} {key : String} {f : Option α → α} {f' : Option β → β}
    (hf : ∀ old, g (f old) = f' (old.map g)) (entries : List (String × α)) :
    (alter key f entries).map (fun entry => (entry.1, g entry.2)) =
      alter key f' (entries.map fun entry => (entry.1, g entry.2)) := by
  induction entries with
  | nil => simp [alter, hf]
  | cons entry rest ih =>
      obtain ⟨k, v⟩ := entry
      by_cases hk : k = key
      · simp [alter, hk, hf]
      · simp [alter, hk, ih]

theorem find?_alter (key other : String) (f : Option α → α) (entries : List (String × α)) :
    find? other (alter key f entries) =
      if other = key then some (f (find? key entries)) else find? other entries := by
  induction entries with
  | nil => by_cases h : key = other <;> simp [alter, find?, h, eq_comm]
  | cons entry rest ih =>
      obtain ⟨k, v⟩ := entry
      by_cases hk : k = key
      · subst hk
        by_cases ho : k = other
        · simp [alter, find?, ho]
        · have ho' : ¬ other = k := fun h => ho h.symm
          simp [alter, find?, ho, ho']
      · by_cases ho : k = other
        · subst ho
          simp [alter, find?, hk]
        · simp [alter, find?, hk, ho, ih]

theorem find?_eq_some_of_mem {key : String} {value : α} {entries : List (String × α)}
    (hn : (entries.map Prod.fst).Nodup) (h : (key, value) ∈ entries) :
    find? key entries = some value := by
  induction entries with
  | nil => cases h
  | cons entry rest ih =>
      obtain ⟨k, v⟩ := entry
      rw [List.map_cons, List.nodup_cons] at hn
      rcases List.mem_cons.mp h with heq | hmem
      · cases heq
        simp [find?]
      · have hkey : key ∈ rest.map Prod.fst := List.mem_map_of_mem hmem
        have hk : ¬ k = key := fun he => hn.1 (he ▸ hkey)
        simp [find?, hk, ih hn.2 hmem]

theorem mem_of_find?_eq_some {key : String} {value : α} {entries : List (String × α)}
    (h : find? key entries = some value) : (key, value) ∈ entries := by
  induction entries with
  | nil => cases h
  | cons entry rest ih =>
      obtain ⟨k, v⟩ := entry
      rw [find?] at h
      split at h
      · rename_i hk
        cases h
        exact hk ▸ List.mem_cons_self
      · exact List.mem_cons_of_mem _ (ih h)

theorem find?_eq_none_iff {key : String} {entries : List (String × α)} :
    find? key entries = none ↔ key ∉ entries.map Prod.fst := by
  induction entries with
  | nil => simp [find?]
  | cons entry rest ih =>
      obtain ⟨k, v⟩ := entry
      by_cases hk : k = key
      · simp [find?, hk]
      · simp [find?, hk, ih, Ne.symm hk]

end Entries

/-- Entries in order of first insertion, one for each key. -/
structure OrderedMap (α : Type) where
  entries : List (String × α)
  nodup_keys : (entries.map Prod.fst).Nodup

namespace OrderedMap

variable {α β : Type}

/-- The map without entries. -/
def empty : OrderedMap α := ⟨[], List.nodup_nil⟩

instance : EmptyCollection (OrderedMap α) := ⟨empty⟩

instance : Inhabited (OrderedMap α) := ⟨empty⟩

/-- The keys in insertion order. -/
def keys (m : OrderedMap α) : List String := m.entries.map Prod.fst

/-- The values in insertion order of their keys. -/
def values (m : OrderedMap α) : List α := m.entries.map Prod.snd

/-- The number of entries. -/
def size (m : OrderedMap α) : Nat := m.entries.length

/-- True of the map without entries. -/
def isEmpty (m : OrderedMap α) : Bool := m.entries.isEmpty

/-- The value under a key. -/
def get? (m : OrderedMap α) (key : String) : Option α := Entries.find? key m.entries

/-- Whether a key has a value. -/
def contains (m : OrderedMap α) (key : String) : Bool := (m.get? key).isSome

/-- Computes the value under a key from the one that was there. -/
def alter (m : OrderedMap α) (key : String) (f : Option α → α) : OrderedMap α :=
  ⟨Entries.alter key f m.entries, Entries.nodup_map_fst_alter key f m.nodup_keys⟩

/-- Stores a value, whether or not the key had one. -/
def insert (m : OrderedMap α) (key : String) (value : α) : OrderedMap α :=
  m.alter key fun _ => value

/-- Stores a value only under a key that had none. -/
def insertNew (m : OrderedMap α) (key : String) (value : α) : OrderedMap α :=
  m.alter key fun old => old.getD value

/-- Appends to the list under a key, which starts empty. -/
def push (m : OrderedMap (List α)) (key : String) (value : α) : OrderedMap (List α) :=
  m.alter key fun old => old.getD [] ++ [value]

/-- Drops a key; the entries after it move up. -/
def erase (m : OrderedMap α) (key : String) : OrderedMap α :=
  ⟨m.entries.filter fun entry => entry.1 != key,
    m.nodup_keys.sublist (List.filter_sublist.map Prod.fst)⟩

/-- Applies a function to every value. -/
def map (f : α → β) (m : OrderedMap α) : OrderedMap β :=
  ⟨m.entries.map fun entry => (entry.1, f entry.2), by
    have h : (m.entries.map fun entry => (entry.1, f entry.2)).map Prod.fst =
        m.entries.map Prod.fst := by simp
    rw [h]
    exact m.nodup_keys⟩

/-- Stores the pairs of a list one after the other. -/
def ofList (pairs : List (String × α)) : OrderedMap α :=
  pairs.foldl (fun m pair => m.insert pair.1 pair.2) empty

/-- Equal as finite maps: the order of insertion does not count. -/
def sameEntries (eq : α → α → Bool) (a b : OrderedMap α) : Bool :=
  a.size == b.size &&
    a.entries.all fun entry =>
      match b.get? entry.1 with
      | some other => eq entry.2 other
      | none => false

@[simp] theorem keys_empty : (empty : OrderedMap α).keys = [] := rfl

@[simp] theorem get?_empty (key : String) : (empty : OrderedMap α).get? key = none := rfl

theorem get?_alter (m : OrderedMap α) (key other : String) (f : Option α → α) :
    (m.alter key f).get? other =
      if other = key then some (f (m.get? key)) else m.get? other :=
  Entries.find?_alter key other f m.entries

theorem keys_alter (m : OrderedMap α) (key : String) (f : Option α → α) :
    (m.alter key f).keys = if key ∈ m.keys then m.keys else m.keys ++ [key] :=
  Entries.map_fst_alter key f m.entries

theorem get?_insert (m : OrderedMap α) (key other : String) (value : α) :
    (m.insert key value).get? other = if other = key then some value else m.get? other :=
  get?_alter m key other _

theorem get?_eq_some_of_mem {m : OrderedMap α} {key : String} {value : α}
    (h : (key, value) ∈ m.entries) : m.get? key = some value :=
  Entries.find?_eq_some_of_mem m.nodup_keys h

theorem mem_values_of_get? {m : OrderedMap α} {key : String} {value : α}
    (h : m.get? key = some value) : value ∈ m.values :=
  List.mem_map_of_mem (Entries.mem_of_find?_eq_some h)

theorem contains_iff {m : OrderedMap α} {key : String} : m.contains key ↔ key ∈ m.keys := by
  rw [contains, Option.isSome_iff_ne_none, get?, Ne, Entries.find?_eq_none_iff, Decidable.not_not,
    keys]

theorem mem_keys_insertNew {m : OrderedMap α} {key name : String} {value : α} :
    name ∈ (m.insertNew key value).keys ↔ name ∈ m.keys ∨ key = name := by
  rw [insertNew, keys_alter]
  by_cases hkey : key ∈ m.keys
  · rw [if_pos hkey]
    refine ⟨.inl, fun h => ?_⟩
    rcases h with hold | rfl
    · exact hold
    · exact hkey
  · rw [if_neg hkey, List.mem_append, List.mem_singleton, @eq_comm _ key]

theorem mem_keys_erase {m : OrderedMap α} {key name : String} :
    name ∈ (m.erase key).keys ↔ name ∈ m.keys ∧ key ≠ name := by
  simp only [keys, erase, List.mem_map, List.mem_filter, bne_iff_ne, ne_eq]
  constructor
  · rintro ⟨entry, ⟨hmem, hne⟩, rfl⟩
    exact ⟨⟨entry, hmem, rfl⟩, Ne.symm hne⟩
  · rintro ⟨⟨entry, hmem, rfl⟩, hne⟩
    exact ⟨entry, ⟨hmem, Ne.symm hne⟩, rfl⟩

/-- A write adds no entry but the one under its key. -/
theorem mem_entries_alter {m : OrderedMap α} {key : String} {f : Option α → α}
    {entry : String × α} (h : entry ∈ (m.alter key f).entries) :
    entry ∈ m.entries ∨ entry = (key, f (m.get? key)) := by
  have hget := get?_eq_some_of_mem h
  rw [get?_alter] at hget
  split at hget
  · rename_i hkey
    exact .inr (Prod.ext hkey (Option.some.inj hget).symm)
  · exact .inl (Entries.mem_of_find?_eq_some hget)

theorem mem_entries_insert {m : OrderedMap α} {key : String} {value : α} {entry : String × α}
    (h : entry ∈ (m.insert key value).entries) : entry ∈ m.entries ∨ entry = (key, value) :=
  mem_entries_alter h

/-- A write under a new key adds one entry, under an old one it changes nothing. -/
theorem mem_entries_insertNew {m : OrderedMap α} {key : String} {value : α} {entry : String × α}
    (h : entry ∈ (m.insertNew key value).entries) : entry ∈ m.entries ∨ entry = (key, value) := by
  rcases mem_entries_alter h with hold | hnew
  · exact .inl hold
  · cases hget : m.get? key with
    | none =>
      rw [hget] at hnew
      exact .inr hnew
    | some old =>
      rw [hget] at hnew
      exact .inl (hnew ▸ Entries.mem_of_find?_eq_some hget)

/-- A write adds no value but the one that it computes. -/
theorem mem_values_alter {m : OrderedMap α} {key : String} {f : Option α → α} {value : α}
    (h : value ∈ (m.alter key f).values) :
    value ∈ m.values ∨ value = f none ∨ ∃ old ∈ m.values, value = f (some old) := by
  obtain ⟨entries, hn⟩ := m
  simp only [values, alter] at h ⊢
  clear hn
  induction entries with
  | nil => exact .inr (.inl (by simpa [Entries.alter] using h))
  | cons entry rest ih =>
      obtain ⟨k, v⟩ := entry
      rw [Entries.alter] at h
      split at h
      · rcases List.mem_cons.mp h with rfl | hrest
        · exact .inr (.inr ⟨v, List.mem_cons_self, rfl⟩)
        · exact .inl (List.mem_cons_of_mem _ hrest)
      · rcases List.mem_cons.mp h with rfl | hrest
        · exact .inl List.mem_cons_self
        · rcases ih hrest with hold | hnew | ⟨old, hold, hnew⟩
          · exact .inl (List.mem_cons_of_mem _ hold)
          · exact .inr (.inl hnew)
          · exact .inr (.inr ⟨old, List.mem_cons_of_mem _ hold, hnew⟩)

theorem mem_values_insert {m : OrderedMap α} {key : String} {value other : α}
    (h : other ∈ (m.insert key value).values) : other ∈ m.values ∨ other = value := by
  rcases mem_values_alter h with hold | hnew | ⟨_, _, hnew⟩
  · exact .inl hold
  · exact .inr hnew
  · exact .inr hnew

@[simp] theorem keys_map (f : α → β) (m : OrderedMap α) : (m.map f).keys = m.keys := by
  simp [keys, map]

theorem contains_map (f : α → β) (m : OrderedMap α) (key : String) :
    (m.map f).contains key = m.contains key := by
  rw [Bool.eq_iff_iff, contains_iff, contains_iff, keys_map]

theorem map_insertNew (f : α → β) (m : OrderedMap α) (key : String) (value : α) :
    (m.insertNew key value).map f = (m.map f).insertNew key (f value) := by
  have hentries : ((Entries.alter key (fun old => old.getD value) m.entries).map fun entry =>
      (entry.1, f entry.2)) = Entries.alter key (fun old => old.getD (f value))
        (m.entries.map fun entry => (entry.1, f entry.2)) :=
    Entries.map_alter (by rintro (_ | old) <;> rfl) m.entries
  simp only [map, insertNew, alter, hentries]

theorem map_erase (f : α → β) (m : OrderedMap α) (key : String) :
    (m.erase key).map f = (m.map f).erase key := by
  have hentries : ((m.entries.filter fun entry => entry.1 != key).map fun entry =>
      (entry.1, f entry.2)) =
        (m.entries.map fun entry => (entry.1, f entry.2)).filter fun entry => entry.1 != key := by
    rw [List.filter_map]
    rfl
  simp only [map, erase, hentries]

end OrderedMap

end SqlCompose
