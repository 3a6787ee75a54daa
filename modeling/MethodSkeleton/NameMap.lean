/-
# `MethodSkeleton.NameMap` — maps from names, in the order of the names

A map is kept as a list of its entries, ascending by name and each name once; since every
way of building a map keeps that, it is part of the type.  Names are ordered by their
characters' code points, which is also the order of their UTF-8 bytes.
-/

namespace MethodSkeleton

/-- Entries in strictly ascending order of their names. -/
def Ascending {α : Type} (entries : List (String × α)) : Prop :=
  entries.Pairwise fun a b => a.1 < b.1

/-- Puts a value under a name; also the value that was there before. -/
def putEntry {α : Type} (name : String) (value : α) :
    List (String × α) → Option α × List (String × α)
  | [] => (none, [(name, value)])
  | e :: es =>
    if name < e.1 then (none, (name, value) :: e :: es)
    else if name = e.1 then (some e.2, (name, value) :: es)
    else ((putEntry name value es).1, e :: (putEntry name value es).2)

theorem mem_putEntry {α : Type} {name : String} {value : α} {entries : List (String × α)}
    {e : String × α} (h : e ∈ (putEntry name value entries).2) :
    e = (name, value) ∨ e ∈ entries := by
  induction entries with
  | nil => simpa [putEntry] using h
  | cons a es ih =>
    simp only [putEntry] at h
    split at h
    · simpa using h
    · split at h
      · simp only [List.mem_cons] at h ⊢
        exact h.imp_right .inr
      · simp only [List.mem_cons] at h ⊢
        rcases h with rfl | h
        · exact .inr (.inl rfl)
        · exact (ih h).imp_right .inr

theorem ascending_putEntry {α : Type} (name : String) (value : α) {entries : List (String × α)}
    (h : Ascending entries) : Ascending (putEntry name value entries).2 := by
  induction entries with
  | nil => simp [putEntry, Ascending]
  | cons a es ih =>
    obtain ⟨ha, hes⟩ := List.pairwise_cons.1 h
    simp only [putEntry]
    split
    · rename_i hlt
      refine List.pairwise_cons.2 ⟨fun e he => ?_, h⟩
      rcases List.mem_cons.1 he with rfl | he
      · exact hlt
      · exact String.lt_trans hlt (ha e he)
    · split
      · rename_i heq
        exact List.pairwise_cons.2 ⟨fun e he => heq ▸ ha e he, hes⟩
      · rename_i hlt hne
        refine List.pairwise_cons.2 ⟨fun e he => ?_, ih hes⟩
        rcases mem_putEntry he with rfl | he
        · refine Classical.byContradiction fun hc => hne ?_
          exact String.le_antisymm (String.not_lt.1 hc) (String.not_lt.1 hlt)
        · exact ha e he

/-- The first entry answers for its own name, the others for all other names. -/
theorem lookup_entries_cons {α : Type} (key : String) (e : String × α)
    (es : List (String × α)) :
    (e :: es).lookup key = if key = e.1 then some e.2 else es.lookup key := by
  obtain ⟨name, value⟩ := e
  by_cases h : key = name
  · simp [h]
  · simp [List.lookup_cons, h, beq_false_of_ne h]

/-- After a value has been put under a name, the name has it and all others have what they
had. -/
theorem lookup_putEntry {α : Type} (name : String) (value : α) (entries : List (String × α))
    (key : String) :
    (putEntry name value entries).2.lookup key =
      if key = name then some value else entries.lookup key := by
  induction entries with
  | nil => simp [putEntry, lookup_entries_cons]
  | cons a es ih =>
    simp only [putEntry]
    split
    · simp [lookup_entries_cons]
    · split
      · rename_i heq
        by_cases hk : key = name <;> simp [lookup_entries_cons, hk, ← heq]
      · rename_i hne
        by_cases ha : key = a.1
        · simp [lookup_entries_cons, ha, Ne.symm hne]
        · simp [lookup_entries_cons, ha, ih]

/-- A name that comes before all others has no value. -/
theorem lookup_eq_none_of_lt {α : Type} {name : String} {entries : List (String × α)}
    (h : ∀ e ∈ entries, name < e.1) : entries.lookup name = none := by
  rw [List.lookup_eq_none_iff]
  intro e he
  exact bne_iff_ne.2 (String.ne_of_lt (h e he))

/-- Putting a value under a name answers what the name had. -/
theorem fst_putEntry {α : Type} (name : String) (value : α) {entries : List (String × α)}
    (h : Ascending entries) : (putEntry name value entries).1 = entries.lookup name := by
  induction entries with
  | nil => rfl
  | cons a es ih =>
    obtain ⟨ha, hes⟩ := List.pairwise_cons.1 h
    simp only [putEntry]
    split
    · rename_i hlt
      refine (lookup_eq_none_of_lt fun e he => ?_).symm
      rcases List.mem_cons.1 he with rfl | he
      · exact hlt
      · exact String.lt_trans hlt (ha e he)
    · split
      · rename_i heq
        simp [lookup_entries_cons, heq]
      · rename_i hne
        simp [lookup_entries_cons, hne, ih hes]

/-- Values by name. -/
structure NameMap (α : Type) where
  entries : List (String × α)
  ascending : Ascending entries
deriving DecidableEq

namespace NameMap

variable {α : Type}

/-- The map without entries. -/
def empty : NameMap α := ⟨[], .nil⟩

/-- Adds or replaces the value of a name; also the value that the name had before. -/
def insert (m : NameMap α) (name : String) (value : α) : Option α × NameMap α :=
  ((putEntry name value m.entries).1,
    ⟨(putEntry name value m.entries).2, ascending_putEntry name value m.ascending⟩)

/-- The map with several values put in, one after the other. -/
def insertAll (m : NameMap α) : List (String × α) → NameMap α
  | [] => m
  | (name, value) :: rest => insertAll (m.insert name value).2 rest

/-- The value of a name, if it has one. -/
def get? (m : NameMap α) (name : String) : Option α := m.entries.lookup name

@[simp] theorem get?_empty (name : String) : (empty : NameMap α).get? name = none := rfl

@[simp] theorem get?_insert (m : NameMap α) (name : String) (value : α) (key : String) :
    (m.insert name value).2.get? key = if key = name then some value else m.get? key :=
  lookup_putEntry name value m.entries key

@[simp] theorem fst_insert (m : NameMap α) (name : String) (value : α) :
    (m.insert name value).1 = m.get? name :=
  fst_putEntry name value m.ascending

/-- The names, in ascending order. -/
def names (m : NameMap α) : List String := m.entries.map (·.1)

theorem pairwise_names (m : NameMap α) : m.names.Pairwise (· < ·) :=
  List.pairwise_map.mpr m.ascending

/-- The names are those that have a value. -/
theorem mem_names_iff (m : NameMap α) (name : String) :
    name ∈ m.names ↔ (m.get? name).isSome = true := by
  rw [names, get?]
  induction m.entries with
  | nil => simp
  | cons e es ih =>
    rw [List.map_cons, List.mem_cons, ih, lookup_entries_cons]
    split
    · simp [*]
    · simp [*]

/-- The number of names. -/
def size (m : NameMap α) : Nat := m.entries.length

/-- Whether there are no names. -/
def isEmpty (m : NameMap α) : Bool := m.entries.isEmpty

end NameMap

end MethodSkeleton
