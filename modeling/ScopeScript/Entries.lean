set_option autoImplicit false

/-!
# Entries: things under keys, in order

A list of pairs in which every key counts once.  New keys go to the end; putting a value under a key
that is there changes the value and moves nothing.
-/

namespace ScopeScript

/-- Values under keys, in the order in which the keys came. -/
abbrev Entries (κ α : Type) : Type := List (κ × α)

namespace Entries

variable {κ α : Type} [BEq κ]

/-- Whether a key is there. -/
def has (entries : Entries κ α) (key : κ) : Bool := (entries.lookup key).isSome

/-- Changes the value under a key that is there. -/
def change (entries : Entries κ α) (key : κ) (f : α → α) : Entries κ α :=
  entries.map fun entry => if entry.1 == key then (entry.1, f entry.2) else entry

/-- Puts a value under a key: in place if the key is there, at the end otherwise. -/
def put (entries : Entries κ α) (key : κ) (value : α) : Entries κ α :=
  if entries.has key then entries.change key fun _ => value else entries ++ [(key, value)]

/-- The keys in order. -/
def keys (entries : Entries κ α) : List κ := entries.map (·.1)

theorem keys_change (entries : Entries κ α) (key : κ) (f : α → α) :
    (entries.change key f).keys = entries.keys := by
  simp only [keys, change, List.map_map]
  apply List.map_congr_left
  intro entry _
  simp only [Function.comp_apply]
  split <;> rfl

variable [LawfulBEq κ]

theorem has_iff_mem_keys {entries : Entries κ α} {key : κ} :
    entries.has key = true ↔ key ∈ entries.keys := by
  simp [has, keys]

theorem put_new {entries : Entries κ α} {key : κ} (new : key ∉ entries.keys) (value : α) :
    entries.put key value = entries ++ [(key, value)] :=
  if_neg (mt has_iff_mem_keys.mp new)

theorem mem_keys_put {entries : Entries κ α} {key other : κ} {value : α} :
    other ∈ (entries.put key value).keys ↔ other ∈ entries.keys ∨ other = key := by
  by_cases h : entries.has key = true
  · rw [put, if_pos h, keys_change]
    have mem := has_iff_mem_keys.mp h
    grind
  · rw [put, if_neg h]
    simp [keys]

variable [DecidableEq κ]

/-- A look-up meets the first pair or goes on behind it. -/
theorem lookup_cons (first key : κ) (value : α) (rest : Entries κ α) :
    List.lookup key ((first, value) :: rest) =
      if key = first then some value else List.lookup key rest := by
  rw [List.lookup_cons]
  by_cases h : key = first
  · simp [h]
  · simp [h, beq_eq_false_iff_ne.mpr h]

theorem lookup_append (entries more : Entries κ α) (key : κ) :
    (entries ++ more).lookup key = (entries.lookup key).or (more.lookup key) := by
  induction entries with
  | nil => rfl
  | cons entry rest ih =>
    rw [List.cons_append, lookup_cons, lookup_cons, ih]
    split <;> rfl

theorem lookup_map {β : Type} (entries : Entries κ α) (key : κ) (f : α → β) :
    List.lookup key (entries.map fun entry => (entry.1, f entry.2)) =
      (entries.lookup key).map f := by
  induction entries with
  | nil => rfl
  | cons entry rest ih =>
    obtain ⟨first, value⟩ := entry
    rw [List.map_cons, lookup_cons, lookup_cons, ih]
    split <;> rfl

theorem lookup_change (entries : Entries κ α) (key other : κ) (f : α → α) :
    (entries.change key f).lookup other =
      if other = key then (entries.lookup other).map f else entries.lookup other := by
  induction entries with
  | nil => simp [change]
  | cons entry rest ih =>
    obtain ⟨first, old⟩ := entry
    rw [show change ((first, old) :: rest) key f =
        (first, if first = key then f old else old) :: change rest key f by
      by_cases h : first = key <;> simp [change, h]]
    rw [lookup_cons, lookup_cons, ih]
    by_cases hk : other = first <;> by_cases hn : other = key <;> simp_all

theorem lookup_put (entries : Entries κ α) (key other : κ) (value : α) :
    (entries.put key value).lookup other =
      if other = key then some value else entries.lookup other := by
  by_cases h : entries.has key = true
  · rw [put, if_pos h, lookup_change]
    by_cases same : other = key
    · obtain ⟨old, hold⟩ := Option.isSome_iff_exists.mp h
      simp [same, hold]
    · simp [same]
  · rw [put, if_neg h, lookup_append, lookup_cons]
    by_cases same : other = key
    · have missing : entries.lookup key = none := Option.not_isSome_iff_eq_none.mp h
      simp [same, missing]
    · simp [same]

end Entries

end ScopeScript
