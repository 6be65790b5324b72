/-
# Ordered maps

Maps from names to values that remember the order in which the names first came in. Every level
of an outline (packages, files, declarations, fields) is such a map, so positions in it serve as
ids and "the first match" is well defined.

A map is its list of entries together with the fact that no key occurs twice.
-/
namespace GoOutline

universe u

/-- A map from strings to `V`, listed in the order of first insertion. -/
structure OrderedMap (V : Type u) where
  entries : List (String × V)
  nodup : (entries.map Prod.fst).Nodup

namespace OrderedMap

variable {V : Type u}

/-- The map without entries. -/
def empty : OrderedMap V := ⟨[], List.nodup_nil⟩

instance : EmptyCollection (OrderedMap V) := ⟨empty⟩

instance : Inhabited (OrderedMap V) := ⟨empty⟩

/-! ## Views -/

/-- The keys in order. -/
def keys (m : OrderedMap V) : List String := m.entries.map Prod.fst

/-- The values in order. -/
def values (m : OrderedMap V) : List V := m.entries.map Prod.snd

/-- The number of entries. -/
def size (m : OrderedMap V) : Nat := m.entries.length

/-- Whether the map has no entry. -/
def isEmpty (m : OrderedMap V) : Bool := m.entries.isEmpty

/-- The value stored under `key`. -/
def get? (m : OrderedMap V) (key : String) : Option V :=
  (m.entries.find? fun e => e.1 == key).map Prod.snd

/-- Whether something is stored under `key`. -/
def contains (m : OrderedMap V) (key : String) : Bool := m.entries.any fun e => e.1 == key

/-- The position of `key`. -/
def index? (m : OrderedMap V) (key : String) : Option Nat :=
  m.entries.findIdx? fun e => e.1 == key

/-- The entry at position `i`. -/
def entry? (m : OrderedMap V) (i : Nat) : Option (String × V) := m.entries[i]?

/-- The entry that came in first. -/
def first? (m : OrderedMap V) : Option (String × V) := m.entry? 0

@[simp] theorem keys_empty : (∅ : OrderedMap V).keys = [] := rfl

@[simp] theorem length_keys (m : OrderedMap V) : m.keys.length = m.size := by
  simp [keys, size]

theorem nodup_keys (m : OrderedMap V) : m.keys.Nodup := m.nodup

theorem contains_iff {m : OrderedMap V} {key : String} : m.contains key = true ↔ key ∈ m.keys := by
  simp [contains, keys]

/-- Since no key occurs twice, the entries are exactly what look-up finds. -/
theorem get?_eq_some_iff {m : OrderedMap V} {key : String} {value : V} :
    m.get? key = some value ↔ (key, value) ∈ m.entries := by
  obtain ⟨entries, nodup⟩ := m
  simp only [get?]
  induction entries with
  | nil => simp
  | cons e entries ih =>
    obtain ⟨k, v⟩ := e
    simp only [List.map_cons, List.nodup_cons] at nodup
    by_cases h : k = key
    · subst h
      have absent : (k, value) ∉ entries := fun mem => nodup.1 (List.mem_map_of_mem mem)
      simp [absent, eq_comm]
    · simp [h, Ne.symm h, ih nodup.2]

/-! ## Insertion -/

/-- Appends an entry under a key that is not in use. -/
def push (m : OrderedMap V) (key : String) (value : V) (fresh : m.contains key = false) :
    OrderedMap V where
  entries := m.entries ++ [(key, value)]
  nodup := by
    have notMem : key ∉ m.entries.map Prod.fst := fun h => by
      simp [contains_iff.2 h] at fresh
    rw [List.map_append, List.nodup_append]
    refine ⟨m.nodup, by simp, fun a ha b hb => ?_⟩
    rintro rfl
    have same : a = key := List.mem_singleton.1 hb
    exact notMem (same ▸ ha)

/-- Overwrites the value under `key` where it stands; without such a key nothing changes. -/
def overwrite (m : OrderedMap V) (key : String) (value : V) : OrderedMap V where
  entries := m.entries.map fun e => if e.1 = key then (e.1, value) else e
  nodup := by
    have : (m.entries.map fun e => if e.1 = key then (e.1, value) else e).map Prod.fst =
        m.entries.map Prod.fst := by
      rw [List.map_map]
      refine List.map_congr_left fun e _ => ?_
      simp only [Function.comp_apply]
      split <;> rfl
    rw [this]
    exact m.nodup

/-- Inserts under a key that is not in use, giving the position of the new entry. A key in use
keeps its entry, and the value is handed back. -/
def insertNew (m : OrderedMap V) (key : String) (value : V) : Except V (Nat × OrderedMap V) :=
  if fresh : m.contains key = false then .ok (m.size, m.push key value fresh) else .error value

/-- Inserts or overwrites; an entry that is overwritten keeps its position. -/
def replace (m : OrderedMap V) (key : String) (value : V) : OrderedMap V :=
  if fresh : m.contains key = false then m.push key value fresh else m.overwrite key value

@[simp] theorem keys_push (m : OrderedMap V) (key : String) (value : V)
    (fresh : m.contains key = false) : (m.push key value fresh).keys = m.keys ++ [key] := by
  simp [push, keys]

@[simp] theorem keys_overwrite (m : OrderedMap V) (key : String) (value : V) :
    (m.overwrite key value).keys = m.keys := by
  simp only [overwrite, keys, List.map_map]
  refine List.map_congr_left fun e _ => ?_
  simp only [Function.comp_apply]
  split <;> rfl

/-- A new entry is found under its key, and every other key finds what it found before. -/
theorem get?_push (m : OrderedMap V) (key : String) (value : V) (fresh : m.contains key = false)
    (k : String) : (m.push key value fresh).get? k = if k = key then some value else m.get? k := by
  have absent : ∀ e ∈ m.entries, e.1 ≠ key := by simpa [contains] using fresh
  by_cases h : k = key
  · subst h
    have none : m.entries.find? (fun e => e.1 == k) = none := by
      simpa [List.find?_eq_none] using fun a b mem => absent (a, b) mem
    simp [get?, push, none]
  · simp [get?, push, h, Ne.symm h]

end OrderedMap

end GoOutline
