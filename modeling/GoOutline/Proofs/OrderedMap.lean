/-
# What an ordered map lists

Pairs of a key and a value go into a map one after the other. Each key stands where its first pair
stood. Where a key has several pairs, the map holds the value of the first one, if later pairs are
turned down, or that of the last one, if they overwrite.
-/
import GoOutline.OrderedMap
import GoOutline.Proofs.Sequence

namespace GoOutline.OrderedMap

variable {V : Type} {m : OrderedMap V} {ps : List (String × V)} {key k : String} {value : V}

/-! ## Inserting and replacing -/

lemma contains_eq_false_iff : m.contains key = false ↔ key ∉ m.keys := by
  rw [← contains_iff, Bool.not_eq_true]

lemma insertNew_of_mem (hmem : key ∈ m.keys) (value : V) : m.insertNew key value = .error value := by
  simp [insertNew, contains_iff.2 hmem]

lemma insertNew_of_not_mem (hmem : key ∉ m.keys) (value : V) :
    m.insertNew key value =
      .ok (m.size, m.push key value (contains_eq_false_iff.2 hmem)) := by
  simp [insertNew, contains_eq_false_iff.2 hmem]

lemma size_push (m : OrderedMap V) (key : String) (value : V) (fresh : m.contains key = false) :
    (m.push key value fresh).size = m.size + 1 := by
  simp [push, size]

lemma replace_of_not_mem (hmem : key ∉ m.keys) (value : V) :
    m.replace key value = m.push key value (contains_eq_false_iff.2 hmem) := by
  simp [replace, contains_eq_false_iff.2 hmem]

lemma get?_overwrite (m : OrderedMap V) (key : String) (value : V) (k : String) :
    (m.overwrite key value).get? k =
      if k = key then (m.get? k).map fun _ => value else m.get? k := by
  simp only [get?, overwrite, List.find?_map]
  have hsame : (fun e : String × V => e.1 == k) ∘ (fun e => if e.1 = key then (e.1, value) else e) =
      fun e => e.1 == k := by
    funext e
    simp only [Function.comp_apply]
    split <;> rfl
  rw [hsame]
  cases hfind : m.entries.find? fun e => e.1 == k with
  | none => simp
  | some e =>
    have he : e.1 = k := by simpa using List.find?_some hfind
    subst he
    by_cases h : e.1 = key <;> simp [h]

lemma get?_eq_none_iff : m.get? key = none ↔ key ∉ m.keys := by
  rw [← contains_eq_false_iff]
  simp [get?, contains]

/-- A value that is turned down would not have been found. -/
lemma get?_or_of_mem (hmem : key ∈ m.keys) :
    (m.get? k).or (if k = key then some value else none) = m.get? k := by
  split
  · rename_i hk
    subst hk
    cases hget : m.get? k with
    | some v => rfl
    | none => exact absurd hmem (get?_eq_none_iff.1 hget)
  · exact Option.or_none

/-- A new entry is found where nothing was found before. -/
lemma get?_push_of_not_mem (hmem : key ∉ m.keys) :
    (m.push key value (contains_eq_false_iff.2 hmem)).get? k =
      (m.get? k).or (if k = key then some value else none) := by
  rw [get?_push]
  split
  · rename_i hk
    rw [hk, get?_eq_none_iff.2 hmem, Option.none_or]
  · exact Option.or_none.symm

lemma get?_replace (m : OrderedMap V) (key : String) (value : V) (k : String) :
    (m.replace key value).get? k = if k = key then some value else m.get? k := by
  simp only [replace]
  split
  · exact get?_push ..
  · rename_i hmem
    rw [get?_overwrite]
    split
    · rename_i hk
      subst hk
      cases hget : m.get? k with
      | some v => rfl
      | none => exact absurd (contains_eq_false_iff.2 (get?_eq_none_iff.1 hget)) hmem
    · rfl

lemma keys_replace (m : OrderedMap V) (key : String) (value : V) :
    (m.replace key value).keys = if key ∈ m.keys then m.keys else m.keys ++ [key] := by
  simp only [replace]
  split
  · rename_i fresh
    rw [keys_push, if_neg (contains_eq_false_iff.1 fresh)]
  · rename_i hmem
    rw [keys_overwrite, if_pos (by simpa [contains_iff] using hmem)]

lemma ext_entries {m m' : OrderedMap V} (h : m.entries = m'.entries) : m = m' := by
  cases m
  cases m'
  cases h
  rfl

/-- A map is determined by its keys in order and what is found under them. -/
lemma ext_get? {m m' : OrderedMap V} (hkeys : m.keys = m'.keys)
    (hget : ∀ key, m.get? key = m'.get? key) : m = m' := by
  have hentries (m : OrderedMap V) :
      m.entries.map (fun e => (e.1, some e.2)) = m.keys.map fun key => (key, m.get? key) := by
    rw [keys, List.map_map]
    refine List.map_congr_left fun e he => ?_
    rw [Function.comp_apply, get?_eq_some_iff.2 he]
  have hinj : Function.Injective fun e : String × V => (e.1, some e.2) := by
    rintro ⟨a, v⟩ ⟨b, w⟩ h
    simpa using h
  have hmap : m.entries.map (fun e => (e.1, some e.2)) = m'.entries.map fun e => (e.1, some e.2) := by
    rw [hentries m, hentries m', hkeys]
    exact List.map_congr_left fun key _ => by rw [hget]
  exact ext_entries (List.map_injective_iff.2 hinj hmap)

/-! ## Sequences of pairs -/

/-- The value of the first pair with a key. -/
def firstValue? (ps : List (String × V)) (key : String) : Option V :=
  (ps.find? fun p => p.1 == key).map Prod.snd

/-- The value of the last pair with a key. -/
def lastValue? (ps : List (String × V)) (key : String) : Option V := firstValue? ps.reverse key

/-- A pair that comes last counts if no pair before it has the key. -/
lemma firstValue?_concat :
    firstValue? (ps ++ [(k, value)]) key =
      (firstValue? ps key).or (if key = k then some value else none) := by
  simp only [firstValue?, List.find?_append]
  cases ps.find? fun p => p.1 == key with
  | some p => rfl
  | none =>
    by_cases hkey : key = k
    · simp [hkey]
    · simp [hkey, Ne.symm hkey]

lemma lastValue?_concat :
    lastValue? (ps ++ [(k, value)]) key = if key = k then some value else lastValue? ps key := by
  by_cases hkey : key = k
  · subst hkey
    simp [lastValue?, firstValue?]
  · simp [lastValue?, firstValue?, hkey, Ne.symm hkey]

lemma mem_of_firstValue? (h : firstValue? ps key = some value) : (key, value) ∈ ps := by
  obtain ⟨⟨k, v⟩, hfind, rfl⟩ := Option.map_eq_some_iff.1 h
  have hkey : k = key := by simpa using List.find?_some hfind
  exact hkey ▸ List.mem_of_find?_eq_some hfind

lemma mem_of_lastValue? (h : lastValue? ps key = some value) : (key, value) ∈ ps :=
  List.mem_reverse.1 (mem_of_firstValue? h)

/-- The map has the keys of the pairs in the order of their first occurrences, with the values that
`value?` selects. -/
structure Lists (m : OrderedMap V) (value? : List (String × V) → String → Option V)
    (ps : List (String × V)) : Prop where
  keys : m.keys = (ps.map Prod.fst).eraseDups
  get? : ∀ key, m.get? key = value? ps key

namespace Lists

variable {value? : List (String × V) → String → Option V}

lemma empty (h : ∀ key, value? [] key = none) : (∅ : OrderedMap V).Lists value? [] :=
  ⟨rfl, fun key => (h key).symm⟩

lemma unique {m' : OrderedMap V} (h : m.Lists value? ps) (h' : m'.Lists value? ps) : m = m' :=
  ext_get? (h.keys.trans h'.keys.symm) fun key => (h.get? key).trans (h'.get? key).symm

lemma mem_keys (h : m.Lists value? ps) : key ∈ m.keys ↔ key ∈ ps.map Prod.fst := by
  rw [h.keys, List.mem_eraseDups]

/-- The keys after one more pair. -/
lemma keys_concat (h : m.Lists value? ps) (key : String) (value : V) :
    ((ps ++ [(key, value)]).map Prod.fst).eraseDups =
      if key ∈ m.keys then m.keys else m.keys ++ [key] := by
  rw [List.map_append, List.map_singleton, List.eraseDups_concat, h.keys]

/-- A key in use turns a pair down. -/
lemma turnDown (h : m.Lists firstValue? ps) (hmem : key ∈ m.keys) (value : V) :
    m.Lists firstValue? (ps ++ [(key, value)]) := by
  refine ⟨?_, fun k => ?_⟩
  · rw [h.keys_concat, if_pos hmem]
  · rw [firstValue?_concat, ← h.get?, get?_or_of_mem hmem]

lemma push (h : m.Lists firstValue? ps) (hmem : key ∉ m.keys) (value : V) :
    (m.push key value (contains_eq_false_iff.2 hmem)).Lists firstValue?
      (ps ++ [(key, value)]) := by
  refine ⟨?_, fun k => ?_⟩
  · rw [h.keys_concat, if_neg hmem, keys_push]
  · rw [firstValue?_concat, ← h.get?, get?_push_of_not_mem hmem]

lemma replace (h : m.Lists lastValue? ps) (key : String) (value : V) :
    (m.replace key value).Lists lastValue? (ps ++ [(key, value)]) := by
  refine ⟨?_, fun k => ?_⟩
  · rw [h.keys_concat, keys_replace]
  · rw [lastValue?_concat, get?_replace, h.get?]

end Lists

end GoOutline.OrderedMap
