/-
# Ordered maps after any operations

Values are inserted and replaced in any order, starting from the map without entries. An insertion
under a key in use is turned down, so every key keeps the place of the first operation on it. Its value
is that of its last replacement, whatever was inserted before or after. Without a replacement it is the
value of its first insertion, since all later ones found the key in use.

All views of a map show one sequence of entries. As no key occurs twice in it, a key stands for a
position.
-/
import GoOutline.Proofs.OrderedMap

namespace GoOutline.OrderedMap

variable {V : Type} {m : OrderedMap V} {k k' : String} {value : V}

/-! ## Views -/

/-- The views of a map show one sequence of entries, in which every key has one position. -/
structure Consistent (m : OrderedMap V) : Prop where
  entries : ∀ i, m.entries[i]? = m.entry? i
  keys : ∀ i, m.keys[i]? = (m.entry? i).map Prod.fst
  values : ∀ i, m.values[i]? = (m.entry? i).map Prod.snd
  size : ∀ i, (m.entry? i).isSome ↔ i < m.size
  index? : ∀ key i, m.index? key = some i ↔ ∃ value, m.entry? i = some (key, value)
  get? : ∀ key value, m.get? key = some value ↔
    ∃ i, m.index? key = some i ∧ m.entry? i = some (key, value)

lemma getElem?_keys (m : OrderedMap V) (i : Nat) : m.keys[i]? = (m.entry? i).map Prod.fst :=
  List.getElem?_map ..

lemma index?_eq_some_iff_getElem? {i : Nat} : m.index? k = some i ↔ m.keys[i]? = some k := by
  have hindex : m.index? k = m.keys.findIdx? (· == k) := by
    rw [keys, List.findIdx?_map]
    rfl
  rw [hindex, List.findIdx?_eq_some_iff_getElem, List.getElem?_eq_some_iff]
  refine exists_congr fun hi => ⟨fun h => eq_of_beq h.1, fun h => ⟨beq_iff_eq.2 h, ?_⟩⟩
  intro j hj hkey
  -- the key stands nowhere else, so in particular not earlier
  have hne : m.keys[j] ≠ m.keys[i] :=
    List.pairwise_iff_getElem.1 m.nodup_keys j i (Nat.lt_trans hj hi) hi hj
  exact hne ((eq_of_beq hkey).trans h.symm)

lemma index?_eq_some_iff {i : Nat} :
    m.index? k = some i ↔ ∃ value, m.entry? i = some (k, value) := by
  rw [index?_eq_some_iff_getElem?, getElem?_keys, Option.map_eq_some_iff, Prod.exists]
  constructor
  · rintro ⟨_, value, hentry, rfl⟩
    exact ⟨value, hentry⟩
  · rintro ⟨value, hentry⟩
    exact ⟨k, value, hentry, rfl⟩

lemma consistent (m : OrderedMap V) : m.Consistent where
  entries _ := rfl
  keys := m.getElem?_keys
  values _ := List.getElem?_map ..
  size _ := Iff.of_eq (isSome_getElem? ..)
  index? _ _ := index?_eq_some_iff
  get? key value := by
    rw [get?_eq_some_iff, List.mem_iff_getElem?]
    exact exists_congr fun i =>
      ⟨fun hentry => ⟨index?_eq_some_iff.2 ⟨value, hentry⟩, hentry⟩, And.right⟩

/-! ## One operation -/

/-- An operation that changes a map. -/
inductive Operation (V : Type) where
  | insert (key : String) (value : V)
  | replace (key : String) (value : V)
deriving DecidableEq, Repr

namespace Operation

/-- The key that the value is stored under. -/
def key : Operation V → String
  | .insert key _ => key
  | .replace key _ => key

/-- The pair that is to be inserted. -/
def inserted? : Operation V → Option (String × V)
  | .insert key value => some (key, value)
  | .replace .. => none

/-- The pair that takes the place of another one with its key. -/
def replacing? : Operation V → Option (String × V)
  | .insert .. => none
  | .replace key value => some (key, value)

/-- The map after the operation. An insertion that is turned down leaves the map as it is. -/
def apply (m : OrderedMap V) : Operation V → OrderedMap V
  | .insert key value =>
    match m.insertNew key value with
    | .ok (_, m') => m'
    | .error _ => m
  | .replace key value => m.replace key value

lemma apply_insert_of_mem (hmem : k ∈ m.keys) (value : V) : apply m (.insert k value) = m := by
  rw [apply, insertNew_of_mem hmem]

lemma apply_insert_of_not_mem (hmem : k ∉ m.keys) (value : V) :
    apply m (.insert k value) = m.push k value (contains_eq_false_iff.2 hmem) := by
  rw [apply, insertNew_of_not_mem hmem]

/-- A key that is not in use comes last. -/
lemma keys_apply (m : OrderedMap V) (op : Operation V) :
    (apply m op).keys = if op.key ∈ m.keys then m.keys else m.keys ++ [op.key] := by
  cases op with
  | insert key value =>
    by_cases hmem : key ∈ m.keys
    · rw [apply_insert_of_mem hmem, Operation.key, if_pos hmem]
    · rw [apply_insert_of_not_mem hmem, keys_push, Operation.key, if_neg hmem]
  | replace key value => exact keys_replace m key value

/-- An inserted value is found where nothing was found before. -/
lemma get?_apply_insert (m : OrderedMap V) (key : String) (value : V) (k : String) :
    (apply m (.insert key value)).get? k =
      (m.get? k).or (if k = key then some value else none) := by
  by_cases hmem : key ∈ m.keys
  · rw [apply_insert_of_mem hmem, get?_or_of_mem hmem]
  · rw [apply_insert_of_not_mem hmem, get?_push_of_not_mem hmem]

/-! ## Many operations -/

/-- The map after some operations, if it was empty before. -/
def run (ops : List (Operation V)) : OrderedMap V := ops.foldl apply ∅

/-- The value of the last replacement of a key or, if it is never replaced, of its first insertion. -/
def value? (ops : List (Operation V)) (key : String) : Option V :=
  (lastValue? (ops.filterMap replacing?) key).or (firstValue? (ops.filterMap inserted?) key)

variable {ops : List (Operation V)}

lemma run_concat (ops : List (Operation V)) (op : Operation V) :
    run (ops ++ [op]) = apply (run ops) op :=
  List.foldl_concat ..

/-- One more insertion counts if the key has no value yet. -/
lemma value?_concat_insert :
    value? (ops ++ [.insert k value]) k' =
      (value? ops k').or (if k' = k then some value else none) := by
  simp only [value?, List.filterMap_append, List.filterMap_cons, List.filterMap_nil, replacing?,
    inserted?, List.append_nil]
  rw [firstValue?_concat, Option.or_assoc]

/-- One more replacement counts whatever came before. -/
lemma value?_concat_replace :
    value? (ops ++ [.replace k value]) k' = if k' = k then some value else value? ops k' := by
  simp only [value?, List.filterMap_append, List.filterMap_cons, List.filterMap_nil, replacing?,
    inserted?, List.append_nil]
  rw [lastValue?_concat]
  split <;> rfl

/-- The map has the keys of the operations in the order of their first occurrences, with the values
that the operations leave there. -/
structure Leaves (ops : List (Operation V)) (m : OrderedMap V) : Prop where
  keys : m.keys = (ops.map key).eraseDups
  get? : ∀ k, m.get? k = value? ops k

/-- What one more operation does. -/
lemma Leaves.apply (h : Leaves ops m) (op : Operation V) :
    Leaves (ops ++ [op]) (Operation.apply m op) where
  keys := by
    rw [keys_apply, List.map_append, List.map_singleton, List.eraseDups_concat, ← h.keys]
  get? k := by
    cases op with
    | insert key value => rw [get?_apply_insert, value?_concat_insert, h.get?]
    | replace key value => rw [Operation.apply, get?_replace, value?_concat_replace, h.get?]

lemma leaves_run (ops : List (Operation V)) : Leaves ops (run ops) := by
  induction ops using List.reverseRecOn with
  | nil => exact ⟨rfl, fun _ => rfl⟩
  | append_singleton ops op ih =>
    rw [run_concat]
    exact ih.apply op

lemma mem_keys_run : k ∈ (run ops).keys ↔ k ∈ ops.map Operation.key := by
  rw [(leaves_run ops).keys, List.mem_eraseDups]

end Operation

open Operation in
/-- After any operations a map lists the distinct keys in the order in which they came first. A key has
the value of its last replacement or, if it was never replaced, of its first insertion. The next
insertion is turned down, without a change to the map, if the key occurred in any operation; else it
adds an entry at the end and gives its position. All views of the map agree. -/
theorem operations_ordered (ops : List (Operation V)) :
    (run ops).keys = (ops.map Operation.key).eraseDups ∧
    (∀ key, (run ops).get? key = value? ops key) ∧
    (∀ key value,
      if key ∈ ops.map Operation.key then
        (run ops).insertNew key value = .error value ∧ run (ops ++ [.insert key value]) = run ops
      else
        ∃ m, (run ops).insertNew key value = .ok ((run ops).size, m) ∧
          m.entries = (run ops).entries ++ [(key, value)] ∧ run (ops ++ [.insert key value]) = m) ∧
    (run ops).Consistent := by
  refine ⟨(leaves_run ops).keys, (leaves_run ops).get?, fun key value => ?_, (run ops).consistent⟩
  rw [run_concat]
  split
  · rename_i hused
    have hmem := mem_keys_run.2 hused
    exact ⟨insertNew_of_mem hmem value, apply_insert_of_mem hmem value⟩
  · rename_i hunused
    have hmem := mt mem_keys_run.1 hunused
    exact ⟨_, insertNew_of_not_mem hmem value, rfl, apply_insert_of_not_mem hmem value⟩

/-- A key that is replaced before it is inserted, and one that is inserted twice. -/
example : (Operation.run [.insert "b" 1, .replace "a" 2, .insert "b" 3, .insert "a" 4]).entries =
    [("b", 1), ("a", 2)] := by
  decide

end GoOutline.OrderedMap
