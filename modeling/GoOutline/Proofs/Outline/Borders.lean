/-
# Borders between specs

The specs of a declaration are outlined one after the other, and the declaration tells them no more
than their group and its documentation. One thing crosses the border between two specs: a constant or
variable without a type takes over the type of the nearest spec before it that has one. Nothing crosses
a border behind which a type is stated first, or in front of which there is none. What comes after any
other border differs in its type from what it would be at the beginning of a declaration, up to the next
type that is stated.
-/
import GoOutline.Proofs.Outline.Alike
import GoOutline.Proofs.Outline.ValueGroups

namespace GoOutline

/-! ## Specs one after the other -/

namespace Source

variable {file : FileId} {g g' : GeneralDecl}

/-- What a spec contributes to a declaration of constants or variables, of which it declares some of
the given type. -/
def GeneralDecl.specEntries (file : FileId) (g : GeneralDecl) (type : String) : Spec → List Entry
  | .value s => s.entries file g type
  | _ => [g.misplacedSpec]

lemma valueEntries_cons (before : List Spec) (s : Spec) (specs : List Spec) :
    valueEntries file g (carriedType before) (s :: specs) =
      g.specEntries file (carriedType (before ++ [s])) s ++
        valueEntries file g (carriedType (before ++ [s])) specs := by
  cases s with
  | value s => rw [valueEntries, GeneralDecl.specEntries, carriedType_concat_value]
  | _ => rw [carriedType_concat_other before rfl]; rfl

lemma valueEntries_append (before xs ys : List Spec) :
    valueEntries file g (carriedType before) (xs ++ ys) =
      valueEntries file g (carriedType before) xs ++
        valueEntries file g (carriedType (before ++ xs)) ys := by
  induction xs generalizing before with
  | nil => rw [List.append_nil]; rfl
  | cons s xs ih =>
    rw [List.cons_append, valueEntries_cons, valueEntries_cons, ih, List.append_cons before s xs]
    exact (List.append_assoc ..).symm

/-! ## Borders between specs -/

/-- The spec as one of constants or variables. -/
def Spec.value? : Spec → Option ValueSpec
  | .value s => some s
  | _ => none

/-- The first spec of constants or variables, if there is one, has a type of its own. -/
def StartsTyped (specs : List Spec) : Prop := ∀ s ∈ specs.findSome? Spec.value?, s.type.isSome

/-- None of the specs has a type of its own. -/
def Untyped (specs : List Spec) : Prop := ∀ s ∈ specs, s.typeText? = none

variable {xs ys : List Spec}

/-- Specs that begin with a type do not take one over. -/
lemma StartsTyped.valueEntries_eq (h : StartsTyped xs) (carried carried' : String) :
    valueEntries file g carried xs = valueEntries file g carried' xs := by
  induction xs with
  | nil => rfl
  | cons s xs ih =>
    cases s with
    | value s =>
      obtain ⟨x, hx⟩ := Option.isSome_iff_exists.1 (h s rfl)
      rw [valueEntries, valueEntries, hx]
      rfl
    | _ => exact congrArg (g.misplacedSpec :: ·) (ih h)

lemma StartsTyped.of_append (h : StartsTyped (xs ++ ys)) : StartsTyped xs := by
  intro s hs
  refine h s ?_
  rw [List.findSome?_append, Option.mem_def.1 hs]
  rfl

lemma carriedType_of_untyped (h : Untyped xs) : carriedType xs = "" := by
  have hnone : xs.reverse.findSome? Spec.typeText? = none :=
    List.findSome?_eq_none_iff.2 fun s hs => h s (List.mem_reverse.1 hs)
  rw [carriedType, hnone]
  rfl

/-- No type goes across the border between `xs` and `ys`. -/
def Apart (xs ys : List Spec) : Prop := StartsTyped ys ∨ Untyped xs

lemma Apart.valueEntries_eq (h : Apart xs ys) :
    valueEntries file g (carriedType xs) ys = valueEntries file g "" ys := by
  rcases h with h | h
  · exact h.valueEntries_eq _ _
  · rw [carriedType_of_untyped h]

/-- Specs contribute the same in one declaration and in pieces, if no type goes from one piece to a
later one. -/
lemma valueEntries_flatten (before : List Spec) (pieces : List (List Spec))
    (h : ∀ ps qs, pieces = ps ++ qs → Apart (before ++ ps.flatten) qs.flatten) :
    valueEntries file g (carriedType before) pieces.flatten =
      pieces.flatMap (valueEntries file g "") := by
  induction pieces generalizing before with
  | nil => rfl
  | cons xs pieces ih =>
    have hfirst : Apart before xs := by
      have hall := h [] (xs :: pieces) rfl
      rw [List.flatten_nil, List.append_nil, List.flatten_cons] at hall
      exact hall.imp_left StartsTyped.of_append
    have hlater : ∀ ps qs, pieces = ps ++ qs → Apart (before ++ xs ++ ps.flatten) qs.flatten := by
      rintro ps qs rfl
      rw [List.append_assoc]
      exact h (xs :: ps) qs rfl
    rw [List.flatten_cons, List.flatMap_cons, valueEntries_append, hfirst.valueEntries_eq,
      ih _ hlater]

/-- A declaration contributes the same if it is cut into pieces that are like it. -/
lemma GeneralDecl.entries_pieces {pieces : List GeneralDecl} (halike : ∀ g' ∈ pieces, g.Alike g')
    (hspecs : (pieces.map GeneralDecl.specs).flatten = g.specs)
    (hapart : g.group.HasValues → ∀ ps qs, pieces.map GeneralDecl.specs = ps ++ qs →
      Apart ps.flatten qs.flatten) :
    pieces.flatMap (GeneralDecl.entries file) = g.entries file := by
  by_cases hvalues : g.group.HasValues
  · have hgroup : ∀ g' ∈ pieces, g'.entries file = valueEntries file g "" g'.specs := by
      intro g' hg'
      have h := halike g' hg'
      rw [entries_eq_values (h.group ▸ hvalues), h.valueEntries_eq]
    have hflatten : valueEntries file g "" (pieces.map GeneralDecl.specs).flatten =
        (pieces.map GeneralDecl.specs).flatMap (valueEntries file g "") :=
      valueEntries_flatten [] _ (hapart hvalues)
    rw [List.flatMap_congr hgroup, entries_eq_values hvalues, ← hspecs, hflatten, List.flatMap_map]
  · cases hgroup : g.group with
    | imports =>
      have hentries : ∀ g' ∈ pieces, g'.entries file = g'.specs.map g.importEntry := by
        intro g' hg'
        have h := halike g' hg'
        rw [entries_eq_imports (h.group.trans hgroup), h.importEntry_eq]
      rw [List.flatMap_congr hentries, entries_eq_imports hgroup, ← hspecs, List.map_flatten,
        List.map_map]
      rfl
    | types =>
      have hentries : ∀ g' ∈ pieces, g'.entries file = g'.specs.flatMap (g.typeEntries file) := by
        intro g' hg'
        have h := halike g' hg'
        rw [entries_eq_types (h.group.trans hgroup), h.typeEntries_eq]
      rw [List.flatMap_congr hentries, entries_eq_types hgroup, ← hspecs, List.flatten_eq_flatMap,
        List.flatMap_assoc, List.flatMap_map]
      rfl
    | consts => exact absurd (.inl hgroup) hvalues
    | vars => exact absurd (.inr hgroup) hvalues

/-! ## Lost types -/

lemma valueEntries_of_untyped (h : Untyped xs) (carried : String) :
    valueEntries file g carried xs = xs.flatMap (g.specEntries file carried) := by
  induction xs with
  | nil => rfl
  | cons s xs ih =>
    have hs : s.typeText? = none := h s (by simp)
    have ih := ih fun s hs => h s (by simp [hs])
    rw [List.flatMap_cons, ← ih]
    cases s with
    | value s =>
      have htype : s.type = none := Option.map_eq_none_iff.1 hs
      rw [valueEntries, htype]
      rfl
    | _ => rfl

end Source

/-- The declaration with another type, if it is a constant or variable. -/
def Decl.withType (type : String) : Decl → Decl
  | .var v => .var { v with type }
  | .const v => .const { v with type }
  | d => d

/-- The entry with another type, if it is a constant or variable. -/
def Entry.withType (type : String) : Entry → Entry
  | .decl d => .decl (d.withType type)
  | e => e

namespace Source

variable {file : FileId} {g : GeneralDecl} {xs zone rest : List Spec}

lemma GeneralDecl.valueDecl_withType (g : GeneralDecl) (v : ValueDecl) (type : String) :
    (g.valueDecl v).withType type = g.valueDecl { v with type } := by
  simp only [valueDecl]
  split <;> rfl

lemma GeneralDecl.specEntries_withType (type type' : String) (s : Spec) :
    (g.specEntries file type s).map (Entry.withType type') = g.specEntries file type' s := by
  cases s with
  | value s =>
    simp only [specEntries, ValueSpec.entries, List.map_append, List.map_map]
    congr 1
    refine List.map_congr_left fun p _ => ?_
    exact congrArg Entry.decl (g.valueDecl_withType _ type')
  | _ => rfl

lemma GeneralDecl.specEntries_type {type : String} {s : Spec} {d : Decl}
    (hd : .decl d ∈ g.specEntries file type s) : d.declaredType? = some type := by
  cases s with
  | value s =>
    rcases List.mem_append.1 hd with hd | hd
    · obtain ⟨i, -, hi⟩ := List.mem_map.1 hd
      cases hi
    · obtain ⟨p, -, hp⟩ := List.mem_map.1 hd
      obtain rfl := Entry.decl.inj hp
      exact g.valueDecl_type _
  | _ => simp [specEntries, misplacedSpec] at hd

/-- Specs without types of their own only differ in the type that they take over. -/
lemma valueEntries_withType (h : Untyped zone) (type type' : String) :
    (valueEntries file g type zone).map (Entry.withType type') = valueEntries file g type' zone := by
  rw [valueEntries_of_untyped h, valueEntries_of_untyped h, List.map_flatMap]
  simp only [GeneralDecl.specEntries_withType]

lemma valueEntries_type (h : Untyped zone) {type : String} {d : Decl}
    (hd : .decl d ∈ valueEntries file g type zone) : d.declaredType? = some type := by
  rw [valueEntries_of_untyped h] at hd
  obtain ⟨s, -, hd⟩ := List.mem_flatMap.1 hd
  exact GeneralDecl.specEntries_type hd

/-- The specs `zone` take over a type from the specs before, and a type follows them. -/
lemma valueEntries_zone (hrest : StartsTyped rest) (xs : List Spec) :
    valueEntries file g (carriedType xs) (zone ++ rest) =
      valueEntries file g (carriedType xs) zone ++ valueEntries file g "" rest := by
  rw [valueEntries_append, hrest.valueEntries_eq _ ""]

end Source

end GoOutline
