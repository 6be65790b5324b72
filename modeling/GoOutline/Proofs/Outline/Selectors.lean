/-
# What a selector refers to

The package side of a selector is looked up among the imports in three passes: by written names, by
the last segments of paths, and by the segments in front of a version. Each pass takes the first one
that fits. All three look for the name that an import binds, which depends on its path and its
written name alone, so a selector is resolved exactly if some import binds its package side.
-/
import GoOutline.Outline.Import
import Mathlib.Data.List.Basic
import Mathlib.Tactic.Common

namespace List

variable {α : Type} {P : α → Prop} {p : α → Bool} {as : List α} {a : α}

/-- The member `a` is the first one with the property. -/
def IsFirst (P : α → Prop) (as : List α) (a : α) : Prop :=
  ∃ before after, as = before ++ a :: after ∧ P a ∧ ∀ b ∈ before, ¬P b

lemma IsFirst.mem (h : IsFirst P as a) : a ∈ as := by
  obtain ⟨before, after, rfl, -⟩ := h
  simp

lemma IsFirst.prop (h : IsFirst P as a) : P a := by
  obtain ⟨before, after, -, ha, -⟩ := h
  exact ha

lemma isFirst_of_find? (hp : ∀ a, p a = true ↔ P a) (h : as.find? p = some a) : IsFirst P as a := by
  obtain ⟨ha, before, after, rfl, hbefore⟩ := find?_eq_some_iff_append.1 h
  refine ⟨before, after, rfl, (hp a).1 ha, fun b hb hPb => ?_⟩
  have hnot := hbefore b hb
  rw [(hp b).2 hPb] at hnot
  simp at hnot

lemma forall_not_of_find? (hp : ∀ a, p a = true ↔ P a) (h : as.find? p = none) :
    ∀ a ∈ as, ¬P a := by
  intro a ha hPa
  exact find?_eq_none.1 h a ha ((hp a).2 hPa)

lemma IsFirst.append (h : IsFirst P as a) (bs : List α) : IsFirst P (as ++ bs) a := by
  obtain ⟨before, after, rfl, ha, hbefore⟩ := h
  exact ⟨before, after ++ bs, by simp, ha, hbefore⟩

/-- The first result of a partial function comes from the first member that has one. -/
lemma findSome?_eq_some_iff_isFirst {β : Type} {g : α → Option β} {b : β} :
    as.findSome? g = some b ↔ ∃ a, as.IsFirst (fun a => g a ≠ none) a ∧ g a = some b := by
  rw [findSome?_eq_some_iff]
  constructor
  · rintro ⟨before, a, after, rfl, ha, hbefore⟩
    refine ⟨a, ⟨before, after, rfl, by simp [ha], fun x hx => ?_⟩, ha⟩
    exact not_not.2 (hbefore x hx)
  · rintro ⟨a, ⟨before, after, rfl, -, hbefore⟩, ha⟩
    exact ⟨before, a, after, rfl, ha, fun x hx => not_not.1 (hbefore x hx)⟩

/-- A list either lacks a member or can be split where the member occurs last. -/
lemma not_mem_or_eq_append_last (as : List α) (a : α) :
    a ∉ as ∨ ∃ front back, as = front ++ a :: back ∧ a ∉ back := by
  by_cases ha : a ∈ as
  · -- the last occurrence is the first one in the reversed list
    obtain ⟨back, front, heq, hback⟩ := eq_append_cons_of_mem (mem_reverse.2 ha)
    refine .inr ⟨front.reverse, back.reverse, ?_, by simpa using hback⟩
    rw [← reverse_reverse as, heq]
    simp
  · exact .inl ha

end List

namespace GoOutline

/-! ## Cuts -/

variable {sep : Char} {cs front back : List Char}

lemma cutFirst_append (h : sep ∉ front) : cutFirst sep (front ++ sep :: back) = some (front, back) := by
  induction front with
  | nil => simp [cutFirst]
  | cons c front ih =>
    have hc : c ≠ sep := fun heq => h (by simp [heq])
    rw [List.cons_append, cutFirst, if_neg hc, ih fun hmem => h (List.mem_cons_of_mem c hmem)]
    rfl

lemma cutAll_of_not_mem (h : sep ∉ cs) : cutAll sep cs = [cs] := by
  induction cs with
  | nil => rfl
  | cons c cs ih =>
    have hc : c ≠ sep := fun heq => h (by simp [heq])
    rw [cutAll, if_neg hc, ih fun hmem => h (List.mem_cons_of_mem c hmem)]

lemma cutAll_ne_nil (sep : Char) (cs : List Char) : cutAll sep cs ≠ [] := by
  cases cs with
  | nil => simp [cutAll]
  | cons c cs =>
    rw [cutAll]
    split
    · simp
    · split <;> simp

/-- What stands after the last separator is the last part. -/
lemma cutAll_append (h : sep ∉ back) :
    cutAll sep (front ++ sep :: back) = cutAll sep front ++ [back] := by
  induction front with
  | nil => simp [cutAll, cutAll_of_not_mem h]
  | cons c front ih =>
    rw [List.cons_append, cutAll, cutAll, ih]
    -- a character that is no separator goes to the front of the first part, which is not the last
    by_cases hc : c = sep
    · rw [if_pos hc, if_pos hc, List.cons_append]
    · rw [if_neg hc, if_neg hc]
      cases hparts : cutAll sep front with
      | nil => exact absurd hparts (cutAll_ne_nil sep front)
      | cons part parts => rfl

/-! ## Segments of a path -/

/-- The path ends in the segment: there is no slash inside it, and either nothing or a slash in front
of it. -/
inductive LastSegment : (path seg : String) → Prop
  | whole {seg : String} (hseg : '/' ∉ seg.toList) : LastSegment seg seg
  | after (front : String) {seg : String} (hseg : '/' ∉ seg.toList) :
    LastSegment (front ++ "/" ++ seg) seg

/-- The text is a version: one letter and then digits, at least one. -/
def Version (text : String) : Prop :=
  ∃ letter digits, text.toList = letter :: digits ∧ letter.isAlpha ∧ digits ≠ [] ∧
    ∀ c ∈ digits, c.isDigit

/-- The path ends in the segment and a version. -/
inductive Versioned : (path seg : String) → Prop
  | intro {front seg version : String} (hseg : LastSegment front seg) (hversion : Version version) :
    Versioned (front ++ "/" ++ version) seg

variable {path seg text : String}

lemma exists_lastSegment (path : String) : ∃ seg, LastSegment path seg := by
  rcases List.not_mem_or_eq_append_last path.toList '/' with hmem | ⟨front, back, heq, hback⟩
  · exact ⟨path, .whole hmem⟩
  · have hpath : path = String.ofList front ++ "/" ++ String.ofList back := by
      apply String.toList_inj.1
      simp [heq]
    refine ⟨String.ofList back, ?_⟩
    rw [hpath]
    exact .after _ (by simpa using hback)

lemma reverseSegments_of_not_mem (h : '/' ∉ seg.toList) : reverseSegments seg = [seg.toList] := by
  rw [reverseSegments, cutAll_of_not_mem h, List.reverse_singleton]

lemma reverseSegments_append (front : String) (h : '/' ∉ seg.toList) :
    reverseSegments (front ++ "/" ++ seg) = seg.toList :: reverseSegments front := by
  have hlist : (front ++ "/" ++ seg).toList = front.toList ++ '/' :: seg.toList := by simp
  rw [reverseSegments, hlist, cutAll_append h, List.reverse_append, List.reverse_singleton,
    List.singleton_append, reverseSegments]

lemma LastSegment.reverseSegments_eq (h : LastSegment path seg) :
    ∃ rest, reverseSegments path = seg.toList :: rest := by
  cases h with
  | whole hseg => exact ⟨[], reverseSegments_of_not_mem hseg⟩
  | after front hseg => exact ⟨_, reverseSegments_append front hseg⟩

lemma lastSegment_eq_iff : lastSegment path = seg ↔ LastSegment path seg := by
  have hof {seg : String} (h : LastSegment path seg) : lastSegment path = seg := by
    obtain ⟨rest, hrest⟩ := h.reverseSegments_eq
    rw [lastSegment, hrest, List.headD_cons, String.ofList_toList]
  refine ⟨fun heq => ?_, hof⟩
  obtain ⟨seg', hseg'⟩ := exists_lastSegment path
  rw [← heq, hof hseg']
  exact hseg'

lemma isVersion_iff : isVersion text.toList = true ↔ Version text := by
  cases hlist : text.toList with
  | nil => simp [isVersion, Version, hlist]
  | cons c cs =>
    simp only [isVersion, Version, hlist, Bool.and_eq_true, List.all_eq_true]
    constructor
    · rintro ⟨⟨hc, hne⟩, hdigits⟩
      exact ⟨c, cs, rfl, hc, by simpa using hne, hdigits⟩
    · rintro ⟨letter, digits, heq, hc, hne, hdigits⟩
      obtain ⟨rfl, rfl⟩ := List.cons.inj heq
      exact ⟨⟨hc, by simpa using hne⟩, hdigits⟩

lemma Version.slash_not_mem (h : Version text) : '/' ∉ text.toList := by
  obtain ⟨letter, digits, hlist, hletter, -, hdigits⟩ := h
  rw [hlist]
  intro hmem
  rcases List.mem_cons.1 hmem with rfl | hmem
  · exact absurd hletter (by decide)
  · exact absurd (hdigits _ hmem) (by decide)

/-- The segment in front of a version, for a path that is cut at its last slash. -/
lemma segmentBeforeVersion?_append {front version : String} (hseg : LastSegment front seg)
    (hversion : '/' ∉ version.toList) :
    segmentBeforeVersion? (front ++ "/" ++ version) =
      if isVersion version.toList then some seg else none := by
  obtain ⟨rest, hrest⟩ := hseg.reverseSegments_eq
  rw [segmentBeforeVersion?, reverseSegments_append front hversion, hrest]
  simp only [String.ofList_toList]

lemma segmentBeforeVersion?_eq_some_iff :
    segmentBeforeVersion? path = some seg ↔ Versioned path seg := by
  constructor
  · intro h
    obtain ⟨last, hlast⟩ := exists_lastSegment path
    cases hlast with
    | whole hpath =>
      rw [segmentBeforeVersion?, reverseSegments_of_not_mem hpath] at h
      simp at h
    | after front hversion =>
      -- the last segment of what stands in front of the last slash
      obtain ⟨seg', hseg'⟩ := exists_lastSegment front
      rw [segmentBeforeVersion?_append hseg' hversion] at h
      split at h
      · rename_i hv
        obtain rfl := Option.some.inj h
        exact ⟨hseg', isVersion_iff.1 hv⟩
      · simp at h
  · rintro ⟨hseg, hversion⟩
    rw [segmentBeforeVersion?_append hseg hversion.slash_not_mem, if_pos (isVersion_iff.2 hversion)]

lemma segmentBeforeVersion?_eq_none_iff :
    segmentBeforeVersion? path = none ↔ ∀ seg, ¬Versioned path seg := by
  rw [Option.eq_none_iff_forall_ne_some]
  exact forall_congr' fun seg => not_congr segmentBeforeVersion?_eq_some_iff

/-! ## Names of imports -/

namespace Import

variable {pkg : String} {i : Import}

/-- The name that the import binds: the written one, or else the one that the path suggests. -/
def boundName (i : Import) : String := i.alias?.getD i.defaultName

/-- The import has the written name `pkg`, and this is a name that can be referred to. -/
def Bears (pkg : String) (i : Import) : Prop := i.alias? = some pkg ∧ pkg ≠ "." ∧ pkg ≠ "_"

/-- The import has no written name, its path is not versioned and ends in `pkg`. -/
def Ends (pkg : String) (i : Import) : Prop :=
  i.alias? = none ∧ (∀ seg, ¬Versioned i.path seg) ∧ LastSegment i.path pkg

/-- The import has no written name, and its path ends in `pkg` and a version. -/
def EndsVersioned (pkg : String) (i : Import) : Prop := i.alias? = none ∧ Versioned i.path pkg

lemma alias?_eq_some (h : i.alias? = some pkg) : i.name = pkg := by
  rw [alias?] at h
  split at h
  · simp at h
  · exact Option.some.inj h

lemma isNamed_iff : i.isNamed pkg = true ↔ i.Bears pkg := by
  simp only [isNamed, isDot, isBlank, Bears, Bool.and_eq_true, Bool.not_eq_true', beq_eq_false_iff_ne,
    beq_iff_eq]
  constructor
  · rintro ⟨⟨hdot, hblank⟩, halias⟩
    rw [alias?_eq_some halias] at hdot hblank
    exact ⟨halias, hdot, hblank⟩
  · rintro ⟨halias, hdot, hblank⟩
    rw [alias?_eq_some halias]
    exact ⟨⟨hdot, hblank⟩, halias⟩

lemma endsIn_iff : i.endsIn pkg = true ↔ i.Ends pkg := by
  rw [endsIn, Bool.and_eq_true, Bool.and_eq_true, Option.isNone_iff_eq_none,
    Option.isNone_iff_eq_none, segmentBeforeVersion?_eq_none_iff, beq_iff_eq, lastSegment_eq_iff,
    and_assoc]
  rfl

lemma endsInVersionOf_iff : i.endsInVersionOf pkg = true ↔ i.EndsVersioned pkg := by
  rw [endsInVersionOf, Bool.and_eq_true, Option.isNone_iff_eq_none, beq_iff_eq,
    segmentBeforeVersion?_eq_some_iff]
  rfl

/-- The import binds the name `pkg`, and a selector can refer to it. -/
structure Binds (pkg : String) (i : Import) : Prop where
  dot : i.isDot = false
  blank : i.isBlank = false
  name : i.boundName = pkg

lemma binds_iff_bears {name : String} (h : i.alias? = some name) : i.Binds pkg ↔ i.Bears pkg := by
  have hname := alias?_eq_some h
  have hbound : i.boundName = name := by rw [boundName, h, Option.getD_some]
  constructor
  · rintro ⟨hdot, hblank, rfl⟩
    rw [isDot, hname, ← hbound, beq_eq_false_iff_ne] at hdot
    rw [isBlank, hname, ← hbound, beq_eq_false_iff_ne] at hblank
    exact ⟨h.trans (congrArg some hbound.symm), hdot, hblank⟩
  · rintro ⟨hpkg, hdot, hblank⟩
    obtain rfl := Option.some.inj (hpkg.symm.trans h)
    refine ⟨?_, ?_, hbound⟩
    · rwa [isDot, hname, beq_eq_false_iff_ne]
    · rwa [isBlank, hname, beq_eq_false_iff_ne]

lemma binds_iff_defaultName (h : i.alias? = none) : i.Binds pkg ↔ i.defaultName = pkg := by
  have hname : i.name = "" := by
    rw [alias?] at h
    split at h
    · assumption
    · simp at h
  have hbound : i.boundName = i.defaultName := by rw [boundName, h, Option.getD_none]
  rw [← hbound]
  exact ⟨Binds.name, fun heq => ⟨by simp [isDot, hname], by simp [isBlank, hname], heq⟩⟩

lemma defaultName_eq_iff : i.defaultName = pkg ↔
    ((∀ seg, ¬Versioned i.path seg) ∧ LastSegment i.path pkg) ∨ Versioned i.path pkg := by
  rw [← segmentBeforeVersion?_eq_none_iff, ← segmentBeforeVersion?_eq_some_iff,
    ← lastSegment_eq_iff, defaultName]
  cases segmentBeforeVersion? i.path <;> simp

/-- The bound name is what one of the three passes looks for. -/
lemma binds_iff : i.Binds pkg ↔ i.Bears pkg ∨ i.Ends pkg ∨ i.EndsVersioned pkg := by
  cases h : i.alias? with
  | some name =>
    rw [binds_iff_bears h]
    simp [Ends, EndsVersioned, h]
  | none =>
    rw [binds_iff_defaultName h, defaultName_eq_iff]
    simp [Bears, Ends, EndsVersioned, h]

end Import

/-! ## Resolution -/

/-- What the package side of a selector refers to among some imports. -/
inductive Resolves (imports : List Import) (pkg : String) : Option Import → Prop
  | written {i : Import} (hi : imports.IsFirst (Import.Bears pkg) i) :
    Resolves imports pkg (some i)
  | segment {i : Import} (hwritten : ∀ j ∈ imports, ¬j.Bears pkg)
    (hi : imports.IsFirst (Import.Ends pkg) i) : Resolves imports pkg (some i)
  | versioned {i : Import} (hwritten : ∀ j ∈ imports, ¬j.Bears pkg)
    (hsegment : ∀ j ∈ imports, ¬j.Ends pkg)
    (hi : imports.IsFirst (Import.EndsVersioned pkg) i) : Resolves imports pkg (some i)
  | none (hwritten : ∀ j ∈ imports, ¬j.Bears pkg) (hsegment : ∀ j ∈ imports, ¬j.Ends pkg)
    (hversioned : ∀ j ∈ imports, ¬j.EndsVersioned pkg) : Resolves imports pkg none

/-- The selector has the package side `pkg`: its first dot stands after `pkg`, and neither side of it
is empty. -/
structure Selects (selector pkg : String) : Prop where
  dot : '.' ∉ pkg.toList
  package : pkg ≠ ""
  split : ∃ name, name ≠ "" ∧ selector = pkg ++ "." ++ name

variable {imports : List Import} {selector pkg : String} {i : Import} {r : Option Import}

lemma cutText_dot {name : String} (h : '.' ∉ pkg.toList) :
    cutText '.' (pkg ++ "." ++ name) = some (pkg, name) := by
  have hlist : (pkg ++ "." ++ name).toList = pkg.toList ++ '.' :: name.toList := by simp
  rw [cutText, hlist, cutFirst_append h]
  simp

lemma Selects.splitSelector_eq (h : Selects selector pkg) :
    ∃ name, splitSelector selector = some (pkg, name) := by
  obtain ⟨name, hname, rfl⟩ := h.split
  refine ⟨name, ?_⟩
  rw [splitSelector, cutText_dot h.dot]
  simp [h.package, hname]

lemma splitSelector_of_no_dot (h : '.' ∉ selector.toList) : splitSelector selector = none := by
  rw [splitSelector, cutText, cutFirst_eq_none_iff.2 h]
  rfl

lemma splitSelector_of_empty_side {name : String} (h : '.' ∉ pkg.toList)
    (hempty : pkg = "" ∨ name = "") : splitSelector (pkg ++ "." ++ name) = none := by
  rw [splitSelector, cutText_dot h]
  exact if_pos hempty

/-- The three passes in their order. -/
lemma Selects.resolves (h : Selects selector pkg) :
    Resolves imports pkg (resolveImport imports selector) := by
  obtain ⟨name, hsplit⟩ := h.splitSelector_eq
  rw [resolveImport, hsplit]
  show Resolves imports pkg ((imports.find? (Import.isNamed pkg)).or _)
  -- a pass is reached only if the ones before it have found nothing
  cases hwritten : imports.find? (Import.isNamed pkg) with
  | some i => exact .written (List.isFirst_of_find? (fun _ => Import.isNamed_iff) hwritten)
  | none =>
    have hwritten := List.forall_not_of_find? (fun _ => Import.isNamed_iff) hwritten
    rw [Option.none_or]
    cases hsegment : imports.find? (Import.endsIn pkg) with
    | some i =>
      exact .segment hwritten (List.isFirst_of_find? (fun _ => Import.endsIn_iff) hsegment)
    | none =>
      have hsegment := List.forall_not_of_find? (fun _ => Import.endsIn_iff) hsegment
      rw [Option.none_or]
      cases hversioned : imports.find? (Import.endsInVersionOf pkg) with
      | some i =>
        exact .versioned hwritten hsegment
          (List.isFirst_of_find? (fun _ => Import.endsInVersionOf_iff) hversioned)
      | none =>
        exact .none hwritten hsegment
          (List.forall_not_of_find? (fun _ => Import.endsInVersionOf_iff) hversioned)

/-- What is found binds the name. -/
lemma Resolves.found (h : Resolves imports pkg (some i)) : i ∈ imports ∧ i.Binds pkg := by
  cases h with
  | written hi => exact ⟨hi.mem, Import.binds_iff.2 (.inl hi.prop)⟩
  | segment _ hi => exact ⟨hi.mem, Import.binds_iff.2 (.inr (.inl hi.prop))⟩
  | versioned _ _ hi => exact ⟨hi.mem, Import.binds_iff.2 (.inr (.inr hi.prop))⟩

/-- An import is found if one binds the name. -/
lemma Resolves.isSome_iff (h : Resolves imports pkg r) :
    r.isSome = true ↔ ∃ i ∈ imports, i.Binds pkg := by
  cases r with
  | some i => exact ⟨fun _ => ⟨i, h.found⟩, fun _ => rfl⟩
  | none =>
    refine ⟨fun hsome => by simp at hsome, ?_⟩
    rintro ⟨i, hi, hbinds⟩
    cases h with
    | none hwritten hsegment hversioned =>
      rcases Import.binds_iff.1 hbinds with hbears | hends | hends
      · exact absurd hbears (hwritten i hi)
      · exact absurd hends (hsegment i hi)
      · exact absurd hends (hversioned i hi)

end GoOutline
