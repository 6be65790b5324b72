/-
# Selecting by type

Declarations are selected by the texts of their types, and the embedded types of an interface are
stored by their texts. Where the types are plain it makes no difference whether one compares texts or
types: a union is left out of an interface only if the same union came before, and what is declared
with a plain type is selected by the text of a type exactly if it is declared with this type. What
else is in the package, and how it is declared, does not matter.
-/
import GoOutline.Program.Query
import GoOutline.Proofs.Outline.Faultless
import GoOutline.Proofs.Outline.InterfaceMembers
import GoOutline.Proofs.Program.Load
import GoOutline.Proofs.Source.Readability
import GoOutline.Tree.Script

namespace GoOutline

open Source (TypeExpr TypeTerm InterfaceElem unionText)

/-! ## Embedded types -/

lemma collect_of_mem {V : Type} {m : OrderedMap V} {key : String} (hmem : key ∈ m.keys)
    (label : String) (value : V) :
    collect m [.entry key label value] = (m, [.redeclared label]) := by
  simp only [collect, OrderedMap.insertNew_of_mem hmem]

lemma collect_of_not_mem {V : Type} {m : OrderedMap V} {key : String} (hmem : key ∉ m.keys)
    (label : String) (value : V) : collect m [.entry key label value] =
      (m.push key value (OrderedMap.contains_eq_false_iff.2 hmem), []) := by
  simp only [collect, OrderedMap.insertNew_of_not_mem hmem]

/-- The field of an embedded union. -/
def embedField (terms : List TypeTerm) : Field := { type := unionText terms, unnamed := true }

namespace InterfaceMembers

variable {file : FileId} {m : InterfaceMembers} {terms : List TypeTerm}

lemma add_union_of_mem (hmem : unionText terms ∈ m.embeds.keys) :
    m.add file (.union terms) =
      { m with issues := m.issues ++ [.redeclared (unionText terms)] } := by
  simp only [add, collect_of_mem hmem]

lemma add_union_of_not_mem (hmem : unionText terms ∉ m.embeds.keys) :
    m.add file (.union terms) = { m with
      embeds := m.embeds.push (unionText terms) (embedField terms)
        (OrderedMap.contains_eq_false_iff.2 hmem) } := by
  simp only [add, collect_of_not_mem hmem, List.append_nil]
  rfl

end InterfaceMembers

/-- The embedded types are stored under the texts of the unions. -/
lemma mem_embeds_keys {file : FileId} {elems : List InterfaceElem} {key : String} :
    key ∈ (outlineInterface file elems).embeds.keys ↔
      ∃ terms, InterfaceElem.union terms ∈ elems ∧ unionText terms = key := by
  rw [(outlineInterface_splits file elems).embeds.keys, List.mem_eraseDups, InterfaceElem.embed?_keys,
    List.mem_map]
  constructor
  · rintro ⟨e, he, rfl⟩
    obtain ⟨hin, hkind⟩ := List.mem_filter.1 he
    cases e with
    | method => simp [InterfaceElem.isMethod] at hkind
    | union terms => exact ⟨terms, hin, rfl⟩
  · rintro ⟨terms, hin, rfl⟩
    exact ⟨.union terms, List.mem_filter.2 ⟨hin, rfl⟩, rfl⟩

/-- All unions among the elements are plain. -/
def PlainUnions (elems : List InterfaceElem) : Prop :=
  ∀ terms, InterfaceElem.union terms ∈ elems → ∀ t ∈ terms, t.Plain

/-- A union that follows the elements `before` is left out and reported if it is one of them, and
else it is stored behind the others. -/
structure EmbedsOnce (file : FileId) (before : List InterfaceElem) (terms : List TypeTerm) :
    Prop where
  dropped : .union terms ∈ before → outlineInterface file (before ++ [.union terms]) =
    { outlineInterface file before with
      issues := (outlineInterface file before).issues ++ [.redeclared (unionText terms)] }
  stored : .union terms ∉ before → ∃ fresh, outlineInterface file (before ++ [.union terms]) =
    { outlineInterface file before with
      embeds := (outlineInterface file before).embeds.push (unionText terms) (embedField terms)
        fresh }

lemma PlainUnions.embedsOnce {before : List InterfaceElem} {terms : List TypeTerm}
    (h : PlainUnions (before ++ [.union terms])) (file : FileId) : EmbedsOnce file before terms := by
  have hmem : unionText terms ∈ (outlineInterface file before).embeds.keys ↔
      .union terms ∈ before := by
    rw [mem_embeds_keys]
    constructor
    · rintro ⟨ts, hts, htext⟩
      -- equal texts of plain unions come from equal unions
      have heq := (Source.unionText_inj (h ts (by simp [hts])) (h terms (by simp))).1 htext
      rw [← heq]
      exact hts
    · exact fun hin => ⟨terms, hin, rfl⟩
  refine ⟨fun hin => ?_, fun hnot => ?_⟩
  · rw [outlineInterface_concat, InterfaceMembers.add_union_of_mem (hmem.2 hin)]
  · have hkey : unionText terms ∉ (outlineInterface file before).embeds.keys :=
      fun hkey => hnot (hmem.1 hkey)
    exact ⟨_, by rw [outlineInterface_concat, InterfaceMembers.add_union_of_not_mem hkey]⟩

/-! ## Declared types -/

namespace Source

/-- The type that a spec itself gives to the names it declares. -/
def Spec.type? : Spec → Option TypeExpr
  | .value s => s.type
  | _ => none

/-- The type that the nearest typed one of some specs gives. -/
def carriedExpr? (specs : List Spec) : Option TypeExpr := specs.reverse.findSome? Spec.type?

/-- The declarations of a general declaration with the types that they are declared with. -/
def GeneralDecl.typings (file : FileId) (g : GeneralDecl) : List (Decl × Option TypeExpr) :=
  match g.group with
  | .imports => []
  | .types => g.specs.filterMap fun
    | .type s => some ((s.outline file g).1, some s.type)
    | _ => none
  | _ => (g.specs.mapBefore fun before s =>
      (g.valueDecls file before s).map (·, carriedExpr? (before ++ [s]))).flatten

/-- The declarations of a top-level declaration with the types that they are declared with. -/
def TopDecl.typings (file : FileId) : TopDecl → List (Decl × Option TypeExpr)
  | .general g => g.typings file
  | .func f => [((f.outline file).1, none)]
  | .bad => []

lemma carriedType_eq (specs : List Spec) :
    carriedType specs = (carriedExpr? specs).elim "" TypeExpr.text := by
  have htext : Spec.typeText? = Option.map TypeExpr.text ∘ Spec.type? := by
    funext s
    cases s <;> rfl
  rw [carriedType, carriedExpr?, htext, ← List.map_findSome?]
  cases specs.reverse.findSome? Spec.type? <;> rfl

lemma GeneralDecl.typings_fst (file : FileId) (g : GeneralDecl) :
    (g.typings file).map Prod.fst = g.decls file := by
  have hvalues : ((g.specs.mapBefore fun before s =>
      (g.valueDecls file before s).map (·, carriedExpr? (before ++ [s]))).flatten).map Prod.fst =
        (g.specs.mapBefore (g.valueDecls file)).flatten := by
    simp only [List.map_flatten, List.mapBefore, List.map_map, Function.comp_def, List.map_id']
  cases hgroup : g.group with
  | imports => simp only [typings, decls, hgroup, List.map_nil]
  | types =>
    simp only [typings, decls, hgroup, List.map_filterMap]
    refine List.filterMap_congr fun s _ => ?_
    cases s <;> rfl
  | consts => simpa only [typings, decls, hgroup] using hvalues
  | vars => simpa only [typings, decls, hgroup] using hvalues

lemma TopDecl.typings_fst (file : FileId) (x : TopDecl) :
    (x.typings file).map Prod.fst = x.decls file := by
  cases x with
  | general g => exact g.typings_fst file
  | func f => rfl
  | bad => rfl

/-- The text of the type with which something is declared, empty if there is none. -/
def typingText (type : Option TypeExpr) : String := type.elim "" TypeExpr.text

lemma GeneralDecl.valueDecls_type {file : FileId} {g : GeneralDecl} {before : List Spec} {s : Spec}
    {d : Decl} (hd : d ∈ g.valueDecls file before s) :
    d.declaredType? = some (typingText (carriedExpr? (before ++ [s]))) := by
  cases s with
  | value s =>
    obtain ⟨v, -, rfl⟩ := List.mem_map.1 hd
    rw [typingText, ← carriedType_eq, GeneralDecl.valueDecl_type]
  | _ => simp [valueDecls] at hd

lemma TypeSpec.outline_type {file : FileId} {g : GeneralDecl} {s : TypeSpec} {text : String}
    (h : (s.outline file g).1.declaredType? = some text) : text = s.type.text := by
  simp only [outline] at h
  split at h
  · simp [Decl.declaredType?] at h
  · simp [Decl.declaredType?] at h
  · exact (Option.some.inj h).symm

lemma FuncDecl.outline_type (file : FileId) (f : FuncDecl) :
    (f.outline file).1.declaredType? = none := by
  simp only [outline]
  split <;> rfl

/-- The outline of a declaration shows the text of the type that it is declared with. -/
lemma TopDecl.typings_text {file : FileId} {x : TopDecl} {d : Decl} {type : Option TypeExpr}
    (h : (d, type) ∈ x.typings file) {text : String} (htext : d.declaredType? = some text) :
    text = typingText type := by
  cases x with
  | bad => simp [typings] at h
  | func f =>
    obtain ⟨rfl, -⟩ := Prod.mk.inj (List.mem_singleton.1 h)
    rw [FuncDecl.outline_type] at htext
    simp at htext
  | general g =>
    -- constants and variables are declared alike
    have hvalues : (d, type) ∈ (g.specs.mapBefore fun before s =>
        (g.valueDecls file before s).map (·, carriedExpr? (before ++ [s]))).flatten →
          text = typingText type := by
      intro h
      obtain ⟨ds, hds, h⟩ := List.mem_flatten.1 h
      obtain ⟨⟨s, i⟩, -, rfl⟩ := List.mem_map.1 hds
      obtain ⟨e, he, heq⟩ := List.mem_map.1 h
      obtain ⟨rfl, rfl⟩ := Prod.mk.inj heq
      exact Option.some.inj (htext.symm.trans (GeneralDecl.valueDecls_type he))
    cases hgroup : g.group with
    | imports => simp [typings, GeneralDecl.typings, hgroup] at h
    | consts => exact hvalues (by simpa [typings, GeneralDecl.typings, hgroup] using h)
    | vars => exact hvalues (by simpa [typings, GeneralDecl.typings, hgroup] using h)
    | types =>
      simp only [typings, GeneralDecl.typings, hgroup, List.mem_filterMap] at h
      obtain ⟨s, -, hs⟩ := h
      cases s with
      | type s =>
        obtain ⟨rfl, rfl⟩ := Prod.mk.inj (Option.some.inj hs)
        exact TypeSpec.outline_type htext
      | _ => simp at hs

end Source

/-- The declarations of a tree with the types that they are declared with. -/
def Tree.typings (t : Tree) (file : FileId) : List (Decl × Option TypeExpr) :=
  t.sourceFile.decls.flatMap (Source.TopDecl.typings file)

lemma Tree.typings_fst (t : Tree) (file : FileId) :
    (t.typings file).map Prod.fst = t.declarations file := by
  rw [typings, declarations, List.map_flatMap]
  exact List.flatMap_congr fun x _ => x.typings_fst file

lemma Tree.typings_text {t : Tree} {file : FileId} {d : Decl} {type : Option TypeExpr}
    (h : (d, type) ∈ t.typings file) {text : String} (htext : d.declaredType? = some text) :
    text = Source.typingText type := by
  obtain ⟨x, -, hx⟩ := List.mem_flatMap.1 h
  exact Source.TopDecl.typings_text hx htext

/-! ## Stored declarations -/

lemma OrderedMap.Lists.mem_values {V : Type} {m : OrderedMap V} {policy : Redeclaration}
    {ps : List (String × V)} (h : m.Lists policy.value? ps) {value : V} (hvalue : value ∈ m.values) :
    value ∈ ps.map Prod.snd := by
  obtain ⟨e, he, rfl⟩ := List.mem_map.1 hvalue
  exact List.mem_map_of_mem (h.mem_pairs he)

lemma File.mem_declarations {policy : Redeclaration} {id : FileId} {package : String} {t : Tree}
    {d : Decl} (hd : d ∈ (File.ofTree policy id package t).decls.values) :
    d ∈ t.declarations id := by
  have hmem := (ofTree_stores policy id package t).decls.mem_values hd
  rwa [t.filings_pairs, keyed_map_snd] at hmem

namespace PackageInput

variable {policy : Redeclaration} {n : Nat} {input : PackageInput} {pkg : Package}

/-- The declarations of the package in position `n` with the types that they are declared with. -/
def typings (n : Nat) (input : PackageInput) : List (Decl × Option TypeExpr) :=
  input.trees.zipIdx.flatMap fun (t, i) => t.typings ⟨n, i⟩

lemma LoadedAs.exists_typing (h : input.LoadedAs policy n pkg) {d : Decl} (hd : d ∈ pkg.decls) :
    ∃ type, (d, type) ∈ input.typings n := by
  obtain ⟨f, hf, hd⟩ := List.mem_flatMap.1 hd
  rw [h.files_values] at hf
  obtain ⟨⟨t, i⟩, hti, rfl⟩ := List.mem_map.1 hf
  have hdecl := File.mem_declarations hd
  rw [← t.typings_fst] at hdecl
  obtain ⟨⟨_, type⟩, htyping, rfl⟩ := List.mem_map.1 hdecl
  exact ⟨type, List.mem_flatMap.2 ⟨(t, i), hti, htyping⟩⟩

/-- The types that the declaration is declared with are plain. -/
def DeclaresPlain (n : Nat) (input : PackageInput) (d : Decl) : Prop :=
  ∀ y, (d, some y) ∈ input.typings n → y.Plain

lemma typings_text {d : Decl} {type : Option TypeExpr} (h : (d, type) ∈ input.typings n)
    {text : String} (htext : d.declaredType? = some text) : text = Source.typingText type := by
  obtain ⟨⟨t, i⟩, -, hx⟩ := List.mem_flatMap.1 h
  exact Tree.typings_text hx htext

end PackageInput

/-! ## Selections -/

/-- The declaration of a kind that something is part of. -/
def DeclKind.decl : (k : DeclKind) → k.Payload → Decl
  | .var, d => .var d
  | .const, d => .const d
  | .type, d => .type d
  | .func, d => .func d
  | .method, d => .method d
  | .struct, d => .struct d
  | .interface, d => .interface d

lemma Decl.eq_of_as? {k : DeclKind} {d : Decl} {v : k.Payload} (h : d.as? k = some v) :
    d = k.decl v := by
  unfold as? at h
  split at h <;> first | exact congrArg _ (Option.some.inj h) | simp at h

section Selections

variable {p : Program} {policy : Redeclaration} {n : Nat} {input : PackageInput} {pkg : Package}
  {x : TypeExpr}

lemma Program.mem_payloadsIn {k : DeclKind} {path : String} (hget : p.package? path = some pkg)
    {v : k.Payload} (hv : v ∈ p.payloadsIn path k) : k.decl v ∈ pkg.decls := by
  simp only [payloadsIn, packageDecls, hget, Option.map_some, Option.getD_some,
    List.mem_filterMap] at hv
  obtain ⟨d, hd, hv⟩ := hv
  rw [← Decl.eq_of_as? hv]
  exact hd

/-- What is declared with a plain type is selected by the text of a plain type exactly if these are
the same type. -/
lemma PackageInput.LoadedAs.text_eq_iff (hpkg : input.LoadedAs policy n pkg) {d : Decl}
    (hd : d ∈ pkg.decls) {text : String} (htext : d.declaredType? = some text)
    (hplain : input.DeclaresPlain n d) (hx : x.Plain) :
    text = x.text ↔ (d, some x) ∈ input.typings n := by
  constructor
  · rintro rfl
    -- without a type the text would be empty, which that of `x` is not
    obtain ⟨type, htype⟩ := hpkg.exists_typing hd
    have heq := PackageInput.typings_text htype htext
    cases type with
    | none => exact absurd heq hx.text_ne_empty
    | some y =>
      obtain rfl := (hx.text_inj (hplain y htype)).1 heq
      exact htype
  · exact fun h => PackageInput.typings_text h htext

open Classical in
/-- Of what is declared with plain types, the selection of a kind by the text of a type is that of
what is declared with this type. -/
lemma PackageInput.LoadedAs.filter_text (hpkg : input.LoadedAs policy n pkg)
    (hget : p.package? input.path = some pkg) (k : DeclKind) {text : k.Payload → String}
    (htext : ∀ v, (k.decl v).declaredType? = some (text v)) (hx : x.Plain) :
    (((p.payloadsIn input.path k).filter fun v => text v == x.text).filter fun v =>
        input.DeclaresPlain n (k.decl v)) =
      (p.payloadsIn input.path k).filter fun v =>
        input.DeclaresPlain n (k.decl v) ∧ (k.decl v, some x) ∈ input.typings n := by
  rw [List.filter_filter]
  refine List.filter_congr fun v hv => ?_
  rw [Bool.eq_iff_iff, Bool.and_eq_true, decide_eq_true_iff, decide_eq_true_iff, beq_iff_eq]
  refine and_congr_right fun hplain => ?_
  exact hpkg.text_eq_iff (Program.mem_payloadsIn hget hv) (htext v) hplain hx

open Classical in
/-- Whatever a package contains is declared with a type or without one. Of the variables, constants
and types that are declared with plain types, those that are selected by the text of the type `x` are
those that are declared with `x`. -/
structure Program.SelectsByType (p : Program) (n : Nat) (input : PackageInput) (x : TypeExpr) :
    Prop where
  declared : ∀ k v, v ∈ p.payloadsIn input.path k → ∃ type, (k.decl v, type) ∈ input.typings n
  vars : ((p.varsOfType input.path x.text).filter fun v => input.DeclaresPlain n (.var v)) =
    (p.payloadsIn input.path .var).filter fun v =>
      input.DeclaresPlain n (.var v) ∧ (.var v, some x) ∈ input.typings n
  consts : ((p.constsOfType input.path x.text).filter fun v => input.DeclaresPlain n (.const v)) =
    (p.payloadsIn input.path .const).filter fun v =>
      input.DeclaresPlain n (.const v) ∧ (.const v, some x) ∈ input.typings n
  types : ((p.typesOfType input.path x.text).filter fun v => input.DeclaresPlain n (.type v)) =
    (p.payloadsIn input.path .type).filter fun v =>
      input.DeclaresPlain n (.type v) ∧ (.type v, some x) ∈ input.typings n

lemma PackageInput.LoadedAs.selectsByType (hpkg : input.LoadedAs policy n pkg)
    (hget : p.package? input.path = some pkg) (hx : x.Plain) : p.SelectsByType n input x where
  declared _ _ hv := hpkg.exists_typing (Program.mem_payloadsIn hget hv)
  vars := hpkg.filter_text hget .var (fun _ => rfl) hx
  consts := hpkg.filter_text hget .const (fun _ => rfl) hx
  types := hpkg.filter_text hget .type (fun _ => rfl) hx

end Selections

/-- Plain types can be told apart by their texts. So can unions of them, and therefore interfaces
embed plain unions once each, and a loaded program selects by type what it selects by text. -/
theorem plain_types_by_text :
    (∀ x y : TypeExpr, x.Plain → y.Plain → (x.text = y.text ↔ x = y)) ∧
    (∀ ts us : List TypeTerm, (∀ t ∈ ts, t.Plain) → (∀ u ∈ us, u.Plain) →
      (unionText ts = unionText us ↔ ts = us)) ∧
    (∀ file before terms, PlainUnions (before ++ [.union terms]) → EmbedsOnce file before terms) ∧
    ∀ config types inputs p, load config types inputs = .ok p →
      ∀ input n, (input, n) ∈ inputs.zipIdx → ∀ x : TypeExpr, x.Plain →
        p.SelectsByType n input x := by
  refine ⟨fun x y hx hy => hx.text_inj hy, fun ts us => Source.unionText_inj,
    fun file before terms h => h.embedsOnce file, fun config types inputs p hload => ?_⟩
  obtain ⟨-, hloaded, -⟩ := load_eq_ok_iff.1 hload
  intro input n hinput x hx
  obtain ⟨pkg, hget, hpkg⟩ := hloaded.get? hinput
  exact hpkg.selectsByType hget hx

/-- The script of four variables, two of which are slices. The type of the third one is taken over
from the one before it, and that of the last one is not plain. -/
def Step.slicesAndArrays : List Step :=
  [.named "int", .array "16" 0, .slice 0, .valueSpec ["a"] (some 1) [], .valueSpec ["b"] (some 2) [],
    .valueSpec ["c"] none [], .signature [] [], .funcType 6, .valueSpec ["f"] (some 7) [],
    .declGroup .vars [3, 4, 5, 8]]

open Classical in
theorem plain_types_by_text_slices :
    ∃ b, (Progress.mk (.start "a.go" "main") #[]).run Step.slicesAndArrays = some b ∧
      let input : PackageInput := ⟨"main", "example/main", [b.builder.finish], []⟩
      let int : TypeExpr := .named none "int" []
      ∃ p, load ⟨.strict, .replace⟩ none [input] = .ok p ∧
        (p.payloadsIn "example/main" .var).map (fun v => (v.name, v.type)) =
          [("a", "[16]int"), ("b", "[]int"), ("c", "[]int"), ("f", "func()")] ∧
        (p.varsOfType "example/main" "[]int").map (·.name) = ["b", "c"] ∧
        (∀ v ∈ p.varsOfType "example/main" "[]int", input.DeclaresPlain 0 (.var v)) ∧
        p.varsOfType "example/main" "[]int" = (p.payloadsIn "example/main" .var).filter (fun v =>
          input.DeclaresPlain 0 (.var v) ∧ (.var v, some (.slice int)) ∈ input.typings 0) ∧
        EmbedsOnce ⟨0, 0⟩ [.union [.mk true int]] [.mk false int] := by
  have hrun : ((Progress.mk (.start "a.go" "main") #[]).run Step.slicesAndArrays).any fun b =>
      let input : PackageInput := ⟨"main", "example/main", [b.builder.finish], []⟩
      ((input.typings 0).all fun e => e.1.name == "f" || e.2.all TypeExpr.isPlain) &&
        match load ⟨.strict, .replace⟩ none [input] with
        | .ok p =>
          (p.payloadsIn "example/main" .var).map (fun v => (v.name, v.type)) =
              [("a", "[16]int"), ("b", "[]int"), ("c", "[]int"), ("f", "func()")] &&
            (p.varsOfType "example/main" "[]int").map (·.name) = ["b", "c"]
        | .error _ => false := by
    decide +kernel
  have hint : (TypeExpr.named none "int" []).Plain := by decide +kernel
  obtain ⟨b, hb, hcheck⟩ := (Option.any_eq_true _ _).1 hrun
  rw [Bool.and_eq_true] at hcheck
  obtain ⟨htypes, hcheck⟩ := hcheck
  refine ⟨b, hb, ?_⟩
  intro input int
  obtain ⟨-, -, hembeds, hselects⟩ := plain_types_by_text
  cases hload : load ⟨.strict, .replace⟩ none [input] with
  | error e => simp [input, hload] at hcheck
  | ok p =>
    simp only [hload, input, Bool.and_eq_true, decide_eq_true_eq] at hcheck
    obtain ⟨hvars, hnames⟩ := hcheck
    have hplain : ∀ v ∈ p.varsOfType "example/main" "[]int", input.DeclaresPlain 0 (.var v) := by
      intro v hv y hy
      have hname : v.name ∈ ["b", "c"] := hnames ▸ List.mem_map_of_mem hv
      have hne : (v.name == "f") = false := by
        rcases List.mem_pair.1 hname with hname | hname <;> rw [hname] <;> rfl
      have hcheck := List.all_eq_true.1 htypes _ hy
      rw [show (Decl.var v).name = v.name from rfl, hne, Bool.false_or] at hcheck
      exact y.plain_of_isPlain (by simpa using hcheck)
    have hselected := (hselects _ _ _ _ hload input 0 (by simp) (.slice int) (.slice hint)).vars
    have htext : (TypeExpr.slice int).text = "[]int" := by decide +kernel
    rw [htext, List.filter_eq_self.2 fun v hv => decide_eq_true (hplain v hv)] at hselected
    refine ⟨p, rfl, hvars, hnames, hplain, hselected, hembeds _ _ _ ?_⟩
    simp [PlainUnions, TypeTerm.Plain, hint, int]

end GoOutline
