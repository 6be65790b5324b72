/-
# Type parameters and their names

Type parameters are stored under their names, and so are the names that a receiver binds. Unlike those
of parameters and struct fields, these keys are not numbered, not even for the blank name. So of
several blank type parameters only the first one is stored, and the others are reported, as with any
other name.
-/
import GoOutline.Proofs.Outline.Numbering

namespace GoOutline

/-! ## Bound names -/

/-- The fields of type parameters. -/
def Source.typeParamFields (decls : List TypeParamDecl) : List GoOutline.Field :=
  decls.flatMap fun d => d.names.map fun name => { name, type := d.constraint.text }

/-- The fields that a receiver binds: the type arguments of its type, and then its type parameters. -/
def Source.Receiver.boundFields (recv : Receiver) : List GoOutline.Field :=
  let args := match (receiverBase recv.type).1 with
    | .named none _ args => typeTexts args
    | _ => []
  (args ++ recv.typeParams).map fun name => { name }

/-- The type parameters of a function or, in a method, what its receiver binds. -/
def Source.FuncDecl.boundFields (f : FuncDecl) : List GoOutline.Field :=
  match f.receiver with
  | none => typeParamFields f.typeParams
  | some recv => recv.boundFields

/-- The type parameters of a declaration; those of a method are bound by its receiver. -/
def Decl.boundParams : Decl → Fields
  | .var _ => ∅
  | .const _ => ∅
  | .type d => d.typeParams
  | .func d => d.typeParams
  | .method d => d.receiverTypeParams
  | .struct d => d.typeParams
  | .interface d => d.typeParams

/-! ## What is kept -/

/-- Fields with their names as keys. -/
def namedPairs (fields : List Field) : List (String × Field) := fields.map fun f => (f.name, f)

lemma namedPairs_keys (fields : List Field) :
    (namedPairs fields).map Prod.fst = fields.map Field.name := by
  simp [namedPairs]

/-- The first field of each name is kept under that name, and each later one is reported. -/
structure KeepsFirst (fields : List Field) (out : Fields × List Issue) : Prop where
  kept : out.1.Lists OrderedMap.firstValue? (namedPairs fields)
  issues : out.2 = ((namedPairs fields).mapBefore
    (repeatIssue fun f => if f.name = "" then f.type else f.name)).flatten
  count : out.1.size + out.2.length = fields.length
  /-- Every field is kept only if no name occurs twice, be it the blank name. -/
  complete : out.1.size = fields.length ↔ (fields.map Field.name).Nodup
  /-- If no other name occurs twice, then all blank fields but the first one are reported. So every
  field is kept, and nothing is reported, only if at most one of them is blank. -/
  blanks : ((fields.map Field.name).filter (· ≠ "_")).Nodup →
    out.2 = List.replicate ((fields.map Field.name).count "_" - 1) (.redeclared "_") ∧
      (out.1.size = fields.length ∧ out.2 = [] ↔ (fields.map Field.name).count "_" ≤ 1)

/-- If only the blank name occurs more than once, then it is reported once less than it occurs. -/
lemma repeatIssues_eq_replicate {fields : List Field}
    (h : ((fields.map Field.name).filter (· ≠ "_")).Nodup) :
    ((namedPairs fields).mapBefore (repeatIssue Field.label)).flatten =
      List.replicate ((fields.map Field.name).count "_" - 1) (.redeclared "_") := by
  induction fields using List.reverseRecOn with
  | nil => rfl
  | append_singleton fields f ih =>
    have hpairs : namedPairs (fields ++ [f]) = namedPairs fields ++ [(f.name, f)] := by
      simp [namedPairs]
    rw [List.map_append, List.filter_append] at h
    rw [hpairs, List.mapBefore_concat, List.flatten_append, ih h.of_append_left,
      List.flatten_singleton, repeatIssue, namedPairs_keys, List.map_append, List.count_append,
      List.map_singleton]
    by_cases hblank : f.name = "_"
    · have hlabel : f.label = "_" := by simp [Field.label, hblank]
      rw [hblank, hlabel, List.count_singleton_self]
      by_cases hmem : "_" ∈ fields.map Field.name
      · have hpos := List.count_pos_iff.2 hmem
        rw [if_pos hmem, ← List.replicate_succ', Nat.sub_add_cancel hpos, Nat.add_sub_cancel]
      · rw [if_neg hmem, List.count_eq_zero.2 hmem]
        rfl
    · -- another name is not among the earlier ones
      have hnew : f.name ∉ fields.map Field.name := by
        intro hmem
        rw [List.map_singleton, List.filter_singleton, decide_eq_true hblank] at h
        exact (List.nodup_append.1 h).2.2 _ (List.mem_filter.2 ⟨hmem, decide_eq_true hblank⟩) _
          (List.mem_singleton_self _) rfl
      rw [if_neg hnew, List.append_nil, List.count_singleton, if_neg (by simpa using hblank)]
      rfl

lemma collectNamed_keepsFirst (fields : List Field) : KeepsFirst fields (collectNamed fields) := by
  have hitems : collectNamed fields =
      collect ∅ ((namedPairs fields).map (Item.ofPair Field.label)) := by
    rw [namedPairs, List.map_map]
    rfl
  obtain ⟨hkept, hissues⟩ := collect_pairs Field.label
    (OrderedMap.Lists.empty fun _ => rfl) (namedPairs fields)
  rw [← hitems] at hkept hissues
  have hcount : (collectNamed fields).1.size + (collectNamed fields).2.length = fields.length := by
    rw [hitems, collect_size, List.length_map, namedPairs, List.length_map]
    exact Nat.zero_add _
  refine ⟨hkept, hissues, hcount, ?_, fun hnodup => ?_⟩
  · have hnone : (collectNamed fields).2 = [] ↔ (fields.map Field.name).Nodup := by
      rw [hissues, ← namedPairs_keys]
      exact repeatIssues_eq_nil_iff Field.label
    rw [← hnone, ← List.length_eq_zero_iff]
    omega
  · have hblanks := hissues.trans (repeatIssues_eq_replicate hnodup)
    refine ⟨hblanks, ?_⟩
    rw [← List.length_eq_zero_iff]
    have hlength := congrArg List.length hblanks
    rw [List.length_replicate] at hlength
    omega

/-! ## Declarations -/

lemma Source.TypeSpec.outline_keepsFirst (file : FileId) (g : GeneralDecl) (s : TypeSpec) :
    ∃ issues more, (s.outline file g).2 = issues ++ more ∧
      KeepsFirst (typeParamFields s.typeParams) ((s.outline file g).1.boundParams, issues) := by
  have hparams : KeepsFirst (typeParamFields s.typeParams) (outlineTypeParams s.typeParams) :=
    collectNamed_keepsFirst _
  simp only [outline]
  split
  · exact ⟨_, _, rfl, hparams⟩
  · exact ⟨_, _, rfl, hparams⟩
  · exact ⟨_, [], (List.append_nil _).symm, hparams⟩

lemma outlineReceiver_keepsFirst (recv : Source.Receiver) :
    ∃ more issues, (outlineReceiver recv).2.2 = more ++ issues ∧
      KeepsFirst recv.boundFields ((outlineReceiver recv).2.1, issues) := by
  have hbound : recv.boundFields =
      ((receiverType (receiverBase recv.type).1).2.1 ++ recv.typeParams).map fun name => { name } := by
    rw [Source.Receiver.boundFields]
    generalize (receiverBase recv.type).1 = base
    rcases base with ⟨_ | _, _, _⟩ | _ <;> rfl
  rw [hbound]
  exact ⟨_, _, rfl, collectNamed_keepsFirst _⟩

lemma Source.FuncDecl.outline_keepsFirst (file : FileId) (f : FuncDecl) :
    ∃ more issues, (f.outline file).2 = more ++ issues ∧
      KeepsFirst f.boundFields ((f.outline file).1.boundParams, issues) := by
  simp only [outline, boundFields]
  cases f.receiver with
  | none => exact ⟨_, _, rfl, collectNamed_keepsFirst _⟩
  | some recv =>
    obtain ⟨more, issues, hissues, hkeeps⟩ := outlineReceiver_keepsFirst recv
    refine ⟨(outlineSignature f.signature).2 ++ more, issues, ?_, hkeeps⟩
    rw [List.append_assoc, ← hissues]

/-- The type parameters of every type and function, and the names that every receiver binds, are kept
under their names, each name once. Every later one is reported, and this holds for blank ones, too. -/
theorem boundParams_keepFirst (file : FileId) (g : Source.GeneralDecl) (s : Source.TypeSpec)
    (f : Source.FuncDecl) :
    (∃ issues more, (s.outline file g).2 = issues ++ more ∧
      KeepsFirst (Source.typeParamFields s.typeParams) ((s.outline file g).1.boundParams, issues)) ∧
    ∃ more issues, (f.outline file).2 = more ++ issues ∧
      KeepsFirst f.boundFields ((f.outline file).1.boundParams, issues) :=
  ⟨s.outline_keepsFirst file g, f.outline_keepsFirst file⟩

/-- The script of `type Pair[_, _ any] int`, `func F[_, _ any](_, _ int)` and
`func (p *Pair[_, _]) M()`. -/
def Step.blankTypeParams : List Step :=
  [.anyConstraint, .typeParams [(["_", "_"], 0)], .named "int", .field ["_", "_"] 2,
    .genericTypeSpec "Pair" 1 2, .decl .types 4, .signature [3] [], .genericFunc "F" 1 6,
    .named "Pair", .pointer 8, .genericReceiver (some "p") 9 ["_", "_"], .signature [] [],
    .method 10 "M" 11]

/-- Both functions bind the blank name twice and no other. As a parameter it is kept twice, as a type
parameter only once, and the other one is reported as if it were declared again. -/
theorem boundParams_lose_blank :
    ∃ p, (Progress.mk (.start "a.go" "main") #[]).run Step.blankTypeParams = some p ∧
      let t := p.builder.finish
      let f := File.ofTree .keepFirst ⟨0, 0⟩ "main" t
      ([⟨0⟩, ⟨1⟩].mapM t.func?).map (·.map fun d => d.boundFields.map Field.name) =
          some [["_", "_"], ["_", "_"]] ∧
        f.decls.entries.map (fun e => (e.1, e.2.boundParams.keys)) =
          [("Pair", ["_"]), ("F", ["_"]), ("Pair.M", ["_"])] ∧
        f.decls.values.filterMap (fun d => (d.as? .func).map fun d => d.params.keys) =
          [["_#0", "_#1"]] ∧
        f.issues = [.redeclared "_", .redeclared "_", .redeclared "_"] := by
  have hrun : ((Progress.mk (.start "a.go" "main") #[]).run Step.blankTypeParams).any fun p =>
      let t := p.builder.finish
      let f := File.ofTree .keepFirst ⟨0, 0⟩ "main" t
      ([⟨0⟩, ⟨1⟩].mapM t.func?).map (·.map fun d => d.boundFields.map Field.name) =
          some [["_", "_"], ["_", "_"]] &&
        f.decls.entries.map (fun e => (e.1, e.2.boundParams.keys)) =
          [("Pair", ["_"]), ("F", ["_"]), ("Pair.M", ["_"])] &&
        f.decls.values.filterMap (fun d => (d.as? .func).map fun d => d.params.keys) =
          [["_#0", "_#1"]] &&
        f.issues = [.redeclared "_", .redeclared "_", .redeclared "_"] := by
    decide +kernel
  obtain ⟨p, hp, hcheck⟩ := (Option.any_eq_true _ _).1 hrun
  simp only [Bool.and_eq_true, decide_eq_true_eq] at hcheck
  obtain ⟨⟨⟨hbound, hkept⟩, hparams⟩, hissues⟩ := hcheck
  exact ⟨p, hp, hbound, hkept, hparams, hissues⟩

end GoOutline
