/-
# Queries as views of one sequence

The declarations of a program form one sequence: packages in load order, files in their order,
declarations in source order. Queries go through this sequence in different ways. Some select by kind
and give declarations, others look into the declarations and give what they consist of; some go
through all packages, others look up one package by its path. After a load they agree: each of them
lists a part of the sequence in its order, and the parts of the different kinds make up the whole.
-/
import GoOutline.Program.Query
import GoOutline.Proofs.Outline.Selectors
import GoOutline.Proofs.Program.BasicType
import GoOutline.Proofs.Program.TypeFilter
import Mathlib.Algebra.GroupWithZero.Nat

namespace List

/-- The members with each of some keys, one key after the other, are those with any of the keys. -/
lemma flatMap_filter_perm {α κ : Type} [DecidableEq κ] (key : α → κ) {ks : List κ} (hks : ks.Nodup)
    (as : List α) :
    (ks.flatMap fun k => as.filter fun a => key a = k).Perm (as.filter fun a => key a ∈ ks) := by
  induction ks with
  | nil => simp
  | cons k ks ih =>
    obtain ⟨hk, hks⟩ := nodup_cons.1 hks
    have hfirst : (as.filter fun a => key a ∈ k :: ks).filter (fun a => key a = k) =
        as.filter fun a => key a = k := by
      rw [filter_filter]
      exact filter_congr fun a _ => by simp +contextual
    have hothers : (as.filter fun a => key a ∈ k :: ks).filter (fun a => !decide (key a = k)) =
        as.filter fun a => key a ∈ ks := by
      rw [filter_filter]
      refine filter_congr fun a _ => ?_
      by_cases ha : key a = k <;> simp [ha, hk]
    have hsplit := filter_append_perm (fun a => decide (key a = k))
      (as.filter fun a => key a ∈ k :: ks)
    rw [hfirst, hothers] at hsplit
    rw [flatMap_cons]
    exact ((ih hks).append_left _).trans hsplit

end List

namespace GoOutline

/-! ## Kinds -/

lemma DeclKind.nodup_all : DeclKind.all.Nodup := by decide

lemma DeclKind.mem_all (k : DeclKind) : k ∈ DeclKind.all := by
  cases k <;> decide

lemma DeclKind.name_decl (k : DeclKind) (v : k.Payload) : (k.decl v).name = (k.header v).name := by
  cases k <;> rfl

namespace Decl

/-- A declaration of kind `k` consists of what it gives as one of this kind. -/
lemma map_decl_as? (k : DeclKind) (d : Decl) :
    (d.as? k).map k.decl = Option.guard (fun d => d.kind = k) d := by
  cases hv : d.as? k with
  | some v =>
    have hd := eq_of_as? hv
    have hkind : (k.decl v).kind = k := by cases k <;> rfl
    rw [hd]
    simp [Option.guard, hkind]
  | none =>
    simp [Option.guard, as?_eq_none_iff.1 hv]

lemma map_decl_filterMap_as? (k : DeclKind) (ds : List Decl) :
    (ds.filterMap (as? k)).map k.decl = ds.filter fun d => d.kind = k := by
  rw [List.map_filterMap, ← List.filterMap_eq_filter]
  exact List.filterMap_congr fun d _ => map_decl_as? k d

end Decl

namespace Program

variable {p : Program} {k : DeclKind} {path name : String}

/-! ## By kind -/

/-- What is found under the paths of the packages is what the packages contain. -/
lemma ofKind_eq_flatMap_keys (p : Program) (k : DeclKind) :
    p.ofKind k = p.packages.keys.flatMap fun path => p.ofKindIn path k := by
  rw [ofKind, declsWhere, decls, OrderedMap.values, OrderedMap.keys, List.filter_flatMap,
    List.flatMap_map, List.flatMap_map]
  refine List.flatMap_congr fun e he => ?_
  have hget : p.package? e.1 = some e.2 := OrderedMap.get?_eq_some_iff.2 he
  rw [ofKindIn, packageDecls, hget]
  rfl

lemma map_decl_payloads (p : Program) (k : DeclKind) : (p.payloads k).map k.decl = p.ofKind k :=
  Decl.map_decl_filterMap_as? k p.decls

lemma map_decl_payloadsIn (p : Program) (path : String) (k : DeclKind) :
    (p.payloadsIn path k).map k.decl = p.ofKindIn path k :=
  Decl.map_decl_filterMap_as? k (p.packageDecls path)

lemma find?_eq_find?_ofKind (p : Program) (k : DeclKind) (name : String) :
    p.find? k name = (p.ofKind k).find? fun d => d.name == name := by
  rw [find?, ofKind, declsWhere, List.find?_filter]
  congr 1
  funext d
  rw [Bool.decide_and, Bool.decide_eq_true, Bool.decide_eq_true]

lemma map_decl_payload? (p : Program) (k : DeclKind) (name : String) :
    (p.payload? k name).map k.decl = p.find? k name := by
  have hname : (fun d : Decl => d.name == name) ∘ k.decl = fun v => (k.header v).name == name := by
    funext v
    rw [Function.comp_apply, k.name_decl]
  rw [find?_eq_find?_ofKind, ← map_decl_payloads, List.find?_map, hname]
  rfl

lemma mem_ofKind {d : Decl} : d ∈ p.ofKind k ↔ d ∈ p.decls ∧ d.kind = k := by
  rw [ofKind, declsWhere, List.mem_filter, decide_eq_true_iff]

lemma isFirst_of_find? {d : Decl} (h : p.find? k name = some d) :
    (p.ofKind k).IsFirst (fun d => d.name = name) d := by
  rw [find?_eq_find?_ofKind] at h
  exact List.isFirst_of_find? (fun d => by rw [beq_iff_eq]) h

lemma find?_eq_none_iff : p.find? k name = none ↔ ∀ d ∈ p.ofKind k, d.name ≠ name := by
  rw [find?_eq_find?_ofKind, List.find?_eq_none]
  simp only [beq_iff_eq, ne_eq]

/-- The declarations of all kinds, one kind after the other, are all declarations. -/
lemma flatMap_ofKind_perm (p : Program) : (DeclKind.all.flatMap p.ofKind).Perm p.decls := by
  have hperm := List.flatMap_filter_perm Decl.kind DeclKind.nodup_all p.decls
  have hall : (p.decls.filter fun d => d.kind ∈ DeclKind.all) = p.decls :=
    List.filter_eq_self.2 fun d _ => decide_eq_true d.kind.mem_all
  rw [hall] at hperm
  exact hperm

end Program

/-! ## Fields of a struct -/

/-- The names and the embedded fields account for every field of the struct once. -/
structure StructDecl.Accounts (d : StructDecl) (names : List String) : Prop where
  names : ∃ named : List Field, names = named.map Field.name ∧ named.Sublist d.fields.values ∧
    (∀ f ∈ named, f.unnamed = false) ∧ (named ++ d.embedded).Perm d.fields.values
  embedded : d.embedded.Sublist d.fields.values
  unnamed : ∀ f ∈ d.embedded, f.unnamed = true

lemma StructDecl.accounts (d : StructDecl) : d.Accounts d.fieldNames where
  names := by
    refine ⟨d.fields.values.filter fun f => !f.unnamed, rfl, List.filter_sublist, ?_, ?_⟩
    · intro f hf
      simpa using (List.mem_filter.1 hf).2
    · have hsplit := List.filter_append_perm (fun f : Field => !f.unnamed) d.fields.values
      simpa [StructDecl.embedded] using hsplit
  embedded := List.filter_sublist
  unnamed := fun _ hf => (List.mem_filter.1 hf).2

namespace Program

variable {p : Program} {path name : String}

lemma fieldNames_of_isFirst {d : StructDecl}
    (h : (p.payloadsIn path .struct).IsFirst (fun d : StructDecl => d.name = name) d) :
    p.fieldNames path name = d.fieldNames := by
  obtain ⟨before, after, heq, hname, hbefore⟩ := h
  have hfind : (p.payloadsIn path .struct).find? (fun d : StructDecl => d.name == name) = some d := by
    rw [heq, List.find?_append, List.find?_eq_none.2 fun b hb => by simpa using hbefore b hb]
    simp [hname]
  rw [fieldNames, hfind]
  rfl

lemma fieldNames_eq_nil (h : ∀ d : StructDecl, d ∈ p.payloadsIn path .struct → d.name ≠ name) :
    p.fieldNames path name = [] := by
  have hfind : (p.payloadsIn path .struct).find? (fun d : StructDecl => d.name == name) = none :=
    List.find?_eq_none.2 fun d hd => by simpa using h d hd
  rw [fieldNames, hfind]
  rfl

/-! ## All queries -/

/-- All queries of the program go through its declarations in the same order. -/
structure Coherent (p : Program) : Prop where
  packages : ∀ k, p.ofKind k =
    (p.packages.values.map Package.path).flatMap fun path => p.ofKindIn path k
  payloads : ∀ k, (p.payloads k).map k.decl = p.ofKind k
  payloadsIn : ∀ path k, (p.payloadsIn path k).map k.decl = p.ofKindIn path k
  payload? : ∀ k name, (p.payload? k name).map k.decl = p.find? k name
  find?_some : ∀ k name d, p.find? k name = some d →
    (p.ofKind k).IsFirst (fun d => d.name = name) d
  find?_none : ∀ k name, p.find? k name = none ↔ ∀ d ∈ p.ofKind k, d.name ≠ name
  /-- The declarations of a kind stand in the order of all declarations. -/
  sublist : ∀ k, (p.ofKind k).Sublist p.decls
  kind : ∀ d ∈ p.decls, ∃! k, d ∈ p.ofKind k
  /-- Also declarations that are the same occur as often among their kind as among all. -/
  perm : (DeclKind.all.flatMap p.ofKind).Perm p.decls
  lengths : (DeclKind.all.map fun k => (p.ofKind k).length).sum = p.decls.length
  fieldNames : ∀ path name d,
    (p.payloadsIn path .struct).IsFirst (fun d : StructDecl => d.name = name) d →
    d.Accounts (p.fieldNames path name)
  noStruct : ∀ path name, (∀ d : StructDecl, d ∈ p.payloadsIn path .struct → d.name ≠ name) →
    p.fieldNames path name = []

end Program

/-- After a load all queries are views of the declarations of the packages in load order. -/
theorem load_coherent {config : Config} {types : Option TypeUniverse} {inputs : List PackageInput}
    {p : Program} (hload : load config types inputs = .ok p) :
    p.packages.values.map Package.path = inputs.map PackageInput.path ∧
      DeclKind.all.length = 7 ∧ p.Coherent := by
  have hpaths := paths_of_load hload
  have hkeys := (load_eq_ok_iff.1 hload).2.1.keys_eq
  have hperm := p.flatMap_ofKind_perm
  refine ⟨hpaths, rfl, ?_, p.map_decl_payloads, p.map_decl_payloadsIn, p.map_decl_payload?,
    fun _ _ _ => Program.isFirst_of_find?, fun _ _ => Program.find?_eq_none_iff,
    fun _ => List.filter_sublist, ?_, hperm, ?_, ?_, fun _ _ => Program.fieldNames_eq_nil⟩
  · intro k
    -- each package is stored under its own path
    rw [hpaths, ← hkeys]
    exact p.ofKind_eq_flatMap_keys k
  · intro d hd
    refine ⟨d.kind, Program.mem_ofKind.2 ⟨hd, rfl⟩, ?_⟩
    intro k hk
    exact (Program.mem_ofKind.1 hk).2.symm
  · rw [← List.length_flatMap]
    exact hperm.length_eq
  · intro path name d hfirst
    rw [Program.fieldNames_of_isFirst hfirst]
    exact d.accounts

/-- The script of a struct with a named, an embedded and a blank field, and of two blank variables that
are the same. -/
def Step.blankVariables : List Step :=
  [.named "int", .field ["a", "_"] 0, .embedded 0, .struct [1, 2], .typeSpec "S" 3, .decl .types 4,
    .valueSpec ["_", "_"] (some 0) [], .decl .vars 6]

theorem load_coherent_blankVariables :
    ∃ b, (Progress.mk (.start "a.go" "main") #[]).run Step.blankVariables = some b ∧
      let inputs : List PackageInput := [⟨"lib", "example/lib", [b.builder.finish], []⟩,
        ⟨"main", "example/main", [b.builder.finish], []⟩]
      ∃ p, load {} none inputs = .ok p ∧ p.Coherent ∧
        (p.ofKind .var).map Decl.name = ["_", "_", "_", "_"] ∧
        p.ofKind .var = p.ofKindIn "example/lib" .var ++ p.ofKindIn "example/main" .var ∧
        p.fieldNames "example/main" "S" = ["a", "_"] := by
  have hrun : ((Progress.mk (.start "a.go" "main") #[]).run Step.blankVariables).any fun b =>
      match load {} none [⟨"lib", "example/lib", [b.builder.finish], []⟩,
          ⟨"main", "example/main", [b.builder.finish], []⟩] with
        | .ok p => (p.ofKind .var).map Decl.name == ["_", "_", "_", "_"] &&
            p.fieldNames "example/main" "S" == ["a", "_"]
        | .error _ => false := by
    decide +kernel
  obtain ⟨b, hb, hcheck⟩ := (Option.any_eq_true _ _).1 hrun
  refine ⟨b, hb, ?_⟩
  intro inputs
  cases hload : load {} none inputs with
  | error e => simp [inputs, hload] at hcheck
  | ok p =>
    simp only [inputs, hload, Bool.and_eq_true, beq_iff_eq] at hcheck
    obtain ⟨hpaths, -, hcoherent⟩ := load_coherent hload
    have hvars := hcoherent.packages .var
    rw [hpaths] at hvars
    exact ⟨p, rfl, hcoherent, hcheck.1, by simpa [inputs] using hvars, hcheck.2⟩

end GoOutline
