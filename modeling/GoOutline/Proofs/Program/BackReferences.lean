/-
# The way back to a file

Packages own files, and files own declarations. The way up is by position: a package has its
position in the program as its id, a file has an id of two positions, and every declaration of a
file, down to the methods of its interfaces, records this id. After a load all these ids lead back
to where they are recorded, and ids of positions that are not in use lead nowhere.
-/
import GoOutline.Proofs.Outline.Relocation
import GoOutline.Proofs.Program.Load
import GoOutline.Tree.Script

namespace GoOutline

/-! ## Ids in a file -/

namespace File

variable {policy : Redeclaration} {id : FileId} {package : String} {t : Tree} {d : Decl}

/-- If all ids in the outline of a file are exchanged for the id of the file, nothing changes. -/
lemma ofTree_fixed (policy : Redeclaration) (id : FileId) (package : String) (t : Tree) :
    ofTree policy id package t = (ofTree policy id package t).relocate fun _ => id :=
  ofTree_relocate (fun _ => id) policy id package t

lemma ofTree_id (policy : Redeclaration) (id : FileId) (package : String) (t : Tree) :
    (ofTree policy id package t).id = id :=
  congrArg File.id (ofTree_fixed policy id package t)

/-- A declaration of a file is one in which all ids have been exchanged for that of the file. -/
lemma exists_relocate (hd : d ∈ (ofTree policy id package t).decls.values) :
    ∃ e : Decl, d = e.relocate fun _ => id := by
  rw [ofTree_fixed, relocate, OrderedMap.values_mapValues] at hd
  obtain ⟨e, -, rfl⟩ := List.mem_map.1 hd
  exact ⟨e, rfl⟩

lemma decl_file (hd : d ∈ (ofTree policy id package t).decls.values) : d.file = id := by
  obtain ⟨e, rfl⟩ := exists_relocate hd
  cases e <;> rfl

lemma method_file {i : InterfaceDecl} (hi : .interface i ∈ (ofTree policy id package t).decls.values)
    {m : MethodDecl} (hm : m ∈ i.methods.values) : m.file = id := by
  obtain ⟨e, he⟩ := exists_relocate hi
  cases e with
  | interface j =>
    obtain rfl := Decl.interface.inj he
    rw [OrderedMap.values_mapValues] at hm
    obtain ⟨m', -, rfl⟩ := List.mem_map.1 hm
    rfl
  | _ => simp [Decl.relocate] at he

lemma store_path (policy : Redeclaration) (f : File) (x : Filing) :
    (f.store policy x).path = f.path := by
  cases x with
  | decl key d =>
    simp only [store, addDecl]
    split
    · rfl
    · cases policy <;> rfl
  | imported i =>
    simp only [store, addImport]
    split <;> rfl
  | issue i => rfl

lemma ofTree_path (policy : Redeclaration) (id : FileId) (package : String) (t : Tree) :
    (ofTree policy id package t).path = t.path := by
  have hfold (f : File) (xs : List Filing) : (xs.foldl (store policy) f).path = f.path := by
    induction xs generalizing f with
    | nil => rfl
    | cons x xs ih => rw [List.foldl_cons, ih, store_path]
  exact hfold _ _

end File

/-! ## Positions -/

namespace PackageInput

variable {policy : Redeclaration} {input : PackageInput} {inputs : List PackageInput}
  {m : OrderedMap Package} {pkg : Package} {n i j : Nat} {key : String} {f : File}

/-- What stands in a position of a loaded map is the input in this position. -/
lemma Loaded.entry?_rel (h : Loaded policy inputs m) (i : Nat) :
    Option.Rel (fun input e => e.1 = input.path ∧ input.LoadedAs policy i e.2) inputs[i]?
      (m.entry? i) := by
  have hlength : inputs.length = m.entries.length := by simpa using h.length_eq
  rw [OrderedMap.entry?]
  by_cases hi : i < inputs.length
  · have hinput := List.Forall₂.get h (i := i) (by simpa using hi) (by omega)
    simp only [List.get_eq_getElem, List.getElem_zipIdx, Nat.zero_add] at hinput
    rw [List.getElem?_eq_getElem hi, List.getElem?_eq_getElem (by omega)]
    exact .some hinput
  · rw [List.getElem?_eq_none (by omega), List.getElem?_eq_none (by omega)]
    exact .none

lemma LoadedAs.entry?_files (h : input.LoadedAs policy n pkg) (j : Nat) :
    pkg.files.entry? j =
      input.trees[j]?.map fun t => (t.path, File.ofTree policy ⟨n, j⟩ input.name t) := by
  rw [OrderedMap.entry?, h.files, outlines, List.getElem?_map, List.getElem?_zipIdx,
    Option.map_map, Nat.zero_add]
  rfl

end PackageInput

/-! ## Links -/

namespace Program

variable {p : Program}

/-- The package stands in position `i` of the program under the key `key`. -/
def PackageAt (p : Program) (i : Nat) (key : String) (pkg : Package) : Prop :=
  p.packages.entry? i = some (key, pkg)

/-- The file stands under the key `key` in the position that `id` gives: in the package `pkg` of the
program. -/
def FileAt (p : Program) (id : FileId) (pkg : Package) (key : String) (f : File) : Prop :=
  (∃ path, p.PackageAt id.package path pkg) ∧ pkg.files.entry? id.index = some (key, f)

/-- All ids in the program lead back to where they are recorded. -/
structure Linked (p : Program) : Prop where
  /-- A package has its position as its id and is stored under its path. -/
  packages : ∀ i key pkg, p.PackageAt i key pkg → pkg.id = i ∧ key = pkg.path
  /-- A file has its position as its id and is stored under its path. -/
  files : ∀ id pkg key f, p.FileAt id pkg key f → f.id = id ∧ key = f.path
  decls : ∀ id pkg key f, p.FileAt id pkg key f → ∀ d ∈ f.decls.values, d.file = id
  methods : ∀ id pkg key f, p.FileAt id pkg key f → ∀ i, .interface i ∈ f.decls.values →
    ∀ m ∈ i.methods.values, m.file = id
  /-- The id of a file leads to the file and to the package it belongs to. -/
  file? : ∀ id pkg key f, p.FileAt id pkg key f →
    p.file? f.id = some f ∧ p.packageOf? f.id = some pkg
  fileOf? : ∀ id pkg key f, p.FileAt id pkg key f → ∀ d ∈ f.decls.values, p.fileOf? d = some f
  /-- Without a package in its position an id leads nowhere. -/
  no_package : ∀ id : FileId, p.packages.size ≤ id.package →
    p.packageById? id.package = none ∧ p.packageOf? id = none ∧ p.file? id = none
  /-- Without a file in its position an id leads to no file. -/
  no_file : ∀ (id : FileId) key pkg, p.PackageAt id.package key pkg →
    pkg.files.size ≤ id.index → p.file? id = none

lemma PackageAt.packageById?_eq {i : Nat} {key : String} {pkg : Package}
    (h : p.PackageAt i key pkg) : p.packageById? i = some pkg := by
  rw [packageById?, h]
  rfl

lemma PackageAt.file?_eq {id : FileId} {key : String} {pkg : Package}
    (h : p.PackageAt id.package key pkg) :
    p.file? id = (pkg.files.entry? id.index).map Prod.snd := by
  rw [file?, h.packageById?_eq]
  rfl

lemma FileAt.file?_eq {id : FileId} {pkg : Package} {key : String} {f : File}
    (h : p.FileAt id pkg key f) : p.file? id = some f := by
  obtain ⟨⟨path, hpkg⟩, hf⟩ := h
  rw [hpkg.file?_eq, hf]
  rfl

lemma FileAt.packageOf?_eq {id : FileId} {pkg : Package} {key : String} {f : File}
    (h : p.FileAt id pkg key f) : p.packageOf? id = some pkg := by
  obtain ⟨⟨path, hpkg⟩, -⟩ := h
  exact hpkg.packageById?_eq

lemma packageById?_of_size_le {i : Nat} (h : p.packages.size ≤ i) : p.packageById? i = none := by
  rw [packageById?, OrderedMap.entry?, List.getElem?_eq_none h]
  rfl

end Program

section Loads

variable {config : Config} {types : Option TypeUniverse} {inputs : List PackageInput}
  {p : Program} {i j : Nat} {id : FileId} {key : String} {pkg : Package} {f : File}

lemma Program.PackageAt.loadedAs (hload : load config types inputs = .ok p)
    (h : p.PackageAt i key pkg) :
    ∃ input : PackageInput, key = input.path ∧ input.LoadedAs config.redeclaration i pkg := by
  have hrel := (load_eq_ok_iff.1 hload).2.1.entry?_rel i
  rw [h] at hrel
  generalize inputs[i]? = x at hrel
  cases hrel with
  | some hinput => exact ⟨_, hinput⟩

lemma Program.FileAt.eq_ofTree (hload : load config types inputs = .ok p)
    (h : p.FileAt id pkg key f) :
    ∃ package t, key = t.path ∧ f = File.ofTree config.redeclaration id package t := by
  obtain ⟨⟨path, hpkg⟩, hf⟩ := h
  obtain ⟨input, -, hinput⟩ := hpkg.loadedAs hload
  rw [hinput.entry?_files] at hf
  obtain ⟨t, -, ht⟩ := Option.map_eq_some_iff.1 hf
  obtain ⟨rfl, rfl⟩ := Prod.mk.inj ht
  exact ⟨input.name, t, rfl, rfl⟩

lemma fileAt_of_load (hload : load config types inputs = .ok p) {input : PackageInput}
    (hinput : inputs[i]? = some input) {t : Tree} (ht : input.trees[j]? = some t) :
    ∃ pkg f, p.FileAt ⟨i, j⟩ pkg t.path f := by
  have hrel := (load_eq_ok_iff.1 hload).2.1.entry?_rel i
  rw [hinput] at hrel
  cases hentry : p.packages.entry? i with
  | none => simp [hentry] at hrel
  | some e =>
    rw [hentry] at hrel
    cases hrel with
    | some hpkg =>
      refine ⟨e.2, File.ofTree config.redeclaration ⟨i, j⟩ input.name t, ⟨e.1, hentry⟩, ?_⟩
      rw [hpkg.2.entry?_files, ht]
      rfl

end Loads

/-- After a load every id leads back to where it is recorded, and every tree of the inputs has its
file in the position of the tree. -/
theorem load_linked {config : Config} {types : Option TypeUniverse} {inputs : List PackageInput}
    {p : Program} (hload : load config types inputs = .ok p) :
    p.Linked ∧ ∀ i input, inputs[i]? = some input → ∀ j t, input.trees[j]? = some t →
      ∃ pkg f, p.FileAt ⟨i, j⟩ pkg t.path f := by
  have hfileId {id : FileId} {pkg : Package} {key : String} {f : File}
      (h : p.FileAt id pkg key f) : f.id = id := by
    obtain ⟨package, t, -, rfl⟩ := h.eq_ofTree hload
    exact File.ofTree_id ..
  have hdecl {id : FileId} {pkg : Package} {key : String} {f : File} (h : p.FileAt id pkg key f)
      {d : Decl} (hd : d ∈ f.decls.values) : d.file = id := by
    obtain ⟨package, t, -, rfl⟩ := h.eq_ofTree hload
    exact File.decl_file hd
  refine ⟨⟨fun i key pkg h => ?_, fun id pkg key f h => ?_, fun id pkg key f h d hd => hdecl h hd,
    fun id pkg key f h i hi m hm => ?_, fun id pkg key f h => ?_, fun id pkg key f h d hd => ?_,
    fun id h => ?_, fun id key pkg hpkg h => ?_⟩,
    fun i input hinput j t ht => fileAt_of_load hload hinput ht⟩
  · obtain ⟨input, hkey, hinput⟩ := h.loadedAs hload
    exact ⟨hinput.id, hkey.trans hinput.path.symm⟩
  · obtain ⟨package, t, hkey, hf⟩ := h.eq_ofTree hload
    refine ⟨hfileId h, ?_⟩
    rw [hkey, hf, File.ofTree_path]
  · obtain ⟨package, t, -, rfl⟩ := h.eq_ofTree hload
    exact File.method_file hi hm
  · rw [hfileId h]
    exact ⟨h.file?_eq, h.packageOf?_eq⟩
  · rw [Program.fileOf?, hdecl h hd]
    exact h.file?_eq
  · have hnone := Program.packageById?_of_size_le h
    refine ⟨hnone, hnone, ?_⟩
    rw [Program.file?, hnone]
    rfl
  · rw [hpkg.file?_eq, OrderedMap.entry?, List.getElem?_eq_none h]
    rfl

/-- The script of an interface that is declared twice, with different methods. -/
def Step.interfaceTwice : List Step :=
  [.signature [] [], .methodElem [] "Get" 0, .interface [1], .typeSpec "I" 2, .decl .types 3,
    .methodElem [] "Put" 0, .interface [5], .typeSpec "I" 6, .decl .types 7]

theorem load_linked_interfaceTwice :
    ∃ b, (Progress.mk (.start "b.go" "main") #[]).run Step.interfaceTwice = some b ∧
      let inputs : List PackageInput := [⟨"lib", "example/lib", [], []⟩,
        ⟨"main", "example/main", [(Builder.start "a.go" "main").finish, b.builder.finish], []⟩]
      ∃ p, load ⟨.lenient, .replace⟩ none inputs = .ok p ∧ p.Linked ∧
        (∃ pkg f, p.FileAt ⟨1, 1⟩ pkg "b.go" f) ∧
        (p.file? ⟨1, 1⟩).map (·.decls.keys) = some ["I"] := by
  have hrun : ((Progress.mk (.start "b.go" "main") #[]).run Step.interfaceTwice).any fun b =>
      b.builder.finish.path == "b.go" &&
      match load ⟨.lenient, .replace⟩ none [⟨"lib", "example/lib", [], []⟩,
          ⟨"main", "example/main", [(Builder.start "a.go" "main").finish, b.builder.finish], []⟩] with
        | .ok p => (p.file? ⟨1, 1⟩).map (·.decls.keys) == some ["I"]
        | .error _ => false := by
    decide +kernel
  obtain ⟨b, hb, hcheck⟩ := (Option.any_eq_true _ _).1 hrun
  rw [Bool.and_eq_true, beq_iff_eq] at hcheck
  obtain ⟨hpath, hcheck⟩ := hcheck
  refine ⟨b, hb, ?_⟩
  intro inputs
  cases hload : load ⟨.lenient, .replace⟩ none inputs with
  | error e => simp [inputs, hload] at hcheck
  | ok p =>
    simp only [inputs, hload, beq_iff_eq] at hcheck
    obtain ⟨hlinked, hfiles⟩ := load_linked hload
    have hfile := hfiles 1 _ rfl 1 _ rfl
    rw [hpath] at hfile
    exact ⟨p, rfl, hlinked, hfile, hcheck⟩

end GoOutline
