/-
# The basic types behind names

A name is the name of a type in two ways. A plain name is declared by the scope of a loaded package,
the first one in load order, whatever the file is in which the name is written. A qualified name is
declared by the scope of the import that the file resolves it to, whatever else is loaded. Either way
it stands for the type below the declared one. Only a name that is not declared can stand for itself,
as a predeclared type, and such names are plain.

Loading further packages does not change what a declared name stands for, nor what a qualified name
stands for in a file that was there before. But an id that led nowhere can become that of a new file,
and in this file qualified names begin to stand for something.
-/
import GoOutline.Program.BasicType
import GoOutline.Proofs.Outline.Selectors
import GoOutline.Proofs.Program.BackReferences

namespace GoOutline

lemma eq_of_splitSelector {selector pkg name : String}
    (h : splitSelector selector = some (pkg, name)) :
    '.' ∉ pkg.toList ∧ selector = pkg ++ "." ++ name := by
  rw [splitSelector] at h
  split at h
  · rename_i a b hcut
    split at h
    · simp at h
    · obtain ⟨rfl, rfl⟩ := Prod.mk.inj (Option.some.inj h)
      refine ⟨?_, eq_of_cutText hcut⟩
      obtain ⟨⟨x, y⟩, hxy, heq⟩ := Option.map_eq_some_iff.1 hcut
      obtain ⟨rfl, -⟩ := Prod.mk.inj heq
      simpa using (eq_append_of_cutFirst hxy).2
  · simp at h

lemma splitSelector_of_resolveImport {imports : List Import} {pkg name : String} {i : Import}
    (hdot : '.' ∉ pkg.toList) (h : resolveImport imports (pkg ++ "." ++ name) = some i) :
    splitSelector (pkg ++ "." ++ name) = some (pkg, name) := by
  obtain ⟨sides, hsides, -⟩ := Option.bind_eq_some_iff.1 h
  by_cases hempty : pkg = "" ∨ name = ""
  · simp [splitSelector_of_empty_side hdot hempty] at hsides
  · rw [splitSelector, cutText_dot hdot]
    exact if_neg hempty

lemma dot_mem_qualified (pkg name : String) : '.' ∈ (pkg ++ "." ++ name).toList := by
  simp

/-- No basic type has a qualified name. -/
lemma dot_not_mem_of_mem_basicTypes {name : String} (h : name ∈ basicTypes) :
    '.' ∉ name.toList := by
  have hall : ∀ name ∈ basicTypes, '.' ∉ name.toList := by decide
  exact hall name h

namespace Program

/-! ## Declared names -/

/-- The scopes of the universe `u` declare the type `t` under a name that is written in the file with
the given id. -/
inductive Declares (p : Program) (u : TypeUniverse) (id : FileId) : String → TypeRef → Prop
  /-- A plain name is declared by the first package whose scope has it. -/
  | plain {name : String} {t : TypeRef} {pkg : Package} (hdot : '.' ∉ name.toList)
    (hpkg : p.packages.values.IsFirst (fun q => u.lookup? q.path name ≠ none) pkg)
    (ht : u.lookup? pkg.path name = some t) : Declares p u id name t
  /-- A qualified name is declared by the scope of the import that its package side refers to. -/
  | qualified {pkg ident : String} {t : TypeRef} {f : File} {i : Import} (hdot : '.' ∉ pkg.toList)
    (hfile : p.file? id = some f) (hi : f.resolveImport (pkg ++ "." ++ ident) = some i)
    (ht : u.lookup? i.path ident = some t) : Declares p u id (pkg ++ "." ++ ident) t

variable {p p' : Program} {u : TypeUniverse} {id id' : FileId} {name : String} {t : TypeRef}

/-- The look-up finds what the scopes declare. -/
lemma lookupType?_eq_some_iff : p.lookupType? u id name = some t ↔ p.Declares u id name t := by
  constructor
  · intro h
    rw [lookupType?] at h
    split at h
    · obtain ⟨⟨pkg, ident⟩, hsplit, h⟩ := Option.bind_eq_some_iff.1 h
      obtain ⟨f, hf, h⟩ := Option.bind_eq_some_iff.1 h
      obtain ⟨i, hi, ht⟩ := Option.bind_eq_some_iff.1 h
      obtain ⟨hdot, rfl⟩ := eq_of_splitSelector hsplit
      exact .qualified hdot hf hi ht
    · obtain ⟨pkg, hpkg, ht⟩ := List.findSome?_eq_some_iff_isFirst.1 h
      exact .plain ‹_› hpkg ht
  · intro h
    cases h with
    | plain hdot hpkg ht =>
      rw [lookupType?, if_neg hdot]
      exact List.findSome?_eq_some_iff_isFirst.2 ⟨_, hpkg, ht⟩
    | qualified hdot hfile hi ht =>
      rw [lookupType?, if_pos (dot_mem_qualified ..), splitSelector_of_resolveImport hdot hi]
      simp only [Option.bind_eq_bind, Option.bind_some, hfile, hi, ht]

lemma lookupType?_eq_none_iff :
    p.lookupType? u id name = none ↔ ∀ t, ¬p.Declares u id name t := by
  rw [Option.eq_none_iff_forall_ne_some]
  exact forall_congr' fun t => not_congr lookupType?_eq_some_iff

/-- Some package declares a plain name, so a first one does. -/
lemma exists_declares (hdot : '.' ∉ name.toList) {pkg : Package} (hpkg : pkg ∈ p.packages.values)
    (hlookup : u.lookup? pkg.path name ≠ none) (id : FileId) : ∃ t, p.Declares u id name t := by
  by_contra hnone
  have hlist := lookupType?_eq_none_iff.2 (not_exists.1 hnone)
  rw [lookupType?, if_neg hdot, List.findSome?_eq_none_iff] at hlist
  exact hlookup (hlist pkg hpkg)

/-- In which file a plain name is written makes no difference. -/
lemma lookupType?_of_plain (hdot : '.' ∉ name.toList) (id id' : FileId) :
    p.lookupType? u id name = p.lookupType? u id' name := by
  rw [lookupType?, lookupType?, if_neg hdot, if_neg hdot]

/-- For a qualified name only the imports of the file count. -/
lemma lookupType?_of_qualified (hdot : '.' ∈ name.toList)
    (himports : (p'.file? id').map File.imports = (p.file? id).map File.imports) :
    p'.lookupType? u id' name = p.lookupType? u id name := by
  rw [lookupType?, lookupType?, if_pos hdot, if_pos hdot]
  cases hf : p.file? id with
  | none =>
    rw [hf, Option.map_none, Option.map_eq_none_iff] at himports
    rw [himports]
  | some f =>
    rw [hf, Option.map_some] at himports
    obtain ⟨f', hf', himports⟩ := Option.map_eq_some_iff.1 himports
    simp only [hf', Option.bind_eq_bind, Option.bind_some, File.resolveImport, himports]

/-! ## What names stand for -/

lemma basicType?_of_declares (hu : p.types = some u) (h : p.Declares u id name t) :
    p.basicType? id name = u.fixpoint? t := by
  rw [basicType?, hu, Option.bind_some, lookupType?_eq_some_iff.2 h]
  rfl

lemma basicType?_of_not_declares (h : ∀ u t, p.types = some u → ¬p.Declares u id name t) :
    p.basicType? id name = if name ∈ basicTypes then some name else none := by
  have hnone : (p.types.bind fun u => (p.lookupType? u id name).map u.fixpoint?) = none := by
    cases hu : p.types with
    | none => rfl
    | some u => simp [lookupType?_eq_none_iff.2 fun t => h u t hu]
  rw [basicType?, hnone]
  simp [isBasicType]

/-- What the look-ups cannot tell apart stands for the same. -/
lemma basicType?_congr (htypes : p'.types = p.types)
    (hlookup : ∀ u, p.types = some u → p'.lookupType? u id' name = p.lookupType? u id name) :
    p'.basicType? id' name = p.basicType? id name := by
  rw [basicType?, basicType?, htypes]
  cases hu : p.types with
  | none => rfl
  | some u => rw [Option.bind_some, Option.bind_some, hlookup u hu]

lemma basicType?_of_qualified (htypes : p'.types = p.types) (hdot : '.' ∈ name.toList)
    (himports : (p'.file? id').map File.imports = (p.file? id).map File.imports) :
    p'.basicType? id' name = p.basicType? id name :=
  basicType?_congr htypes fun _ _ => lookupType?_of_qualified hdot himports

/-- A basic type that no scope of a loaded package declares stands for itself. -/
lemma basicType?_of_basic (hname : name ∈ basicTypes)
    (hfree : ∀ u, p.types = some u → ∀ pkg ∈ p.packages.values, u.lookup? pkg.path name = none)
    (id : FileId) : p.basicType? id name = some name := by
  rw [basicType?_of_not_declares, if_pos hname]
  intro u t hu h
  cases h with
  | plain hdot hpkg ht => exact hpkg.prop (hfree u hu _ hpkg.mem)
  | qualified => exact dot_not_mem_of_mem_basicTypes hname (dot_mem_qualified ..)

/-- What the names in the files of a program stand for. -/
structure NamesBasicTypes (p : Program) : Prop where
  declared : ∀ u id name t, p.types = some u → p.Declares u id name t →
    p.basicType? id name = u.fixpoint? t
  undeclared : ∀ id name, (∀ u t, p.types = some u → ¬p.Declares u id name t) →
    p.basicType? id name = if name ∈ basicTypes then some name else none
  basic_plain : ∀ name ∈ basicTypes, '.' ∉ name.toList
  /-- In which file a plain name is written makes no difference. -/
  plain_any_file : ∀ name, '.' ∉ name.toList → ∀ id id', p.basicType? id name = p.basicType? id' name
  /-- A qualified name stands for the same in every other program, if its file imports the same. -/
  qualified_any_program : ∀ (q : Program) id id', q.types = p.types →
    (q.file? id').map File.imports = (p.file? id).map File.imports →
    ∀ name, '.' ∈ name.toList → q.basicType? id' name = p.basicType? id name
  /-- A basic type that a name stands for stands for itself, unless a loaded scope declares it. -/
  again : ∀ id name basic, p.basicType? id name = some basic → basic ∈ basicTypes →
    (∀ u, p.types = some u → ∀ pkg ∈ p.packages.values, u.lookup? pkg.path basic = none) →
    ∀ id', p.basicType? id' basic = p.basicType? id name

lemma namesBasicTypes (p : Program) : p.NamesBasicTypes where
  declared _ _ _ _ hu h := basicType?_of_declares hu h
  undeclared _ _ h := basicType?_of_not_declares h
  basic_plain _ := dot_not_mem_of_mem_basicTypes
  plain_any_file _ hdot id id' := basicType?_congr rfl fun _ _ => lookupType?_of_plain hdot id id'
  qualified_any_program _ _ _ htypes himports _ hdot := basicType?_of_qualified htypes hdot himports
  again _ _ _ hstands hbasic hfree id' := (basicType?_of_basic hbasic hfree id').trans hstands.symm

end Program

/-! ## Further packages -/

/-- The packages that were there before stay in their positions as they are. -/
lemma PackageInput.Loaded.entries_extend {policy : Redeclaration} {inputs more : List PackageInput}
    {m m' : OrderedMap Package} (h : Loaded policy inputs m)
    (h' : Loaded policy (inputs ++ more) m') : ∃ rest, m'.entries = m.entries ++ rest := by
  -- the first entries of the larger map are a map to which the first inputs are loaded
  let front : OrderedMap Package :=
    ⟨m'.entries.take inputs.length, m'.nodup.sublist ((List.take_sublist ..).map Prod.fst)⟩
  have hfront : Loaded policy inputs front := by
    have htake := List.forall₂_take inputs.length h'
    rwa [List.zipIdx_append, List.take_left' List.length_zipIdx] at htake
  refine ⟨m'.entries.drop inputs.length, ?_⟩
  rw [h.unique hfront]
  exact (List.take_append_drop ..).symm

namespace Program

/-- All packages of `p` are in `p'`, in the same positions, and the type information is the same. -/
structure Extends (p p' : Program) : Prop where
  types : p'.types = p.types
  packages : ∃ rest, p'.packages.entries = p.packages.entries ++ rest

variable {p p' : Program} {u : TypeUniverse} {id : FileId} {name : String} {t : TypeRef}

lemma Extends.file?_eq (h : p.Extends p') (hid : id.package < p.packages.size) :
    p'.file? id = p.file? id := by
  obtain ⟨rest, hrest⟩ := h.packages
  have hentry : p'.packages.entry? id.package = p.packages.entry? id.package := by
    rw [OrderedMap.entry?, OrderedMap.entry?, hrest, List.getElem?_append_left hid]
  rw [file?, file?, packageById?, packageById?, hentry]

lemma Extends.declares (h : p.Extends p') (hdot : '.' ∉ name.toList)
    (hdeclares : p.Declares u id name t) : p'.Declares u id name t := by
  cases hdeclares with
  | plain _ hpkg ht =>
    obtain ⟨rest, hrest⟩ := h.packages
    refine .plain hdot ?_ ht
    rw [OrderedMap.values, hrest, List.map_append]
    exact hpkg.append _
  | qualified => exact absurd (dot_mem_qualified ..) hdot

/-- A qualified name stands for what it stood for, unless it is written in a new file. -/
lemma Extends.basicType?_of_qualified (h : p.Extends p') (hdot : '.' ∈ name.toList)
    (hid : id.package < p.packages.size ∨ p'.file? id = none) :
    p'.basicType? id name = p.basicType? id name := by
  refine Program.basicType?_of_qualified h.types hdot ?_
  by_cases hlt : id.package < p.packages.size
  · rw [h.file?_eq hlt]
  · -- the id leads nowhere in either program
    have hnone : p.file? id = none := by
      rw [file?, packageById?_of_size_le (Nat.not_lt.1 hlt)]
      rfl
    rw [hid.resolve_left hlt, hnone]

/-- A plain name that is declared stands for what it stood for. -/
lemma Extends.basicType?_of_plain (h : p.Extends p') (hu : p.types = some u)
    (hdot : '.' ∉ name.toList) {pkg : Package} (hpkg : pkg ∈ p.packages.values)
    (hlookup : u.lookup? pkg.path name ≠ none) (id : FileId) :
    p'.basicType? id name = p.basicType? id name := by
  obtain ⟨t, ht⟩ := exists_declares hdot hpkg hlookup id
  rw [basicType?_of_declares hu ht,
    basicType?_of_declares (h.types.trans hu) (h.declares hdot ht)]

end Program

section Loads

variable {config : Config} {types : Option TypeUniverse} {inputs more : List PackageInput}
  {p p' : Program}

lemma extends_of_load (hload : load config types inputs = .ok p)
    (hload' : load config types (inputs ++ more) = .ok p') : p.Extends p' := by
  obtain ⟨-, hloaded, htypes⟩ := load_eq_ok_iff.1 hload
  obtain ⟨-, hloaded', htypes'⟩ := load_eq_ok_iff.1 hload'
  exact ⟨htypes'.trans htypes.symm, hloaded.entries_extend hloaded'⟩

lemma paths_of_load (hload : load config types inputs = .ok p) :
    p.packages.values.map Package.path = inputs.map PackageInput.path := by
  rw [OrderedMap.values, List.map_map]
  exact (load_eq_ok_iff.1 hload).2.1.map_entries_eq fun _ _ _ _ hpkg => hpkg.path

end Loads

/-- After a load names stand for the types below those that the scopes of the loaded packages and
the imports declare, or for themselves. If further packages are loaded, a qualified name stands for
the same as before, unless it is written in one of their files, and so does a plain name that is
declared. -/
theorem basicType?_of_load {config : Config} {types : Option TypeUniverse}
    {inputs : List PackageInput} {p : Program} (hload : load config types inputs = .ok p) :
    p.types = types ∧ p.packages.values.map Package.path = inputs.map PackageInput.path ∧
    p.NamesBasicTypes ∧
    ∀ more p', load config types (inputs ++ more) = .ok p' →
      (∀ id name, '.' ∈ name.toList → id.package < inputs.length ∨ p'.file? id = none →
        p'.basicType? id name = p.basicType? id name) ∧
      ∀ u name, types = some u → '.' ∉ name.toList →
        (∃ input ∈ inputs, u.lookup? input.path name ≠ none) →
        ∀ id, p'.basicType? id name = p.basicType? id name := by
  obtain ⟨-, hloaded, htypes⟩ := load_eq_ok_iff.1 hload
  have hpaths := paths_of_load hload
  refine ⟨htypes, hpaths, p.namesBasicTypes, fun more p' hload' => ?_⟩
  have hextends := extends_of_load hload hload'
  refine ⟨fun id name hdot hid => ?_, fun u name hu hdot hdeclared id => ?_⟩
  · rw [← hloaded.size_eq] at hid
    exact hextends.basicType?_of_qualified hdot hid
  · obtain ⟨input, hinput, hlookup⟩ := hdeclared
    have hpath : input.path ∈ p.packages.values.map Package.path :=
      hpaths ▸ List.mem_map_of_mem hinput
    obtain ⟨pkg, hpkg, hpath⟩ := List.mem_map.1 hpath
    exact hextends.basicType?_of_plain (htypes.trans hu) hdot hpkg (hpath ▸ hlookup) id

/-- A universe with the type `Size` of the package `io` and the type `Count` of the package
`example/a`. -/
def TypeUniverse.sizes : TypeUniverse :=
  let (int, u) := TypeUniverse.literal {} "int"
  let (size, u) := u.named "io.Size" (some int)
  (u.declare "io" "Size" size).declare "example/a" "Count" size

/-- The script of a file that imports `io`. -/
def Step.importsIo : List Step := [.importSpec none "io", .decl .imports 0]

theorem basicType?_of_sizes :
    ∃ b, (Progress.mk (.start "x.go" "x") #[]).run Step.importsIo = some b ∧
      ∃ p p', load {} (some .sizes) [⟨"x", "example/a", [b.builder.finish], []⟩] = .ok p ∧
        load {} (some .sizes) [⟨"x", "example/a", [b.builder.finish], []⟩,
          ⟨"x", "example/b", [b.builder.finish], []⟩] = .ok p' ∧
        p.NamesBasicTypes ∧
        p'.basicType? ⟨0, 0⟩ "io.Size" = p.basicType? ⟨0, 0⟩ "io.Size" ∧
        p.basicType? ⟨0, 0⟩ "io.Size" = some "int" ∧
        p'.basicType? ⟨7, 3⟩ "Count" = p.basicType? ⟨7, 3⟩ "Count" ∧
        p.basicType? ⟨7, 3⟩ "Count" = some "int" := by
  have hrun : ((Progress.mk (.start "x.go" "x") #[]).run Step.importsIo).any fun b =>
      match load {} (some .sizes) [⟨"x", "example/a", [b.builder.finish], []⟩],
        load {} (some .sizes) [⟨"x", "example/a", [b.builder.finish], []⟩,
          ⟨"x", "example/b", [b.builder.finish], []⟩] with
        | .ok p, .ok _ => p.basicType? ⟨0, 0⟩ "io.Size" == some "int" &&
            p.basicType? ⟨7, 3⟩ "Count" == some "int"
        | _, _ => false := by
    decide +kernel
  obtain ⟨b, hb, hcheck⟩ := (Option.any_eq_true _ _).1 hrun
  refine ⟨b, hb, ?_⟩
  split at hcheck
  case h_2 => simp at hcheck
  case h_1 p p' hload hload' =>
    rw [Bool.and_eq_true, beq_iff_eq, beq_iff_eq] at hcheck
    obtain ⟨-, -, hnames, hmore⟩ := basicType?_of_load hload
    obtain ⟨hqualified, hplain⟩ := hmore [⟨"x", "example/b", [b.builder.finish], []⟩] p' hload'
    have hsize := hqualified ⟨0, 0⟩ "io.Size" (by decide) (.inl Nat.zero_lt_one)
    have hdeclared : TypeUniverse.sizes.lookup? "example/a" "Count" ≠ none := by decide
    have hcount := hplain .sizes "Count" rfl (by decide) ⟨_, List.mem_singleton_self _, hdeclared⟩
      ⟨7, 3⟩
    exact ⟨p, p', hload, hload', hnames, hsize, hcheck.1, hcount, hcheck.2⟩

/-- A further package can make an id that led nowhere that of a file, and then a qualified name
stands for something else there. -/
theorem not_forall_basicType?_eq :
    ¬∀ config types inputs more p p', load config types inputs = .ok p →
      load config types (inputs ++ more) = .ok p' →
      ∀ id name, '.' ∈ name.toList → p'.basicType? id name = p.basicType? id name := by
  intro hall
  have hrun : ((Progress.mk (.start "x.go" "x") #[]).run Step.importsIo).any fun b =>
      match load {} (some .sizes) [⟨"x", "example/a", [], []⟩],
        load {} (some .sizes) [⟨"x", "example/a", [], []⟩,
          ⟨"x", "example/b", [b.builder.finish], []⟩] with
        | .ok p, .ok p' => p.basicType? ⟨1, 0⟩ "io.Size" == none &&
            p'.basicType? ⟨1, 0⟩ "io.Size" == some "int"
        | _, _ => false := by
    decide +kernel
  obtain ⟨b, -, hcheck⟩ := (Option.any_eq_true _ _).1 hrun
  split at hcheck
  case h_2 => simp at hcheck
  case h_1 p p' hload hload' =>
    rw [Bool.and_eq_true, beq_iff_eq, beq_iff_eq] at hcheck
    have hsame := hall _ _ [_] [_] p p' hload hload' ⟨1, 0⟩ "io.Size" (by decide)
    rw [hcheck.1, hcheck.2] at hsame
    simp at hsame

end GoOutline
