/-
# What a load answers

A package offends if its path was there before, if it has errors although none are tolerated, or if
two of its files have the same path. A load fails exactly if some package offends, and it fails with
what is wrong with the first such package. Otherwise every package is outlined, whatever the mode:
strict and lenient loads differ only in which inputs they accept.
-/
import GoOutline.Program.Load
import GoOutline.Proofs.OrderedMap
import GoOutline.Proofs.Sequence
import Mathlib.Data.List.Induction
import Mathlib.Data.List.Nodup

/-! ## First repetitions -/

namespace List

variable {α : Type}

/-- The member `a` of `as` is the first one that was there before. -/
def FirstRepeat (as : List α) (a : α) : Prop :=
  ∃ front rest, as = front ++ a :: rest ∧ front.Nodup ∧ a ∈ front

lemma FirstRepeat.not_nodup {as : List α} {a : α} (h : as.FirstRepeat a) : ¬as.Nodup := by
  obtain ⟨front, rest, rfl, -, hmem⟩ := h
  intro hnodup
  exact (nodup_append.1 hnodup).2.2 a hmem a (by simp) rfl

lemma nodup_or_firstRepeat [DecidableEq α] (as : List α) : as.Nodup ∨ ∃ a, as.FirstRepeat a := by
  -- from the end, since what makes a member a repeat stands before it
  induction as using List.reverseRecOn with
  | nil => exact .inl nodup_nil
  | append_singleton as a ih =>
    rcases ih with hnodup | ⟨b, front, rest, rfl, hfront, hmem⟩
    · by_cases hmem : a ∈ as
      · exact .inr ⟨a, as, [], rfl, hnodup, hmem⟩
      · exact .inl (nodup_append.2 ⟨hnodup, nodup_singleton a, by
          rintro b hb c hc rfl
          exact hmem (mem_singleton.1 hc ▸ hb)⟩)
    · exact .inr ⟨b, front, rest ++ [a], by simp, hfront, hmem⟩

end List

namespace GoOutline

/-! ## Files -/

namespace PackageInput

variable {policy : Redeclaration} {mode : LoadMode} {input : PackageInput}

/-- The outlines of some trees of the package in position `id`, of which the first one has number
`i`. -/
def outlines (policy : Redeclaration) (id : Nat) (input : PackageInput) (i : Nat)
    (trees : List Tree) : List (String × File) :=
  (trees.zipIdx i).map fun (t, j) => (t.path, File.ofTree policy ⟨id, j⟩ input.name t)

lemma outlines_paths (policy : Redeclaration) (id : Nat) (input : PackageInput) (i : Nat)
    (trees : List Tree) : (input.outlines policy id i trees).map Prod.fst = trees.map Tree.path := by
  have hpaths := congrArg (List.map Tree.path) (List.zipIdx_map_fst i trees)
  rw [List.map_map] at hpaths
  rw [outlines, List.map_map]
  exact hpaths

/-- Nothing was reported for the package and its files. -/
def ErrorFree (input : PackageInput) : Prop :=
  input.errors = [] ∧ ∀ t ∈ input.trees, t.diagnostics = []

lemma allErrors_eq (input : PackageInput) :
    input.allErrors = input.errors ++ (input.trees.map Tree.diagnostics).flatten := by
  rw [allErrors, List.flatMap_def]

lemma errorFree_iff : input.ErrorFree ↔ input.allErrors = [] := by
  simp [ErrorFree, allErrors]

lemma tolerated_iff :
    (mode = .lenient ∨ input.ErrorFree) ↔ ¬(mode = .strict ∧ input.allErrors ≠ []) := by
  cases mode <;> simp [errorFree_iff]

/-- The package is what the input is loaded as in position `n`. -/
structure LoadedAs (policy : Redeclaration) (n : Nat) (input : PackageInput) (pkg : Package) :
    Prop where
  id : pkg.id = n
  name : pkg.name = input.name
  path : pkg.path = input.path
  files : pkg.files.entries = input.outlines policy n 0 input.trees
  /-- The errors of the package come before those of its files, and these stand in the order of the
  files. -/
  errors : pkg.errors = input.errors ++ (input.trees.map Tree.diagnostics).flatten

lemma LoadedAs.files_values {n : Nat} {pkg : Package} (h : input.LoadedAs policy n pkg) :
    pkg.files.values =
      input.trees.zipIdx.map fun (t, i) => File.ofTree policy ⟨n, i⟩ input.name t := by
  rw [OrderedMap.values, h.files, outlines, List.map_map]
  rfl

end PackageInput

section Files

variable {config : Config} {id : Nat} {input : PackageInput} {files : OrderedMap File}

/-- One file more. -/
lemma loadFiles_cons_of_not_mem {tree : Tree} (hmem : tree.path ∉ files.keys) (trees : List Tree) :
    loadFiles config id input files (tree :: trees) =
      loadFiles config id input (files.push tree.path
        (File.ofTree config.redeclaration ⟨id, files.size⟩ input.name tree)
        (OrderedMap.contains_eq_false_iff.2 hmem)) trees := by
  simp only [loadFiles, OrderedMap.insertNew_of_not_mem hmem]

/-- Files with new paths go into the map one after the other. -/
lemma loadFiles_append (config : Config) (id : Nat) (input : PackageInput)
    (files : OrderedMap File) (front rest : List Tree)
    (hnodup : (files.keys ++ front.map Tree.path).Nodup) :
    ∃ files' : OrderedMap File,
      files'.entries = files.entries ++
        input.outlines config.redeclaration id files.size front ∧
      loadFiles config id input files (front ++ rest) = loadFiles config id input files' rest := by
  induction front generalizing files with
  | nil => exact ⟨files, by simp [PackageInput.outlines], rfl⟩
  | cons tree front ih =>
    have hmem : tree.path ∉ files.keys := fun hin =>
      (List.nodup_append.1 hnodup).2.2 _ hin _ (by simp) rfl
    rw [List.cons_append, loadFiles_cons_of_not_mem hmem]
    obtain ⟨files', hentries, hload⟩ := ih (files.push tree.path
        (File.ofTree config.redeclaration ⟨id, files.size⟩ input.name tree)
        (OrderedMap.contains_eq_false_iff.2 hmem)) (by simpa using hnodup)
    refine ⟨files', ?_, hload⟩
    simp [hentries, OrderedMap.push, OrderedMap.size, PackageInput.outlines]

lemma loadFiles_of_nodup (config : Config) (id : Nat)
    (hnodup : (input.trees.map Tree.path).Nodup) :
    ∃ files, loadFiles config id input ∅ input.trees = .ok files ∧
      files.entries = input.outlines config.redeclaration id 0 input.trees := by
  obtain ⟨files, hentries, hload⟩ :=
    loadFiles_append config id input ∅ input.trees [] (by simpa using hnodup)
  rw [List.append_nil] at hload
  exact ⟨files, hload, hentries⟩

lemma loadFiles_of_firstRepeat {path : String}
    (hrepeat : (input.trees.map Tree.path).FirstRepeat path) :
    loadFiles config id input ∅ input.trees = .error (.duplicateFile input.path path) := by
  obtain ⟨front, rest, hpaths, hnodup, hmem⟩ := hrepeat
  -- the trees split where their paths do, and those before the repeat have been stored
  obtain ⟨trees, more, htrees, rfl, hmore⟩ := List.map_eq_append_iff.1 hpaths
  obtain ⟨tree, trees', rfl, rfl, -⟩ := List.map_eq_cons_iff.1 hmore
  obtain ⟨files, hentries, hload⟩ :=
    loadFiles_append config id input ∅ trees (tree :: trees') (by simpa using hnodup)
  have hkeys : files.keys = trees.map Tree.path := by
    rw [OrderedMap.keys, hentries]
    exact PackageInput.outlines_paths config.redeclaration id input 0 trees
  rw [htrees, hload]
  simp only [loadFiles, OrderedMap.insertNew_of_mem (hkeys ▸ hmem)]

end Files

/-! ## Packages -/

namespace PackageInput

/-- What is wrong with a package that comes after the packages `before`. A path that was there goes
before errors, and these go before a repeated file. -/
inductive Offends (mode : LoadMode) (before : List PackageInput) (input : PackageInput) :
    LoadError → Prop
  | package (hpath : input.path ∈ before.map path) :
    Offends mode before input (.duplicatePackage input.path)
  | errors (hpath : input.path ∉ before.map path) (hmode : mode = .strict)
    (herrors : ¬input.ErrorFree) : Offends mode before input (.packageErrors input.path
      (input.errors ++ (input.trees.map Tree.diagnostics).flatten))
  | file (hpath : input.path ∉ before.map path) (hmode : mode = .lenient ∨ input.ErrorFree)
    {file : String} (hfile : (input.trees.map Tree.path).FirstRepeat file) :
    Offends mode before input (.duplicateFile input.path file)

/-- A package that can be loaded after the packages `before`. -/
structure Sound (mode : LoadMode) (before : List PackageInput) (input : PackageInput) : Prop where
  path : input.path ∉ before.map PackageInput.path
  errors : mode = .lenient ∨ input.ErrorFree
  files : (input.trees.map Tree.path).Nodup

variable {policy : Redeclaration} {mode : LoadMode} {before : List PackageInput}
  {input : PackageInput} {e : LoadError}

lemma Sound.not_offends (h : input.Sound mode before) : ¬input.Offends mode before e := by
  intro ho
  cases ho with
  | package hpath => exact h.path hpath
  | errors _ hmode herrors =>
    rcases h.errors with hlenient | hfree
    · simp [hmode] at hlenient
    · exact herrors hfree
  | file _ _ hfile => exact hfile.not_nodup h.files

lemma sound_or_offends (mode : LoadMode) (before : List PackageInput) (input : PackageInput) :
    input.Sound mode before ∨ ∃ e, input.Offends mode before e := by
  by_cases hpath : input.path ∈ before.map PackageInput.path
  · exact .inr ⟨_, .package hpath⟩
  by_cases herrors : mode = .lenient ∨ input.ErrorFree
  · rcases List.nodup_or_firstRepeat (input.trees.map Tree.path) with hnodup | ⟨file, hfile⟩
    · exact .inl ⟨hpath, herrors, hnodup⟩
    · exact .inr ⟨_, .file hpath herrors hfile⟩
  · rw [not_or] at herrors
    cases mode with
    | strict => exact .inr ⟨_, .errors hpath rfl herrors.2⟩
    | lenient => exact absurd rfl herrors.1

/-- The map holds the packages that some inputs are loaded as, in order and under their paths. -/
def Loaded (policy : Redeclaration) (inputs : List PackageInput) (m : OrderedMap Package) : Prop :=
  List.Forall₂ (fun x e => e.1 = x.1.path ∧ x.1.LoadedAs policy x.2 e.2) inputs.zipIdx m.entries

lemma LoadedAs.unique {n : Nat} {pkg pkg' : Package} (h : input.LoadedAs policy n pkg)
    (h' : input.LoadedAs policy n pkg') : pkg = pkg' := by
  have hfiles : pkg.files = pkg'.files := OrderedMap.ext_entries (h.files.trans h'.files.symm)
  have hid := h.id.trans h'.id.symm
  have hname := h.name.trans h'.name.symm
  have hpath := h.path.trans h'.path.symm
  have herrors := h.errors.trans h'.errors.symm
  cases pkg
  cases pkg'
  simp only [Package.mk.injEq]
  exact ⟨hid, hname, hpath, hfiles, herrors⟩

namespace Loaded

variable {inputs : List PackageInput} {m m' : OrderedMap Package}

lemma empty : Loaded policy [] ∅ := .nil

/-- What can be told of each package by its input can be told of all of them. -/
lemma map_entries_eq {β : Type} (h : Loaded policy inputs m) {f : PackageInput → β}
    {g : String × Package → β}
    (hfg : ∀ x n e, e.1 = x.path → x.LoadedAs policy n e.2 → g e = f x) :
    m.entries.map g = inputs.map f := by
  have hleft : inputs.zipIdx.map (fun x => f x.1) = m.entries.map g := by
    rw [← List.forall₂_eq_eq_eq, List.forall₂_map_left_iff, List.forall₂_map_right_iff]
    exact h.imp fun x e hxe => (hfg x.1 x.2 e hxe.1 hxe.2).symm
  have hinputs := congrArg (List.map f) (List.zipIdx_map_fst 0 inputs)
  rw [List.map_map] at hinputs
  exact hleft.symm.trans hinputs

lemma keys_eq (h : Loaded policy inputs m) : m.keys = inputs.map PackageInput.path :=
  h.map_entries_eq fun _ _ _ hkey _ => hkey

lemma errorFree_iff (h : Loaded policy inputs m) :
    (∀ pkg ∈ m.values, pkg.errors = []) ↔ ∀ input ∈ inputs, input.ErrorFree := by
  have herrors : m.values.map Package.errors = inputs.map PackageInput.allErrors := by
    rw [OrderedMap.values, List.map_map]
    exact h.map_entries_eq fun x _ _ _ hx => hx.errors.trans x.allErrors_eq.symm
  have hleft : (∀ pkg ∈ m.values, pkg.errors = []) ↔ ∀ es ∈ m.values.map Package.errors, es = [] := by
    simp
  rw [hleft, herrors]
  simp [PackageInput.errorFree_iff]

lemma size_eq (h : Loaded policy inputs m) : m.size = inputs.length := by
  rw [← OrderedMap.length_keys, h.keys_eq, List.length_map]

lemma unique (h : Loaded policy inputs m) (h' : Loaded policy inputs m') : m = m' := by
  refine OrderedMap.ext_entries ?_
  have hright : Relator.RightUnique fun (x : PackageInput × Nat) (e : String × Package) =>
      e.1 = x.1.path ∧ x.1.LoadedAs policy x.2 e.2 := by
    rintro x ⟨key, pkg⟩ ⟨key', pkg'⟩ ⟨rfl, hpkg⟩ ⟨rfl, hpkg'⟩
    exact congrArg _ (hpkg.unique hpkg')
  exact List.right_unique_forall₂' hright h h'

lemma push {pkg : Package} (h : Loaded policy inputs m)
    (hpkg : input.LoadedAs policy m.size pkg) (fresh : m.contains input.path = false) :
    Loaded policy (inputs ++ [input]) (m.push input.path pkg fresh) := by
  rw [Loaded, List.zipIdx_append]
  refine List.rel_append h (.cons ⟨rfl, ?_⟩ .nil)
  rw [← h.size_eq, Nat.zero_add]
  exact hpkg

/-- Each input is found under its path as the package it is loaded as. -/
lemma get? {n : Nat} (h : Loaded policy inputs m) (hmem : (input, n) ∈ inputs.zipIdx) :
    ∃ pkg, m.get? input.path = some pkg ∧ input.LoadedAs policy n pkg := by
  obtain ⟨⟨key, pkg⟩, hentry, hkey, hpkg⟩ := h.exists_of_mem hmem
  refine ⟨pkg, OrderedMap.get?_eq_some_iff.2 ?_, hpkg⟩
  rw [← hkey]
  exact hentry

end Loaded

end PackageInput

section Packages

open PackageInput

variable {config : Config} {before inputs : List PackageInput} {input : PackageInput}
  {m : OrderedMap Package} {e : LoadError}

/-- An input with nothing wrong in it is outlined. -/
lemma loadPackage_of_sound (h : input.Sound config.mode before) (n : Nat) :
    ∃ pkg, loadPackage config n input = .ok pkg ∧ input.LoadedAs config.redeclaration n pkg := by
  obtain ⟨files, hload, hentries⟩ := loadFiles_of_nodup config n h.files
  refine ⟨⟨n, input.name, input.path, files, input.allErrors⟩, ?_, rfl, rfl, rfl, hentries,
    input.allErrors_eq⟩
  simp only [loadPackage, if_neg (tolerated_iff.1 h.errors), hload]
  rfl

/-- The next package is loaded, or the load fails with what is wrong with it. -/
lemma loadPackages_cons_of_sound (hm : Loaded config.redeclaration before m)
    (h : input.Sound config.mode before) (inputs : List PackageInput) :
    ∃ m', Loaded config.redeclaration (before ++ [input]) m' ∧
      loadPackages config m (input :: inputs) = loadPackages config m' inputs := by
  have fresh : m.contains input.path = false := by
    rw [OrderedMap.contains_eq_false_iff, hm.keys_eq]
    exact h.path
  obtain ⟨pkg, hload, hpkg⟩ := loadPackage_of_sound h m.size
  refine ⟨m.push input.path pkg fresh, hm.push hpkg fresh, ?_⟩
  simp only [loadPackages, dif_pos fresh, hload]
  rfl

lemma loadPackages_cons_of_offends (hm : Loaded config.redeclaration before m)
    (h : input.Offends config.mode before e) (inputs : List PackageInput) :
    loadPackages config m (input :: inputs) = .error e := by
  have hfresh : input.path ∉ before.map path → m.contains input.path = false := by
    rw [OrderedMap.contains_eq_false_iff, hm.keys_eq]
    exact id
  cases h with
  | package hpath =>
    have hmem : ¬m.contains input.path = false := by
      rw [OrderedMap.contains_eq_false_iff, hm.keys_eq]
      exact fun hnot => hnot hpath
    simp only [loadPackages, dif_neg hmem]
  | errors hpath hmode herrors =>
    -- the path is new, so the check of the errors is reached
    have hcond : config.mode = .strict ∧ input.allErrors ≠ [] :=
      ⟨hmode, fun hnil => herrors (errorFree_iff.2 hnil)⟩
    rw [← allErrors_eq]
    simp only [loadPackages, dif_pos (hfresh hpath), loadPackage, if_pos hcond]
    rfl
  | file hpath hmode hfile =>
    -- and here it passes, so the files are loaded up to the repeated path
    simp only [loadPackages, dif_pos (hfresh hpath), loadPackage, if_neg (tolerated_iff.1 hmode),
      loadFiles_of_firstRepeat hfile]
    rfl

end Packages

/-! ## Whole loads -/

/-- No input offends. -/
def Accepted (mode : LoadMode) (inputs : List PackageInput) : Prop :=
  ∀ before input after, inputs = before ++ input :: after → ∀ e, ¬input.Offends mode before e

/-- The first input that offends does so in the way `e`. -/
def FirstOffence (mode : LoadMode) (inputs : List PackageInput) (e : LoadError) : Prop :=
  ∃ before input after, inputs = before ++ input :: after ∧ Accepted mode before ∧
    input.Offends mode before e

section Loads

open PackageInput

variable {config : Config} {mode : LoadMode} {types : Option TypeUniverse}
  {inputs : List PackageInput} {input : PackageInput} {e : LoadError} {p : Program}

lemma accepted_concat : Accepted mode (inputs ++ [input]) ↔
    Accepted mode inputs ∧ input.Sound mode inputs := by
  constructor
  · intro h
    refine ⟨fun before x after heq => h before x (after ++ [input]) (by simp [heq]), ?_⟩
    rcases sound_or_offends mode inputs input with hsound | ⟨e, he⟩
    · exact hsound
    · exact absurd he (h inputs input [] rfl e)
  · rintro ⟨h, hsound⟩ before x after heq e
    -- the input that is split off is the last one or one of those before it
    rcases List.eq_nil_or_concat after with rfl | ⟨after', y, rfl⟩
    · obtain ⟨rfl, hx⟩ := List.append_inj' heq rfl
      obtain rfl := List.singleton_inj.1 hx
      exact hsound.not_offends
    · rw [List.concat_eq_append, ← List.cons_append, ← List.append_assoc] at heq
      exact h before x after' (List.append_inj_left' heq rfl) e

lemma accepted_or_firstOffence (mode : LoadMode) (inputs : List PackageInput) :
    Accepted mode inputs ∨ ∃ e, FirstOffence mode inputs e := by
  induction inputs using List.reverseRecOn with
  | nil => exact .inl fun before input after heq => by simp at heq
  | append_singleton inputs input ih =>
    rcases ih with haccepted | ⟨e, before, x, after, rfl, hbefore, hx⟩
    · rcases sound_or_offends mode inputs input with hsound | ⟨e, he⟩
      · exact .inl (accepted_concat.2 ⟨haccepted, hsound⟩)
      · exact .inr ⟨e, inputs, input, [], rfl, haccepted, he⟩
    · exact .inr ⟨e, before, x, after ++ [input], by simp, hbefore, hx⟩

/-- Nothing offends exactly if all paths are distinct and errors are tolerated or absent. -/
lemma accepted_iff : Accepted mode inputs ↔
    (inputs.map path).Nodup ∧ (∀ input ∈ inputs, (input.trees.map Tree.path).Nodup) ∧
      (mode = .lenient ∨ ∀ input ∈ inputs, input.ErrorFree) := by
  induction inputs using List.reverseRecOn with
  | nil => simp [Accepted]
  | append_singleton inputs input ih =>
    have hnodup : ((inputs ++ [input]).map path).Nodup ↔
        (inputs.map path).Nodup ∧ input.path ∉ inputs.map path := by
      rw [List.map_append, List.map_singleton, ← List.concat_eq_append, List.nodup_concat, and_comm]
    have hsound : input.Sound mode inputs ↔ input.path ∉ inputs.map path ∧
        (mode = .lenient ∨ input.ErrorFree) ∧ (input.trees.map Tree.path).Nodup :=
      ⟨fun h => ⟨h.path, h.errors, h.files⟩, fun h => ⟨h.1, h.2.1, h.2.2⟩⟩
    have hmem {P : PackageInput → Prop} :
        (∀ x ∈ inputs ++ [input], P x) ↔ (∀ x ∈ inputs, P x) ∧ P input := by
      simp [or_imp, forall_and]
    rw [accepted_concat, ih, hnodup, hsound, hmem, hmem, or_and_left]
    constructor
    · rintro ⟨⟨hpaths, hfiles, herrors⟩, hpath, herror, hfile⟩
      exact ⟨⟨hpaths, hpath⟩, ⟨hfiles, hfile⟩, herrors, herror⟩
    · rintro ⟨⟨hpaths, hpath⟩, ⟨hfiles, hfile⟩, herrors, herror⟩
      exact ⟨⟨hpaths, hfiles, herrors⟩, hpath, herror, hfile⟩

/-- The state of a load after inputs of which none offends. -/
lemma loadPackages_of_accepted (h : Accepted config.mode inputs) :
    ∃ m, Loaded config.redeclaration inputs m ∧
      ∀ rest, loadPackages config ∅ (inputs ++ rest) = loadPackages config m rest := by
  induction inputs using List.reverseRecOn with
  | nil => exact ⟨∅, .empty, fun rest => rfl⟩
  | append_singleton inputs input ih =>
    obtain ⟨haccepted, hsound⟩ := accepted_concat.1 h
    obtain ⟨m, hm, hload⟩ := ih haccepted
    obtain ⟨m', hm', -⟩ := loadPackages_cons_of_sound hm hsound []
    refine ⟨m', hm', fun rest => ?_⟩
    -- the packages after this step do not depend on what is still to be loaded
    obtain ⟨m'', hm'', hcons⟩ := loadPackages_cons_of_sound hm hsound rest
    rw [List.append_assoc, hload, List.singleton_append, hcons, hm'.unique hm'']

lemma load_of_accepted (h : Accepted config.mode inputs) (types : Option TypeUniverse) :
    ∃ m, Loaded config.redeclaration inputs m ∧ load config types inputs = .ok ⟨m, types⟩ := by
  obtain ⟨m, hm, hload⟩ := loadPackages_of_accepted h
  refine ⟨m, hm, ?_⟩
  have hall := hload []
  rw [List.append_nil] at hall
  simp only [load, hall, loadPackages]
  rfl

lemma load_of_firstOffence (h : FirstOffence config.mode inputs e) :
    load config types inputs = .error e := by
  obtain ⟨before, input, after, rfl, hbefore, hinput⟩ := h
  obtain ⟨m, hm, hload⟩ := loadPackages_of_accepted hbefore
  simp only [load, hload, loadPackages_cons_of_offends hm hinput]
  rfl

lemma load_eq_ok_iff : load config types inputs = .ok p ↔
    Accepted config.mode inputs ∧ Loaded config.redeclaration inputs p.packages ∧
      p.types = types := by
  rcases accepted_or_firstOffence config.mode inputs with haccepted | ⟨e, he⟩
  · obtain ⟨m, hm, hload⟩ := load_of_accepted haccepted types
    rw [hload]
    constructor
    · intro h
      obtain rfl := Except.ok.inj h
      exact ⟨haccepted, hm, rfl⟩
    · rintro ⟨-, hp, rfl⟩
      rw [hm.unique hp]
  · rw [load_of_firstOffence he]
    refine ⟨fun h => by simp at h, fun h => ?_⟩
    obtain ⟨before, input, after, hsplit, -, hoffends⟩ := he
    exact absurd hoffends (h.1 before input after hsplit e)

end Loads

/-! ## Decisions -/

/-- Loads packages like `loadPackages`, but checks once more before a package goes into the map. If
its path is in use there, the load fails in the way `late`. -/
def loadPackagesTwiceChecked (late : LoadError) (config : Config) (packages : OrderedMap Package) :
    List PackageInput → Except LoadError (OrderedMap Package)
  | [] => .ok packages
  | input :: inputs =>
    if packages.contains input.path then .error (.duplicatePackage input.path)
    else do
      let package ← loadPackage config packages.size input
      match packages.insertNew input.path package with
      | .ok (_, packages) => loadPackagesTwiceChecked late config packages inputs
      | .error _ => .error late

lemma loadPackagesTwiceChecked_eq (late : LoadError) (config : Config)
    (packages : OrderedMap Package) (inputs : List PackageInput) :
    loadPackagesTwiceChecked late config packages inputs = loadPackages config packages inputs := by
  induction inputs generalizing packages with
  | nil => rfl
  | cons input inputs ih =>
    by_cases fresh : packages.contains input.path = false
    · have hmem := OrderedMap.contains_eq_false_iff.1 fresh
      simp only [loadPackagesTwiceChecked, loadPackages, fresh, dif_pos,
        OrderedMap.insertNew_of_not_mem hmem, ih]
      rfl
    · simp only [loadPackagesTwiceChecked, loadPackages, dif_neg fresh]
      rw [if_pos (by simpa using fresh)]

/-- What a load answers to some inputs. -/
structure LoadDecision (config : Config) (types : Option TypeUniverse)
    (inputs : List PackageInput) : Prop where
  ok_iff : (∃ p, load config types inputs = .ok p) ↔
    (inputs.map PackageInput.path).Nodup ∧
      (∀ input ∈ inputs, (input.trees.map Tree.path).Nodup) ∧
      (config.mode = .lenient ∨ ∀ input ∈ inputs, input.ErrorFree)
  error_iff : ∀ e, load config types inputs = .error e ↔ FirstOffence config.mode inputs e
  /-- The path of a package that is not in use when its load begins is not in use when it ends: the
  answer to a second check is never given. -/
  second_check : ∀ late,
    loadPackagesTwiceChecked late config ∅ inputs = loadPackages config ∅ inputs
  loaded : ∀ p, load config types inputs = .ok p →
    p.types = types ∧ PackageInput.Loaded config.redeclaration inputs p.packages
  /-- A strict load gives what a lenient one gives, if no package has errors, and else nothing. -/
  strict_iff : ∀ p, load { config with mode := .strict } types inputs = .ok p ↔
    load { config with mode := .lenient } types inputs = .ok p ∧
      ∀ pkg ∈ p.packages.values, pkg.errors = []

/-- Every load is decided by the first input that offends. -/
theorem load_decision (config : Config) (types : Option TypeUniverse)
    (inputs : List PackageInput) : LoadDecision config types inputs := by
  refine ⟨?_, fun e => ?_, fun late => loadPackagesTwiceChecked_eq late config ∅ inputs,
    fun p hp => ?_, fun p => ?_⟩
  · rw [← accepted_iff]
    constructor
    · rintro ⟨p, hp⟩
      exact (load_eq_ok_iff.1 hp).1
    · intro haccepted
      obtain ⟨m, -, hload⟩ := load_of_accepted haccepted types
      exact ⟨_, hload⟩
  · refine ⟨fun he => ?_, load_of_firstOffence⟩
    rcases accepted_or_firstOffence config.mode inputs with haccepted | ⟨e', he'⟩
    · obtain ⟨m, -, hload⟩ := load_of_accepted haccepted types
      rw [hload] at he
      simp at he
    · rw [load_of_firstOffence he'] at he
      obtain rfl := Except.error.inj he
      exact he'
  · have h := load_eq_ok_iff.1 hp
    exact ⟨h.2.2, h.2.1⟩
  · rw [load_eq_ok_iff, load_eq_ok_iff, accepted_iff, accepted_iff]
    constructor
    · rintro ⟨⟨hpaths, hfiles, herrors⟩, hloaded, htypes⟩
      have hfree := herrors.resolve_left (by simp)
      exact ⟨⟨⟨hpaths, hfiles, .inl rfl⟩, hloaded, htypes⟩, hloaded.errorFree_iff.2 hfree⟩
    · rintro ⟨⟨⟨hpaths, hfiles, -⟩, hloaded, htypes⟩, hfree⟩
      exact ⟨⟨hpaths, hfiles, .inr (hloaded.errorFree_iff.1 hfree)⟩, hloaded, htypes⟩

end GoOutline
