/-
# Packages are loaded independently

What a package is loaded as depends on its input and its position only. If packages are loaded in
another order, the load succeeds or fails as before. Each package is then the same as before up to the
numbers of packages: those in the ids of packages and files, and those that declarations record. So
it is also the same as if it were loaded alone.
-/
import GoOutline.Proofs.Outline.Relocation
import GoOutline.Proofs.Program.BackReferences
import Mathlib.Data.Set.Function
import Mathlib.Order.Interval.Set.Defs

namespace GoOutline

/-! ## Renumbering -/

/-- The id with the number of the package changed. -/
def FileId.renumber (σ : Nat → Nat) (id : FileId) : FileId := ⟨σ id.package, id.index⟩

/-- The package with all numbers of packages in it changed. -/
def Package.renumber (σ : Nat → Nat) (pkg : Package) : Package :=
  { pkg with id := σ pkg.id, files := pkg.files.mapValues (File.relocate (FileId.renumber σ)) }

/-- The position among the paths `after` of the path in position `i` among the paths `before`. -/
def newPosition (before after : List String) (i : Nat) : Nat := after.idxOf (before.getD i "")

section Positions

variable {before after : List String} {i j : Nat} {path : String}

lemma newPosition_eq (hnodup : after.Nodup) (hi : before[i]? = some path)
    (hj : after[j]? = some path) : newPosition before after i = j := by
  obtain ⟨hlt, rfl⟩ := List.getElem?_eq_some_iff.1 hj
  rw [newPosition, List.getD_eq_getElem?_getD, hi, Option.getD_some, hnodup.idxOf_getElem]

/-- The positions among two lists of the same paths correspond one to one. -/
lemma newPosition_bijOn (hperm : before.Perm after) (hnodup : before.Nodup) :
    Set.BijOn (newPosition before after) (Set.Iio before.length) (Set.Iio after.length) := by
  have hnodup' : after.Nodup := hperm.nodup_iff.1 hnodup
  -- a path in one of the lists has a position in the other
  have hposition {as bs : List String} (hperm : as.Perm bs) {i : Nat} (hi : i ∈ Set.Iio as.length) :
      ∃ path j, as[i]? = some path ∧ bs[j]? = some path ∧ j < bs.length := by
    have hget : as[i]? = some as[i] := List.getElem?_eq_getElem hi
    obtain ⟨j, hj⟩ := List.mem_iff_getElem?.1 (hperm.mem_iff.1 (List.mem_of_getElem? hget))
    exact ⟨_, j, hget, hj, (List.getElem?_eq_some_iff.1 hj).1⟩
  have hinv : Set.InvOn (newPosition after before) (newPosition before after)
      (Set.Iio before.length) (Set.Iio after.length) := by
    constructor
    · intro i hi
      obtain ⟨path, j, hpath, hj, -⟩ := hposition hperm hi
      rw [newPosition_eq hnodup' hpath hj, newPosition_eq hnodup hj hpath]
    · intro i hi
      obtain ⟨path, j, hpath, hj, -⟩ := hposition hperm.symm hi
      rw [newPosition_eq hnodup hpath hj, newPosition_eq hnodup' hj hpath]
  refine hinv.bijOn ?_ ?_
  · intro i hi
    obtain ⟨path, j, hpath, hj, hlt⟩ := hposition hperm hi
    rw [newPosition_eq hnodup' hpath hj]
    exact hlt
  · intro i hi
    obtain ⟨path, j, hpath, hj, hlt⟩ := hposition hperm.symm hi
    rw [newPosition_eq hnodup hpath hj]
    exact hlt

end Positions

namespace PackageInput

variable {policy : Redeclaration} {input : PackageInput} {n : Nat} {pkg : Package}

lemma outlines_renumber (policy : Redeclaration) (n : Nat) (input : PackageInput) (i : Nat)
    (trees : List Tree) (σ : Nat → Nat) :
    input.outlines policy (σ n) i trees =
      (input.outlines policy n i trees).map fun e =>
        (e.1, e.2.relocate (FileId.renumber σ)) := by
  rw [outlines, outlines, List.map_map]
  refine List.map_congr_left fun x _ => ?_
  exact congrArg (x.1.path, ·)
    (File.ofTree_relocate (FileId.renumber σ) policy ⟨n, x.2⟩ input.name x.1)

/-- In another position a package is loaded as the same package with another number. -/
lemma LoadedAs.renumber (h : input.LoadedAs policy n pkg) (σ : Nat → Nat) :
    input.LoadedAs policy (σ n) (pkg.renumber σ) where
  id := congrArg σ h.id
  name := h.name
  path := h.path
  files := by
    rw [outlines_renumber, ← h.files]
    rfl
  errors := h.errors

end PackageInput

/-! ## Other orders -/

section Orders

open PackageInput

variable {config : Config} {mode : LoadMode} {types : Option TypeUniverse}
  {inputs inputs' : List PackageInput} {input : PackageInput} {p p' : Program} {n : Nat}

lemma accepted_of_perm (hperm : inputs.Perm inputs') (h : Accepted mode inputs) :
    Accepted mode inputs' := by
  obtain ⟨hpaths, hfiles, herrors⟩ := accepted_iff.1 h
  refine accepted_iff.2 ⟨(hperm.map path).nodup_iff.1 hpaths, fun x hx => ?_, ?_⟩
  · exact hfiles x (hperm.mem_iff.2 hx)
  · exact herrors.imp_right fun hfree x hx => hfree x (hperm.mem_iff.2 hx)

lemma accepted_singleton (h : Accepted mode inputs) (hinput : input ∈ inputs) :
    Accepted mode [input] := by
  obtain ⟨-, hfiles, herrors⟩ := accepted_iff.1 h
  refine accepted_iff.2 ⟨List.nodup_singleton _, ?_, ?_⟩
  · simpa using hfiles input hinput
  · exact herrors.imp_right fun hfree => by simpa using hfree input hinput

lemma load_isOk_iff : (∃ p, load config types inputs = .ok p) ↔ Accepted config.mode inputs := by
  constructor
  · rintro ⟨p, hp⟩
    exact (load_eq_ok_iff.1 hp).1
  · intro h
    obtain ⟨m, -, hload⟩ := load_of_accepted h types
    exact ⟨_, hload⟩

/-- A loaded package is found under the path of its input. -/
lemma package?_of_load (hload : load config types inputs = .ok p) (hn : inputs[n]? = some input) :
    ∃ pkg, p.package? input.path = some pkg ∧ input.LoadedAs config.redeclaration n pkg :=
  (load_eq_ok_iff.1 hload).2.1.get? (List.mk_mem_zipIdx_iff_getElem?.2 hn)

lemma newPosition_path {n' : Nat} (hnodup : (inputs'.map path).Nodup)
    (hn : inputs[n]? = some input) (hn' : inputs'[n']? = some input) :
    newPosition (inputs.map path) (inputs'.map path) n = n' := by
  have hpath : (inputs.map path)[n]? = some input.path := by rw [List.getElem?_map, hn]; rfl
  have hpath' : (inputs'.map path)[n']? = some input.path := by rw [List.getElem?_map, hn']; rfl
  exact newPosition_eq hnodup hpath hpath'

/-- Two loads of one input, in any positions, give one package up to its number. -/
lemma package?_renumber (hload : load config types inputs = .ok p)
    (hload' : load config types inputs' = .ok p') {n' : Nat} (hn : inputs[n]? = some input)
    (hn' : inputs'[n']? = some input) (σ : Nat → Nat) (hσ : σ n = n') :
    ∃ pkg, p.package? input.path = some pkg ∧ p'.package? input.path = some (pkg.renumber σ) := by
  obtain ⟨pkg, hpkg, hloaded⟩ := package?_of_load hload hn
  obtain ⟨pkg', hpkg', hloaded'⟩ := package?_of_load hload' hn'
  have hsame : pkg' = pkg.renumber σ := hloaded'.unique (hσ ▸ hloaded.renumber σ)
  exact ⟨pkg, hpkg, hsame ▸ hpkg'⟩

end Orders

/-- The programs have the same packages up to the numbers of packages, which `σ` changes. -/
structure Program.SameUpTo (σ : Nat → Nat) (p p' : Program) : Prop where
  types : p'.types = p.types
  packages : ∀ path, p'.package? path = (p.package? path).map (Package.renumber σ)
  /-- No two packages get the same number, and no number is left out. -/
  numbers : Set.BijOn σ (Set.Iio p.packages.size) (Set.Iio p'.packages.size)

lemma sameUpTo_of_perm {config : Config} {types : Option TypeUniverse}
    {inputs inputs' : List PackageInput} (hperm : inputs.Perm inputs') {p p' : Program}
    (hload : load config types inputs = .ok p) (hload' : load config types inputs' = .ok p') :
    p.SameUpTo (newPosition (inputs.map PackageInput.path) (inputs'.map PackageInput.path)) p' := by
  obtain ⟨haccepted, hloaded, rfl⟩ := load_eq_ok_iff.1 hload
  obtain ⟨haccepted', hloaded', htypes'⟩ := load_eq_ok_iff.1 hload'
  have hnodup := (accepted_iff.1 haccepted).1
  have hnodup' := (accepted_iff.1 haccepted').1
  refine ⟨htypes', fun path => ?_, ?_⟩
  · by_cases hpath : path ∈ inputs.map PackageInput.path
    · obtain ⟨input, hinput, rfl⟩ := List.mem_map.1 hpath
      obtain ⟨n, hn⟩ := List.mem_iff_getElem?.1 hinput
      obtain ⟨n', hn'⟩ := List.mem_iff_getElem?.1 (hperm.mem_iff.1 hinput)
      obtain ⟨pkg, hpkg, hpkg'⟩ :=
        package?_renumber hload hload' hn hn' _ (newPosition_path hnodup' hn hn')
      rw [hpkg, hpkg']
      rfl
    · -- a path that is not loaded is loaded in no order
      have hpath' : path ∉ inputs'.map PackageInput.path :=
        fun hin => hpath ((hperm.map _).mem_iff.2 hin)
      have hnone : p.package? path = none :=
        OrderedMap.get?_eq_none_iff.2 (hloaded.keys_eq ▸ hpath)
      have hnone' : p'.package? path = none :=
        OrderedMap.get?_eq_none_iff.2 (hloaded'.keys_eq ▸ hpath')
      rw [hnone, hnone']
      rfl
  · have hbij := newPosition_bijOn (hperm.map PackageInput.path) hnodup
    rwa [List.length_map, List.length_map, ← hloaded.size_eq, ← hloaded'.size_eq] at hbij

/-- Packages are loaded independently of each other: the order of the inputs decides neither whether
a load succeeds nor, up to the numbers of packages, what the packages are, and each package is what
its input alone is loaded as. -/
theorem load_independent (config : Config) (types : Option TypeUniverse)
    (inputs : List PackageInput) :
    (∀ p, load config types inputs = .ok p →
      (∀ inputs', inputs.Perm inputs' →
        ∃ p' σ, load config types inputs' = .ok p' ∧ p.SameUpTo σ p') ∧
      ∀ n input, inputs[n]? = some input →
        ∃ q alone, load config types [input] = .ok q ∧ q.package? input.path = some alone ∧
          p.package? input.path = some (alone.renumber fun _ => n)) ∧
    ∀ e, load config types inputs = .error e → ∀ inputs', inputs.Perm inputs' →
      ∃ e', load config types inputs' = .error e' := by
  refine ⟨fun p hload => ⟨fun inputs' hperm => ?_, fun n input hn => ?_⟩,
    fun e herror inputs' hperm => ?_⟩
  · have haccepted := accepted_of_perm hperm (load_eq_ok_iff.1 hload).1
    obtain ⟨p', hload'⟩ := load_isOk_iff.2 haccepted
    exact ⟨p', _, hload', sameUpTo_of_perm hperm hload hload'⟩
  · have haccepted := accepted_singleton (load_eq_ok_iff.1 hload).1 (List.mem_of_getElem? hn)
    obtain ⟨q, hq⟩ := load_isOk_iff.2 haccepted
    have hfirst : [input][0]? = some input := rfl
    obtain ⟨alone, halone, hpkg⟩ := package?_renumber hq hload hfirst hn (fun _ => n) rfl
    exact ⟨q, alone, hq, halone, hpkg⟩
  · cases hload' : load config types inputs' with
    | error e' => exact ⟨e', rfl⟩
    | ok p' =>
      -- back in the first order the load would have succeeded
      have haccepted := accepted_of_perm hperm.symm (load_eq_ok_iff.1 hload').1
      obtain ⟨p, hload⟩ := load_isOk_iff.2 haccepted
      rw [hload] at herror
      simp at herror

/-- Two packages change places: their ids change, and their declarations do not. Supplied twice, a
package fails the load in every order. -/
theorem load_independent_interfaceTwice :
    ∃ b, (Progress.mk (.start "b.go" "main") #[]).run Step.interfaceTwice = some b ∧
      let lib : PackageInput := ⟨"lib", "example/lib", [], []⟩
      let main : PackageInput := ⟨"main", "example/main", [b.builder.finish], []⟩
      (∃ p p' σ, load ⟨.lenient, .replace⟩ none [lib, main] = .ok p ∧
        load ⟨.lenient, .replace⟩ none [main, lib] = .ok p' ∧ p.SameUpTo σ p' ∧
        (p.package? "example/main").map Package.id = some 1 ∧
        (p'.package? "example/main").map Package.id = some 0) ∧
      (∃ e, load ⟨.lenient, .replace⟩ none [lib, main, lib] = .error e) ∧
      ∃ e, load ⟨.lenient, .replace⟩ none [main, lib, lib] = .error e := by
  have hrun : ((Progress.mk (.start "b.go" "main") #[]).run Step.interfaceTwice).any fun b =>
      match load ⟨.lenient, .replace⟩ none [⟨"lib", "example/lib", [], []⟩,
          ⟨"main", "example/main", [b.builder.finish], []⟩],
        load ⟨.lenient, .replace⟩ none [⟨"main", "example/main", [b.builder.finish], []⟩,
          ⟨"lib", "example/lib", [], []⟩],
        load ⟨.lenient, .replace⟩ none [⟨"lib", "example/lib", [], []⟩,
          ⟨"main", "example/main", [b.builder.finish], []⟩, ⟨"lib", "example/lib", [], []⟩] with
        | .ok p, .ok p', .error _ => (p.package? "example/main").map Package.id == some 1 &&
            (p'.package? "example/main").map Package.id == some 0
        | _, _, _ => false := by
    decide +kernel
  obtain ⟨b, hb, hcheck⟩ := (Option.any_eq_true _ _).1 hrun
  refine ⟨b, hb, ?_⟩
  intro lib main
  split at hcheck
  case h_2 => simp at hcheck
  case h_1 p p' e hload hload' herror =>
    rw [Bool.and_eq_true, beq_iff_eq, beq_iff_eq] at hcheck
    obtain ⟨hperm, -⟩ := (load_independent ⟨.lenient, .replace⟩ none [lib, main]).1 p hload
    obtain ⟨q, σ, hq, hsame⟩ := hperm [main, lib] (.swap main lib [])
    obtain rfl := Except.ok.inj (hload'.symm.trans hq)
    have hfail := (load_independent ⟨.lenient, .replace⟩ none [lib, main, lib]).2 e herror
    exact ⟨⟨p, p', σ, hload, hload', hsame, hcheck⟩, ⟨e, herror⟩,
      hfail [main, lib, lib] (.swap main lib [lib])⟩

end GoOutline
