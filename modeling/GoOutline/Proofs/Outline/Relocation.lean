/-
# Files in another place

The outline of a tree records where the file stands in the program: the file has an id, and so has
every declaration in it, down to the methods of its interfaces. Nothing else depends on the place.
Outlining a tree for another place gives the same outline with the ids exchanged, which is proved
here for each step from the members of a declaration to the whole file. In particular all ids in the
outline of a file are the same.
-/
import GoOutline.Outline.File
import GoOutline.Proofs.OrderedMap

namespace GoOutline

namespace OrderedMap

variable {V W : Type}

/-- The map with every value changed. -/
def mapValues (f : V → W) (m : OrderedMap V) : OrderedMap W where
  entries := m.entries.map fun e => (e.1, f e.2)
  nodup := by
    rw [List.map_map]
    exact m.nodup

variable {f : V → W} {m : OrderedMap V} {key : String}

@[simp] lemma keys_mapValues (f : V → W) (m : OrderedMap V) : (m.mapValues f).keys = m.keys := by
  rw [keys, mapValues, List.map_map]
  rfl

lemma values_mapValues (f : V → W) (m : OrderedMap V) :
    (m.mapValues f).values = m.values.map f := by
  rw [values, mapValues, List.map_map, values, List.map_map]
  rfl

lemma get?_mapValues (f : V → W) (m : OrderedMap V) (key : String) :
    (m.mapValues f).get? key = (m.get? key).map f := by
  rw [get?, mapValues, List.find?_map, get?, Option.map_map, Option.map_map]
  rfl

/-- Changed values go into a map as the values themselves do. -/
lemma insertNew_mapValues (f : V → W) (m : OrderedMap V) (key : String) (value : V) :
    (m.mapValues f).insertNew key (f value) =
      match m.insertNew key value with
      | .ok (i, m) => .ok (i, m.mapValues f)
      | .error value => .error (f value) := by
  by_cases hmem : key ∈ m.keys
  · rw [insertNew_of_mem hmem, insertNew_of_mem (by simpa using hmem)]
  · rw [insertNew_of_not_mem hmem, insertNew_of_not_mem (by simpa using hmem)]
    have hpush : (m.mapValues f).push key (f value) (contains_eq_false_iff.2 (by simpa using hmem)) =
        (m.push key value (contains_eq_false_iff.2 hmem)).mapValues f :=
      ext_entries (by simp [mapValues, push])
    have hsize : (m.mapValues f).size = m.size := by rw [← length_keys, keys_mapValues, length_keys]
    simp only [hpush, hsize]

lemma mapValues_replace (f : V → W) (m : OrderedMap V) (key : String) (value : V) :
    (m.replace key value).mapValues f = (m.mapValues f).replace key (f value) := by
  refine ext_get? ?_ fun k => ?_
  · rw [keys_mapValues, keys_replace, keys_replace, keys_mapValues]
  · rw [get?_mapValues, get?_replace, get?_replace, get?_mapValues]
    split <;> rfl

end OrderedMap

/-! ## Exchanging ids -/

/-- The method with its file id exchanged. -/
def MethodDecl.relocate (r : FileId → FileId) (m : MethodDecl) : MethodDecl :=
  { m with file := r m.file }

/-- The declaration with all file ids in it exchanged. -/
def Decl.relocate (r : FileId → FileId) : Decl → Decl
  | .var d => .var { d with file := r d.file }
  | .const d => .const { d with file := r d.file }
  | .type d => .type { d with file := r d.file }
  | .func d => .func { d with file := r d.file }
  | .method m => .method (m.relocate r)
  | .struct d => .struct { d with file := r d.file }
  | .interface d => .interface
    { d with file := r d.file, methods := d.methods.mapValues (MethodDecl.relocate r) }

/-- The entry with all file ids in it exchanged. -/
def Entry.relocate (r : FileId → FileId) : Entry → Entry
  | .decl d => .decl (d.relocate r)
  | .imported i => .imported i
  | .issue i => .issue i

/-- The filing with all file ids in it exchanged. -/
def Filing.relocate (r : FileId → FileId) : Filing → Filing
  | .decl key d => .decl key (d.relocate r)
  | .imported i => .imported i
  | .issue i => .issue i

/-- The outline with all file ids in it exchanged. -/
def File.relocate (r : FileId → FileId) (f : File) : File :=
  { f with id := r f.id, decls := f.decls.mapValues (Decl.relocate r) }

variable (r : FileId → FileId)

/-! ## Interfaces -/

/-- The members with the file ids of the methods exchanged. -/
def InterfaceMembers.relocate (m : InterfaceMembers) : InterfaceMembers :=
  { m with methods := m.methods.mapValues (MethodDecl.relocate r) }

lemma collect_mapValues {V W : Type} (f : V → W) (m : OrderedMap V) (key label : String)
    (value : V) : collect (m.mapValues f) [.entry key label (f value)] =
      ((collect m [.entry key label value]).1.mapValues f,
        (collect m [.entry key label value]).2) := by
  simp only [collect, OrderedMap.insertNew_mapValues]
  cases m.insertNew key value <;> rfl

lemma InterfaceMembers.add_relocate (file : FileId) (m : InterfaceMembers)
    (e : Source.InterfaceElem) :
    (m.relocate r).add (r file) e = (m.add file e).relocate r := by
  cases e with
  | union terms => rfl
  | method doc name sig =>
    have hcollect := collect_mapValues (MethodDecl.relocate r) m.methods name name
      (interfaceMethod file doc name sig).1
    have hmethod : (interfaceMethod file doc name sig).1.relocate r =
        (interfaceMethod (r file) doc name sig).1 := rfl
    rw [hmethod] at hcollect
    simp only [add, relocate, hcollect]
    rfl

lemma outlineInterface_relocate (file : FileId) (elems : List Source.InterfaceElem) :
    outlineInterface (r file) elems = (outlineInterface file elems).relocate r := by
  rw [outlineInterface, outlineInterface,
    ← List.foldl_hom (InterfaceMembers.relocate r) (InterfaceMembers.add_relocate r file)]
  rfl

/-! ## Entries -/

namespace Source

lemma TypeSpec.outline_relocate (file : FileId) (g : GeneralDecl) (s : TypeSpec) :
    s.outline (r file) g = ((s.outline file g).1.relocate r, (s.outline file g).2) := by
  simp only [TypeSpec.outline]
  split
  · rfl
  · rw [outlineInterface_relocate]
    rfl
  · rfl

lemma FuncDecl.outline_relocate (file : FileId) (f : FuncDecl) :
    f.outline (r file) = ((f.outline file).1.relocate r, (f.outline file).2) := by
  simp only [FuncDecl.outline]
  split <;> rfl

lemma map_relocate_issues (issues : List Issue) :
    (issues.map Entry.issue).map (Entry.relocate r) = issues.map Entry.issue := by
  rw [List.map_map]
  rfl

lemma GeneralDecl.valueDecl_relocate (g : GeneralDecl) (d : ValueDecl) :
    (g.valueDecl d).relocate r = g.valueDecl { d with file := r d.file } := by
  simp only [GeneralDecl.valueDecl]
  split <;> rfl

lemma ValueSpec.entries_relocate (file : FileId) (g : GeneralDecl) (type : String)
    (s : ValueSpec) :
    s.entries (r file) g type = (s.entries file g type).map (Entry.relocate r) := by
  rw [ValueSpec.entries, ValueSpec.entries, List.map_append, map_relocate_issues, List.map_map]
  congr 1
  refine List.map_congr_left fun p _ => ?_
  simp only [Function.comp_apply, Entry.relocate, GeneralDecl.valueDecl_relocate]

lemma valueEntries_relocate (file : FileId) (g : GeneralDecl) (carried : String)
    (specs : List Spec) :
    valueEntries (r file) g carried specs =
      (valueEntries file g carried specs).map (Entry.relocate r) := by
  induction specs generalizing carried with
  | nil => rfl
  | cons s specs ih =>
    cases s with
    | value s =>
      rw [valueEntries, valueEntries, List.map_append, ih, ValueSpec.entries_relocate]
    | _ => exact congrArg (g.misplacedSpec :: ·) (ih carried)

lemma GeneralDecl.typeEntries_relocate (file : FileId) (g : GeneralDecl) (s : Spec) :
    g.typeEntries (r file) s = (g.typeEntries file s).map (Entry.relocate r) := by
  cases s with
  | type s =>
    simp only [typeEntries, TypeSpec.entries, TypeSpec.outline_relocate, List.map_append,
      map_relocate_issues]
    rfl
  | _ => rfl

lemma GeneralDecl.entries_relocate (file : FileId) (g : GeneralDecl) :
    g.entries (r file) = (g.entries file).map (Entry.relocate r) := by
  cases hgroup : g.group with
  | imports =>
    simp only [entries, hgroup, List.map_map]
    refine List.map_congr_left fun s _ => ?_
    cases s <;> rfl
  | types =>
    simp only [entries, hgroup, List.map_flatMap]
    exact List.flatMap_congr fun s _ => g.typeEntries_relocate r file s
  | consts => simp only [entries, hgroup, valueEntries_relocate]
  | vars => simp only [entries, hgroup, valueEntries_relocate]

lemma TopDecl.entries_relocate (file : FileId) (d : TopDecl) :
    d.entries (r file) = (d.entries file).map (Entry.relocate r) := by
  cases d with
  | general g => exact g.entries_relocate r file
  | func f =>
    simp only [entries, FuncDecl.entries, FuncDecl.outline_relocate, List.map_append,
      map_relocate_issues]
    rfl
  | bad => rfl

end Source

/-! ## Storing -/

lemma Decl.key_relocate (d : Decl) : (d.relocate r).key = d.key := by
  cases d <;> rfl

lemma Decl.mayRepeat_relocate (d : Decl) : (d.relocate r).mayRepeat = d.mayRepeat := by
  cases d <;> rfl

/-- Keys do not depend on the place. -/
lemma fileUnder_relocate (seen : List String) (entries : List Entry) :
    fileUnder seen (entries.map (Entry.relocate r)) =
      (fileUnder seen entries).map (Filing.relocate r) := by
  induction entries generalizing seen with
  | nil => rfl
  | cons entry entries ih =>
    cases entry with
    | decl d =>
      simp only [List.map_cons, Entry.relocate, fileUnder, Decl.key_relocate,
        Decl.mayRepeat_relocate, ih]
      split <;> rfl
    | imported i => exact congrArg (Filing.imported i :: ·) (ih seen)
    | issue i => exact congrArg (Filing.issue i :: ·) (ih seen)

namespace File

lemma addDecl_relocate (policy : Redeclaration) (f : File) (key : String) (d : Decl) :
    (f.relocate r).addDecl policy key (d.relocate r) = (f.addDecl policy key d).relocate r := by
  have hdecls : (f.relocate r).decls = f.decls.mapValues (Decl.relocate r) := rfl
  simp only [addDecl, hdecls, OrderedMap.insertNew_mapValues]
  cases f.decls.insertNew key d with
  | ok _ => rfl
  | error d =>
    cases policy with
    | keepFirst => rfl
    | replace => simp only [relocate, report, OrderedMap.mapValues_replace]

lemma addImport_relocate (f : File) (i : Import) :
    (f.relocate r).addImport i = (f.addImport i).relocate r := by
  have himports : (f.relocate r).imports = f.imports := rfl
  simp only [addImport, himports]
  split <;> rfl

lemma store_relocate (policy : Redeclaration) (f : File) (x : Filing) :
    (f.relocate r).store policy (x.relocate r) = (f.store policy x).relocate r := by
  cases x with
  | decl key d => exact addDecl_relocate r policy f key d
  | imported i => exact addImport_relocate r f i
  | issue i => rfl

lemma foldl_store_relocate (policy : Redeclaration) (f : File) (xs : List Filing) :
    (xs.map (Filing.relocate r)).foldl (store policy) (f.relocate r) =
      (xs.foldl (store policy) f).relocate r := by
  induction xs generalizing f with
  | nil => rfl
  | cons x xs ih => rw [List.map_cons, List.foldl_cons, store_relocate, ih, List.foldl_cons]

/-- The outline of a tree for another place. -/
lemma ofTree_relocate (policy : Redeclaration) (id : FileId) (package : String) (t : Tree) :
    ofTree policy (r id) package t = (ofTree policy id package t).relocate r := by
  have hentries : t.sourceFile.decls.flatMap (Source.TopDecl.entries (r id)) =
      (t.sourceFile.decls.flatMap (Source.TopDecl.entries id)).map (Entry.relocate r) := by
    rw [List.map_flatMap]
    exact List.flatMap_congr fun d _ => d.entries_relocate r id
  simp only [ofTree, ofSource, hentries, fileUnder_relocate]
  rw [← foldl_store_relocate]
  rfl

end File

end GoOutline
