/-
# Interned names, whatever the hash function

Names are interned one after the other. The symbol of a name is its position among the distinct names,
in the order in which they came first, and it leads back to the name from then on. The hash function
decides only in which bucket a symbol is looked for, so it cannot be seen in the symbols, however many
names it sends to the same bucket.

The table always holds the distinct names in order. A name that is among them is found in its bucket,
since every symbol of the bucket is compared by its name; and it is found under one symbol only, since
no name is held twice.
-/
import GoOutline.Proofs.Sequence
import GoOutline.Text.Symbols

namespace GoOutline

/-- The symbol that a name has after some names: its position among the distinct ones of them. -/
def symbolIn (seen : List String) (name : String) : Symbol := ⟨seen.eraseDups.idxOf name⟩

/-- Later names do not change the symbol of a name. -/
lemma symbolIn_append {seen : List String} {name : String} (h : name ∈ seen) (later : List String) :
    symbolIn (seen ++ later) name = symbolIn seen name := by
  rw [symbolIn, List.eraseDups_append, List.idxOf_append_of_mem (List.mem_eraseDups.2 h)]
  rfl

lemma symbolIn_inj {seen : List String} {name other : String} (h : name ∈ seen) :
    symbolIn seen name = symbolIn seen other ↔ name = other := by
  rw [symbolIn, symbolIn, Symbol.mk.injEq]
  exact List.idxOf_inj (List.mem_eraseDups.2 h)

namespace Symbols

variable {hash : String → Nat} {t : Symbols hash} {seen : List String} {name : String}

/-- The symbols of names that are interned one after the other, and the table after the last one. -/
def internAll (t : Symbols hash) : List String → List Symbol × Symbols hash
  | [] => ([], t)
  | name :: names =>
    let (sym, t) := t.intern name
    let (syms, t) := t.internAll names
    (sym :: syms, t)

/-! ## One name -/

/-- The table holds the distinct ones of the names that were interned, in order. -/
def Holds (t : Symbols hash) (seen : List String) : Prop := t.names.toList = seen.eraseDups

lemma empty_holds : (empty : Symbols hash).Holds [] := rfl

lemma Holds.names_eq (h : t.Holds seen) (i : Nat) : t.names[i]? = seen.eraseDups[i]? := by
  rw [← Array.getElem?_toList, h]

/-- A symbol that is found has the name. Since no name is held twice, it is the symbol of the name. -/
lemma Holds.eq_symbolIn (h : t.Holds seen) {sym : Symbol} (hsym : t.names[sym.index]? = some name) :
    sym = symbolIn seen name := by
  rw [h.names_eq, List.getElem?_eq_some_iff] at hsym
  obtain ⟨hlt, rfl⟩ := hsym
  rw [symbolIn, (List.nodup_eraseDups seen).idxOf_getElem]

lemma Holds.names_symbolIn (h : t.Holds seen) (hmem : name ∈ seen) :
    t.names[(symbolIn seen name).index]? = some name := by
  rw [h.names_eq]
  exact List.getElem?_idxOf (List.mem_eraseDups.2 hmem)

lemma Holds.find?_of_mem (h : t.Holds seen) (hmem : name ∈ seen) :
    t.find? name = some (symbolIn seen name) := by
  have hnames := h.names_symbolIn hmem
  -- the symbol is in the bucket, so the search in the bucket does not fail
  have hbucket := t.mem_bucket _ _ hnames
  cases hfind : t.find? name with
  | none =>
    have hne := List.find?_eq_none.1 hfind _ hbucket
    simp [hnames] at hne
  | some sym =>
    have hsym : t.names[sym.index]? = some name := by simpa using List.find?_some hfind
    rw [h.eq_symbolIn hsym]

lemma Holds.find?_of_not_mem (h : t.Holds seen) (hmem : name ∉ seen) : t.find? name = none := by
  refine List.find?_eq_none.2 fun sym _ hsym => hmem ?_
  have hname : t.names[sym.index]? = some name := by simpa using hsym
  rw [h.names_eq] at hname
  exact List.mem_eraseDups.1 (List.mem_of_getElem? hname)

/-- Interning one more name gives its symbol and keeps the names in order. -/
lemma Holds.intern (h : t.Holds seen) (name : String) :
    (t.intern name).1 = symbolIn (seen ++ [name]) name ∧
      (t.intern name).2.Holds (seen ++ [name]) := by
  by_cases hmem : name ∈ seen
  · rw [symbolIn_append hmem, Holds, List.eraseDups_concat_of_mem hmem, Symbols.intern,
      h.find?_of_mem hmem]
    exact ⟨rfl, h⟩
  · have hsize : t.names.size = seen.eraseDups.length := by rw [← Array.length_toList, h]
    rw [symbolIn, Holds, List.eraseDups_concat_of_not_mem hmem,
      List.idxOf_append_of_notMem (mt List.mem_eraseDups.1 hmem)]
    simp only [Symbols.intern, h.find?_of_not_mem hmem]
    refine ⟨?_, ?_⟩
    · rw [hsize, List.idxOf_cons_self, Nat.add_zero]
    · rw [add, Array.toList_push, h]

/-! ## Many names -/

lemma Holds.internAll (h : t.Holds seen) (names : List String) :
    (t.internAll names).1 = names.map (symbolIn (seen ++ names)) ∧
      (t.internAll names).2.Holds (seen ++ names) := by
  induction names generalizing t seen with
  | nil => exact ⟨rfl, by rwa [List.append_nil]⟩
  | cons name names ih =>
    obtain ⟨hsym, hnext⟩ := h.intern name
    obtain ⟨hsyms, hlast⟩ := ih hnext
    have hsplit : seen ++ name :: names = seen ++ [name] ++ names := by simp
    rw [hsplit]
    refine ⟨?_, hlast⟩
    rw [List.map_cons, symbolIn_append (by simp), ← hsym, ← hsyms]
    rfl

/-- The table after interning some names. -/
abbrev after (hash : String → Nat) (names : List String) : Symbols hash :=
  (empty.internAll names).2

lemma after_holds (hash : String → Nat) (names : List String) : (after hash names).Holds names :=
  (empty_holds.internAll names).2

lemma internAll_symbols (hash : String → Nat) (names : List String) :
    ((empty : Symbols hash).internAll names).1 = names.map (symbolIn names) :=
  (empty_holds.internAll names).1

/-- A symbol leads to the name in its position among the distinct names. -/
lemma Holds.resolve_eq (h : t.Holds seen) (sym : Symbol) :
    t.resolve sym = seen.eraseDups[sym.index]?.getD "" := by
  rw [resolve, h.names_eq]

/-- Interning gives every name a symbol of its own, and the table leads back from the symbol to the
name. -/
structure Numbers (hash : String → Nat) (names : List String) (syms : List Symbol) : Prop where
  /-- The symbol is the position of the name among the distinct names so far. -/
  position : ∀ before name later, names = before ++ name :: later →
    syms[before.length]? = some ⟨(before ++ [name]).eraseDups.idxOf name⟩
  length : syms.length = names.length
  /-- Every number is below that of the distinct names, and fits into 32 bits if that does. -/
  small : ∀ sym ∈ syms, sym.index < names.eraseDups.length
  eq_iff : ∀ i j (hi : i < names.length) (hj : j < names.length),
    syms[i]? = syms[j]? ↔ names[i] = names[j]
  /-- The symbol leads back to the name as soon as the name is interned, and ever after. -/
  resolve : ∀ i j name sym, i < j → names[i]? = some name → syms[i]? = some sym →
    (after hash (names.take j)).resolve sym = name
  unissued : ∀ sym, sym ∉ syms → (after hash names).resolve sym = ""

lemma numbers (hash : String → Nat) (names : List String) :
    Numbers hash names ((empty : Symbols hash).internAll names).1 := by
  rw [internAll_symbols]
  refine ⟨?_, List.length_map _, ?_, ?_, ?_, ?_⟩
  · rintro before name later rfl
    have hsplit : before ++ name :: later = before ++ [name] ++ later := by simp
    have hlast : symbolIn (before ++ name :: later) name = symbolIn (before ++ [name]) name := by
      rw [hsplit, symbolIn_append (by simp)]
    rw [List.getElem?_map, List.getElem?_append_right (Nat.le_refl _), Nat.sub_self,
      List.getElem?_cons_zero, Option.map_some, hlast]
    rfl
  · intro sym hsym
    obtain ⟨name, hname, rfl⟩ := List.mem_map.1 hsym
    exact List.idxOf_lt_length_iff.2 (List.mem_eraseDups.2 hname)
  · intro i j hi hj
    rw [List.getElem?_map, List.getElem?_map, List.getElem?_eq_getElem hi,
      List.getElem?_eq_getElem hj, Option.map_some, Option.map_some, Option.some.injEq]
    exact symbolIn_inj (List.getElem_mem hi)
  · intro i j name sym hij hname hsym
    have hearly : name ∈ names.take j :=
      List.mem_of_getElem? ((List.getElem?_take_of_lt hij).trans hname)
    have hsplit : names.take j ++ names.drop j = names := List.take_append_drop j names
    rw [List.getElem?_map, hname, Option.map_some, Option.some.injEq] at hsym
    rw [← hsym, ← hsplit, symbolIn_append hearly, hsplit, Symbols.resolve,
      (after_holds hash (names.take j)).names_symbolIn hearly, Option.getD_some]
  · intro sym hsym
    rw [(after_holds hash names).resolve_eq]
    cases hname : names.eraseDups[sym.index]? with
    | none => rfl
    | some name =>
      -- the symbol of a name that is held was issued when the name came
      have hheld : (after hash names).names[sym.index]? = some name := by
        rw [(after_holds hash names).names_eq, hname]
      refine absurd ?_ hsym
      rw [(after_holds hash names).eq_symbolIn hheld]
      exact List.mem_map_of_mem (List.mem_eraseDups.1 (List.mem_of_getElem? hname))

end Symbols

/-- Interning numbers the distinct names in the order in which they come first. Every hash function
gives the same symbols, and they lead to the same names. -/
theorem interning_exact (hash : String → Nat) (names : List String) :
    Symbols.Numbers hash names ((Symbols.empty : Symbols hash).internAll names).1 ∧
      ∀ hash' : String → Nat,
        ((Symbols.empty : Symbols hash').internAll names).1 =
            ((Symbols.empty : Symbols hash).internAll names).1 ∧
          (Symbols.after hash' names).resolve = (Symbols.after hash names).resolve := by
  refine ⟨Symbols.numbers hash names, fun hash' => ⟨?_, ?_⟩⟩
  · rw [Symbols.internAll_symbols, Symbols.internAll_symbols]
  · funext sym
    rw [(Symbols.after_holds hash' names).resolve_eq, (Symbols.after_holds hash names).resolve_eq]

/-- A hash function that sends all names to one bucket. -/
example : ((Symbols.empty : Symbols fun _ => 0).internAll ["a", "b", "a", "", "b"]).1 =
    [⟨0⟩, ⟨1⟩, ⟨0⟩, ⟨2⟩, ⟨1⟩] := by
  decide +kernel

end GoOutline
