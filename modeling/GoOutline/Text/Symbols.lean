/-
# Interned names

Each name of a file is stored once and stands in the tree as its number. The table finds a name
through buckets of a hash function. Which hash function is used cannot be seen from outside: a
bucket holds every symbol whose name hashes to it, and within it names are compared in full.
-/
import Std.Data.TreeMap

namespace GoOutline

/-- The number of an interned name. It stands in the tree as a word of 32 bits, so a table is assumed
to have fewer than `2 ^ 32` names. -/
structure Symbol where
  index : Nat
deriving DecidableEq, Repr, Inhabited

/-- A table of distinct names, numbered in the order in which they were first interned. -/
structure Symbols (hash : String → Nat) where
  names : Array String
  buckets : Std.TreeMap Nat (List Symbol)
  /-- A bucket holds every symbol whose name hashes to it. -/
  mem_bucket : ∀ (i : Nat) (s : String), names[i]? = some s → ⟨i⟩ ∈ buckets.getD (hash s) []

namespace Symbols

variable {hash : String → Nat}

/-- The table without names. -/
def empty : Symbols hash where
  names := #[]
  buckets := ∅
  mem_bucket := by simp

instance : Inhabited (Symbols hash) := ⟨empty⟩

/-- The symbol of a name that is already in the table. -/
def find? (t : Symbols hash) (name : String) : Option Symbol :=
  (t.buckets.getD (hash name) []).find? fun sym => t.names[sym.index]? == some name

/-- Adds a name under the next free number. -/
def add (t : Symbols hash) (name : String) : Symbols hash where
  names := t.names.push name
  buckets := t.buckets.insert (hash name) (t.buckets.getD (hash name) [] ++ [⟨t.names.size⟩])
  mem_bucket := by
    intro i s h
    rw [Std.TreeMap.getD_insert]
    rw [Array.getElem?_push] at h
    by_cases hi : i = t.names.size
    · subst hi
      simp only [if_true, Option.some.injEq] at h
      simp [h]
    · have old := t.mem_bucket i s (by simpa [hi] using h)
      split
      · next same => simp [Std.LawfulEqCmp.eq_of_compare same, old]
      · exact old

/-- The symbol of a name, which enters the table if it is new. The new number is not cut off to 32
bits, as fewer than `2 ^ 32` names are assumed. -/
def intern (t : Symbols hash) (name : String) : Symbol × Symbols hash :=
  match t.find? name with
  | some sym => (sym, t)
  | none => (⟨t.names.size⟩, t.add name)

/-- The name of a symbol; a symbol that was never given out has the empty name. -/
def resolve (t : Symbols hash) (sym : Symbol) : String := t.names[sym.index]?.getD ""

/-- The symbol of a name leads back to the name. -/
theorem resolve_intern (t : Symbols hash) (name : String) :
    (t.intern name).2.resolve (t.intern name).1 = name := by
  unfold intern
  cases h : t.find? name with
  | some sym =>
    have found := List.find?_some h
    simp only [beq_iff_eq] at found
    simp [resolve, found]
  | none => simp [resolve, add]

end Symbols

/-- The hash of a name: a polynomial in its characters, modulo `2 ^ 64`. -/
def nameHash (name : String) : Nat :=
  name.toList.foldl (fun h c => (31 * h + c.toNat) % UInt64.size) 7

/-- The symbol table of a file. -/
abbrev SymbolTable := Symbols nameHash

end GoOutline
