/-
# Cutting text at a character

Dotted names and import paths are cut at their separators. Both cuts keep every character but the
separators, so the pieces can be put together again.
-/
namespace GoOutline

/-- The parts before and after the first `sep`. -/
def cutFirst (sep : Char) : List Char → Option (List Char × List Char)
  | [] => none
  | c :: cs => if c = sep then some ([], cs) else (cutFirst sep cs).map fun (a, b) => (c :: a, b)

/-- All parts between the occurrences of `sep`; there is always at least one. -/
def cutAll (sep : Char) : List Char → List (List Char)
  | [] => [[]]
  | c :: cs =>
    if c = sep then [] :: cutAll sep cs
    else match cutAll sep cs with
      | [] => [[c]]
      | part :: parts => (c :: part) :: parts

/-- The text before and after the first `sep`. -/
def cutText (sep : Char) (text : String) : Option (String × String) :=
  (cutFirst sep text.toList).map fun (a, b) => (String.ofList a, String.ofList b)

theorem eq_append_of_cutFirst {sep : Char} {cs a b : List Char}
    (h : cutFirst sep cs = some (a, b)) : cs = a ++ sep :: b ∧ sep ∉ a := by
  induction cs generalizing a b with
  | nil => simp [cutFirst] at h
  | cons c cs ih =>
    by_cases hc : c = sep
    · simp only [cutFirst, hc, if_true, Option.some.injEq, Prod.mk.injEq] at h
      obtain ⟨rfl, rfl⟩ := h
      simp [hc]
    · simp only [cutFirst, hc, if_false, Option.map_eq_some_iff] at h
      obtain ⟨⟨x, y⟩, hxy, heq⟩ := h
      obtain ⟨rfl, rfl⟩ := Prod.mk.inj heq
      obtain ⟨rfl, hx⟩ := ih hxy
      simp [hx, Ne.symm hc]

theorem cutFirst_eq_none_iff {sep : Char} {cs : List Char} :
    cutFirst sep cs = none ↔ sep ∉ cs := by
  induction cs with
  | nil => simp [cutFirst]
  | cons c cs ih =>
    by_cases hc : c = sep
    · simp [cutFirst, hc]
    · simp [cutFirst, hc, Ne.symm hc, ih]

/-- The two parts of a cut, with the separator between them, are the text. -/
theorem eq_of_cutText {sep : Char} {text a b : String} (h : cutText sep text = some (a, b)) :
    text = a ++ String.ofList [sep] ++ b := by
  obtain ⟨⟨x, y⟩, hxy, heq⟩ := Option.map_eq_some_iff.1 h
  obtain ⟨rfl, rfl⟩ := Prod.mk.inj heq
  apply String.toList_inj.1
  simp [(eq_append_of_cutFirst hxy).1]

end GoOutline
