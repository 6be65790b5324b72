/-
# Lists and options member by member

A partial function that is applied to all members of a list gives a result exactly where it gives one
for each member. The results are then related to the members one by one. Partial results are related
if both are missing or both are there and related; this passes on to whatever follows from them.

What becomes of a member can also depend on the members before it. Such a list is built up either
from its first member on or from its last.

A list can also be another one with members inserted. What is made of the members one after the other
is then the same with something inserted.

The distinct members of a list stand in the order of their first occurrences, so one more member is
either there or comes last.
-/
import Mathlib.Data.List.Forall2
import Mathlib.Data.List.Induction
import Mathlib.Tactic.Common

namespace List

variable {α β : Type} {R : α → β → Prop} {as : List α} {bs : List β}

lemma Forall₂.exists_of_mem (h : Forall₂ R as bs) {a : α} (ha : a ∈ as) : ∃ b ∈ bs, R a b := by
  induction h with
  | nil => simp at ha
  | cons hab _ ih =>
    rcases mem_cons.1 ha with rfl | ha
    · exact ⟨_, by simp, hab⟩
    · obtain ⟨b, hb, hab⟩ := ih ha
      exact ⟨b, by simp [hb], hab⟩

lemma Forall₂.exists_append {as' : List α} (h : Forall₂ R (as ++ as') bs) :
    ∃ cs cs', bs = cs ++ cs' ∧ Forall₂ R as cs ∧ Forall₂ R as' cs' := by
  induction as generalizing bs with
  | nil => exact ⟨[], bs, rfl, .nil, h⟩
  | cons a as ih =>
    cases h with
    | cons hab h =>
      obtain ⟨cs, cs', rfl, hcs, hcs'⟩ := ih h
      exact ⟨_ :: cs, cs', rfl, .cons hab hcs, hcs'⟩

lemma Forall₂.mem_right (h : Forall₂ R as bs) : Forall₂ (fun a b => b ∈ bs ∧ R a b) as bs :=
  ((forall₂_and_left bs as).2 ⟨fun _ hb => hb, h.flip⟩).flip

lemma Forall₂.zipIdx (h : Forall₂ R as bs) (i : Nat) :
    Forall₂ (fun x y => R x.1 y.1 ∧ x.2 = y.2) (as.zipIdx i) (bs.zipIdx i) := by
  induction h generalizing i with
  | nil => exact .nil
  | cons hab _ ih =>
    rw [zipIdx_cons, zipIdx_cons]
    exact .cons ⟨hab, rfl⟩ (ih (i + 1))

lemma Forall₂.getElem?_right (h : Forall₂ R as bs) {i : Nat} {b : β} (hb : bs[i]? = some b) :
    ∃ a, as[i]? = some a ∧ R a b := by
  induction h generalizing i with
  | nil => simp at hb
  | cons hab _ ih =>
    cases i with
    | zero =>
      obtain rfl := Option.some.inj hb
      exact ⟨_, rfl, hab⟩
    | succ i => exact ih hb

lemma Forall₂.map_eq {γ : Type} {f : α → γ} {g : β → γ} (h : Forall₂ R as bs)
    (hfg : ∀ a b, R a b → g b = f a) : bs.map g = as.map f := by
  induction h with
  | nil => rfl
  | cons hab _ ih => rw [map_cons, map_cons, hfg _ _ hab, ih]

lemma Forall₂.flatMap_eq {γ : Type} {f : α → List γ} {g : β → List γ} (h : Forall₂ R as bs)
    (hfg : ∀ a b, R a b → g b = f a) : bs.flatMap g = as.flatMap f := by
  rw [flatMap_def, flatMap_def, h.map_eq hfg]

lemma Forall₂.filterMap_eq {γ : Type} {f : α → Option γ} {g : β → Option γ} (h : Forall₂ R as bs)
    (hfg : ∀ a b, R a b → f a = g b) : as.filterMap f = bs.filterMap g := by
  induction h with
  | nil => rfl
  | cons hab _ ih => rw [filterMap_cons, filterMap_cons, hfg _ _ hab, ih]

lemma mapM_eq_some_iff {f : α → Option β} :
    as.mapM f = some bs ↔ Forall₂ (fun a b => f a = some b) as bs := by
  induction as generalizing bs with
  | nil => cases bs <;> simp
  | cons a as ih =>
    rw [mapM_cons]
    constructor
    · intro h
      obtain ⟨b, hb, h⟩ := Option.bind_eq_some_iff.1 h
      obtain ⟨bs, hbs, h⟩ := Option.bind_eq_some_iff.1 h
      obtain rfl := Option.some.inj h
      exact .cons hb (ih.1 hbs)
    · rintro (_ | ⟨hb, hbs⟩)
      simp [hb, ih.2 hbs]

/-- Every result is that of a member. -/
lemma exists_of_mem_mapM {f : α → Option β} (h : as.mapM f = some bs) {b : β} (hb : b ∈ bs) :
    ∃ a ∈ as, f a = some b :=
  (mapM_eq_some_iff.1 h).flip.exists_of_mem hb

lemma exists_mapM_eq_some {f : α → Option β} (h : ∀ a ∈ as, ∃ b, f a = some b) :
    ∃ bs, as.mapM f = some bs := by
  induction as with
  | nil => exact ⟨[], rfl⟩
  | cons a as ih =>
    obtain ⟨b, hb⟩ := h a (by simp)
    obtain ⟨bs, hbs⟩ := ih fun a ha => h a (by simp [ha])
    exact ⟨b :: bs, by simp [hb, hbs]⟩

/-- The images of the members under a function that also knows the members before. -/
def mapBefore (f : List α → α → β) (as : List α) : List β :=
  as.zipIdx.map fun p => f (as.take p.2) p.1

@[simp] lemma mapBefore_nil (f : List α → α → β) : mapBefore f [] = [] := rfl

lemma mapBefore_cons (f : List α → α → β) (a : α) (as : List α) :
    mapBefore f (a :: as) = f [] a :: mapBefore (fun before => f (a :: before)) as := by
  simp only [mapBefore, zipIdx_cons', map_cons, map_map, take_zero]
  congr 1

/-- The same with the members `before` in front of the whole list. -/
lemma mapBefore_cons_after (f : List α → α → β) (before : List α) (a : α) (as : List α) :
    mapBefore (fun later => f (before ++ later)) (a :: as) =
      f before a :: mapBefore (fun later => f (before ++ [a] ++ later)) as := by
  simp [mapBefore_cons]

lemma mapBefore_concat (f : List α → α → β) (as : List α) (a : α) :
    mapBefore f (as ++ [a]) = mapBefore f as ++ [f as a] := by
  induction as generalizing f with
  | nil => rfl
  | cons a' as ih => rw [cons_append, mapBefore_cons, ih, mapBefore_cons, cons_append]

lemma mem_mapBefore {f : List α → α → β} {b : β} :
    b ∈ mapBefore f as ↔ ∃ i a, as[i]? = some a ∧ f (as.take i) a = b := by
  simp only [mapBefore, mem_map, Prod.exists, mem_zipIdx_iff_getElem?]
  exact exists_comm

lemma mapBefore_congr {f g : List α → α → β}
    (h : ∀ i a, as[i]? = some a → f (as.take i) a = g (as.take i) a) :
    mapBefore f as = mapBefore g as :=
  map_congr_left fun p hp => h p.2 p.1 (mem_zipIdx_iff_getElem?.1 hp)

/-- Related members that follow related lists have related images. -/
lemma Forall₂.mapBefore {γ δ : Type} {S : γ → δ → Prop} {f : List α → α → γ} {g : List β → β → δ}
    (h : Forall₂ R as bs) {before : List α} {before' : List β} (hbefore : Forall₂ R before before')
    (hfg : ∀ before before' a b, Forall₂ R before before' → R a b →
      S (f before a) (g before' b)) :
    Forall₂ S (as.mapBefore fun later => f (before ++ later))
      (bs.mapBefore fun later => g (before' ++ later)) := by
  induction h generalizing before before' with
  | nil => exact .nil
  | cons hab _ ih =>
    rw [mapBefore_cons_after, mapBefore_cons_after]
    exact .cons (hfg _ _ _ _ hbefore hab) (ih (rel_append hbefore (.cons hab .nil)))

/-- The list `bs` is `as` with new members inserted, one for each of the parts. If they are deleted
from `bs`, what remains is `as`. -/
inductive Merges {α γ : Type} (New : α → γ → Prop) : List γ → List α → List α → Prop
  | nil : Merges New [] [] []
  | cons (a : α) {parts : List γ} {as bs : List α} (h : Merges New parts as bs) :
    Merges New parts (a :: as) (a :: bs)
  | insert {b : α} {c : γ} {parts : List γ} {as bs : List α} (hnew : New b c)
    (h : Merges New parts as bs) : Merges New (c :: parts) as (b :: bs)

namespace Merges

variable {γ δ : Type} {New : α → γ → Prop} {New' : δ → γ → Prop} {parts more : List γ}
  {as' bs bs' : List α} {a : α} {c : γ}

lemma refl (as : List α) : Merges New [] as as := by
  induction as with
  | nil => exact .nil
  | cons a as ih => exact .cons a ih

lemma single (h : New a c) : Merges New [c] [] [a] := .insert h .nil

lemma append (h : Merges New parts as bs) (h' : Merges New more as' bs') :
    Merges New (parts ++ more) (as ++ as') (bs ++ bs') := by
  induction h with
  | nil => exact h'
  | cons a _ ih => exact .cons a ih
  | insert hnew _ ih => exact .insert hnew ih

lemma flatMap {f g : α → List δ} (h : Merges New parts as bs) (hsame : ∀ a, g a = f a)
    (hnew : ∀ b c, New b c → Merges New' [c] [] (g b)) :
    Merges New' parts (as.flatMap f) (bs.flatMap g) := by
  induction h with
  | nil => exact .nil
  | cons a _ ih =>
    rw [flatMap_cons, flatMap_cons, hsame]
    exact (refl _).append ih
  | insert hbc _ ih => exact (hnew _ _ hbc).append ih

lemma length_eq (h : Merges New parts as bs) : bs.length = parts.length + as.length := by
  induction h with
  | nil => rfl
  | cons a _ ih => simp only [length_cons]; omega
  | insert _ _ ih => simp only [length_cons]; omega

/-- What only the old members have is not changed. -/
lemma filterMap_eq {f : α → Option δ} (h : Merges New parts as bs)
    (hnew : ∀ a c, New a c → f a = none) : bs.filterMap f = as.filterMap f := by
  induction h with
  | nil => rfl
  | cons a _ ih => rw [filterMap_cons, filterMap_cons, ih]
  | insert hbc _ ih => rw [filterMap_cons, hnew _ _ hbc, ih]

end Merges

/-- The list `bs` is another version of `as` with new members inserted. The versions of a member have
parts inserted inside them, as `Keep` tells, and a new member is a part by `New`. The parts are listed
in order. -/
inductive Inserts {α β γ : Type} (Keep : α → β → List γ → Prop) (New : β → γ → Prop) :
    List γ → List α → List β → Prop
  | nil : Inserts Keep New [] [] []
  | keep {a : α} {b : β} {inside parts : List γ} {as : List α} {bs : List β}
    (hkeep : Keep a b inside) (h : Inserts Keep New parts as bs) :
    Inserts Keep New (inside ++ parts) (a :: as) (b :: bs)
  | insert {b : β} {c : γ} {parts : List γ} {as : List α} {bs : List β} (hnew : New b c)
    (h : Inserts Keep New parts as bs) : Inserts Keep New (c :: parts) as (b :: bs)

namespace Inserts

variable {γ δ : Type} {Keep : α → β → List γ → Prop} {New : β → γ → Prop} {New' : δ → γ → Prop}
  {parts : List γ}

/-- A member that has nothing inserted inside it is kept. -/
lemma same {a : α} {b : β} (hkeep : Keep a b []) (h : Inserts Keep New parts as bs) :
    Inserts Keep New parts (a :: as) (b :: bs) :=
  .keep hkeep h

/-- What is made of the members one by one is put together to lists of which one is the other with
something inserted. -/
lemma flatMap {f : α → List δ} {g : β → List δ} (h : Inserts Keep New parts as bs)
    (hkeep : ∀ a b inside, Keep a b inside → Merges New' inside (f a) (g b))
    (hnew : ∀ b c, New b c → Merges New' [c] [] (g b)) :
    Merges New' parts (as.flatMap f) (bs.flatMap g) := by
  induction h with
  | nil => exact .nil
  | keep hab _ ih => exact (hkeep _ _ _ hab).append ih
  | insert hbc _ ih => exact (hnew _ _ hbc).append ih

end Inserts

section Distinct

variable {α : Type} [BEq α] [LawfulBEq α] {as : List α} {a : α}

lemma eraseDups_concat_of_mem (h : a ∈ as) : (as ++ [a]).eraseDups = as.eraseDups := by
  simp [eraseDups_append, removeAll, h]

lemma eraseDups_concat_of_not_mem (h : a ∉ as) : (as ++ [a]).eraseDups = as.eraseDups ++ [a] := by
  simp [eraseDups_append, removeAll, h, eraseDups_cons]

lemma eraseDups_concat (as : List α) (a : α) :
    (as ++ [a]).eraseDups = if a ∈ as.eraseDups then as.eraseDups else as.eraseDups ++ [a] := by
  split
  · rename_i h
    exact eraseDups_concat_of_mem (mem_eraseDups.1 h)
  · rename_i h
    exact eraseDups_concat_of_not_mem (mt mem_eraseDups.2 h)

lemma nodup_eraseDups (as : List α) : as.eraseDups.Nodup := by
  induction as using reverseRecOn with
  | nil => exact nodup_nil
  | append_singleton as a ih =>
    by_cases h : a ∈ as
    · rwa [eraseDups_concat_of_mem h]
    · rw [eraseDups_concat_of_not_mem h]
      refine nodup_append.2 ⟨ih, by simp, fun b hb c hc => ?_⟩
      obtain rfl := mem_singleton.1 hc
      rintro rfl
      exact h (mem_eraseDups.1 hb)

end Distinct

end List

namespace Option.Rel

variable {α β γ δ : Type} {R R' : α → β → Prop} {S : γ → δ → Prop} {x : Option α} {y : Option β}

lemma mono (h : ∀ a b, R a b → R' a b) (hxy : Option.Rel R x y) : Option.Rel R' x y := by
  cases hxy with
  | some hab => exact .some (h _ _ hab)
  | none => exact .none

lemma map {f : α → γ} {g : β → δ} (hxy : Option.Rel R x y) (h : ∀ a b, R a b → S (f a) (g b)) :
    Option.Rel S (x.map f) (y.map g) := by
  cases hxy with
  | some hab => exact .some (h _ _ hab)
  | none => exact .none

lemma map_eq {f : α → γ} {g : β → γ} (hxy : Option.Rel R x y) (h : ∀ a b, R a b → g b = f a) :
    y.map g = x.map f := by
  cases hxy with
  | some hab => exact congrArg Option.some (h _ _ hab)
  | none => rfl

lemma bind {f : α → Option γ} {g : β → Option δ} (hxy : Option.Rel R x y)
    (h : ∀ a b, R a b → Option.Rel S (f a) (g b)) : Option.Rel S (x >>= f) (y >>= g) := by
  cases hxy with
  | some hab => exact h _ _ hab
  | none => exact .none

/-- The first step is the same on both sides. -/
lemma bind_same {f : α → Option γ} {g : α → Option δ} (x : Option α)
    (h : ∀ a, Option.Rel S (f a) (g a)) : Option.Rel S (x >>= f) (x >>= g) := by
  cases x with
  | some a => exact h a
  | none => exact .none

lemma mapM {ι : Type} {f : ι → Option α} {g : ι → Option β} {is : List ι}
    (h : ∀ i ∈ is, Option.Rel R (f i) (g i)) :
    Option.Rel (List.Forall₂ R) (is.mapM f) (is.mapM g) := by
  induction is with
  | nil => exact .some .nil
  | cons i is ih =>
    rw [List.mapM_cons, List.mapM_cons]
    refine (h i (by simp)).bind fun a b hab => ?_
    refine (ih fun j hj => h j (by simp [hj])).bind fun as bs hrest => ?_
    exact .some (.cons hab hrest)

lemma optMapM {ι : Type} {f : ι → Option α} {g : ι → Option β} (i : Option ι)
    (h : ∀ i, Option.Rel R (f i) (g i)) :
    Option.Rel (Option.Rel R) (i.mapM f) (i.mapM g) := by
  cases i with
  | none => exact .some .none
  | some i =>
    have hmap {x : Option α} {y : Option β} (hxy : Option.Rel R x y) :
        Option.Rel (Option.Rel R) (x.map Option.some) (y.map Option.some) := by
      cases hxy with
      | some hab => exact .some (.some hab)
      | none => exact .none
    exact hmap (h i)

end Option.Rel
