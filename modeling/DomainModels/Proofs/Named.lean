import Mathlib.Data.List.Forall2

/-!
Items that are looked up by a name that no two of them share.
-/

namespace DomainModels.Named

/-- What is made of items under their names has the names in the order of the items. -/
theorem map_filterMap_sublist {α β γ : Type} {nameOf : α → β} {make : α → Option γ}
    {madeName : γ → β} (hName : ∀ a b, make a = some b → madeName b = nameOf a) (items : List α) :
    ((items.filterMap make).map madeName).Sublist (items.map nameOf) := by
  induction items with
  | nil => simp
  | cons first rest ih =>
      rw [List.filterMap_cons, List.map_cons]
      cases hMade : make first with
      | none => exact ih.cons _
      | some b =>
          rw [List.map_cons, hName first b hMade]
          exact ih.cons_cons _

variable {α β : Type} [DecidableEq β] {nameOf : α → β} {items : List α}

/-- Every item is found under its name. -/
theorem find?_of_mem (hDistinct : (items.map nameOf).Nodup) {a : α} (hMem : a ∈ items) :
    items.find? (nameOf · = nameOf a) = some a := by
  induction items with
  | nil => simp at hMem
  | cons first rest ih =>
      rw [List.map_cons, List.nodup_cons] at hDistinct
      rw [List.find?_cons]
      rcases List.mem_cons.mp hMem with rfl | hMem
      · simp
      · have hOther : nameOf first ≠ nameOf a := fun hSame =>
          hDistinct.1 (List.mem_map.mpr ⟨a, hMem, hSame.symm⟩)
        simp only [hOther, decide_false]
        exact ih hDistinct.2 hMem

/-- What is found is an item of that name. -/
theorem mem_of_find? {name : β} {a : α} (hFound : items.find? (nameOf · = name) = some a) :
    a ∈ items ∧ nameOf a = name :=
  ⟨List.mem_of_find?_eq_some hFound, by simpa using List.find?_some hFound⟩

/-- Where no two items share a name, their order does not matter for finding one. -/
theorem find?_perm {other : List α} (hDistinct : (items.map nameOf).Nodup)
    (hPerm : items.Perm other) (name : β) :
    items.find? (nameOf · = name) = other.find? (nameOf · = name) := by
  refine Option.ext fun a => ⟨fun hFound => ?_, fun hFound => ?_⟩
  · obtain ⟨hMem, rfl⟩ := mem_of_find? hFound
    exact find?_of_mem ((hPerm.map _).nodup_iff.mp hDistinct) (hPerm.mem_iff.mp hMem)
  · obtain ⟨hMem, rfl⟩ := mem_of_find? hFound
    exact find?_of_mem hDistinct (hPerm.mem_iff.mpr hMem)

/-- There is at most one item of a name. -/
theorem filter_eq_toList (hDistinct : (items.map nameOf).Nodup) (name : β) :
    items.filter (nameOf · = name) = (items.find? (nameOf · = name)).toList := by
  induction items with
  | nil => rfl
  | cons first rest ih =>
      rw [List.map_cons, List.nodup_cons] at hDistinct
      rw [List.filter_cons, List.find?_cons]
      by_cases hName : nameOf first = name
      · have hNone : rest.filter (nameOf · = name) = [] := by
          refine List.filter_eq_nil_iff.mpr fun a hMem hSame => hDistinct.1 ?_
          rw [hName, ← of_decide_eq_true hSame]
          exact List.mem_map_of_mem hMem
        simp [hName, hNone]
      · simp [hName, ih hDistinct.2]

/-- Each member of the second of two related lists has a partner in the first. -/
theorem exists_of_forall₂ {γ : Type} {R : α → γ → Prop} {left : List α} {right : List γ}
    (hRelated : List.Forall₂ R left right) {b : γ} (hMem : b ∈ right) : ∃ a ∈ left, R a b := by
  induction hRelated with
  | nil => simp at hMem
  | cons hFirst _ ih =>
      rcases List.mem_cons.mp hMem with rfl | hMem
      · exact ⟨_, List.mem_cons_self, hFirst⟩
      · obtain ⟨a, hLater, hPartner⟩ := ih hMem
        exact ⟨a, List.mem_cons_of_mem _ hLater, hPartner⟩

/-- Where related members share their names, the one that is found under the name of a member of the
second list is its partner. -/
theorem related_of_find? {γ : Type} {otherName : γ → β} {R : α → γ → Prop} {others : List γ}
    (hRelated : List.Forall₂ R items others) (hNames : ∀ a b, R a b → otherName b = nameOf a)
    (hDistinct : (items.map nameOf).Nodup) {a : α} {b : γ} (hMem : b ∈ others)
    (hFound : items.find? (nameOf · = otherName b) = some a) : R a b := by
  obtain ⟨partner, hPartner, hR⟩ := exists_of_forall₂ hRelated hMem
  rw [hNames partner b hR, find?_of_mem hDistinct hPartner] at hFound
  cases hFound
  exact hR

/-- Related lists come to the same when each of their members does. -/
theorem flatMap_of_forall₂ {γ δ : Type} {R : α → γ → Prop} {f : α → List δ} {g : γ → List δ}
    {left : List α} {right : List γ} (hRelated : List.Forall₂ R left right)
    (hSame : ∀ a ∈ left, ∀ b, R a b → f a = g b) : left.flatMap f = right.flatMap g := by
  induction hRelated with
  | nil => rfl
  | cons hFirst _ ih =>
      rw [List.flatMap_cons, List.flatMap_cons, hSame _ List.mem_cons_self _ hFirst,
        ih fun a hMem => hSame a (List.mem_cons_of_mem _ hMem)]

end DomainModels.Named
