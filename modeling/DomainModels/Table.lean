/-!
Finite tables with text keys, as lists of entries in the order of their keys.

`put` and `erase` keep the entries sorted, so that a table that is built by them lists its entries
in key order, each key once. Texts are compared by code points, which orders them as their bytes do.
-/

namespace DomainModels

/-- The entries of a table, in key order. -/
abbrev Table (α : Type) : Type := List (String × α)

namespace Table

variable {α : Type}

/-- The value at a key. -/
def find? (table : Table α) (key : String) : Option α := table.lookup key

def contains (table : Table α) (key : String) : Bool := (find? table key).isSome

/-- Enters a value at its place, instead of the one that the key has had. -/
def put (key : String) (value : α) : Table α → Table α
  | [] => [(key, value)]
  | entry :: rest =>
    if key < entry.1 then (key, value) :: entry :: rest
    else if key = entry.1 then (key, value) :: rest
    else entry :: put key value rest

/-- Takes a key out. -/
def erase (key : String) (table : Table α) : Table α := table.filter (·.1 ≠ key)

def keys (table : Table α) : List String := table.map (·.1)

def values (table : Table α) : List α := table.map (·.2)

/-- The first entry of a list decides, if it has the key. -/
theorem find?_cons (first key : String) (value : α) (rest : Table α) :
    find? ((first, value) :: rest) key = if key = first then some value else find? rest key := by
  by_cases h : key = first
  · simp [find?, h]
  · have hBeq : (key == first) = false := by simp [h]
    simp [find?, List.lookup_cons, hBeq, h]

/-- What is found after an entry was made. -/
theorem find?_put (table : Table α) (key other : String) (value : α) :
    find? (put key value table) other = if other = key then some value else find? table other := by
  induction table with
  | nil => simp [put, find?_cons]
  | cons entry rest ih =>
    obtain ⟨first, v⟩ := entry
    unfold put
    split
    · simp [find?_cons]
    · split
      · grind [find?_cons]
      · grind [find?_cons]

/-- The keys are those for which something is found. -/
theorem mem_keys {table : Table α} {key : String} :
    key ∈ keys table ↔ (find? table key).isSome = true := by
  induction table with
  | nil => simp [keys, find?]
  | cons entry rest ih =>
      obtain ⟨first, value⟩ := entry
      rw [find?_cons]
      by_cases hKey : key = first
      · simp [keys, hKey]
      · simpa [keys, hKey] using ih

theorem mem_keys_put {table : Table α} {key other : String} {value : α} :
    other ∈ keys (put key value table) ↔ other = key ∨ other ∈ keys table := by
  rw [mem_keys, mem_keys, find?_put]
  by_cases hKey : other = key <;> simp [hKey]

/-- What is found after a key was taken out. -/
theorem find?_erase (table : Table α) (key other : String) :
    find? (erase key table) other = if other = key then none else find? table other := by
  induction table with
  | nil => simp [find?, erase]
  | cons entry rest ih =>
    obtain ⟨first, v⟩ := entry
    have hStep : erase key ((first, v) :: rest) =
        if first = key then erase key rest else (first, v) :: erase key rest := by
      by_cases h : first = key <;> simp [erase, h]
    rw [hStep]
    grind [find?_cons]

/-- A value in a table is smaller than the table. -/
theorem sizeOf_find? [SizeOf α] {table : Table α} {key : String} {value : α}
    (hFound : find? table key = some value) : sizeOf value < sizeOf table := by
  induction table with
  | nil => simp [find?] at hFound
  | cons entry rest ih =>
    obtain ⟨first, v⟩ := entry
    rw [find?_cons] at hFound
    split at hFound
    · obtain rfl := Option.some.inj hFound
      simp +arith
    · have := ih hFound
      simp +arith
      omega

/-! ## Sorted tables -/

/-- Each key is less than the ones after it. -/
def Sorted (table : Table α) : Prop := table.Pairwise fun a b => a.1 < b.1

theorem sorted_nil : Sorted ([] : Table α) := List.Pairwise.nil

/-- The entries after an entry was made are this one and those with other keys. -/
theorem mem_put {table : Table α} {key : String} {value : α} {entry : String × α}
    (hMem : entry ∈ put key value table) : entry = (key, value) ∨ entry ∈ table := by
  induction table with
  | nil => exact .inl (by simpa [put] using hMem)
  | cons first rest ih =>
      unfold put at hMem
      split at hMem
      · simpa using hMem
      · split at hMem
        · rcases List.mem_cons.mp hMem with hEq | hRest
          · exact .inl hEq
          · exact .inr (List.mem_cons_of_mem _ hRest)
        · rcases List.mem_cons.mp hMem with hEq | hRest
          · exact .inr (hEq ▸ List.mem_cons_self)
          · exact (ih hRest).imp_right (List.mem_cons_of_mem _)

/-- Making an entry keeps the order of the keys. -/
theorem sorted_put {table : Table α} (hSorted : Sorted table) (key : String) (value : α) :
    Sorted (put key value table) := by
  induction table with
  | nil => simp [put, Sorted]
  | cons first rest ih =>
      obtain ⟨hFirst, hRest⟩ := List.pairwise_cons.mp hSorted
      unfold put
      split
      · rename_i hBefore
        refine List.pairwise_cons.mpr ⟨?_, hSorted⟩
        intro entry hMem
        rcases List.mem_cons.mp hMem with rfl | hMem
        · exact hBefore
        · exact String.lt_trans hBefore (hFirst entry hMem)
      · split
        · rename_i hSame
          exact List.pairwise_cons.mpr ⟨fun entry hMem => hSame ▸ hFirst entry hMem, hRest⟩
        · rename_i hNotBefore hOther
          have hAfter : first.1 < key :=
            String.not_le.mp fun hLe =>
              hOther (String.le_antisymm hLe (String.not_lt.mp hNotBefore))
          refine List.pairwise_cons.mpr ⟨?_, ih hRest⟩
          intro entry hMem
          rcases mem_put hMem with rfl | hMem
          · exact hAfter
          · exact hFirst entry hMem

/-- A new key joins the entries that are there. -/
theorem sublist_put {table : Table α} {key : String} (hNew : find? table key = none) (value : α) :
    table.Sublist (put key value table) := by
  induction table with
  | nil => exact List.nil_sublist _
  | cons entry rest ih =>
      obtain ⟨first, other⟩ := entry
      rw [find?_cons] at hNew
      unfold put
      split
      · exact List.sublist_cons_self _ _
      · split
        · rename_i hSame
          simp [show key = first from hSame] at hNew
        · rename_i hOther
          rw [if_neg hOther] at hNew
          exact (ih hNew).cons_cons _

/-- Taking a key out keeps the order of the others. -/
theorem sorted_erase {table : Table α} (hSorted : Sorted table) (key : String) :
    Sorted (erase key table) :=
  List.Pairwise.filter _ hSorted

theorem mem_of_mem_erase {table : Table α} {key : String} {entry : String × α}
    (hMem : entry ∈ erase key table) : entry ∈ table :=
  (List.mem_filter.mp hMem).1

/-- What is found stands in the table. -/
theorem mem_of_find? {table : Table α} {key : String} {value : α}
    (hFound : find? table key = some value) : (key, value) ∈ table := by
  induction table with
  | nil => simp [find?] at hFound
  | cons entry rest ih =>
      obtain ⟨first, v⟩ := entry
      rw [find?_cons] at hFound
      split at hFound
      · rename_i hKey
        simp_all
      · exact List.mem_cons_of_mem _ (ih hFound)

/-- A sorted table has no two entries for one key, so that each of its entries is found. -/
theorem find?_of_mem {table : Table α} (hSorted : Sorted table) {key : String} {value : α}
    (hMem : (key, value) ∈ table) : find? table key = some value := by
  induction table with
  | nil => simp at hMem
  | cons entry rest ih =>
      obtain ⟨first, v⟩ := entry
      obtain ⟨hFirst, hRest⟩ := List.pairwise_cons.mp hSorted
      rw [find?_cons]
      rcases List.mem_cons.mp hMem with hEq | hMem
      · simp_all
      · have hLess : first < key := hFirst _ hMem
        have hOther : key ≠ first := fun hKey => String.lt_irrefl first (hKey ▸ hLess)
        rw [if_neg hOther]
        exact ih hRest hMem

/-- The first key of a sorted table does not occur again. -/
theorem find?_tail_of_sorted {first : String} {value : α} {rest : Table α}
    (hSorted : Sorted ((first, value) :: rest)) : find? rest first = none := by
  cases hFound : find? rest first with
  | none => rfl
  | some other =>
      have hLess := (List.pairwise_cons.mp hSorted).1 _ (mem_of_find? hFound)
      exact (String.lt_irrefl first hLess).elim

/-- In a sorted table no key is less than the first one. -/
theorem not_lt_first {first key : String} {value v : α} {rest : Table α}
    (hSorted : Sorted ((first, value) :: rest))
    (hFound : find? ((first, value) :: rest) key = some v) : ¬ key < first := by
  rcases List.mem_cons.mp (mem_of_find? hFound) with hEq | hMem
  · rw [(Prod.mk.inj hEq).1]
    exact String.lt_irrefl first
  · exact fun hLess =>
      String.lt_irrefl key (String.lt_trans hLess ((List.pairwise_cons.mp hSorted).1 _ hMem))

/-- Sorted tables in which the same is found are the same. -/
theorem eq_of_find?_eq {left right : Table α} (hLeft : Sorted left) (hRight : Sorted right)
    (hFind : ∀ key, find? left key = find? right key) : left = right := by
  induction left generalizing right with
  | nil =>
      cases right with
      | nil => rfl
      | cons entry rest =>
          have hNone := hFind entry.1
          rw [find?_cons, if_pos rfl] at hNone
          simp [find?] at hNone
  | cons entry rest ih =>
      obtain ⟨first, v⟩ := entry
      cases right with
      | nil =>
          have hNone := hFind first
          rw [find?_cons, if_pos rfl] at hNone
          simp [find?] at hNone
      | cons other rest' =>
          obtain ⟨first', v'⟩ := other
          have hHere : find? ((first', v') :: rest') first = some v := by
            rw [← hFind, find?_cons, if_pos rfl]
          have hThere : find? ((first, v) :: rest) first' = some v' := by
            rw [hFind, find?_cons, if_pos rfl]
          have hKey : first = first' :=
            String.le_antisymm (String.not_lt.mp (not_lt_first hLeft hThere))
              (String.not_lt.mp (not_lt_first hRight hHere))
          subst hKey
          have hValue : v' = v := by simpa [find?_cons] using hHere
          subst hValue
          have hRest : rest = rest' := by
            refine ih hLeft.tail hRight.tail fun key => ?_
            by_cases hKey : key = first
            · rw [hKey, find?_tail_of_sorted hLeft, find?_tail_of_sorted hRight]
            · simpa [find?_cons, hKey] using hFind key
          rw [hRest]

/-- An entry that was taken out of a sorted table may be made again. -/
theorem put_erase {table : Table α} (hSorted : Sorted table) {key : String} {value : α}
    (hFound : find? table key = some value) : put key value (erase key table) = table := by
  refine eq_of_find?_eq (sorted_put (sorted_erase hSorted key) _ _) hSorted fun other => ?_
  rw [find?_put, find?_erase]
  by_cases hKey : other = key
  · rw [if_pos hKey, hKey, hFound]
  · rw [if_neg hKey, if_neg hKey]

/-- Where a table is sorted, entries for two keys may be made in both orders. -/
theorem put_comm {table : Table α} (hSorted : Sorted table) {key other : String}
    (hOther : key ≠ other) (a b : α) :
    put key a (put other b table) = put other b (put key a table) := by
  refine eq_of_find?_eq (sorted_put (sorted_put hSorted _ _) _ _)
    (sorted_put (sorted_put hSorted _ _) _ _) fun name => ?_
  simp only [find?_put]
  by_cases hKey : name = key
  · rw [if_pos hKey, if_neg (hKey ▸ hOther), if_pos hKey]
  · rw [if_neg hKey, if_neg hKey]

end Table

end DomainModels
