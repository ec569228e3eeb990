import DomainModels.Proofs.Instance.Fits
import DomainModels.Proofs.Wire.Writing

/-!
Where instances stand in a written tree.

The places are listed in the order of the document: an instance comes before those inside of it.
What stands at a place is the object of the instance, or a text that stands for it. What an instance
holds is looked for in its object only, so that an instance inside one that is written as a text has
no place.
-/

namespace DomainModels

namespace Json

mutual

/-- What stands under `$id` in the objects of a tree, in the order of the document. -/
def ids : Json → List Json
  | .array items => itemIds items
  | .object members => (members.lookup idKey).toList ++ memberIds members
  | _ => []

def itemIds : List Json → List Json
  | [] => []
  | item :: rest => item.ids ++ itemIds rest

def memberIds : List (String × Json) → List Json
  | [] => []
  | (_, json) :: rest => json.ids ++ memberIds rest

end

theorem itemIds_eq (items : List Json) : itemIds items = items.flatMap ids := by
  induction items with
  | nil => rfl
  | cons item rest ih => rw [itemIds, ih, List.flatMap_cons]

theorem memberIds_eq (members : List (String × Json)) :
    memberIds members = members.flatMap fun member => member.2.ids := by
  induction members with
  | nil => rfl
  | cons member rest ih => rw [memberIds, ih, List.flatMap_cons]

end Json

namespace Encoder

/-! ## What is held under a name -/

/-- The text that a key of a map is written as, if it is written as one. -/
def keyName? (e : Encoder) : Value → Option String
  | .string text | .enum text => some text
  | .dateTime t => some (t.render e.options.utcOffset)
  | _ => none

/-- The item that stands under a name in the object of a map: the one of the last entry whose key is
written as the name. -/
def itemUnder? (e : Encoder) (entries : List (Value × Value)) (name : String) : Option Value :=
  (entries.reverse.find? fun entry => e.keyName? entry.1 = some name).map (·.2)

/-- The value that stands under a name in the object of an instance: the one that is held for the
property of this name, unless that is the identifier of the system and a declared field has taken
its place. -/
def held? (e : Encoder) (x : Resource) (name : String) : Option Value :=
  (e.registry.index.class? x.fqn).bind fun c =>
    (c.property? name).bind fun p => if Decoder.isShadowed c p then none else x.get? name

theorem sizeOf_itemUnder? {e : Encoder} {entries : List (Value × Value)} {name : String}
    {item : Value} (hFound : e.itemUnder? entries name = some item) :
    sizeOf item < sizeOf (Value.map entries) := by
  obtain ⟨entry, hEntry, rfl⟩ := Option.map_eq_some_iff.mp hFound
  exact Value.sizeOf_entry (List.mem_reverse.mp (List.mem_of_find?_eq_some hEntry))

theorem get?_of_held? {e : Encoder} {x : Resource} {name : String} {value : Value}
    (hHeld : e.held? x name = some value) : x.get? name = some value := by
  obtain ⟨c, _, hHeld⟩ := Option.bind_eq_some_iff.mp hHeld
  obtain ⟨p, _, hHeld⟩ := Option.bind_eq_some_iff.mp hHeld
  split at hHeld
  · cases hHeld
  · exact hHeld

theorem sizeOf_held? {e : Encoder} {x : Resource} {name : String} {value : Value}
    (hHeld : e.held? x name = some value) : sizeOf value < sizeOf (Value.concept x) := by
  have hSmaller := Resource.sizeOf_get? (get?_of_held? hHeld)
  simp only [Value.concept.sizeOf_spec]
  omega

/-! ## Places -/

/-- The places of the instances in a tree that was written for a value. -/
def places (e : Encoder) (value : Value) (tree : Json) : List (Resource × Json) :=
  match value, tree with
  | .concept x, .object members =>
    (x, .object members) :: members.flatMap fun member =>
      match _ : e.held? x member.1 with
      | some inner => places e inner member.2
      | none => []
  | .concept x, tree => [(x, tree)]
  | .array items, .array trees =>
    (List.zipWith (fun item tree => places e item.1 tree) items.attach trees).flatten
  | .map entries, .object members =>
    members.flatMap fun member =>
      match _ : e.itemUnder? entries member.1 with
      | some item => places e item member.2
      | none => []
  | _, _ => []
termination_by sizeOf value
decreasing_by
  · exact sizeOf_held? ‹_›
  · exact Value.sizeOf_item item.2
  · exact sizeOf_itemUnder? ‹_›

/-- The places in a member that was written for a value, if it was written for one. -/
def placesUnder (e : Encoder) (value : Option Value) (tree : Json) : List (Resource × Json) :=
  value.elim [] fun value => e.places value tree

section

variable {e : Encoder} {x : Resource} {entries : List (Value × Value)}
  {members : List (String × Json)}

theorem places_object : e.places (.concept x) (.object members) = (x, .object members) ::
    members.flatMap fun member => e.placesUnder (e.held? x member.1) member.2 := by
  rw [places]
  congr 2
  funext member
  split <;> simp only [placesUnder, *] <;> rfl

theorem places_text (text : String) :
    e.places (.concept x) (.string text) = [(x, .string text)] := by
  simp [places]

/-- No instance is inside of a value that is no instance, no array and no map. -/
theorem places_eq_nil {value : Value} (hConcept : ∀ x, value ≠ .concept x)
    (hArray : ∀ items, value ≠ .array items) (hMap : ∀ entries, value ≠ .map entries)
    (tree : Json) : e.places value tree = [] := by
  cases value with
  | concept x => exact absurd rfl (hConcept x)
  | array items => exact absurd rfl (hArray items)
  | map entries => exact absurd rfl (hMap entries)
  | _ => simp [places]

theorem places_map : e.places (.map entries) (.object members) =
    members.flatMap fun member => e.placesUnder (e.itemUnder? entries member.1) member.2 := by
  rw [places]
  congr 1
  funext member
  split <;> simp only [placesUnder, *] <;> rfl

theorem places_array {items : List Value} {trees : List Json} :
    e.places (.array items) (.array trees) = (List.zipWith e.places items trees).flatten := by
  rw [places]
  congr 1
  conv_rhs => rw [← List.attach_map_subtype_val items, List.zipWith_map_left]

end

/-! ## Keys -/

/-- The keys of each map in a value are written as different names. -/
def HasDistinctKeys (e : Encoder) (value : Value) : Prop :=
  ∀ entries, Value.IsPart (.map entries) value →
    (entries.filterMap fun entry => e.keyName? entry.1).Nodup

/-- No key of a map in a value is written as `$id`. -/
def HasNoIdKeys (e : Encoder) (value : Value) : Prop :=
  ∀ entries, Value.IsPart (.map entries) value →
    ∀ entry ∈ entries, e.keyName? entry.1 ≠ some idKey

section

variable {e : Encoder} {value inner : Value}

theorem HasDistinctKeys.of_part (hDistinct : e.HasDistinctKeys value)
    (hPart : ∀ {part : Value}, part.IsPart inner → part.IsPart value) : e.HasDistinctKeys inner :=
  fun entries hMap => hDistinct entries (hPart hMap)

theorem HasNoIdKeys.of_part (hNoIds : e.HasNoIdKeys value)
    (hPart : ∀ {part : Value}, part.IsPart inner → part.IsPart value) : e.HasNoIdKeys inner :=
  fun entries hMap => hNoIds entries (hPart hMap)

end

section

variable {e : Encoder} {entries : List (Value × Value)} {entry : Value × Value} {name : String}
  {tree : Json} {members : List (String × Json)}

/-- An entry that is added decides about its name only. -/
theorem itemUnder?_append (other : String) : e.itemUnder? (entries ++ [entry]) other =
    if e.keyName? entry.1 = some other then some entry.2 else e.itemUnder? entries other := by
  rw [itemUnder?, List.reverse_append, List.reverse_singleton, List.singleton_append,
    List.find?_cons]
  by_cases hOther : e.keyName? entry.1 = some other
  · simp only [hOther, decide_true, if_true, Option.map_some]
  · simp only [hOther, decide_false, if_false, itemUnder?]

/-- The places under other names are the same ones. -/
theorem flatMap_itemUnder?_append (hName : e.keyName? entry.1 = some name)
    (hOthers : name ∉ members.map (·.1)) :
    (members.flatMap fun member =>
        e.placesUnder (e.itemUnder? (entries ++ [entry]) member.1) member.2) =
      members.flatMap fun member => e.placesUnder (e.itemUnder? entries member.1) member.2 := by
  refine List.flatMap_congr fun member hMem => ?_
  have hOther : name ≠ member.1 := fun hSame => hOthers (hSame ▸ List.mem_map_of_mem hMem)
  rw [itemUnder?_append, hName, if_neg (by simpa using hOther)]

/-- An entry with a new name adds the places in its item. -/
theorem places_insertMember_of_not_mem (hName : e.keyName? entry.1 = some name)
    (hNew : name ∉ members.map (·.1)) :
    e.places (.map (entries ++ [entry])) (.object (Json.insertMember name tree members)) =
      e.places (.map entries) (.object members) ++ e.places entry.2 tree := by
  rw [places_map, places_map, Json.insertMember_of_not_mem hNew, List.flatMap_append,
    flatMap_itemUnder?_append hName hNew, List.flatMap_singleton, itemUnder?_append, if_pos hName]
  rfl

/-- An entry whose name is there already takes the places of the former one away. -/
theorem places_insertMember (hName : e.keyName? entry.1 = some name)
    (hNames : (members.map (·.1)).Nodup) :
    (e.places (.map (entries ++ [entry])) (.object (Json.insertMember name tree members))).Subperm
      (e.places (.map entries) (.object members) ++ e.places entry.2 tree) := by
  by_cases hMem : name ∈ members.map (·.1)
  · obtain ⟨before, old, after, rfl, hInserted, hBefore, hAfter⟩ :=
      Json.exists_insertMember hNames hMem tree
    rw [places_map, places_map, hInserted, List.flatMap_append, List.flatMap_append,
      List.flatMap_cons, List.flatMap_cons, flatMap_itemUnder?_append hName hBefore,
      flatMap_itemUnder?_append hName hAfter, itemUnder?_append, if_pos hName, List.append_assoc,
      List.append_assoc]
    refine List.Subperm.append (List.Subperm.refl _) ?_
    exact List.perm_append_comm.subperm.trans (List.sublist_append_right _ _).subperm
  · rw [places_insertMember_of_not_mem hName hMem]

end

end Encoder

end DomainModels
