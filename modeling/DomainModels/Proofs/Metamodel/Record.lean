import Mathlib.Data.List.Nodup
import DomainModels.Metamodel.Record
import DomainModels.Metamodel.Writer
import DomainModels.Proofs.Outcome

/-!
Records are read back from what is written for them.

A writer lists the members of a record in the order in which its fields are read. So the members
and the fields are followed together, one field after the other, and only at the whole record one
has to know that no two fields have the same name.
-/

namespace DomainModels.Metamodel

variable {α β : Type}

/-- A reader takes whatever was written for a value as this value. -/
def Restores (read : NodeReader α) (write : α → Json) : Prop :=
  ∀ inside value, read inside (write value) = .ok value

/-! ## Single values -/

theorem restores_text : Restores readText .string := fun _ _ => rfl

theorem restores_flag : Restores readFlag .bool := fun _ _ => rfl

theorem restores_double : Restores readDouble .float := fun _ _ => rfl

theorem restores_int64 : Restores readInt64 writeInt64 := by
  intro inside i
  have hHeld : isInt64 i.toInt = true := by
    simp only [isInt64, Bool.and_eq_true, decide_eq_true_eq]
    exact ⟨Int64.minValue_le_toInt i, Int64.toInt_le i⟩
  simp only [writeInt64, Json.int, readInt64, if_pos hHeld, Int64.ofInt_toInt]

theorem restores_uint32 : Restores readUInt32 writeUInt32 := by
  intro inside n
  have hHeld : 0 ≤ (n.toNat : Int) ∧ (n.toNat : Int) < UInt32.size :=
    ⟨Int.natCast_nonneg _, Int.ofNat_lt.mpr n.toNat_lt_size⟩
  simp only [writeUInt32, Json.int, readUInt32, if_pos hHeld, Int.toNat_natCast,
    UInt32.ofNat_toNat]

variable {read : NodeReader α} {write : α → Json}

theorem Restores.items (h : Restores read write) :
    Restores (readItems read) fun values => .array (values.map write) := by
  intro inside values
  change (values.map write).mapM (read inside) = _
  induction values with
  | nil => rfl
  | cons value rest ih => simp [h inside value, ih]

/-- Null stands for the absence of a value, so it may not stand for a value. -/
theorem Restores.nullable (h : Restores read write) {value : α} (hSome : write value ≠ .null)
    (inside : Bool) : readNullable read inside (write value) = .ok (some value) := by
  unfold readNullable
  split
  · rename_i hNull
    exact absurd hNull hSome
  · rw [h inside value]
    rfl

/-! ## Fields -/

namespace FieldReader

@[simp]
theorem combine_eq_ok {f : Except FieldFault (α → β)} {x : Except FieldFault α} {b : β} :
    combine f x = .ok b ↔ ∃ g a, f = .ok g ∧ x = .ok a ∧ g a = b := by
  cases f <;> cases x <;> simp [combine]

/-- Fields are read when those of both readers are. -/
theorem run_seq_eq_ok {f : FieldReader (α → β)} {x : FieldReader α} {inside : Bool} {before : Nat}
    {members : List (String × Json)} {b : β} :
    (f <*> x).run inside before members = .ok b ↔
      ∃ g a, f.run inside before members = .ok g ∧
        x.run inside (before + f.names.length) members = .ok a ∧ g a = b :=
  combine_eq_ok

theorem run_map_eq_ok {f : α → β} {x : FieldReader α} {inside : Bool} {before : Nat}
    {members : List (String × Json)} {b : β} :
    (f <$> x).run inside before members = .ok b ↔
      ∃ a, x.run inside before members = .ok a ∧ f a = b := by
  change combine (.ok f) (x.run inside before members) = _ ↔ _
  simp

theorem run_required_eq_ok {name : String} {read : NodeReader α} {inside : Bool} {before : Nat}
    {members : List (String × Json)} {value : α} :
    (required name read).run inside before members = .ok value ↔
      ∃ json, members.lookup name = some json ∧ read inside json = .ok value := by
  simp only [required, field]
  cases members.lookup name with
  | none => simp [Except.mapError]
  | some json => simp

/-- The members that are written agree with those of a record on the names of some fields. -/
def Agree (names : List String) (members : List (String × Json))
    (written : List (Option (String × Json))) : Prop :=
  ∀ name ∈ names, members.lookup name = (written.filterMap id).lookup name

/-- Fields take what was written for them as a value. Nothing is written under other names, and
the members of other fields do not matter. -/
structure Restores (fields : FieldReader α) (written : List (Option (String × Json)))
    (value : α) : Prop where
  named : ∀ member ∈ written.filterMap id, member.1 ∈ fields.names
  run : fields.names.Nodup → ∀ inside before members, Agree fields.names members written →
    fields.run inside before members = .ok value

theorem lookup_eq_none {members : List (String × Json)} {name : String}
    (hOther : ∀ member ∈ members, member.1 ≠ name) : members.lookup name = none := by
  rw [List.lookup_eq_none_iff]
  exact fun member hMember => bne_iff_ne.mpr (Ne.symm (hOther member hMember))

namespace Restores

theorem constant (value : α) : (FieldReader.constant value).Restores [] value :=
  ⟨by simp, fun _ _ _ _ _ => rfl⟩

/-- What is written for the fields of one reader does not hide what is written for the others. -/
theorem seq {f : FieldReader (α → β)} {x : FieldReader α}
    {front back : List (Option (String × Json))} {g : α → β} {a : α}
    (hFront : f.Restores front g) (hBack : x.Restores back a) :
    (f <*> x).Restores (front ++ back) (g a) := by
  have hNames : (f <*> x).names = f.names ++ x.names := rfl
  refine ⟨?_, ?_⟩
  · intro member hMember
    rw [hNames, List.mem_append]
    rw [List.filterMap_append, List.mem_append] at hMember
    exact hMember.imp (hFront.named member) (hBack.named member)
  · intro hNodup inside before members hAgree
    rw [hNames, List.nodup_append'] at hNodup
    obtain ⟨hFirst, hLast, hApart⟩ := hNodup
    have hAgreeFront : Agree f.names members front := by
      intro name hName
      have hNone : (back.filterMap id).lookup name = none :=
        lookup_eq_none fun member hMember hEq =>
          hApart hName (hEq ▸ hBack.named member hMember)
      rw [hAgree name (hNames ▸ List.mem_append_left _ hName), List.filterMap_append,
        List.lookup_append, hNone, Option.or_none]
    have hAgreeBack : Agree x.names members back := by
      intro name hName
      have hNone : (front.filterMap id).lookup name = none :=
        lookup_eq_none fun member hMember hEq =>
          hApart (hEq ▸ hFront.named member hMember) hName
      rw [hAgree name (hNames ▸ List.mem_append_right _ hName), List.filterMap_append,
        List.lookup_append, hNone, Option.none_or]
    change combine _ _ = _
    rw [hFront.run hFirst inside before members hAgreeFront,
      hBack.run hLast inside (before + f.names.length) members hAgreeBack]
    rfl

theorem map {x : FieldReader α} {written : List (Option (String × Json))} {a : α} (f : α → β)
    (h : x.Restores written a) : (f <$> x).Restores written (f a) :=
  (constant f).seq h

/-- A field reads its member back. -/
theorem field {name : String} {read : NodeReader α} {absent : Except NodeFault α} {json : Json}
    {value : α} (h : ∀ inside, read inside json = .ok value) :
    (FieldReader.field name read absent).Restores [member name json] value := by
  refine ⟨by simp [member, FieldReader.field], ?_⟩
  intro _ inside before members hAgree
  have hFound : members.lookup name = some json := by
    rw [hAgree name List.mem_cons_self]
    simp [member]
  simp only [FieldReader.field, hFound, h inside]
  rfl

/-- A field that was not written has the value of an absent one. -/
theorem absent {name : String} {read : NodeReader α} {value : α} :
    (FieldReader.field name read (.ok value)).Restores [none] value := by
  refine ⟨by simp, ?_⟩
  intro _ inside before members hAgree
  have hNone : members.lookup name = none := hAgree name List.mem_cons_self
  simp only [FieldReader.field, hNone]
  rfl

variable {read : NodeReader α} {write : α → Json}

theorem required (name : String) (h : Metamodel.Restores read write) (value : α) :
    (FieldReader.required name read).Restores [member name (write value)] value :=
  field fun inside => h inside value

theorem defaulted (name : String) (default : α) (h : Metamodel.Restores read write) (value : α) :
    (FieldReader.defaulted name read default).Restores [member name (write value)] value :=
  field fun inside => h inside value

theorem optional (name : String) (h : Metamodel.Restores read write)
    (hSome : ∀ value, write value ≠ .null) (value : Option α) :
    (FieldReader.optional name read).Restores [optionalMember name write value] value := by
  cases value with
  | none => exact absent
  | some value => exact field (h.nullable (hSome value))

/-- A list that is always written. -/
theorem sequence (name : String) (h : Metamodel.Restores read write) (values : List α) :
    (FieldReader.listed name read).Restores [member name (.array (values.map write))] values :=
  field fun inside => h.items inside values

/-- A list that is written unless it is empty. -/
theorem listed (name : String) (h : Metamodel.Restores read write) (values : List α) :
    (FieldReader.listed name read).Restores [listMember name write values] values := by
  cases values with
  | nil => exact absent
  | cons value rest => exact sequence name h (value :: rest)

end Restores

end FieldReader

/-! ## Nodes -/

theorem readMembers_written {fields : FieldReader α} {written : List (Option (String × Json))}
    {value : α} (hNodup : fields.names.Nodup) (h : fields.Restores written value) (inside : Bool) :
    readMembers fields inside (written.filterMap id) = .ok value := by
  rw [readMembers, h.run hNodup inside 0 _ fun _ _ => rfl]
  rfl

/-- A record is read back when its fields are. -/
theorem readRecord_written {fields : FieldReader α} {written : List (Option (String × Json))}
    {value : α} (hNodup : fields.names.Nodup) (h : fields.Restores written value) (label : String)
    (inside : Bool) : readRecord label fields inside (objectOf written) = .ok value :=
  readMembers_written hNodup h inside

/-- Tags name their forms. -/
@[simp]
theorem nodeClass_beq (name other : String) :
    (nodeClass name == nodeClass other) = (name == other) := by
  rw [Bool.eq_iff_iff, beq_iff_eq, beq_iff_eq, nodeClass, nodeClass, qualify_inj]

/-- A tagged node is read back when the fields of its form are. -/
theorem readTagged_written {forms : List (Form α)} {form : Form α} {name : String}
    {written : List (Option (String × Json))} {value : α}
    (hForm : forms.find? (·.className == nodeClass name) = some form)
    (hNodup : ("$class" :: form.fields.names).Nodup) (h : form.fields.Restores written value)
    (label : String) (inside : Bool) :
    readTagged label forms inside (objectOf (tag name :: written)) = .ok value := by
  obtain ⟨hUntagged, hNodup⟩ := List.nodup_cons.mp hNodup
  have hOthers : (written.filterMap id).filter (·.1 != "$class") = written.filterMap id := by
    refine List.filter_eq_self.mpr fun member hMember => bne_iff_ne.mpr fun hEq => ?_
    exact hUntagged (hEq ▸ h.named member hMember)
  have hMembers : (tag name :: written).filterMap id =
      ("$class", Json.string (nodeClass name)) :: written.filterMap id := rfl
  simp only [readTagged, objectOf, hMembers, List.lookup_cons_self, Form.select, hForm]
  rw [List.filter_cons_of_neg (by simp), hOthers]
  exact readMembers_written hNodup h true

end DomainModels.Metamodel
