import Mathlib.Data.List.Forall2
import DomainModels.Metamodel.Reader
import DomainModels.Proofs.Metamodel.Record
import DomainModels.Proofs.Text.Split

/-!
Bundles of models.

A bundle is read entry by entry, and its models stand in the order of its entries. The class of the
bundle is checked, but the classes of its entries are read as texts like any other: the models of a
bundle are those that the entries are read as on their own exactly if all entries have the class of
models.
-/

namespace DomainModels

variable {α β ε : Type}

/-- A list is mapped when each of its items is. -/
theorem Outcome.mapM_eq_ok {f : α → Except ε β} {items : List α} {results : List β} :
    items.mapM f = .ok results ↔ List.Forall₂ (fun a b => f a = .ok b) items results := by
  induction items generalizing results with
  | nil =>
      rw [List.mapM_nil, Outcome.pure_eq_ok, List.forall₂_nil_left_iff]
      exact eq_comm
  | cons a rest ih =>
      simp only [List.mapM_cons, Outcome.bind_eq_ok, Outcome.pure_eq_ok, ih,
        List.forall₂_cons_left_iff]
      constructor
      · rintro ⟨b, hFirst, later, hRest, rfl⟩
        exact ⟨b, later, hFirst, hRest, rfl⟩
      · rintro ⟨b, later, hFirst, hRest, rfl⟩
        exact ⟨b, hFirst, later, hRest, rfl⟩

theorem Outcome.exists_of_mem_mapM {f : α → Except ε β} {items : List α} {results : List β}
    (hMapped : items.mapM f = .ok results) {b : β} (hMem : b ∈ results) :
    ∃ a ∈ items, f a = .ok b := by
  induction Outcome.mapM_eq_ok.mp hMapped with
  | nil => cases hMem
  | cons hFirst hRest ih =>
      rcases List.mem_cons.mp hMem with rfl | hMem
      · exact ⟨_, List.mem_cons_self, hFirst⟩
      · obtain ⟨a, hFound, hHere⟩ := ih (Outcome.mapM_eq_ok.mpr hRest) hMem
        exact ⟨a, List.mem_cons_of_mem _ hFound, hHere⟩

namespace Metamodel

open FieldReader

/-- A list that is there is read item by item. -/
theorem FieldReader.run_listed_eq_ok {field : String} {item : NodeReader α} {inside : Bool}
    {before : Nat} {members : List (String × Json)} {items : List Json} {values : List α}
    (hFound : members.lookup field = some (.array items)) :
    (listed field item).run inside before members = .ok values ↔
      items.mapM (item inside) = .ok values := by
  simp only [listed, FieldReader.field, hFound, Outcome.mapError_eq_ok]
  rfl

variable {json : Json} {m : Model} {name expected : String}

/-- The class that is expected is the only one that passes. -/
theorem eq_of_checkNodeClass (hCheck : checkNodeClass name expected = .ok ()) :
    name = nodeClass expected := by
  unfold checkNodeClass at hCheck
  split at hCheck
  · cases hCheck
  · rename_i front back hCut
    split at hCheck
    · simp only at hCheck
      split at hCheck <;> cases hCheck
    · rename_i hFront
      split at hCheck
      · cases hCheck
      · rename_i hBack
        rw [not_not] at hFront hBack
        rw [nodeClass, qualify, ← hFront, ← hBack, ← String.toList_inj, Text.cutLast_eq_some hCut]
        simp

theorem classOf_eq_ok : classOf json = .ok name ↔ json.get? "$class" = some (.string name) := by
  unfold classOf
  cases hFound : json.get? "$class" with
  | none => simp
  | some tag => cases tag <;> simp [Json.string?]

/-- A model is read from a tree of the class of models. -/
theorem Model.ofJson_eq_ok : Model.ofJson json = .ok m ↔
    json.get? "$class" = some (.string (nodeClass "Model")) ∧ readModel false json = .ok m := by
  simp only [Model.ofJson, Outcome.bind_eq_ok, Outcome.mapError_eq_ok, Outcome.exists_unit,
    classOf_eq_ok]
  constructor
  · rintro ⟨name, hName, hCheck, hRead⟩
    exact ⟨eq_of_checkNodeClass hCheck ▸ hName, hRead⟩
  · rintro ⟨hClass, hRead⟩
    exact ⟨_, hClass, rfl, hRead⟩

section

variable {bundle : Json} {entries : List Json} {models : List Model}

/-- The entries of a bundle are read one by one. -/
theorem modelsOfJson_eq_ok
    (hClass : bundle.get? "$class" = some (.string (nodeClass "Models")))
    (hEntries : bundle.get? "models" = some (.array entries)) :
    modelsOfJson bundle = .ok models ↔
      List.Forall₂ (fun entry m => readModel false entry = .ok m) entries models := by
  have hRead : modelsOfJson bundle = (readBundle false bundle).mapError .node := by
    rw [modelsOfJson, classOf_eq_ok.mpr hClass]
    rfl
  rw [hRead, Outcome.mapError_eq_ok, ← Outcome.mapM_eq_ok]
  cases bundle with
  | object members =>
      have hTag : members.lookup "$class" = some (.string (nodeClass "Models")) := hClass
      simp only [readBundle, readRecord, readMembers, Outcome.mapError_eq_ok, run_seq_eq_ok,
        run_map_eq_ok, run_required_eq_ok, run_listed_eq_ok hEntries, hTag]
      constructor
      · rintro ⟨_, _, ⟨_, _, rfl⟩, hItems, rfl⟩
        exact hItems
      · intro hItems
        exact ⟨_, models, ⟨_, ⟨_, rfl, rfl⟩, rfl⟩, hItems, rfl⟩
  | _ => cases hClass

/-- The models of a bundle are those that its entries are read as. They are the ones that are read
from the entries alone exactly if each entry has the class of models. -/
theorem modelsOfJson_bundle
    (hClass : bundle.get? "$class" = some (.string (nodeClass "Models")))
    (hEntries : bundle.get? "models" = some (.array entries)) :
    (modelsOfJson bundle = .ok models ↔
      List.Forall₂ (fun entry m => readModel false entry = .ok m) entries models) ∧
    (List.Forall₂ (fun entry m => Model.ofJson entry = .ok m) entries models ↔
      modelsOfJson bundle = .ok models ∧
        ∀ entry ∈ entries, entry.get? "$class" = some (.string (nodeClass "Model"))) := by
  refine ⟨modelsOfJson_eq_ok hClass hEntries, ?_⟩
  simp only [modelsOfJson_eq_ok hClass hEntries, Model.ofJson_eq_ok]
  rw [List.forall₂_and_left, and_comm]

end

namespace Archive

/-- A model without declarations whose class is any text. -/
def entry (className : String) : Json :=
  .object [("$class", .string className), ("namespace", .string "archive@1.0.0")]

def bundle (entries : List Json) : Json :=
  .object [("$class", .string (nodeClass "Models")), ("models", .array entries)]

def model (className : String) : Model := ⟨className, "archive@1.0.0", none, [], [], []⟩

/-- A model with one enumeration, which knows where it came from. -/
def colours : Json :=
  .object
    [("sourceUri", .string "file:colours.cto"), ("namespace", .string "colours@1.0.0"),
     ("$class", .string (nodeClass "Model")),
     ("declarations", .array
      [.object
        [("$class", .string (nodeClass "EnumDeclaration")), ("name", .string "Colour"),
         ("properties", .array
          [.object [("$class", .string (nodeClass "EnumProperty")), ("name", .string "RED")]])]])]

def coloursModel : Model :=
  ⟨nodeClass "Model", "colours@1.0.0", some "file:colours.cto", [],
    [⟨"Colour", .enumBody [⟨"RED", .enumValue, [], none⟩], [], none⟩], []⟩

/-- A bundle of two models. -/
def entries : List Json := [entry (nodeClass "Model"), colours]

def models : List Model := [model (nodeClass "Model"), coloursModel]

end Archive

/-- Both models of the bundle are read, in its order, and both are those that are read from the
entries alone. -/
theorem modelsOfJson_archive :
    modelsOfJson (Archive.bundle Archive.entries) = .ok Archive.models ∧
    List.Forall₂ (fun entry m => Model.ofJson entry = .ok m) Archive.entries Archive.models := by
  have hRead : modelsOfJson (Archive.bundle Archive.entries) = .ok Archive.models :=
    (modelsOfJson_bundle rfl rfl).1.mpr (.cons rfl (.cons rfl .nil))
  have hClasses : ∀ entry ∈ Archive.entries,
      entry.get? "$class" = some (.string (nodeClass "Model")) := by
    intro entry hMem
    rcases List.mem_cons.mp hMem with rfl | hMem
    · rfl
    · rw [List.mem_singleton.mp hMem]
      rfl
  exact ⟨hRead, (modelsOfJson_bundle rfl rfl).2.mpr ⟨hRead, hClasses⟩⟩

/-- A bundle takes a model of another version, which is refused on its own. -/
theorem modelsOfJson_otherVersion :
    modelsOfJson (Archive.bundle [Archive.entry "concerto.metamodel@0.4.0.Model"]) =
      .ok [Archive.model "concerto.metamodel@0.4.0.Model"] ∧
    Model.ofJson (Archive.entry "concerto.metamodel@0.4.0.Model") =
      .error (.otherVersion "concerto.metamodel@0.4.0") :=
  ⟨rfl, rfl⟩

end Metamodel

end DomainModels
