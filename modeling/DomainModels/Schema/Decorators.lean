import DomainModels.Metamodel.Basic

/-!
Where decorators stand, and the types that they refer to.
-/

namespace DomainModels

/-- The element that a decorator is attached to: a model, a declaration of it, or a property of a
declaration. -/
structure DecoratorTarget where
  space : String
  declaration : Option String
  property : Option String
  deriving DecidableEq, Repr

namespace DecoratorTarget

/-- A whole model. -/
def ofModel (space : String) : DecoratorTarget := ⟨space, none, none⟩

/-- A declaration of a model. -/
def ofDeclaration (space declaration : String) : DecoratorTarget := ⟨space, some declaration, none⟩

/-- A property, or an enumeration's value, of a declaration. -/
def ofProperty (space declaration property : String) : DecoratorTarget :=
  ⟨space, some declaration, some property⟩

/-- The names from the namespace inwards, joined by points. -/
def render (t : DecoratorTarget) : String :=
  ".".intercalate (t.space :: t.declaration.toList ++ t.property.toList)

end DecoratorTarget

/-- The types that the arguments of a decorator refer to. -/
def Metamodel.Decorator.references (d : Metamodel.Decorator) : List Metamodel.TypeName :=
  d.arguments.filterMap fun
    | .typeReference type _ => some type
    | _ => none

end DomainModels
