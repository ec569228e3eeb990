import DomainModels.Registry.External

/-!
Runs of changes.

A session is a registry together with the mode of the change that was swapped in last. A change that
fails leaves the session as it is.
-/

namespace DomainModels

/-- A change of a registry, with what it is given. -/
inductive Change where
  | addModel (input : ModelInput)
  | addModels (inputs : List ModelInput) (disableValidation : Bool)
  | updateModel (input : ModelInput)
  | removeModel (space : String)
  | clear
  | updateExternal (source : ExternalSource)
  | addFactory (factory : DecoratorFactory)

/-- The mode in which a change builds the index: faulty declarations are left out after a model was
taken out, and where validation is disabled. -/
def Change.buildMode : Change → BuildMode
  | .removeModel _ | .addModels _ true => .lenient
  | _ => .strict

namespace Registry

/-- Makes a change. Gives the next registry, and whether its files and its index were swapped in:
they stay where a model is replaced by itself, where nothing is fetched, and for a factory. -/
def perform (r : Registry) : Change → Except Failure (Registry × Bool)
  | .addModel input => do
    let (next, _) ← r.addModel input
    return (next, true)
  | .addModels inputs disableValidation => do
    let (next, _) ← r.addModels inputs disableValidation
    return (next, true)
  | .updateModel input => do
    let (next, _, changed) ← r.updateModel input
    return (next, changed)
  | .removeModel space => do
    return (← r.removeModel space, true)
  | .clear => do
    return (← r.clear, true)
  | .updateExternal source => do
    let (next, fetched) ← (r.updateExternal source).result
    return (next, !fetched.isEmpty)
  | .addFactory factory => .ok (r.addFactory factory, false)

end Registry

/-- A registry with the mode of the change that was swapped in last. -/
structure Session where
  registry : Registry
  mode : BuildMode

namespace Session

/-- The session before the first change. -/
def initial : Session := ⟨.initial, .strict⟩

/-- The session after a change, and the failure if the change was refused. -/
def step (s : Session) (change : Change) : Session × Option Failure :=
  match s.registry.perform change with
  | .ok (next, swapped) => (⟨next, if swapped then change.buildMode else s.mode⟩, none)
  | .error failure => (s, some failure)

/-- The session after a sequence of changes, of which some may be refused. -/
def run (s : Session) (changes : List Change) : Session :=
  changes.foldl (fun s change => (s.step change).1) s

end Session

end DomainModels
