import DomainModels.Index.Property

/-!
Resolving classes.

A class is resolved after its super type, whose properties it inherits. What has come of a class is
kept, so that each class is resolved once. The classes that wait for their super types are kept in
a list, so that a class that would wait for itself is refused; since the list only holds declared
classes and each of them once, the resolution ends.
-/

namespace DomainModels

namespace ModelFiles

/-- The fully-qualified names of all declarations. -/
def names (files : ModelFiles) : List String :=
  files.flatMap fun (space, file) => file.declarations.map fun d => qualify space d.name

/-- What is found was declared. -/
theorem mem_names_of_find? {files : ModelFiles} {fqn : String} {found : ModelFile × Declaration}
    (hFound : find? files fqn = some found) : fqn ∈ names files := by
  unfold find? at hFound
  simp only [Option.bind_eq_bind, Option.bind_eq_some_iff] at hFound
  obtain ⟨⟨space, name⟩, hSplit, file, hFile, d, hDecl, -⟩ := hFound
  rw [← qualify_of_splitQualified hSplit]
  have hMem : (space, file) ∈ files := by
    simp only [Table.find?] at hFile
    clear hSplit hDecl
    induction files with
    | nil => simp at hFile
    | cons entry rest ih =>
      obtain ⟨first, other⟩ := entry
      have := Table.find?_cons first space other rest
      simp only [Table.find?] at this
      rw [this] at hFile
      split at hFile
      · rename_i h
        simp_all
      · exact List.mem_cons_of_mem _ (ih hFile)
  simp only [names, List.mem_flatMap, List.mem_map]
  refine ⟨(space, file), hMem, d, List.mem_of_find?_eq_some hDecl, ?_⟩
  have := List.find?_some hDecl
  simp only [decide_eq_true_eq] at this
  rw [this]

/-- How many declared names are not in a list. -/
def outside (files : ModelFiles) (waiting : List String) : Nat :=
  (names files).countP (!waiting.contains ·)

/-- Fewer names are outside of a list after a declared name has joined it. -/
theorem outside_append_lt {files : ModelFiles} {waiting : List String} {fqn : String}
    (hMem : fqn ∈ names files) (hNew : fqn ∉ waiting) :
    outside files (waiting ++ [fqn]) < outside files waiting := by
  unfold outside
  generalize names files = all at hMem ⊢
  have hLe (l : List String) :
      l.countP (!(waiting ++ [fqn]).contains ·) ≤ l.countP (!waiting.contains ·) :=
    List.countP_mono_left (by
      intro x _ hx
      simp_all)
  induction all with
  | nil => simp at hMem
  | cons first rest ih =>
    simp only [List.countP_cons]
    by_cases h : first = fqn
    · subst h
      have := hLe rest
      simp [hNew]
      simp at this
      omega
    · have hRest : fqn ∈ rest := by
        rcases List.mem_cons.1 hMem with hEq | hIn
        · exact absurd hEq.symm h
        · exact hIn
      have := ih hRest
      have hSame : (!(waiting ++ [fqn]).contains first) = (!waiting.contains first) := by
        simp [h]
      rw [hSame]
      omega

end ModelFiles

namespace ClassBody

/-- A property that the system adds to a class. -/
def systemProperty (name : String) (type : PrimitiveType) (owner : String) : ResolvedProperty :=
  { property := ⟨name, .value (.plain type), false, false, [], none⟩
    owner, type := .value (.plain type) }

/-- Resolves the declared properties, whose names have to differ from each other and from
`seen`. Only root classes may use reserved names. -/
def resolveOwn (files : ModelFiles) (file : ModelFile) (d : Declaration) (seen : List String) :
    List Property → Except Failure (List ResolvedProperty)
  | [] => .ok []
  | p :: rest => do
    if isSystemName p.name ∧ d.space ≠ rootNamespace then
      throw (file.illegal d.location (.reservedField p.name d.name))
    if seen.contains p.name then
      throw (file.illegal d.location (.duplicateField d.name p.name))
    let resolved ← file.resolveProperty files d.fqn p
    return resolved :: (← resolveOwn files file d (p.name :: seen) rest)

/-- The properties that the system adds, unless they are inherited. -/
def systemProperties (body : ClassBody) (fqn : String) (inherited : List ResolvedProperty) :
    List ResolvedProperty :=
  let inherits (name : String) : Bool := inherited.any (·.name = name)
  let identifier :=
    if body.identified = some .system ∧ !inherits identifierField then
      [systemProperty identifierField .string fqn]
    else []
  let timestamp :=
    if body.kind.isTimestamped ∧ !inherits timestampField then
      [systemProperty timestampField .dateTime fqn]
    else []
  identifier ++ timestamp

/-- No property may bear the name of an inherited one. -/
def checkInherited (file : ModelFile) (d : Declaration) (inherited : List ResolvedProperty)
    (p : ResolvedProperty) : Except Failure Unit :=
  match inherited.find? (·.name = p.name) with
  | some existing => .error (file.illegal d.location (.inheritedField p.name d.name existing.owner))
  | none => .ok ()

/-- The field that identifies a class has to be a text that is required and no array. -/
def checkIdentifier (file : ModelFile) (d : Declaration) (properties : List ResolvedProperty)
    (name : String) : Except Failure Unit := do
  match properties.find? (·.name = name) with
  | none => throw (file.illegal d.location (.missingIdentifier d.name name))
  | some p =>
    match p.type.value? with
    | some (.string ..) =>
      if p.isOptional then throw (file.illegal d.location (.optionalIdentifier name d.name))
      if p.isArray then throw (file.illegal d.location (.arrayIdentifier name d.name))
    | _ => throw (file.illegal d.location (.identifierNoText d.name name))

/-- The super type of a class: the one that is written, or the root class of its kind. Root classes
need none. -/
def resolveSuper (files : ModelFiles) (file : ModelFile) (d : Declaration) (body : ClassBody) :
    Except Failure (Option String) :=
  match body.superType with
  | some type => do
    let target ← file.resolveOrFail files type
    if target = d.fqn then
      if d.space = rootNamespace then return none
      else throw (file.illegal d.location (.extendsItself d.name))
    else return some target
  | none => .ok (if d.space = rootNamespace then none else some body.kind.rootClass)

/-- A class extends a class of its own kind, or the root class of all concepts. -/
def checkSuper (files : ModelFiles) (file : ModelFile) (d : Declaration) (body : ClassBody)
    (superType : String) : Except Failure Unit :=
  match ModelFiles.find? files superType with
  | none => .error (.missing superType (.noSuper superType d.fqn))
  | some (_, parent) =>
    match parent.class? with
    | none => .error (file.illegal d.location (.extendsNoClass d.name superType parent.kind))
    | some parentBody =>
      if parentBody.kind ≠ body.kind ∧ superType ≠ ClassKind.concept.rootClass then
        .error (file.illegal d.location
          (.extendsOtherKind body.kind d.name parentBody.kind superType))
      else .ok ()

/-- The super type of a class, if it is one that the class can extend. -/
def superOf (files : ModelFiles) (file : ModelFile) (d : Declaration) (body : ClassBody) :
    Except Failure (Option String) := do
  let superType ← body.resolveSuper files file d
  if let some target := superType then body.checkSuper files file d target
  return superType

/-- The owner of an inherited identifier that may not be replaced. -/
def fixesIdentifier (parent : Option ResolvedClass) : Bool :=
  match parent.bind (·.identifierOwner) with
  | some owner => !isRootType owner
  | none => false

/-- The properties that a class has from its super type. -/
def inheritedFrom (parent : Option ResolvedClass) : List ResolvedProperty :=
  (parent.map (·.properties)).getD []

/-- The class of a declaration whose properties are resolved. -/
def assemble (d : Declaration) (body : ClassBody) (parent : Option ResolvedClass)
    (declared : List ResolvedProperty) : ResolvedClass where
  fqn := d.fqn
  name := d.name
  space := d.space
  kind := body.kind
  isAbstract := body.isAbstract
  superType := parent.map (·.fqn)
  properties :=
    declared ++ body.systemProperties d.fqn (inheritedFrom parent) ++ inheritedFrom parent
  identifier := match body.identified with
    | some .system => some identifierField
    | some (.by name) => some name
    | none => parent.bind (·.identifier)
  identifierOwner :=
    if body.identified.isSome then some d.fqn else parent.bind (·.identifierOwner)
  decorators := d.decorators

/-- Resolves a class whose super type is resolved. -/
def resolve (files : ModelFiles) (file : ModelFile) (d : Declaration) (body : ClassBody)
    (parent : Option ResolvedClass) : Except Failure ResolvedClass := do
  let inherited := inheritedFrom parent
  if body.identified.isSome ∧ fixesIdentifier parent then
    throw (file.illegal d.location .overriddenIdentifier)
  let declared ← resolveOwn files file d [] body.properties
  let own := declared ++ body.systemProperties d.fqn inherited
  own.forM (checkInherited file d inherited)
  let c := body.assemble d parent declared
  if let some (.by name) := body.identified then checkIdentifier file d c.properties name
  return c

end ClassBody

namespace ModelFiles

/-- The class of a name, with its declaration and its file. -/
def findClass (files : ModelFiles) (fqn : String) :
    Except Failure (ModelFile × Declaration × ClassBody) :=
  match find? files fqn with
  | none => .error (.missing fqn (.undeclaredType fqn))
  | some (file, d) =>
    match d.class? with
    | some body => .ok (file, d, body)
    | none => .error (.illegalAnywhere (.notAClass fqn d.kind))

/-- A class that is found was declared. -/
theorem mem_names_of_findClass {files : ModelFiles} {fqn : String}
    {found : ModelFile × Declaration × ClassBody} (hFound : findClass files fqn = .ok found) :
    fqn ∈ names files := by
  unfold findClass at hFound
  split at hFound
  · simp at hFound
  · rename_i hFind
    exact mem_names_of_find? hFind

/-- What has come of the classes that were resolved so far, by their names. -/
abbrev Findings : Type := List (String × Except Failure ResolvedClass)

/-- Resolves the class of a name, for which the classes of the list are waiting. Gives what is known
afterwards, too. -/
def resolveClass (files : ModelFiles) (waiting : List String) (fqn : String) (known : Findings) :
    Except Failure ResolvedClass × Findings :=
  match known.lookup fqn with
  | some result => (result, known)
  | none =>
    if _ : fqn ∈ waiting then
      let cycle := waiting.dropWhile (· ≠ fqn) ++ [fqn]
      (.error (.illegalAnywhere (.inheritanceCycle cycle)), known)
    else
      match _ : findClass files fqn with
      | .error failure => (.error failure, known)
      | .ok (file, d, body) =>
        let (result, known) := match body.superOf files file d with
          | .error failure => (.error failure, known)
          | .ok none => (body.resolve files file d none, known)
          | .ok (some superType) =>
            let (parent, known) := resolveClass files (waiting ++ [fqn]) superType known
            (parent.bind fun p => body.resolve files file d (some p), known)
        (result, (fqn, result) :: known)
termination_by outside files waiting
decreasing_by
  exact outside_append_lt (mem_names_of_findClass ‹findClass files fqn = .ok _›) ‹fqn ∉ waiting›

end ModelFiles

end DomainModels
