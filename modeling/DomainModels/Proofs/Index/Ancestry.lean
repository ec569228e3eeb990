import DomainModels.Index.Class
import DomainModels.Proofs.Outcome
import Mathlib.Logic.Relation

/-!
What a class is resolved to, as a recursion over its super types.

`Resolves` says it without a memory, a list of waiting classes or an order of visits: a class is
resolved with what its super type is resolved to. The search of the index is proved to compute it,
whatever it has visited before.
-/

namespace DomainModels.ModelFiles

open Relation (TransGen ReflTransGen)

variable {files : ModelFiles} {fqn : String}

/-- The resolution of a class needs that of another one. -/
def Needs (files : ModelFiles) (fqn superType : String) : Prop :=
  ∃ file d body, findClass files fqn = .ok (file, d, body) ∧
    body.superOf files file d = .ok (some superType)

/-- What the class of a name is resolved to. -/
inductive Resolves (files : ModelFiles) : String → ResolvedClass → Prop where
  | base {fqn : String} {file : ModelFile} {d : Declaration} {body : ClassBody} {c : ResolvedClass}
      (hFound : findClass files fqn = .ok (file, d, body))
      (hSuper : body.superOf files file d = .ok none)
      (hResolved : body.resolve files file d none = .ok c) : Resolves files fqn c
  | sub {fqn superType : String} {file : ModelFile} {d : Declaration} {body : ClassBody}
      {parent c : ResolvedClass} (hFound : findClass files fqn = .ok (file, d, body))
      (hSuper : body.superOf files file d = .ok (some superType))
      (hParent : Resolves files superType parent)
      (hResolved : body.resolve files file d (some parent) = .ok c) : Resolves files fqn c

/-- A class needs at most one other class. -/
theorem Needs.unique {a b : String} (hA : Needs files fqn a) (hB : Needs files fqn b) : a = b := by
  obtain ⟨file, d, body, hFound, hSuper⟩ := hA
  obtain ⟨_, _, _, hFound', hSuper'⟩ := hB
  rw [hFound] at hFound'
  cases hFound'
  rw [hSuper] at hSuper'
  cases hSuper'
  rfl

/-! ## The recursion -/

/-- A name that declares no class is not resolved. -/
theorem not_resolves_of_missing {failure : Failure} {c : ResolvedClass}
    (hMissing : findClass files fqn = .error failure) : ¬ Resolves files fqn c := by
  intro hResolves
  cases hResolves with
  | base hFound => simp [hMissing] at hFound
  | sub hFound => simp [hMissing] at hFound

section
variable {file : ModelFile} {d : Declaration} {body : ClassBody} {c : ResolvedClass}

/-- Neither is a class whose super type cannot be extended. -/
theorem not_resolves_of_faulty_super {failure : Failure}
    (hFound : findClass files fqn = .ok (file, d, body))
    (hSuper : body.superOf files file d = .error failure) : ¬ Resolves files fqn c := by
  intro hResolves
  cases hResolves with
  | base hFound' hSuper' | sub hFound' hSuper' =>
    rw [hFound] at hFound'
    cases hFound'
    simp [hSuper] at hSuper'

theorem resolves_iff_of_no_super (hFound : findClass files fqn = .ok (file, d, body))
    (hSuper : body.superOf files file d = .ok none) :
    Resolves files fqn c ↔ body.resolve files file d none = .ok c := by
  constructor
  · intro hResolves
    cases hResolves with
    | base hFound' hSuper' hResolved =>
      rw [hFound] at hFound'
      cases hFound'
      exact hResolved
    | sub hFound' hSuper' =>
      rw [hFound] at hFound'
      cases hFound'
      simp [hSuper] at hSuper'
  · exact .base hFound hSuper

theorem resolves_iff_of_super {superType : String}
    (hFound : findClass files fqn = .ok (file, d, body))
    (hSuper : body.superOf files file d = .ok (some superType)) :
    Resolves files fqn c ↔
      ∃ parent, Resolves files superType parent ∧
        body.resolve files file d (some parent) = .ok c := by
  constructor
  · intro hResolves
    cases hResolves with
    | base hFound' hSuper' =>
      rw [hFound] at hFound'
      cases hFound'
      simp [hSuper] at hSuper'
    | sub hFound' hSuper' hParent hResolved =>
      rw [hFound] at hFound'
      cases hFound'
      rw [hSuper] at hSuper'
      cases hSuper'
      exact ⟨_, hParent, hResolved⟩
  · rintro ⟨parent, hParent, hResolved⟩
    exact .sub hFound hSuper hParent hResolved

end

/-- A class is resolved in one way. -/
theorem Resolves.unique {a b : ResolvedClass} (hA : Resolves files fqn a)
    (hB : Resolves files fqn b) : a = b := by
  induction hA generalizing b with
  | base hFound hSuper hResolved =>
      rw [resolves_iff_of_no_super hFound hSuper, hResolved] at hB
      exact Except.ok.inj hB
  | sub hFound hSuper _ hResolved ih =>
      obtain ⟨parent, hParent, hResolved'⟩ := (resolves_iff_of_super hFound hSuper).mp hB
      rw [← ih hParent, hResolved] at hResolved'
      exact Except.ok.inj hResolved'

/-- What a resolved class needs is resolved, too. -/
theorem Resolves.needs {superType : String} {c : ResolvedClass} (hResolves : Resolves files fqn c)
    (hNeeds : Needs files fqn superType) : ∃ parent, Resolves files superType parent := by
  obtain ⟨file, d, body, hFound, hSuper⟩ := hNeeds
  obtain ⟨parent, hParent, _⟩ := (resolves_iff_of_super hFound hSuper).mp hResolves
  exact ⟨parent, hParent⟩

/-- No resolved class needs itself, directly or through others. -/
theorem Resolves.not_cyclic {c : ResolvedClass} (hResolves : Resolves files fqn c) :
    ¬ TransGen (Needs files) fqn fqn := by
  induction hResolves with
  | base hFound hSuper _ =>
      intro hCycle
      obtain ⟨_, ⟨_, _, _, hFound', hSuper'⟩, _⟩ := TransGen.head'_iff.mp hCycle
      rw [hFound] at hFound'
      cases hFound'
      simp [hSuper] at hSuper'
  | sub hFound hSuper _ _ ih =>
      intro hCycle
      have hNeeds : Needs files _ _ := ⟨_, _, _, hFound, hSuper⟩
      obtain ⟨_, hFirst, hRest⟩ := TransGen.head'_iff.mp hCycle
      rw [hFirst.unique hNeeds] at hRest
      exact ih (TransGen.tail' hRest hNeeds)

/-! ## The search -/

/-- What is kept of the classes that were visited is right. -/
def Agrees (files : ModelFiles) (known : Findings) : Prop :=
  ∀ name outcome, known.lookup name = some outcome →
    ∀ c, outcome = .ok c ↔ Resolves files name c

theorem agrees_nil : Agrees files [] := by
  intro name outcome hFound
  simp at hFound

theorem Agrees.cons {known : Findings} {outcome : Except Failure ResolvedClass}
    (hKnown : Agrees files known) (hOutcome : ∀ c, outcome = .ok c ↔ Resolves files fqn c) :
    Agrees files ((fqn, outcome) :: known) := by
  intro name found hFound
  rw [List.lookup_cons] at hFound
  split at hFound
  · rename_i hSame
    cases hFound
    rw [beq_iff_eq.mp hSame]
    exact hOutcome
  · exact hKnown name found hFound

/-- The search gives what a class is resolved to, from any right memory, as long as all waiting
classes wait for it. What it keeps is right again. -/
theorem resolveClass_spec {waiting : List String} {known : Findings} (hKnown : Agrees files known)
    (hWaiting : ∀ name ∈ waiting, TransGen (Needs files) name fqn) :
    (∀ c, (resolveClass files waiting fqn known).1 = .ok c ↔ Resolves files fqn c) ∧
      Agrees files (resolveClass files waiting fqn known).2 := by
  fun_induction resolveClass files waiting fqn known with
  | case1 waiting fqn outcome hFound => exact ⟨hKnown fqn outcome hFound, hKnown⟩
  | case2 waiting fqn _ hMem =>
      refine ⟨fun c => ⟨fun hAbsurd => ?_, fun hResolves => ?_⟩, hKnown⟩
      · cases hAbsurd
      · exact (hResolves.not_cyclic (hWaiting fqn hMem)).elim
  | case3 waiting fqn _ _ failure hMissing =>
      refine ⟨fun c => ⟨fun hAbsurd => ?_, fun hResolves => ?_⟩, hKnown⟩
      · cases hAbsurd
      · exact (not_resolves_of_missing hMissing hResolves).elim
  | case4 waiting fqn _ _ file d body hFound result later hResult ih =>
      have hLater : (∀ c, result = .ok c ↔ Resolves files fqn c) ∧ Agrees files later := by
        split at hResult
        · rename_i hSuper
          cases hResult
          refine ⟨fun c => ⟨fun hAbsurd => ?_, fun hResolves => ?_⟩, hKnown⟩
          · cases hAbsurd
          · exact (not_resolves_of_faulty_super hFound hSuper hResolves).elim
        · rename_i hSuper
          cases hResult
          exact ⟨fun c => (resolves_iff_of_no_super hFound hSuper).symm, hKnown⟩
        · rename_i superType hSuper
          have hNeeds : Needs files fqn superType := ⟨file, d, body, hFound, hSuper⟩
          -- Whoever waits for this class waits for its super type, and so does the class itself.
          obtain ⟨hParent, hAgrees⟩ := ih superType (by
            intro name hMem
            rcases List.mem_append.mp hMem with hMem | hMem
            · exact (hWaiting name hMem).tail hNeeds
            · exact List.mem_singleton.mp hMem ▸ .single hNeeds)
          cases hResult
          refine ⟨fun c => ?_, hAgrees⟩
          simp only [Outcome.except_bind_eq_ok, hParent, resolves_iff_of_super hFound hSuper]
      exact ⟨hLater.1, hLater.2.cons hLater.1⟩

/-- The search for a class for which nobody waits. -/
theorem resolveClass_first {known : Findings} (hKnown : Agrees files known) (fqn : String) :
    (∀ c, (resolveClass files [] fqn known).1 = .ok c ↔ Resolves files fqn c) ∧
      Agrees files (resolveClass files [] fqn known).2 :=
  resolveClass_spec hKnown fun _ hMem => absurd hMem List.not_mem_nil

end DomainModels.ModelFiles
