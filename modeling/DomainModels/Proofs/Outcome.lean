/-!
Computations that may fail. A sequence of steps succeeds exactly when each of its steps does.
-/

namespace DomainModels.Outcome

variable {ε α β : Type}

@[simp]
theorem bind_eq_ok {x : Except ε α} {f : α → Except ε β} {b : β} :
    (x >>= f) = .ok b ↔ ∃ a, x = .ok a ∧ f a = .ok b := by
  cases x with
  | error e => simp [bind, Except.bind]
  | ok a => simp [bind, Except.bind]

@[simp]
theorem except_bind_eq_ok {x : Except ε α} {f : α → Except ε β} {b : β} :
    x.bind f = .ok b ↔ ∃ a, x = .ok a ∧ f a = .ok b :=
  bind_eq_ok

@[simp]
theorem map_eq_ok {x : Except ε α} {f : α → β} {b : β} :
    f <$> x = .ok b ↔ ∃ a, x = .ok a ∧ f a = b := by
  cases x with
  | error e => simp [Functor.map, Except.map]
  | ok a => simp [Functor.map, Except.map]

@[simp]
theorem pure_eq_ok {a b : α} : (pure a : Except ε α) = .ok b ↔ a = b := by
  simp [pure, Except.pure]

@[simp]
theorem throw_ne_ok {e : ε} {a : α} : (throw e : Except ε α) = .ok a ↔ False := by
  simp [throw, throwThe, MonadExceptOf.throw]

@[simp]
theorem mapError_eq_ok {ε' : Type} {x : Except ε α} {f : ε → ε'} {a : α} :
    x.mapError f = .ok a ↔ x = .ok a := by
  cases x with
  | error e =>
      constructor
      · intro h
        cases h
      · intro h
        cases h
  | ok b =>
      constructor
      · intro h
        exact congrArg _ (Except.ok.inj h)
      · intro h
        exact congrArg _ (Except.ok.inj h)

@[simp]
theorem exists_unit {p : Unit → Prop} : (∃ u, p u) ↔ p () :=
  ⟨fun ⟨_, h⟩ => h, fun h => ⟨(), h⟩⟩

/-- A pass over a list succeeds when it does at every member. -/
@[simp]
theorem forM_eq_ok {items : List α} {f : α → Except ε Unit} :
    items.forM f = .ok () ↔ ∀ a ∈ items, f a = .ok () := by
  induction items with
  | nil => simp
  | cons a rest ih =>
      rw [List.forM_eq_forM] at ih ⊢
      simp [List.forM_cons, ih]

/-- A computation that does not succeed has failed. -/
theorem exists_error_of_ne_ok {x : Except ε α} (h : ∀ a, x ≠ .ok a) : ∃ e, x = .error e := by
  cases x with
  | error e => exact ⟨e, rfl⟩
  | ok a => exact (h a rfl).elim

/-! ## Failures -/

/-- Whenever a computation fails, it is with a failure of some sort. -/
def FailsOnly (P : ε → Prop) (x : Except ε α) : Prop := ∀ e, x = .error e → P e

namespace FailsOnly

variable {P : ε → Prop}

theorem ok (a : α) : FailsOnly P (.ok a : Except ε α) := nofun

theorem error {e : ε} (h : P e) : FailsOnly P (.error e : Except ε α) := by
  rintro _ ⟨⟩
  exact h

theorem of_eq_ok {x : Except ε α} {a : α} (h : x = .ok a) : FailsOnly P x := h ▸ ok a

theorem imp {Q : ε → Prop} {x : Except ε α} (h : FailsOnly P x) (hImp : ∀ {e}, P e → Q e) :
    FailsOnly Q x := fun e hError => hImp (h e hError)

theorem bind {x : Except ε α} {f : α → Except ε β} (hFirst : FailsOnly P x)
    (hRest : ∀ a, x = .ok a → FailsOnly P (f a)) : FailsOnly P (x >>= f) := by
  cases x with
  | error e => exact error (hFirst e rfl)
  | ok a => exact hRest a rfl

theorem map {x : Except ε α} (f : α → β) (h : FailsOnly P x) : FailsOnly P (f <$> x) := by
  cases x with
  | error e => exact error (h e rfl)
  | ok a => exact ok (f a)

theorem mapError {ε' : Type} {x : Except ε' α} {f : ε' → ε} (h : ∀ e, P (f e)) :
    FailsOnly P (x.mapError f) := by
  cases x with
  | error e => exact error (h e)
  | ok a => exact ok a

theorem forM {items : List α} {f : α → Except ε Unit} (h : ∀ a ∈ items, FailsOnly P (f a)) :
    FailsOnly P (items.forM f) := by
  induction items with
  | nil => exact ok ()
  | cons a rest ih =>
      rw [List.forM_eq_forM] at ih ⊢
      rw [List.forM_cons]
      exact (h a List.mem_cons_self).bind fun _ _ =>
        ih fun b hMem => h b (List.mem_cons_of_mem _ hMem)

end FailsOnly

/-! ## Two computations -/

/-- Whatever one computation succeeds with, another one succeeds with it, too. -/
def Survives (x y : Except ε α) : Prop := ∀ a, x = .ok a → y = .ok a

namespace Survives

theorem refl (x : Except ε α) : Survives x x := fun _ h => h

/-- Nothing has to survive a failure. -/
theorem error (e : ε) (y : Except ε α) : Survives (.error e) y := nofun

theorem bind {x y : Except ε α} {f g : α → Except ε β} (hFirst : Survives x y)
    (hRest : ∀ a, Survives (f a) (g a)) : Survives (x >>= f) (y >>= g) := by
  intro b h
  obtain ⟨a, hX, hF⟩ := bind_eq_ok.mp h
  exact bind_eq_ok.mpr ⟨a, hFirst a hX, hRest a b hF⟩

/-- Both computations may begin with the same step. -/
theorem after {x : Except ε α} {f g : α → Except ε β} (hRest : ∀ a, Survives (f a) (g a)) :
    Survives (x >>= f) (x >>= g) :=
  bind (refl x) hRest

theorem map {x y : Except ε α} (f : α → β) (h : Survives x y) : Survives (f <$> x) (f <$> y) := by
  intro b hMapped
  obtain ⟨a, hX, rfl⟩ := map_eq_ok.mp hMapped
  exact map_eq_ok.mpr ⟨a, h a hX, rfl⟩

/-- A check that is made first may be left out. -/
theorem unguarded {strict lax : Bool} {check : Except ε Unit} {f g : Unit → Except ε α}
    (hLax : lax = true → strict = true) (hRest : Survives (f ()) (g ())) :
    Survives (if strict = true then check >>= f else f ())
      (if lax = true then check >>= g else g ()) := by
  cases strict with
  | true =>
      intro a h
      obtain ⟨⟨⟩, hCheck, hF⟩ := bind_eq_ok.mp h
      have hG := hRest a hF
      split
      · exact bind_eq_ok.mpr ⟨(), hCheck, hG⟩
      · exact hG
  | false =>
      cases lax with
      | true => cases hLax rfl
      | false => exact hRest

/-- A fault for which one looks may be passed over. -/
theorem unrefused {strict lax faulty : Bool} {e : ε} {x y : Except ε α}
    (hLax : lax = true → strict = true) (hRest : Survives x y) :
    Survives (if (strict && faulty) = true then .error e else x)
      (if (lax && faulty) = true then .error e else y) := by
  cases faulty with
  | false => simpa using hRest
  | true =>
      cases strict with
      | true => exact error e _
      | false =>
          cases lax with
          | true => cases hLax rfl
          | false => exact hRest

end Survives

/-- Two computations succeed with the same, or both of them fail. -/
def Agree (x y : Except ε α) : Prop := ∀ a, x = .ok a ↔ y = .ok a

namespace Agree

theorem refl (x : Except ε α) : Agree x x := fun _ => Iff.rfl

theorem symm {x y : Except ε α} (h : Agree x y) : Agree y x := fun a => (h a).symm

theorem trans {x y z : Except ε α} (hFirst : Agree x y) (hSecond : Agree y z) : Agree x z :=
  fun a => (hFirst a).trans (hSecond a)

theorem of_eq {x y : Except ε α} (h : x = y) : Agree x y := h ▸ refl x

/-- It does not matter why computations fail. -/
theorem error (e f : ε) : Agree (.error e : Except ε α) (.error f) := by simp [Agree]

theorem bind {x y : Except ε α} {f g : α → Except ε β} (hFirst : Agree x y)
    (hRest : ∀ a, x = .ok a → Agree (f a) (g a)) : Agree (x >>= f) (y >>= g) := by
  intro b
  rw [bind_eq_ok, bind_eq_ok]
  constructor
  · rintro ⟨a, hX, hF⟩
    exact ⟨a, (hFirst a).mp hX, (hRest a hX b).mp hF⟩
  · rintro ⟨a, hY, hG⟩
    have hX := (hFirst a).mpr hY
    exact ⟨a, hX, (hRest a hX b).mpr hG⟩

theorem map {x y : Except ε α} (f : α → β) (h : Agree x y) : Agree (f <$> x) (f <$> y) := by
  intro b
  rw [map_eq_ok, map_eq_ok]
  exact exists_congr fun a => and_congr_left fun _ => h a

end Agree

end DomainModels.Outcome
