import Skirmish.Halt

namespace Skirmish.Fallible

variable {ε ε' α β γ : Type}

@[simp] theorem ok_bind (a : α) (f : α → Except ε β) : (.ok a : Except ε α) >>= f = f a := rfl

@[simp] theorem error_bind (e : ε) (f : α → Except ε β) :
    (.error e : Except ε α) >>= f = .error e := rfl

@[simp] theorem pure_eq (a : α) : (pure a : Except ε α) = .ok a := rfl

@[simp] theorem map_ok (g : α → β) (a : α) : (.ok a : Except ε α).map g = .ok (g a) := rfl

theorem exists_eq_ok {x : Except ε α} (h : x.isOk = true) : ∃ a, x = .ok a := by
  cases x with
  | error e => cases h
  | ok a => exact ⟨a, rfl⟩

theorem toOption_eq_some {x : Except ε α} {a : α} : x.toOption = some a ↔ x = .ok a := by
  cases x <;> simp [Except.toOption]

theorem exists_eq_ok_and {x : Except ε α} {f : α → β} {b : β} (h : x.toOption.map f = some b) :
    ∃ a, x = .ok a ∧ f a = b := by
  cases x with
  | error e => cases h
  | ok a => exact ⟨a, rfl, Option.some.inj h⟩

theorem exists_eq_ok_bind {x : Except ε α} {f : α → Option β} {b : β}
    (h : x.toOption.bind f = some b) : ∃ a, x = .ok a ∧ f a = some b := by
  cases x with
  | error e => cases h
  | ok a => exact ⟨a, rfl, h⟩

def failure? : Except ε α → Option ε
  | .ok _ => none
  | .error e => some e

theorem eq_error_of_failure? {x : Except ε α} {e : ε} (h : failure? x = some e) :
    x = .error e := by
  cases x with
  | error e' => exact congrArg _ (Option.some.inj h)
  | ok a => cases h

theorem map_eq_ok {x : Except ε α} {f : α → β} {b : β} :
    x.map f = .ok b ↔ ∃ a, x = .ok a ∧ f a = b := by
  cases x <;> simp [Except.map]

theorem bind_eq_ok {x : Except ε α} {f : α → Except ε β} {b : β} :
    x >>= f = .ok b ↔ ∃ a, x = .ok a ∧ f a = .ok b := by
  cases x <;> simp [bind, Except.bind]

theorem bind_eq_error {x : Except ε α} {f : α → Except ε β} {e : ε} :
    x >>= f = .error e ↔ x = .error e ∨ ∃ a, x = .ok a ∧ f a = .error e := by
  cases x <;> simp [bind, Except.bind]

@[simp] theorem mapError_ok (f : ε → ε') (a : α) :
    (.ok a : Except ε α).mapError f = .ok a := rfl

theorem mapError_error (f : ε → ε') (e : ε) :
    (.error e : Except ε α).mapError f = .error (f e) := rfl

theorem mapError_bind (x : Except ε α) (f : α → Except ε β) (g : ε → ε') :
    (x >>= f).mapError g = x.mapError g >>= fun a => (f a).mapError g := by
  cases x <;> rfl

theorem mapError_eq_ok {x : Except ε α} {f : ε → ε'} {a : α} :
    x.mapError f = .ok a ↔ x = .ok a := by
  cases x <;> constructor
  all_goals
    intro h
    cases h
  rfl
  rfl

theorem mapError_eq_error {x : Except ε α} {f : ε → ε'} {e' : ε'} :
    x.mapError f = .error e' ↔ ∃ e, x = .error e ∧ f e = e' := by
  cases x <;> simp [mapError_error]

section

variable {σ : Type} {s : σ} {x : Except ε α}

@[simp] theorem leaving_ok (a : α) : leaving s (.ok a : Except ε α) = .ok a := rfl

@[simp] theorem leaving_eq_ok {a : α} : leaving s x = .ok a ↔ x = .ok a := mapError_eq_ok

theorem leaving_eq_error {h : Halt ε σ} :
    leaving s x = .error h ↔ x = .error h.cause ∧ h.left = s := by
  rw [leaving, mapError_eq_error]
  constructor
  · rintro ⟨e, he, rfl⟩
    exact ⟨he, rfl⟩
  · rintro ⟨he, rfl⟩
    exact ⟨h.cause, he, rfl⟩

end

section

variable {σ : Type} {P P' : σ → Prop} {Q Q' : α → Prop} {R : β → Prop}

/-- A success is what is said of it, and a failure leaves behind what is said of that. -/
def Ends (P : σ → Prop) (Q : α → Prop) : Except (Halt ε σ) α → Prop
  | .ok a => Q a
  | .error h => P h.left

theorem ends_true (x : Except (Halt ε σ) α) : Ends (fun _ => True) (fun _ => True) x := by
  cases x <;> trivial

theorem Ends.of_eq_ok {x : Except (Halt ε σ) α} {a : α} (hx : Ends P Q x) (h : x = .ok a) :
    Q a := by
  rw [h] at hx
  exact hx

theorem Ends.of_eq_error {x : Except (Halt ε σ) α} {halt : Halt ε σ} (hx : Ends P Q x)
    (h : x = .error halt) : P halt.left := by
  rw [h] at hx
  exact hx

theorem Ends.mono {x : Except (Halt ε σ) α} (hx : Ends P Q x) (hP : ∀ s, P s → P' s)
    (hQ : ∀ a, Q a → Q' a) : Ends P' Q' x := by
  cases x with
  | error h => exact hP h.left hx
  | ok a => exact hQ a hx

theorem Ends.bind {x : Except (Halt ε σ) α} {f : α → Except (Halt ε σ) β} (hx : Ends P Q x)
    (hf : ∀ a, Q a → Ends P R (f a)) : Ends P R (x >>= f) := by
  cases x with
  | error h => exact hx
  | ok a => exact hf a hx

theorem Ends.and {x : Except (Halt ε σ) α} (hx : Ends P Q x) (hx' : Ends P' Q' x) :
    Ends (fun s => P s ∧ P' s) (fun a => Q a ∧ Q' a) x := by
  cases x with
  | error h => exact ⟨hx, hx'⟩
  | ok a => exact ⟨hx, hx'⟩

theorem ends_leaving {x : Except ε α} {s : σ} (hs : P s) :
    Ends P (fun a => x = .ok a) (leaving s x) := by
  cases x with
  | error e => exact hs
  | ok a => exact rfl

theorem ends_mapError {τ : Type} {x : Except (Halt ε' τ) α} {f : Halt ε' τ → Halt ε σ}
    {P' : τ → Prop} (hx : Ends P' Q x) (hf : ∀ h, P' h.left → P (f h).left) :
    Ends P Q (x.mapError f) := by
  cases x with
  | error h => exact hf h hx
  | ok a => exact hx

end

def FailsWith {σ : Type} (x : Except (Halt ε σ) α) (e : ε) : Prop := ∃ left, x = .error ⟨e, left⟩

section

variable {σ : Type} {s : σ} {e : ε}

theorem not_failsWith_ok (a : α) : ¬ FailsWith (.ok a : Except (Halt ε σ) α) e := by
  rintro ⟨left, ⟨⟩⟩

theorem failsWith_of_failure? {x : Except (Halt ε σ) α} (h : (failure? x).map Halt.cause = some e) :
    FailsWith x e := by
  obtain ⟨⟨cause, left⟩, hx, rfl⟩ := Option.map_eq_some_iff.1 h
  exact ⟨left, eq_error_of_failure? hx⟩

theorem failsWith_leaving {x : Except ε α} : FailsWith (leaving s x) e ↔ x = .error e := by
  simp [FailsWith, leaving_eq_error]

theorem failsWith_bind {x : Except (Halt ε σ) α} {f : α → Except (Halt ε σ) β} :
    FailsWith (x >>= f) e ↔ FailsWith x e ∨ ∃ a, x = .ok a ∧ FailsWith (f a) e := by
  simp only [FailsWith, bind_eq_error, exists_or]
  refine or_congr_right ⟨?_, ?_⟩
  · rintro ⟨left, a, ha, h⟩
    exact ⟨a, ha, left, h⟩
  · rintro ⟨a, ha, left, h⟩
    exact ⟨left, a, ha, h⟩

end

/-- Where the one succeeds, so does the other, with what is made of the result. -/
def Carries (g : α → β) (x : Except ε α) (y : Except ε' β) : Prop := ∀ a, x = .ok a → y = .ok (g a)

namespace Carries

variable {g : α → β}

theorem ok {a : α} : Carries g (.ok a : Except ε α) (.ok (g a) : Except ε' β) := by
  intro a' h
  rw [Except.ok.inj h]

theorem error {e : ε} {y : Except ε' β} : Carries g (.error e) y := by
  intro a h
  cases h

theorem refl (x : Except ε α) : Carries id x x := fun _ h => h

theorem trans {z : Except ε γ} {g' : β → γ} {x : Except ε α} {y : Except ε' β} (h : Carries g x y)
    (h' : Carries g' y z) : Carries (g' ∘ g) x z :=
  fun a hx => h' (g a) (h a hx)

theorem bind {δ : Type} {x : Except ε α} {y : Except ε' β} {f : α → Except ε γ}
    {f' : β → Except ε' δ} {g' : γ → δ} (h : Carries g x y)
    (hf : ∀ a, Carries g' (f a) (f' (g a))) :
    Carries g' (x >>= f) (y >>= f') := by
  intro c hc
  obtain ⟨a, ha, hc⟩ := bind_eq_ok.1 hc
  rw [h a ha, ok_bind]
  exact hf a c hc

end Carries

theorem carries_mapError {ε₀ : Type} {x : Except ε₀ α} {f : ε₀ → ε} {f' : ε₀ → ε'} :
    Carries id (x.mapError f) (x.mapError f') := by
  intro a h
  rw [mapError_eq_ok.1 h]
  rfl

theorem carries_leaving {σ τ : Type} {s : σ} {s' : τ} {x : Except ε α} :
    Carries id (leaving s x) (leaving s' x) :=
  carries_mapError

def FailsOnly (P : ε → Prop) (x : Except ε α) : Prop := ∀ e, x = .error e → P e

namespace FailsOnly

variable {P : ε → Prop}

theorem ok (a : α) : FailsOnly P (.ok a : Except ε α) := by
  intro e h
  cases h

theorem bind {x : Except ε α} {f : α → Except ε β} (hx : FailsOnly P x)
    (hf : ∀ a, x = .ok a → FailsOnly P (f a)) : FailsOnly P (x >>= f) := by
  intro e h
  rcases bind_eq_error.1 h with h | ⟨a, ha, h⟩
  · exact hx e h
  · exact hf a ha e h

theorem mapError {x : Except ε α} {f : ε → ε'} {Q : ε' → Prop} (hx : FailsOnly P x)
    (hPQ : ∀ e, P e → Q (f e)) : FailsOnly Q (x.mapError f) := by
  intro e' h
  obtain ⟨e, he, rfl⟩ := mapError_eq_error.1 h
  exact hPQ e (hx e he)

theorem leaving {σ : Type} {s : σ} {x : Except ε α} (hx : FailsOnly P x) :
    FailsOnly (fun h => P h.cause) (leaving s x) :=
  hx.mapError fun _ he => he

theorem not_failsWith {σ : Type} {x : Except (Halt ε σ) α} {e : ε}
    (hx : FailsOnly (fun h => P h.cause) x) (he : ¬ P e) : ¬ FailsWith x e := by
  rintro ⟨left, h⟩
  exact he (hx _ h)

end FailsOnly

end Skirmish.Fallible
