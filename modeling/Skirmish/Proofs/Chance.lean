import Skirmish.Chance
import Skirmish.Proofs.Fallible

namespace Skirmish

namespace Dice

def upcoming (d : Dice) : Nat → List Float
  | 0 => []
  | n + 1 => d.next :: d.afterDraw.upcoming n

def after (d : Dice) : Nat → Dice
  | 0 => d
  | n + 1 => d.afterDraw.after n

@[simp] theorem after_zero (d : Dice) : d.after 0 = d := rfl

theorem afterDraw_eq (d : Dice) : d.afterDraw = d.after 1 := rfl

@[simp] theorem drawn_after (d : Dice) (n : Nat) : (d.after n).drawn = d.drawn + n := by
  induction n generalizing d with
  | zero => rfl
  | succ n ih => rw [after, ih, drawn_afterDraw, Nat.add_assoc, Nat.add_comm 1]

@[simp] theorem after_after (d : Dice) (m n : Nat) : (d.after m).after n = d.after (m + n) := by
  induction m generalizing d with
  | zero => rw [after_zero, Nat.zero_add]
  | succ m ih => rw [after, ih, Nat.succ_add, after]

end Dice

inductive Dice.Later (d : Dice) : Dice → Prop
  | refl : Later d d
  | draw {d' : Dice} (h : Later d d') : Later d d'.afterDraw

namespace Chance

variable {ε α β : Type} {P : α → Prop}

section

variable {x : Roll ε α} {dice dice' : Dice}

theorem run_bind_eq_ok {f : α → Roll ε β} {b : β} (h : (x >>= f).run.run dice = (.ok b, dice')) :
    ∃ a between, x.run.run dice = (.ok a, between) ∧ (f a).run.run between = (.ok b, dice') := by
  rw [ExceptT.run_bind, StateT.run_bind] at h
  cases hfirst : x.run.run dice with
  | mk outcome between =>
    rw [hfirst] at h
    cases outcome with
    | error e => cases h
    | ok a => exact ⟨a, between, rfl, h⟩

theorem run_map_eq_ok {f : α → β} {b : β} (h : (f <$> x).run.run dice = (.ok b, dice')) :
    ∃ a, x.run.run dice = (.ok a, dice') ∧ f a = b := by
  rw [map_eq_pure_bind] at h
  obtain ⟨a, between, hx, h⟩ := run_bind_eq_ok h
  cases h
  exact ⟨a, hx, rfl⟩

theorem run_map_of_ok {f : α → β} {a : α} (h : x.run.run dice = (.ok a, dice')) :
    (f <$> x).run.run dice = (.ok (f a), dice') := by
  rw [map_eq_pure_bind, ExceptT.run_bind, StateT.run_bind, h]
  rfl

theorem run_lift_eq_ok {x : Except ε α} {a : α}
    (h : (liftM x : Roll ε α).run.run dice = (.ok a, dice')) : x = .ok a ∧ dice' = dice := by
  cases x with
  | error e => cases h
  | ok b =>
    cases h
    exact ⟨rfl, rfl⟩

theorem run_adapt_eq_ok {ε' : Type} {f : ε → ε'} {a : α}
    (h : (ExceptT.adapt f x).run.run dice = (.ok a, dice')) : x.run.run dice = (.ok a, dice') := by
  rw [ExceptT.run_adapt, StateT.run_map] at h
  cases hrun : x.run.run dice with
  | mk outcome between =>
    rw [hrun] at h
    cases outcome with
    | error e => cases h
    | ok b =>
      cases h
      rfl

theorem exists_run_eq_ok {f : α → β} {b : β} (h : (x.run.run dice).1.toOption.map f = some b) :
    ∃ a dice', x.run.run dice = (.ok a, dice') ∧ f a = b := by
  obtain ⟨a, ha, hb⟩ := Fallible.exists_eq_ok_and h
  exact ⟨a, (x.run.run dice).2, Prod.ext ha rfl, hb⟩

end

def Yields (x : Roll ε α) (P : α → Prop) : Prop :=
  ∀ dice a dice', x.run.run dice = (.ok a, dice') → P a

theorem yields_true (x : Roll ε α) : Yields x fun _ => True := fun _ _ _ _ => trivial

theorem yields_outcome (x : Roll ε α) :
    Yields x fun a => ∃ dice dice', x.run.run dice = (.ok a, dice') :=
  fun dice _ dice' hrun => ⟨dice, dice', hrun⟩

theorem yields_pure {a : α} (h : P a) : Yields (pure a : Roll ε α) P := by
  intro dice a' dice' hrun
  cases hrun
  exact h

theorem yields_lift {x : Except ε α} (h : ∀ a, x = .ok a → P a) :
    Yields (liftM x : Roll ε α) P := by
  intro dice a dice' hrun
  exact h a (run_lift_eq_ok hrun).1

theorem Yields.mono {x : Roll ε α} {Q : α → Prop} (hx : Yields x P) (h : ∀ a, P a → Q a) :
    Yields x Q :=
  fun dice a dice' hrun => h a (hx dice a dice' hrun)

theorem Yields.and {x : Roll ε α} {Q : α → Prop} (hP : Yields x P) (hQ : Yields x Q) :
    Yields x fun a => P a ∧ Q a :=
  fun dice a dice' hrun => ⟨hP dice a dice' hrun, hQ dice a dice' hrun⟩

theorem Yields.adapt {ε' : Type} {x : Roll ε α} (hx : Yields x P) (f : ε → ε') :
    Yields (ExceptT.adapt f x) P :=
  fun dice a dice' hrun => hx dice a dice' (run_adapt_eq_ok hrun)

theorem Yields.bind {x : Roll ε α} {f : α → Roll ε β} {R : β → Prop} (hx : Yields x P)
    (hf : ∀ a, P a → Yields (f a) R) : Yields (x >>= f) R := by
  intro dice b dice' hrun
  obtain ⟨a, between, hfirst, hrun⟩ := run_bind_eq_ok hrun
  exact hf a (hx dice a between hfirst) between b dice' hrun

section

variable {σ : Type} {S S' : σ → Prop} {Q : α → Prop} {R : β → Prop}

/-- A success yields what is said of it, and a failure leaves behind what is said of that. -/
def Ends (S : σ → Prop) (Q : α → Prop) (x : Roll (Halt ε σ) α) : Prop :=
  ∀ dice, Fallible.Ends S Q (x.run.run dice).1

theorem Ends.yields {x : Roll (Halt ε σ) α} (hx : Ends S Q x) : Yields x Q := by
  intro dice a dice' hrun
  exact (hx dice).of_eq_ok (congrArg Prod.fst hrun)

theorem ends_pure {a : α} (h : Q a) : Ends S Q (pure a : Roll (Halt ε σ) α) := fun _ => h

theorem ends_lift {x : Except (Halt ε σ) α} (h : Fallible.Ends S Q x) :
    Ends S Q (liftM x : Roll (Halt ε σ) α) := by
  intro dice
  cases x <;> exact h

theorem Ends.bind {x : Roll (Halt ε σ) α} {f : α → Roll (Halt ε σ) β} (hx : Ends S Q x)
    (hf : ∀ a, Q a → Ends S R (f a)) : Ends S R (x >>= f) := by
  intro dice
  have hfirst := hx dice
  rw [ExceptT.run_bind, StateT.run_bind]
  cases hrun : x.run.run dice with
  | mk outcome between =>
    rw [hrun] at hfirst
    cases outcome with
    | error h => exact hfirst
    | ok a => exact hf a hfirst between

theorem ends_adapt {x : Roll ε α} {s : σ} (hs : S s) (hx : Yields x Q) :
    Ends S Q (ExceptT.adapt (fun e => (⟨e, s⟩ : Halt ε σ)) x) := by
  intro dice
  rw [ExceptT.run_adapt, StateT.run_map]
  cases hrun : x.run.run dice with
  | mk outcome between =>
    cases outcome with
    | error e => exact hs
    | ok a => exact hx dice a between hrun

end

/-- What a computation comes to on dice that are later than others, and so leaves them. -/
def Draws (d : Dice) (x : Roll ε α) (P : α → Prop) : Prop :=
  ∀ dice a dice', d.Later dice → x.run.run dice = (.ok a, dice') → P a ∧ d.Later dice'

variable {d : Dice}

theorem draws_pure {a : α} (h : P a) : Draws d (pure a : Roll ε α) P := by
  intro dice a' dice' hlater hrun
  cases hrun
  exact ⟨h, hlater⟩

theorem draws_lift {x : Except ε α} (h : ∀ a, x = .ok a → P a) :
    Draws d (liftM x : Roll ε α) P := by
  intro dice a dice' hlater hrun
  obtain ⟨ha, rfl⟩ := run_lift_eq_ok hrun
  exact ⟨h a ha, hlater⟩

theorem draws_unit : Draws d (unit : Roll ε Float) fun _ => True := by
  intro dice a dice' hlater hrun
  cases hrun
  exact ⟨trivial, hlater.draw⟩

theorem Draws.adapt {ε' : Type} {x : Roll ε α} (hx : Draws d x P) (f : ε → ε') :
    Draws d (ExceptT.adapt f x) P :=
  fun dice a dice' hlater hrun => hx dice a dice' hlater (run_adapt_eq_ok hrun)

theorem Draws.bind {x : Roll ε α} {f : α → Roll ε β} {R : β → Prop} (hx : Draws d x P)
    (hf : ∀ a, P a → Draws d (f a) R) : Draws d (x >>= f) R := by
  intro dice b dice' hlater hrun
  obtain ⟨a, between, hfirst, hrun⟩ := run_bind_eq_ok hrun
  obtain ⟨ha, hbetween⟩ := hx dice a between hlater hfirst
  exact hf a ha between b dice' hbetween hrun

theorem Draws.outcome {x : Roll ε α} (hx : Draws d x fun _ => True) :
    Draws d x fun a => ∃ dice dice', d.Later dice ∧ x.run.run dice = (.ok a, dice') := by
  intro dice a dice' hlater hrun
  exact ⟨⟨dice, dice', hlater, hrun⟩, (hx dice a dice' hlater hrun).2⟩

def Succeeds (d : Dice) (x : Roll ε α) (P : α → Prop) : Prop :=
  ∀ dice, d.Later dice → ∃ a dice', x.run.run dice = (.ok a, dice') ∧ d.Later dice' ∧ P a

theorem succeeds_pure {a : α} (h : P a) : Succeeds d (pure a : Roll ε α) P :=
  fun dice hlater => ⟨a, dice, rfl, hlater, h⟩

theorem succeeds_lift {x : Except ε α} {a : α} (hx : x = .ok a) (h : P a) :
    Succeeds d (liftM x : Roll ε α) P := by
  subst hx
  exact fun dice hlater => ⟨a, dice, rfl, hlater, h⟩

theorem succeeds_unit : Succeeds d (unit : Roll ε Float) fun _ => True :=
  fun dice hlater => ⟨dice.next, dice.afterDraw, rfl, hlater.draw, trivial⟩

theorem Succeeds.bind {x : Roll ε α} {f : α → Roll ε β} {R : β → Prop} (hx : Succeeds d x P)
    (hf : ∀ a, P a → Succeeds d (f a) R) : Succeeds d (x >>= f) R := by
  intro dice hlater
  obtain ⟨a, between, hfirst, hbetween, ha⟩ := hx dice hlater
  obtain ⟨b, dice', hrun, hlater', hb⟩ := hf a ha between hbetween
  refine ⟨b, dice', ?_, hlater', hb⟩
  rw [ExceptT.run_bind, StateT.run_bind, hfirst]
  exact hrun

theorem Succeeds.adapt {ε' : Type} {x : Roll ε α} (f : ε → ε') (hx : Succeeds d x P) :
    Succeeds d (ExceptT.adapt f x) P := by
  intro dice hlater
  obtain ⟨a, dice', hrun, hlater', ha⟩ := hx dice hlater
  refine ⟨a, dice', ?_, hlater', ha⟩
  rw [ExceptT.run_adapt, StateT.run_map, hrun]
  rfl

section

variable {γ : Type} {R : α → β → Prop}

/-- Both have failed for the same reason, or have come to related results; the dice left are the
same. -/
inductive Matches (R : α → β → Prop) : Except ε α × Dice → Except ε β × Dice → Prop
  | ok {a : α} {b : β} (h : R a b) (dice : Dice) : Matches R (.ok a, dice) (.ok b, dice)
  | error (e : ε) (dice : Dice) : Matches R (.error e, dice) (.error e, dice)

def Parallel (R : α → β → Prop) (x : Roll ε α) (y : Roll ε β) : Prop :=
  ∀ dice, Matches R (x.run.run dice) (y.run.run dice)

theorem parallel_pure {a : α} {b : β} (h : R a b) :
    Parallel R (pure a : Roll ε α) (pure b : Roll ε β) :=
  fun dice => .ok h dice

theorem Parallel.bind {x : Roll ε γ} {f : γ → Roll ε α} {g : γ → Roll ε β}
    (h : ∀ c, Parallel R (f c) (g c)) : Parallel R (x >>= f) (x >>= g) := by
  intro dice
  rw [ExceptT.run_bind, StateT.run_bind, ExceptT.run_bind, StateT.run_bind]
  cases x.run.run dice with
  | mk outcome between =>
    cases outcome with
    | error e => exact .error e between
    | ok c => exact h c between

end

/-- Whole numbers drawn below a span of at most this size lie in it, now and later. -/
def Fair (d : Dice) (size : Nat) : Prop :=
  ∀ n : Nat, 0 < n → n ≤ size →
    Succeeds d (below (.whole n)) fun k => 0 ≤ k ∧ k < n

theorem eq_of_later_constant {x : Float} {n : Nat} {d' : Dice} (h : Dice.Later ⟨[], x, n⟩ d') :
    ∃ m, d' = ⟨[], x, m⟩ := by
  induction h with
  | refl => exact ⟨n, rfl⟩
  | draw _ ih =>
      obtain ⟨m, rfl⟩ := ih
      exact ⟨m + 1, rfl⟩

theorem fair_of_constant {x : Float} {m size : Nat}
    (h : ∀ n : Nat, 0 < n → n ≤ size → ∃ k : Int, 0 ≤ k ∧ k < n ∧
      ((Quantity.real x).mul (.whole n) >>= Quantity.floor) = .ok k) :
    Fair ⟨[], x, m⟩ size := by
  intro n hpos hsize dice hlater
  obtain ⟨m, rfl⟩ := eq_of_later_constant hlater
  obtain ⟨k, hnonneg, hlt, hk⟩ := h n hpos hsize
  have hspan : (Quantity.whole n).le 0 = false := by
    have hgt : compare (n : Int) 0 = .gt := Int.compare_eq_gt.2 (by omega)
    show ((some (compare (n : Int) 0) == some .lt) || some (compare (n : Int) 0) == some .eq) =
      false
    rw [hgt]
    rfl
  refine ⟨k, ⟨[], x, m + 1⟩, ?_, hlater.draw, hnonneg, hlt⟩
  obtain ⟨q, hmul, hfloor⟩ := Fallible.bind_eq_ok.1 hk
  rw [below, hspan]
  show (do
    let q ← liftM ((Quantity.real x).mul (.whole n))
    liftM q.floor : Roll ArithmeticError Int).run.run ⟨[], x, m + 1⟩ = _
  rw [hmul]
  show (q.floor, _) = _
  rw [hfloor]

theorem at?_natCast {xs : List α} (i : Nat) : at? xs i = xs[i]? := by
  have h : ¬ (i : Int) < 0 := by omega
  simp [at?, h]

theorem Fair.pick {size : Nat} {xs : List α} (h : Fair d size) (hne : xs ≠ [])
    (hsize : xs.length ≤ size) : Succeeds d (pick xs) (· ∈ xs) := by
  rw [Chance.pick, if_neg (by simpa using hne)]
  refine ((h xs.length (List.length_pos_iff.2 hne) hsize).adapt _).bind fun k hk => ?_
  obtain ⟨i, rfl⟩ := Int.eq_ofNat_of_zero_le hk.1
  have hi : i < xs.length := by omega
  rw [at?_natCast, List.getElem?_eq_getElem hi]
  exact succeeds_pure (List.getElem_mem hi)

end Chance

end Skirmish
