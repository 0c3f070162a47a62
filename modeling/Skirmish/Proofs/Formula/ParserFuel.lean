import Skirmish.Proofs.Formula.ParserSoundness

namespace Skirmish.Formula

variable {α β : Type}

/-- The second result is the first one, unless that ran out of fuel. -/
def Upto (r s : Result α) : Prop := r = .error .tooDeep ∨ r = s

theorem Upto.refl (r : Result α) : Upto r r := .inr rfl

theorem Upto.out {s : Result α} : Upto (.error .tooDeep) s := .inl rfl

theorem Upto.trans {r s t : Result α} (hrs : Upto r s) (hst : Upto s t) : Upto r t := by
  rcases hrs with h | rfl
  · exact .inl h
  · exact hst

theorem Upto.bind {r s : Result α} {f g : α → Result β} (h : Upto r s)
    (hfg : ∀ a, Upto (f a) (g a)) : Upto (r >>= f) (s >>= g) := by
  rcases h with rfl | rfl
  · exact .out
  · cases r with
    | error e => exact .refl _
    | ok a => exact hfg a

theorem Upto.eq_of_ne {r s : Result α} (h : Upto r s) (hr : r ≠ .error .tooDeep) : s = r := by
  rcases h with h | h
  · exact absurd h hr
  · exact h.symm

structure Steady (fuel : Nat) : Prop where
  ternary (ts) : Upto (Formula.ternary fuel ts) (Formula.ternary (fuel + 1) ts)
  binary (l ts) : Upto (Formula.binary fuel l ts) (Formula.binary (fuel + 1) l ts)
  operand (l ts) : Upto (Formula.operand fuel l ts) (Formula.operand (fuel + 1) l ts)
  chain (l left ts) : Upto (Formula.chain fuel l left ts) (Formula.chain (fuel + 1) l left ts)
  unary (ts) : Upto (Formula.unary fuel ts) (Formula.unary (fuel + 1) ts)
  primary (ts) : Upto (Formula.primary fuel ts) (Formula.primary (fuel + 1) ts)
  arguments (ts) : Upto (Formula.arguments fuel ts) (Formula.arguments (fuel + 1) ts)
  moreArguments (ts) : Upto (Formula.moreArguments fuel ts) (Formula.moreArguments (fuel + 1) ts)

variable {fuel : Nat} {ts rest : List Token} {e : Expr} {es : List Expr} {l : Level}

theorem ternary_steady (ih : Steady fuel) (ts : List Token) :
    Upto (ternary (fuel + 1) ts) (ternary (fuel + 2) ts) := by
  rw [Formula.ternary, Formula.ternary]
  refine (ih.binary .or ts).bind ?_
  rintro ⟨c, r⟩
  dsimp only
  split
  · refine (ih.ternary _).bind fun t => ?_
    refine (Upto.refl _).bind fun r => ?_
    exact (ih.ternary r).bind fun f => .refl _
  · exact .refl _

theorem chain_steady (ih : Steady fuel) (l : Level) (left : Expr) (ts : List Token) :
    Upto (chain (fuel + 1) l left ts) (chain (fuel + 2) l left ts) := by
  rw [Formula.chain, Formula.chain]
  split
  · exact (ih.operand l _).bind fun r => ih.chain l _ _
  · exact .refl _

theorem operand_steady (ih : Steady fuel) (l : Level) (ts : List Token) :
    Upto (operand (fuel + 1) l ts) (operand (fuel + 2) l ts) := by
  cases l with
  | multiplicative => exact ih.unary ts
  | or | and | comparison | additive => exact ih.binary _ ts

theorem unary_steady (ih : Steady fuel) (ts : List Token) :
    Upto (unary (fuel + 1) ts) (unary (fuel + 2) ts) := by
  rw [Formula.unary, Formula.unary]
  split
  · exact (ih.unary _).bind fun e => .refl _
  · exact ih.primary ts

theorem primary_steady (ih : Steady fuel) (ts : List Token) :
    Upto (primary (fuel + 1) ts) (primary (fuel + 2) ts) := by
  rw [Formula.primary, Formula.primary]
  split
  · exact .refl _
  · split
    · exact (ih.arguments _).bind fun es => .refl _
    · exact .refl _
  · exact (ih.ternary _).bind fun e => .refl _
  · exact .refl _

theorem arguments_steady (ih : Steady fuel) (ts : List Token) :
    Upto (arguments (fuel + 1) ts) (arguments (fuel + 2) ts) := by
  rw [Formula.arguments, Formula.arguments]
  split
  · exact .refl _
  · refine (ih.ternary ts).bind fun first => ?_
    exact (ih.moreArguments _).bind fun others => .refl _

theorem moreArguments_steady (ih : Steady fuel) (ts : List Token) :
    Upto (moreArguments (fuel + 1) ts) (moreArguments (fuel + 2) ts) := by
  rw [Formula.moreArguments, Formula.moreArguments]
  split
  · refine (ih.ternary _).bind fun first => ?_
    exact (ih.moreArguments _).bind fun others => .refl _
  · exact .refl _

theorem steady (fuel : Nat) : Steady fuel := by
  induction fuel with
  | zero => constructor <;> intros <;> exact .out
  | succ fuel ih =>
      exact {
        ternary := ternary_steady ih
        binary := fun l ts => by
          rw [Formula.binary, Formula.binary]
          exact (ih.operand l ts).bind fun left => ih.chain l _ _
        operand := operand_steady ih
        chain := chain_steady ih
        unary := unary_steady ih
        primary := primary_steady ih
        arguments := arguments_steady ih
        moreArguments := moreArguments_steady ih }

theorem upto_of_le {f : Nat → Result α} (hf : ∀ n, Upto (f n) (f (n + 1))) {m n : Nat}
    (h : m ≤ n) : Upto (f m) (f n) := by
  induction n, h using Nat.le_induction with
  | base => exact .refl _
  | succ n _ ih => exact ih.trans (hf n)

def Answers (r : Result α) : Prop := r ≠ .error .tooDeep

theorem answer_unique {f : Nat → Result α} (hf : ∀ n, Upto (f n) (f (n + 1))) {m n : Nat}
    (hm : Answers (f m)) (hn : Answers (f n)) : f m = f n := by
  rcases Nat.le_total m n with hle | hle
  · exact ((upto_of_le hf hle).eq_of_ne hm).symm
  · exact (upto_of_le hf hle).eq_of_ne hn

theorem Answers.ok (a : α) : Answers (.ok a : Result α) := by simp [Answers]

theorem Answers.bind {r : Result α} {f : α → Result β} (h : Answers r)
    (hf : ∀ a, r = .ok a → Answers (f a)) : Answers (r >>= f) := by
  cases r with
  | error e => intro he; exact h (by simpa [Bind.bind, Except.bind] using he)
  | ok a => exact hf a rfl

theorem expect_answers (kind : Token.Kind) (ts : List Token) : Answers (expect kind ts) := by
  rw [expect]
  split <;> simp [Answers]

theorem Derives.ne_nil {p : Phrase} (h : Derives p ts e) : ts ≠ [] := by
  obtain ⟨t, us, rfl, -⟩ := h.starts
  simp

theorem Reads.length_lt {p : Phrase} (h : Reads p ts e rest) : rest.length < ts.length := by
  obtain ⟨front, rfl, d⟩ := h
  have hpos := List.length_pos_iff.2 d.ne_nil
  simp only [List.length_append]
  omega

theorem Reads.wellFormed {p : Phrase} (h : Reads p ts e rest) (hts : WellFormed ts) :
    WellFormed rest := by
  obtain ⟨front, rfl, -⟩ := h
  exact hts.right

theorem length_tail_lt (h : (current ts).kind ≠ .finish) : ts.tail.length + 1 = ts.length := by
  rw [eq_cons_of_kind_ne h]
  rfl

theorem expect_length {kind : Token.Kind} (hk : kind ≠ .finish) (h : expect kind ts = .ok rest) :
    rest.length < ts.length := by
  obtain ⟨t, rfl, -⟩ := expect_eq_ok hk h
  simp

theorem expect_wellFormed {kind : Token.Kind} (hk : kind ≠ .finish) (hts : WellFormed ts)
    (h : expect kind ts = .ok rest) : WellFormed rest := by
  obtain ⟨t, rfl, -⟩ := expect_eq_ok hk h
  exact fun u hu => hts u (List.mem_cons_of_mem t hu)

/-- The steps from the operand of a level down to the token that begins it. -/
def Level.descent : Level → Nat
  | or => 11
  | and => 9
  | comparison => 7
  | additive => 5
  | multiplicative => 3

/-- The tokens and the steps down to the next one bound the fuel that is needed. -/
structure Enough (fuel : Nat) : Prop where
  ternary {ts : List Token} : WellFormed ts → stepsPerToken * ts.length + 13 ≤ fuel →
    Answers (Formula.ternary fuel ts)
  binary {l : Level} {ts : List Token} : WellFormed ts →
    stepsPerToken * ts.length + l.descent + 1 ≤ fuel → Answers (Formula.binary fuel l ts)
  operand {l : Level} {ts : List Token} : WellFormed ts →
    stepsPerToken * ts.length + l.descent ≤ fuel → Answers (Formula.operand fuel l ts)
  chain {l : Level} {ts : List Token} (left : Expr) : WellFormed ts →
    stepsPerToken * ts.length + 1 ≤ fuel → Answers (Formula.chain fuel l left ts)
  unary {ts : List Token} : WellFormed ts → stepsPerToken * ts.length + 2 ≤ fuel →
    Answers (Formula.unary fuel ts)
  primary {ts : List Token} : WellFormed ts → stepsPerToken * ts.length + 1 ≤ fuel →
    Answers (Formula.primary fuel ts)
  arguments {ts : List Token} : WellFormed ts → stepsPerToken * ts.length + 14 ≤ fuel →
    Answers (Formula.arguments fuel ts)
  moreArguments {ts : List Token} : WellFormed ts → stepsPerToken * ts.length + 1 ≤ fuel →
    Answers (Formula.moreArguments fuel ts)

theorem ternary_enough (ih : Enough fuel) (hts : WellFormed ts)
    (h : stepsPerToken * ts.length + 13 ≤ fuel + 1) : Answers (ternary (fuel + 1) ts) := by
  rw [Formula.ternary]
  simp only [stepsPerToken] at h
  refine (ih.binary hts (by simp only [Level.descent, stepsPerToken]; omega)).bind ?_
  rintro ⟨c, r⟩ hc
  have hread := (sound fuel).binary hts hc
  have hlen := hread.length_lt
  have hr := hread.wellFormed hts
  dsimp only
  split
  next hq =>
    have htail : r.tail.length + 1 = r.length := length_tail_lt (by simp [hq])
    refine (ih.ternary hr.tail (by simp only [stepsPerToken]; omega)).bind ?_
    rintro ⟨t, r'⟩ ht
    have hread' := (sound fuel).ternary hr.tail ht
    have hlen' := hread'.length_lt
    refine (expect_answers _ _).bind fun r'' hcolon => ?_
    have hlen'' : r''.length < r'.length := expect_length (by simp) hcolon
    have hr'' := expect_wellFormed (by simp) (hread'.wellFormed hr.tail) hcolon
    exact (ih.ternary hr'' (by simp only [stepsPerToken]; omega)).bind fun f _ => .ok _
  next => exact .ok _

theorem operand_enough (ih : Enough fuel) (hts : WellFormed ts)
    (h : stepsPerToken * ts.length + l.descent ≤ fuel + 1) :
    Answers (operand (fuel + 1) l ts) := by
  cases l with
  | multiplicative => exact ih.unary hts (by simp only [Level.descent] at h; omega)
  | or | and | comparison | additive =>
      exact ih.binary hts (by simp only [Level.descent] at h ⊢; omega)

theorem binary_enough (ih : Enough fuel) (hts : WellFormed ts)
    (h : stepsPerToken * ts.length + l.descent + 1 ≤ fuel + 1) :
    Answers (binary (fuel + 1) l ts) := by
  rw [Formula.binary]
  refine (ih.operand hts (by omega)).bind ?_
  rintro ⟨left, r⟩ hleft
  have hread := (sound fuel).operand hts hleft
  have hlen := hread.length_lt
  simp only [stepsPerToken] at h
  exact ih.chain left (hread.wellFormed hts) (by simp only [stepsPerToken]; omega)

theorem Level.descent_le (l : Level) : l.descent ≤ 11 := by
  cases l <;> simp [Level.descent]

theorem chain_enough (ih : Enough fuel) (left : Expr) (hts : WellFormed ts)
    (h : stepsPerToken * ts.length + 1 ≤ fuel + 1) : Answers (chain (fuel + 1) l left ts) := by
  rw [Formula.chain]
  simp only [stepsPerToken] at h
  have hd := l.descent_le
  split
  next hacc =>
    have htail := length_tail_lt (kind_ne_of_accepts hacc)
    refine (ih.operand hts.tail (by simp only [stepsPerToken]; omega)).bind ?_
    rintro ⟨right, r⟩ hright
    have hread := (sound fuel).operand hts.tail hright
    have hlen := hread.length_lt
    exact ih.chain _ (hread.wellFormed hts.tail) (by simp only [stepsPerToken]; omega)
  next => exact .ok _

theorem unary_enough (ih : Enough fuel) (hts : WellFormed ts)
    (h : stepsPerToken * ts.length + 2 ≤ fuel + 1) : Answers (unary (fuel + 1) ts) := by
  rw [Formula.unary]
  simp only [stepsPerToken] at h
  split
  next hsign =>
    have htail := length_tail_lt (kind_ne_of_isSign hsign)
    exact (ih.unary hts.tail (by simp only [stepsPerToken]; omega)).bind fun e _ => .ok _
  next => exact ih.primary hts (by simp only [stepsPerToken]; omega)

theorem primary_enough (ih : Enough fuel) (hts : WellFormed ts)
    (h : stepsPerToken * ts.length + 1 ≤ fuel + 1) : Answers (primary (fuel + 1) ts) := by
  rw [Formula.primary]
  simp only [stepsPerToken] at h
  split
  next => exact .ok _
  next hid =>
    have htail : ts.tail.length + 1 = ts.length := length_tail_lt (by simp [hid])
    split
    next hleft =>
      have htail' : ts.tail.tail.length + 1 = ts.tail.length := length_tail_lt (by simp [hleft])
      refine (ih.arguments hts.tail.tail ?_).bind fun es _ => .ok _
      simp only [stepsPerToken]
      omega
    next => exact .ok _
  next hleft =>
    have htail : ts.tail.length + 1 = ts.length := length_tail_lt (by simp [hleft])
    refine (ih.ternary hts.tail (by simp only [stepsPerToken]; omega)).bind fun e _ => ?_
    exact (expect_answers _ _).bind fun r _ => .ok _
  next => simp [unexpected, Answers]

theorem arguments_enough (ih : Enough fuel) (hts : WellFormed ts)
    (h : stepsPerToken * ts.length + 14 ≤ fuel + 1) : Answers (arguments (fuel + 1) ts) := by
  rw [Formula.arguments]
  split
  next => exact .ok _
  next =>
    refine (ih.ternary hts (by omega)).bind ?_
    rintro ⟨first, r⟩ hfirst
    have hread := (sound fuel).ternary hts hfirst
    have hlen := hread.length_lt
    simp only [stepsPerToken] at h
    refine (ih.moreArguments (hread.wellFormed hts) ?_).bind fun others _ => .ok _
    simp only [stepsPerToken]
    omega

theorem moreArguments_enough (ih : Enough fuel) (hts : WellFormed ts)
    (h : stepsPerToken * ts.length + 1 ≤ fuel + 1) : Answers (moreArguments (fuel + 1) ts) := by
  rw [Formula.moreArguments]
  simp only [stepsPerToken] at h
  split
  next hcomma =>
    have htail : ts.tail.length + 1 = ts.length := length_tail_lt (by simp [hcomma])
    refine (ih.ternary hts.tail (by simp only [stepsPerToken]; omega)).bind ?_
    rintro ⟨first, r⟩ hfirst
    have hread := (sound fuel).ternary hts.tail hfirst
    have hlen := hread.length_lt
    refine (ih.moreArguments (hread.wellFormed hts.tail) ?_).bind fun others _ => .ok _
    simp only [stepsPerToken]
    omega
  next => exact (expect_answers _ _).bind fun r _ => .ok _

theorem enough (fuel : Nat) : Enough fuel := by
  induction fuel with
  | zero => constructor <;> intros <;> (try cases ‹Level›) <;> simp_all [Level.descent]
  | succ fuel ih =>
      exact {
        ternary := ternary_enough ih
        binary := binary_enough ih
        operand := operand_enough ih
        chain := chain_enough ih
        unary := unary_enough ih
        primary := primary_enough ih
        arguments := arguments_enough ih
        moreArguments := moreArguments_enough ih }

theorem ternary_answers (hts : WellFormed ts) :
    Answers (ternary (stepsPerToken * (ts.length + 1)) ts) :=
  (enough _).ternary hts (by simp only [stepsPerToken]; omega)

/-- The fuel taken for a list of tokens gives the same as any other that finds an expression. -/
theorem ternary_eq_of_eq_ok (hts : WellFormed ts) (h : ternary fuel ts = .ok (e, rest)) :
    ternary (stepsPerToken * (ts.length + 1)) ts = .ok (e, rest) := by
  rw [← h]
  apply answer_unique (fun n => (steady n).ternary ts) (ternary_answers hts)
  rw [h]
  exact .ok _

end Skirmish.Formula
