import Skirmish.Proofs.Formula.Completion
import Skirmish.Proofs.Formula.Faults

namespace Skirmish.Formula

variable {α β : Type}

structure Unread (ts : List Token) : Prop where
  wellFormed : WellFormed ts
  closed : ∃ t ∈ ts, t.kind = .finish

namespace Unread

variable {ts front rest : List Token}

theorem exists_cons (h : Unread ts) : ∃ t us, ts = t :: us := by
  obtain ⟨t, ht, -⟩ := h.closed
  exact List.exists_cons_of_ne_nil (List.ne_nil_of_mem ht)

theorem right (h : Unread (front ++ rest)) (hfront : ∀ t ∈ front, t.kind ≠ .finish) :
    Unread rest where
  wellFormed := h.wellFormed.right
  closed := by
    obtain ⟨t, ht, hkind⟩ := h.closed
    rcases List.mem_append.1 ht with ht | ht
    · exact absurd hkind (hfront t ht)
    · exact ⟨t, ht, hkind⟩

theorem tail {t : Token} (h : Unread (t :: rest)) (ht : t.kind ≠ .finish) : Unread rest := by
  rw [← List.singleton_append] at h
  exact h.right (by simpa using ht)

end Unread

/-- A reader comes as far as one token: it leaves that token after what it has read, or it refuses
it after a beginning of the sort given. What stands behind the token makes no difference. -/
inductive Stops (f : List Token → Result (α × List Token)) (V : List Token → Prop)
    (ts : List Token) : Prop
  | leaves (front : List Token) {after : List Token} {t : Token} {a : α}
      (hts : ts = front ++ t :: after) (h : ∀ more, f (front ++ t :: more) = .ok (a, t :: more))
  | refuses (before : List Token) {after : List Token} {t : Token} {fault : Fault}
      (hts : ts = before ++ t :: after) (hv : V before)
      (h : ∀ more, f (before ++ t :: more) = .error (.malformed fault t.position))
  | out (h : f ts = .error .tooDeep)

namespace Stops

variable {f g : List Token → Result (α × List Token)} {V W : List Token → Prop}
  {ts : List Token} {t : Token}

theorem mono (h : Stops f V ts) (hVW : ∀ before, V before → W before) : Stops f W ts := by
  cases h with
  | leaves front hts h => exact .leaves front hts h
  | refuses before hts hv h => exact .refuses before hts (hVW _ hv) h
  | out h => exact .out h

theorem ok (a : α) : Stops (fun us => .ok (a, us)) V (t :: ts) :=
  .leaves [] rfl fun _ => rfl

theorem cons (h : Stops (fun us => f (t :: us)) (fun before => V (t :: before)) ts) :
    Stops f V (t :: ts) := by
  cases h with
  | leaves front hts h => exact .leaves (t :: front) (congrArg _ hts) h
  | refuses before hts hv h => exact .refuses (t :: before) (congrArg _ hts) hv h
  | out h => exact .out h

theorem exists_eq_cons {front after : List Token} {u : Token} (h : t :: ts = front ++ u :: after)
    (more : List Token) : ∃ us, front ++ u :: more = t :: us := by
  cases front with
  | nil =>
      obtain ⟨rfl, -⟩ := List.cons.inj h
      exact ⟨more, rfl⟩
  | cons v front =>
      obtain ⟨rfl, -⟩ := List.cons.inj h
      exact ⟨_, rfl⟩

theorem behind (front : List Token) (hfg : ∀ us, f (front ++ t :: us) = g (t :: us))
    (h : Stops g (fun before => V (front ++ before)) (t :: ts)) :
    Stops f V (front ++ t :: ts) := by
  have hsame {back after : List Token} {u : Token} (hts : t :: ts = back ++ u :: after)
      (more : List Token) : f (front ++ back ++ u :: more) = g (back ++ u :: more) := by
    obtain ⟨us, hus⟩ := exists_eq_cons hts more
    rw [List.append_assoc, hus, hfg]
  cases h with
  | leaves back hts h =>
      have hall := (congrArg (front ++ ·) hts).trans (List.append_assoc ..).symm
      exact .leaves (front ++ back) hall fun more => (hsame hts more).trans (h more)
  | refuses back hts hv h =>
      have hall := (congrArg (front ++ ·) hts).trans (List.append_assoc ..).symm
      exact .refuses (front ++ back) hall hv fun more => (hsame hts more).trans (h more)
  | out h => exact .out ((hfg ts).trans h)

theorem bind {k : α × List Token → Result (β × List Token)} (hf : Stops f V ts)
    (hVW : ∀ before, V before → W before)
    (hk : ∀ a front t after, ts = front ++ t :: after → f ts = .ok (a, t :: after) →
      Stops (fun us => k (a, us)) (fun before => W (front ++ before)) (t :: after)) :
    Stops (fun us => f us >>= k) W ts := by
  cases hf with
  | @leaves front after t a hts hf =>
      subst hts
      apply (hk a front t after rfl (hf after)).behind front
      intro us
      rw [hf, Fallible.ok_bind]
  | refuses before hts hv h =>
      exact .refuses before hts (hVW _ hv) fun more => by rw [h, Fallible.error_bind]
  | out h => exact .out (by rw [h, Fallible.error_bind])

theorem refuse (fault : Fault) (hv : V [])
    (h : ∀ us, f (t :: us) = .error (.malformed fault t.position)) : Stops f V (t :: ts) :=
  .refuses [] rfl hv h

theorem expect {kind : Token.Kind} {k : List Token → Result (β × List Token)} (hw : W [])
    (hk : t.kind = kind → Stops k (fun before => W (t :: before)) ts) :
    Stops (fun us => expect kind us >>= k) W (t :: ts) := by
  by_cases hkind : t.kind = kind
  · apply Stops.cons
    simpa [Formula.expect, hkind] using hk hkind
  · refine .refuse (.expected kind t.kind) hw fun us => ?_
    simp [Formula.expect, hkind, Fallible.error_bind]

theorem ite_neg {c : List Token → Prop} [DecidablePred c] (hc : ∀ us, ¬ c (t :: us))
    (h : Stops g V (t :: ts)) : Stops (fun us => if c us then f us else g us) V (t :: ts) :=
  h.behind [] fun us => if_neg (hc us)

end Stops

variable {fuel : Nat} {ts front rest : List Token} {e : Expr} {p : Phrase} {l : Level}

theorem Reads.parts (h : Reads p ts e rest) (hts : Unread ts) (hsplit : ts = front ++ rest) :
    Derives p front e ∧ Unread rest := by
  obtain ⟨front', hfront, d⟩ := h
  obtain rfl := List.append_cancel_right (hsplit.symm.trans hfront)
  subst hsplit
  exact ⟨d, hts.right d.kind_ne⟩

theorem Stops.reading {f : List Token → Result (Expr × List Token)} {V W : List Token → Prop}
    {k : Expr × List Token → Result (β × List Token)} (hf : Stops f V ts) (hts : Unread ts)
    (hread : ∀ {e rest}, f ts = .ok (e, rest) → Reads p ts e rest)
    (hVW : ∀ before, V before → W before)
    (hk : ∀ e front t after, Derives p front e → Unread (t :: after) →
      Stops (fun us => k (e, us)) (fun before => W (front ++ before)) (t :: after)) :
    Stops (fun us => f us >>= k) W ts := by
  apply hf.bind hVW
  intro e front t after hsplit h
  obtain ⟨d, hrest⟩ := (hread h).parts hts hsplit
  exact hk e front t after d hrest

/-- Each procedure stops, and what it has read when it refuses a token begins what it reads. -/
structure Stopping (fuel : Nat) : Prop where
  ternary {ts : List Token} : Unread ts → Stops (Formula.ternary fuel) (Viable .ternary) ts
  binary {l : Level} {ts : List Token} : Unread ts →
    Stops (Formula.binary fuel l) (Viable (.binary l)) ts
  operand {l : Level} {ts : List Token} : Unread ts →
    Stops (Formula.operand fuel l) (Viable l.operand) ts
  chain {l : Level} {ls ts : List Token} {left : Expr} : Derives (.binary l) ls left → Unread ts →
    Stops (Formula.chain fuel l left) (fun before => Viable (.binary l) (ls ++ before)) ts
  unary {ts : List Token} : Unread ts → Stops (Formula.unary fuel) (Viable .unary) ts
  primary {ts : List Token} : Unread ts → Stops (Formula.primary fuel) (Viable .primary) ts
  arguments {ts : List Token} : Unread ts →
    Stops (Formula.arguments fuel) (Completable IsItems) ts
  moreArguments {ts : List Token} : Unread ts →
    Stops (Formula.moreArguments fuel) (Completable IsMore) ts

theorem ternary_stops (ih : Stopping fuel) (hts : Unread ts) :
    Stops (ternary (fuel + 1)) (Viable .ternary) ts := by
  show Stops (fun us => ternary (fuel + 1) us) _ ts
  simp only [Formula.ternary]
  apply (ih.binary hts).reading hts ((sound fuel).binary hts.wellFormed) fun before => viable_plain
  intro c cs q rest dc hrest
  by_cases hq : q.kind = .question
  · apply Stops.cons
    simp only [current_cons, hq, ↓reduceIte, List.tail_cons]
    have hus := hrest.tail (by simp [hq])
    apply (ih.ternary hus).reading hus ((sound fuel).ternary hus.wellFormed)
      fun before => viable_ifTrue dc hq
    intro t ts k rest dt hk
    dsimp only
    refine .expect ?_ fun hcolon => ?_
    · simpa using viable_ifTrue dc hq dt.viable
    refine (ih.ternary (hk.tail (by simp [hcolon]))).bind
      (fun before => viable_ifFalse dc hq dt hcolon) ?_
    intro f fs u rest _ _
    exact .ok (Expr.ternary c t f)
  · exact .ite_neg (fun _ => hq) (.ok c)

theorem binary_stops (ih : Stopping fuel) (hts : Unread ts) :
    Stops (binary (fuel + 1) l) (Viable (.binary l)) ts := by
  show Stops (fun us => binary (fuel + 1) l us) _ ts
  simp only [Formula.binary]
  apply (ih.operand hts).reading hts ((sound fuel).operand hts.wellFormed)
    fun before => viable_operand
  intro left ls t rest dl hrest
  exact ih.chain (.operand dl) hrest

theorem operand_stops (ih : Stopping fuel) (hts : Unread ts) :
    Stops (operand (fuel + 1) l) (Viable l.operand) ts := by
  cases l with
  | multiplicative => exact ih.unary hts
  | or | and | comparison | additive => exact ih.binary hts

theorem chain_stops {ls : List Token} {left : Expr} (ih : Stopping fuel)
    (dl : Derives (.binary l) ls left) (hts : Unread ts) :
    Stops (chain (fuel + 1) l left) (fun before => Viable (.binary l) (ls ++ before)) ts := by
  obtain ⟨t, us, rfl⟩ := hts.exists_cons
  show Stops (fun us => chain (fuel + 1) l left us) _ _
  simp only [Formula.chain]
  by_cases ht : l.accepts t
  · have hspells := Level.spells_of_accepts (hts.wellFormed t List.mem_cons_self) ht
    apply Stops.cons
    simp only [current_cons, ht, ↓reduceIte, List.tail_cons]
    have hus := hts.tail (kind_ne_of_accepts ht)
    apply (ih.operand hus).reading hus ((sound fuel).operand hus.wellFormed)
      fun before => viable_chain dl hspells
    intro right rs u rest dr hrest
    simpa using ih.chain (.chain dl hspells dr) hrest
  · exact .ite_neg (fun _ => ht) (.ok left)

theorem unary_stops (ih : Stopping fuel) (hts : Unread ts) :
    Stops (unary (fuel + 1)) (Viable .unary) ts := by
  obtain ⟨t, us, rfl⟩ := hts.exists_cons
  show Stops (fun us => unary (fuel + 1) us) _ _
  simp only [Formula.unary]
  by_cases ht : t.isSign
  · apply Stops.cons
    simp only [current_cons, ht, ↓reduceIte, List.tail_cons]
    refine (ih.unary (hts.tail (kind_ne_of_isSign ht))).bind
      (fun before => viable_unary (Token.spellsSign_of_isSign ht)) ?_
    intro e ts u rest _ _
    exact .ok (Expr.unary _ e)
  · exact .ite_neg (fun _ => ht) ((ih.primary hts).mono fun before => viable_unsigned)

theorem primary_stops (ih : Stopping fuel) (hts : Unread ts) :
    Stops (primary (fuel + 1)) (Viable .primary) ts := by
  obtain ⟨t, us, rfl⟩ := hts.exists_cons
  show Stops (fun us => primary (fuel + 1) us) _ _
  simp only [Formula.primary]
  cases ht : t.kind with
  | number =>
      apply Stops.cons
      simp only [current_cons, ht, List.tail_cons]
      obtain ⟨v, vs, rfl⟩ := (hts.tail (by simp [ht])).exists_cons
      exact .ok _
  | identifier =>
      apply Stops.cons
      simp only [current_cons, ht, List.tail_cons]
      have hus := hts.tail (by simp [ht])
      obtain ⟨v, vs, rfl⟩ := hus.exists_cons
      by_cases hv : v.kind = .leftParen
      · apply Stops.cons
        simp only [current_cons, hv, List.tail_cons, ↓reduceIte]
        refine (ih.arguments (hus.tail (by simp [hv]))).bind
          (fun before => viable_call ht hv) ?_
        intro es front w rest _ _
        exact .ok (Expr.call _ es)
      · exact .ite_neg (fun _ => hv) (.ok (Expr.name t.lexeme))
  | leftParen =>
      apply Stops.cons
      simp only [current_cons, ht, List.tail_cons]
      have hus := hts.tail (by simp [ht])
      apply (ih.ternary hus).reading hus ((sound fuel).ternary hus.wellFormed)
        fun before => viable_parens ht
      intro e front u rest d hrest
      dsimp only
      refine .expect ?_ fun hright => ?_
      · simpa using viable_parens ht d.viable
      obtain ⟨v, vs, rfl⟩ := (hrest.tail (by simp [hright])).exists_cons
      exact .ok e
  | _ =>
      refine .refuse (.unexpected t.kind) (viable_nil _) fun us => ?_
      simp [ht, unexpected]

theorem arguments_stops (ih : Stopping fuel) (hts : Unread ts) :
    Stops (arguments (fuel + 1)) (Completable IsItems) ts := by
  obtain ⟨t, us, rfl⟩ := hts.exists_cons
  show Stops (fun us => arguments (fuel + 1) us) _ _
  simp only [Formula.arguments]
  by_cases ht : t.kind = .rightParen
  · apply Stops.cons
    simp only [current_cons, ht, ↓reduceIte, List.tail_cons]
    obtain ⟨v, vs, rfl⟩ := (hts.tail (by simp [ht])).exists_cons
    exact .ok []
  · refine .ite_neg (fun _ => ht) ?_
    apply (ih.ternary hts).reading hts ((sound fuel).ternary hts.wellFormed)
      fun before => completable_item
    intro e front u rest d hrest
    dsimp only
    refine (ih.moreArguments hrest).bind (fun before => completable_items d) ?_
    intro es front v rest _ _
    exact .ok (e :: es)

theorem moreArguments_stops (ih : Stopping fuel) (hts : Unread ts) :
    Stops (moreArguments (fuel + 1)) (Completable IsMore) ts := by
  obtain ⟨t, us, rfl⟩ := hts.exists_cons
  show Stops (fun us => moreArguments (fuel + 1) us) _ _
  simp only [Formula.moreArguments]
  by_cases ht : t.kind = .comma
  · apply Stops.cons
    simp only [current_cons, ht, ↓reduceIte, List.tail_cons]
    have hus := hts.tail (by simp [ht])
    apply (ih.ternary hus).reading hus ((sound fuel).ternary hus.wellFormed)
      fun before => completable_next ht
    intro e front u rest d hrest
    dsimp only
    refine (ih.moreArguments hrest).bind (fun before => completable_more ht d) ?_
    intro es front v rest _ _
    exact .ok (e :: es)
  · refine .ite_neg (fun _ => ht) ?_
    refine .expect completable_close fun hright => ?_
    obtain ⟨v, vs, rfl⟩ := (hts.tail (by simp [hright])).exists_cons
    exact .ok []

theorem stopping (fuel : Nat) : Stopping fuel := by
  induction fuel with
  | zero => constructor <;> intros <;> exact .out rfl
  | succ fuel ih =>
      exact {
        ternary := ternary_stops ih
        binary := binary_stops ih
        operand := operand_stops ih
        chain := chain_stops ih
        unary := unary_stops ih
        primary := primary_stops ih
        arguments := arguments_stops ih
        moreArguments := moreArguments_stops ih }

theorem Ended.unread {body : List Token} {last : Token} (h : Ended ts body last) : Unread ts where
  wellFormed := h.wellFormed
  closed := ⟨last, by simp [h.eq], h.last_kind⟩

def readAll (fuel : Nat) (ts : List Token) : Result Expr := do
  let (e, rest) ← ternary fuel ts
  let _ ← expect .finish rest
  return e

theorem readAll_steady (ts : List Token) (fuel : Nat) :
    Upto (readAll fuel ts) (readAll (fuel + 1) ts) :=
  ((steady fuel).ternary ts).bind fun _ => .refl _

theorem readAll_stops (hts : Unread ts) (hanswers : Answers (ternary fuel ts)) :
    ∃ before t after r, ts = before ++ t :: after ∧
      (∀ more, readAll fuel (before ++ t :: more) = r) ∧
      ((∃ e, r = .ok e) ∨
        Viable .ternary before ∧ ∃ fault, r = .error (.malformed fault t.position)) := by
  cases (stopping fuel).ternary hts with
  | out h => exact absurd h hanswers
  | @refuses before after t fault heq hv h =>
      refine ⟨before, t, after, _, heq, fun more => ?_, .inr ⟨hv, fault, rfl⟩⟩
      rw [readAll, h, Fallible.error_bind]
  | @leaves front after t e heq h =>
      by_cases ht : t.kind = .finish
      · refine ⟨front, t, after, .ok e, heq, fun more => ?_, .inl ⟨e, rfl⟩⟩
        simp [readAll, h, expect, ht]
      · -- Only the end may stand behind a formula: the token that was left is refused after all.
        subst heq
        obtain ⟨d, -⟩ := ((sound fuel).ternary hts.wellFormed (h after)).parts hts rfl
        refine ⟨front, t, after, _, rfl, fun more => ?_,
          .inr ⟨d.viable, .expected .finish t.kind, rfl⟩⟩
        simp [readAll, h, expect, ht]

theorem parseTokens_append {more : List Token} {r : Result Expr}
    (h : readAll (stepsPerToken * (ts.length + 1)) (ts ++ more) = r) (hr : Answers r) :
    parseTokens (ts ++ more) = r := by
  subst h
  have hle : stepsPerToken * (ts.length + 1) ≤ stepsPerToken * ((ts ++ more).length + 1) :=
    Nat.mul_le_mul_left _ (by simp)
  exact (upto_of_le (readAll_steady (ts ++ more)) hle).eq_of_ne hr

theorem parseTokens_ne_ok {err : Error} (h : readAll fuel ts = .error err) (herr : err ≠ .tooDeep)
    (e : Expr) : parseTokens ts ≠ .ok e := by
  intro hparse
  change readAll (stepsPerToken * (ts.length + 1)) ts = .ok e at hparse
  have hsame : readAll fuel ts = readAll (stepsPerToken * (ts.length + 1)) ts := by
    apply answer_unique (readAll_steady ts)
    · simpa [h, Answers] using herr
    · simp [hparse, Answers]
  rw [h, hparse] at hsame
  cases hsame

/-- What stands behind the end of a text is never looked at. A refusal points at the first token
with which no formula goes on: what stands before it begins one. -/
theorem refused_at_first_impossible (h : tokenize formula = .ok ts) :
    (∀ more, parseTokens (ts ++ more) = parseTokens ts) ∧
      ∀ err, parse formula = .error err → ∃ before t after fault,
        ts = before ++ t :: after ∧ err = .malformed fault t.position ∧
          (∃ completed more e, formula.toList.take t.position <+: completed.toList ∧
            tokenize completed = .ok (before ++ more) ∧ parse completed = .ok e) ∧
          ∀ more e, parseTokens (before ++ t :: more) ≠ .ok e := by
  obtain ⟨body, last, hended⟩ := tokenize_ended h
  obtain ⟨before, t, after, r, hsplit, hread, hr⟩ :=
    readAll_stops hended.unread (ternary_answers hended.wellFormed)
  have hanswer : Answers r := by
    rcases hr with ⟨e, rfl⟩ | ⟨-, fault, rfl⟩ <;> simp [Answers]
  have hmore (more : List Token) : parseTokens (ts ++ more) = r := by
    apply parseTokens_append _ hanswer
    have hall : ts ++ more = before ++ t :: (after ++ more) := by simp [hsplit]
    rw [hall, hread]
  have hts : parseTokens ts = r := by simpa using hmore []
  refine ⟨fun more => (hmore more).trans hts.symm, fun err herr => ?_⟩
  have hparse : parse formula = r := by simp [parse, h, hts]
  obtain rfl : r = .error err := hparse.symm.trans herr
  rcases hr with ⟨e, he⟩ | ⟨hviable, fault, herr⟩
  · cases he
  · obtain rfl := Except.error.inj herr
    rw [hsplit] at h
    refine ⟨before, t, after, fault, hsplit, rfl, exists_formula h hviable, fun more => ?_⟩
    exact parseTokens_ne_ok (hread more) (by simp)

theorem refused_at_first_impossible_comma :
    ∃ ts, tokenize "max(1, 2 3)" = .ok ts ∧
      (∀ more, parseTokens (ts ++ more) = parseTokens ts) ∧
        ∃ before t after fault, ts = before ++ t :: after ∧
          Error.malformed (.expected .rightParen .number) 9 = .malformed fault t.position ∧
          (∃ completed more e, "max(1, 2 3)".toList.take t.position <+: completed.toList ∧
            tokenize completed = .ok (before ++ more) ∧ parse completed = .ok e) ∧
          ∀ more e, parseTokens (before ++ t :: more) ≠ .ok e := by
  have hok : (tokenize "max(1, 2 3)").isOk = true := by decide +kernel
  obtain ⟨ts, hts⟩ := Fallible.exists_eq_ok hok
  have hfails : Fallible.failure? (parse "max(1, 2 3)") =
      some (.malformed (.expected .rightParen .number) 9) := by decide +kernel
  obtain ⟨hmore, hrefused⟩ := refused_at_first_impossible hts
  exact ⟨ts, hts, hmore, hrefused _ (Fallible.eq_error_of_failure? hfails)⟩

end Skirmish.Formula
