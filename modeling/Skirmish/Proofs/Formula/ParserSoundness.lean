import Skirmish.Proofs.Fallible
import Skirmish.Proofs.Formula.Grammar

namespace Skirmish.Formula

open Fallible

def WellFormed (ts : List Token) : Prop := ∀ t ∈ ts, t.WellFormed

theorem WellFormed.tail {ts : List Token} (h : WellFormed ts) : WellFormed ts.tail :=
  fun t ht => h t (List.mem_of_mem_tail ht)

theorem WellFormed.right {front rest : List Token} (h : WellFormed (front ++ rest)) :
    WellFormed rest :=
  fun t ht => h t (List.mem_append_right front ht)

theorem eq_cons_of_kind_ne {ts : List Token} (h : (current ts).kind ≠ .finish) :
    ts = current ts :: ts.tail := by
  cases ts with
  | nil => simp [current] at h
  | cons t ts => rfl

theorem eq_cons_of_tail_eq {ts us : List Token} (h : (current ts).kind ≠ .finish)
    (htail : ts.tail = us) : ts = current ts :: us := by
  rw [← htail]
  exact eq_cons_of_kind_ne h

theorem WellFormed.current {ts : List Token} (h : WellFormed ts)
    (hk : (current ts).kind ≠ .finish) : (current ts).WellFormed := by
  rw [eq_cons_of_kind_ne hk] at h
  exact h _ List.mem_cons_self

theorem expect_eq_ok {kind : Token.Kind} {ts rest : List Token} (hk : kind ≠ .finish)
    (h : expect kind ts = .ok rest) : ∃ t, ts = t :: rest ∧ t.kind = kind := by
  simp only [expect] at h
  split at h
  next heq =>
    simp only [Except.ok.injEq] at h
    subst h
    exact ⟨current ts, eq_cons_of_kind_ne (heq ▸ hk), heq⟩
  next => simp at h

theorem kind_ne_of_accepts {l : Level} {t : Token} (h : l.accepts t) : t.kind ≠ .finish := by
  cases l <;> simp_all [Level.accepts]

theorem kind_ne_of_isSign {t : Token} (h : t.isSign) : t.kind ≠ .finish := by
  simp only [Token.isSign, Bool.or_eq_true, Bool.and_eq_true, decide_eq_true_eq] at h
  rcases h with ⟨h, -⟩ | ⟨h, -⟩ <;> simp [h]

/-- A phrase stands in front of the rest. -/
def Reads (p : Phrase) (ts : List Token) (e : Expr) (rest : List Token) : Prop :=
  ∃ front, ts = front ++ rest ∧ Derives p front e

def ReadsItems (ts : List Token) (es : List Expr) (rest : List Token) : Prop :=
  ∃ front close, ts = front ++ close :: rest ∧ close.kind = .rightParen ∧
    (front = [] ∧ es = [] ∨ DerivesList front es)

def ReadsMore (ts : List Token) (es : List Expr) (rest : List Token) : Prop :=
  (∃ close, ts = close :: rest ∧ close.kind = .rightParen ∧ es = []) ∨
    ∃ comma front close, ts = comma :: front ++ close :: rest ∧ comma.kind = .comma ∧
      close.kind = .rightParen ∧ DerivesList front es

structure Sound (fuel : Nat) : Prop where
  ternary {ts e rest} : WellFormed ts → Formula.ternary fuel ts = .ok (e, rest) →
    Reads .ternary ts e rest
  binary {l ts e rest} : WellFormed ts → Formula.binary fuel l ts = .ok (e, rest) →
    Reads (.binary l) ts e rest
  operand {l ts e rest} : WellFormed ts → Formula.operand fuel l ts = .ok (e, rest) →
    Reads l.operand ts e rest
  chain {l left ts e rest front} : WellFormed ts → Derives (.binary l) front left →
    Formula.chain fuel l left ts = .ok (e, rest) → Reads (.binary l) (front ++ ts) e rest
  unary {ts e rest} : WellFormed ts → Formula.unary fuel ts = .ok (e, rest) →
    Reads .unary ts e rest
  primary {ts e rest} : WellFormed ts → Formula.primary fuel ts = .ok (e, rest) →
    Reads .primary ts e rest
  arguments {ts es rest} : WellFormed ts → Formula.arguments fuel ts = .ok (es, rest) →
    ReadsItems ts es rest
  moreArguments {ts es rest} : WellFormed ts → Formula.moreArguments fuel ts = .ok (es, rest) →
    ReadsMore ts es rest

variable {fuel : Nat} {ts rest : List Token} {e : Expr} {es : List Expr} {l : Level}

theorem ternary_sound (ih : Sound fuel) (hts : WellFormed ts)
    (h : ternary (fuel + 1) ts = .ok (e, rest)) : Reads .ternary ts e rest := by
  simp only [Formula.ternary, bind_eq_ok, Prod.exists] at h
  obtain ⟨c, r, hc, h⟩ := h
  obtain ⟨cs, rfl, dc⟩ := ih.binary hts hc
  split at h
  next hq =>
    simp only [bind_eq_ok, Prod.exists] at h
    obtain ⟨t, r', ht, r'', hcolon, f, r₃, hf, h⟩ := h
    obtain ⟨rfl, rfl⟩ : _ ∧ _ := by simpa using h
    obtain ⟨us, hus, dt⟩ := ih.ternary hts.right.tail ht
    obtain ⟨colon, rfl, hk⟩ := expect_eq_ok (by simp) hcolon
    have hfs := hts.right.tail
    rw [hus] at hfs
    obtain ⟨fs, rfl, df⟩ := ih.ternary hfs.right.tail hf
    refine ⟨cs ++ current r :: (us ++ colon :: fs), ?_, .ternary dc hq dt hk df⟩
    simpa using eq_cons_of_tail_eq (by simp [hq]) hus
  next =>
    obtain ⟨rfl, rfl⟩ : _ ∧ _ := by simpa using h
    exact ⟨cs, rfl, .plain dc⟩

theorem binary_sound (ih : Sound fuel) (hts : WellFormed ts)
    (h : binary (fuel + 1) l ts = .ok (e, rest)) : Reads (.binary l) ts e rest := by
  simp only [Formula.binary, bind_eq_ok, Prod.exists] at h
  obtain ⟨left, r, hleft, hchain⟩ := h
  obtain ⟨front, rfl, dleft⟩ := ih.operand hts hleft
  exact ih.chain hts.right (.operand dleft) hchain

theorem operand_sound (ih : Sound fuel) (hts : WellFormed ts)
    (h : operand (fuel + 1) l ts = .ok (e, rest)) : Reads l.operand ts e rest := by
  cases l with
  | multiplicative => exact ih.unary hts h
  | or | and | comparison | additive => exact ih.binary hts h

theorem chain_sound {left : Expr} {front : List Token} (ih : Sound fuel)
    (hts : WellFormed ts) (hleft : Derives (.binary l) front left)
    (h : chain (fuel + 1) l left ts = .ok (e, rest)) :
    Reads (.binary l) (front ++ ts) e rest := by
  simp only [Formula.chain] at h
  split at h
  next hacc =>
    have hkind := kind_ne_of_accepts hacc
    have hspells := Level.spells_of_accepts (hts.current hkind) hacc
    simp only [bind_eq_ok, Prod.exists] at h
    obtain ⟨right, r, hright, hchain⟩ := h
    obtain ⟨back, htail, dright⟩ := ih.operand hts.tail hright
    have hr : WellFormed r := (htail ▸ hts.tail).right
    have hread := ih.chain hr (.chain hleft hspells dright) hchain
    rw [eq_cons_of_kind_ne hkind, htail]
    simpa using hread
  next =>
    simp only [Except.ok.injEq, Prod.mk.injEq] at h
    obtain ⟨rfl, rfl⟩ := h
    exact ⟨front, rfl, hleft⟩

theorem unary_sound (ih : Sound fuel) (hts : WellFormed ts)
    (h : unary (fuel + 1) ts = .ok (e, rest)) : Reads .unary ts e rest := by
  simp only [Formula.unary] at h
  split at h
  next hsign =>
    simp only [bind_eq_ok, Prod.exists] at h
    obtain ⟨e', r, he, h⟩ := h
    obtain ⟨rfl, rfl⟩ : _ ∧ _ := by simpa using h
    obtain ⟨front, htail, d⟩ := ih.unary hts.tail he
    refine ⟨current ts :: front, ?_, .unary (Token.spellsSign_of_isSign hsign) d⟩
    exact eq_cons_of_tail_eq (kind_ne_of_isSign hsign) htail
  next =>
    obtain ⟨front, rfl, d⟩ := ih.primary hts h
    exact ⟨front, rfl, .unsigned d⟩

theorem primary_sound (ih : Sound fuel) (hts : WellFormed ts)
    (h : primary (fuel + 1) ts = .ok (e, rest)) : Reads .primary ts e rest := by
  simp only [Formula.primary] at h
  split at h
  next hnum =>
    obtain ⟨rfl, rfl⟩ : _ ∧ _ := by simpa using h
    have hcons : ts = current ts :: ts.tail := eq_cons_of_kind_ne (by simp [hnum])
    have hlex := (hts.current (by simp [hnum])).2 hnum
    obtain ⟨x, hx⟩ := Option.isSome_iff_exists.1 hlex
    refine ⟨[current ts], hcons, ?_⟩
    simpa [Token.value, hx] using Derives.number hnum hx
  next hid =>
    have hcons : ts = current ts :: ts.tail := eq_cons_of_kind_ne (by simp [hid])
    split at h
    next hleft =>
      simp only [bind_eq_ok, Prod.exists] at h
      obtain ⟨es, r, hargs, h⟩ := h
      obtain ⟨rfl, rfl⟩ : _ ∧ _ := by simpa using h
      obtain ⟨front, close, htail, hclose, hitems⟩ := ih.arguments hts.tail.tail hargs
      refine ⟨current ts :: current ts.tail :: (front ++ [close]), ?_, ?_⟩
      · simpa using eq_cons_of_tail_eq (by simp [hid]) (eq_cons_of_tail_eq (by simp [hleft]) htail)
      · rcases hitems with ⟨rfl, rfl⟩ | hitems
        · exact .callNone hid hleft hclose
        · exact .call hid hleft hitems hclose
    next =>
      obtain ⟨rfl, rfl⟩ : _ ∧ _ := by simpa using h
      exact ⟨[current ts], hcons, .name hid⟩
  next hleft =>
    simp only [bind_eq_ok, Prod.exists] at h
    obtain ⟨e', r, he, r', hclose, h⟩ := h
    obtain ⟨rfl, rfl⟩ : _ ∧ _ := by simpa using h
    obtain ⟨front, htail, d⟩ := ih.ternary hts.tail he
    obtain ⟨close, rfl, hk⟩ := expect_eq_ok (by simp) hclose
    refine ⟨current ts :: (front ++ [close]), ?_, .parens hleft d hk⟩
    simpa using eq_cons_of_tail_eq (by simp [hleft]) htail
  next => simp [unexpected] at h

theorem arguments_sound (ih : Sound fuel) (hts : WellFormed ts)
    (h : arguments (fuel + 1) ts = .ok (es, rest)) : ReadsItems ts es rest := by
  simp only [Formula.arguments] at h
  split at h
  next hclose =>
    obtain ⟨rfl, rfl⟩ : _ ∧ _ := by simpa using h
    exact ⟨[], current ts, eq_cons_of_kind_ne (by simp [hclose]), hclose, .inl ⟨rfl, rfl⟩⟩
  next =>
    simp only [bind_eq_ok, Prod.exists] at h
    obtain ⟨first, r, hfirst, others, r', hothers, h⟩ := h
    obtain ⟨rfl, rfl⟩ : _ ∧ _ := by simpa using h
    obtain ⟨front, rfl, d⟩ := ih.ternary hts hfirst
    rcases ih.moreArguments hts.right hothers with
      ⟨close, rfl, hk, rfl⟩ | ⟨comma, back, close, rfl, hcomma, hk, ds⟩
    · exact ⟨front, close, rfl, hk, .inr (.one d)⟩
    · exact ⟨front ++ comma :: back, close, by simp, hk, .inr (.more d hcomma ds)⟩

theorem moreArguments_sound (ih : Sound fuel) (hts : WellFormed ts)
    (h : moreArguments (fuel + 1) ts = .ok (es, rest)) : ReadsMore ts es rest := by
  simp only [Formula.moreArguments] at h
  split at h
  next hcomma =>
    simp only [bind_eq_ok, Prod.exists] at h
    obtain ⟨first, r, hfirst, others, r', hothers, h⟩ := h
    obtain ⟨rfl, rfl⟩ : _ ∧ _ := by simpa using h
    obtain ⟨front, htail, d⟩ := ih.ternary hts.tail hfirst
    have hr : WellFormed r := (htail ▸ hts.tail).right
    right
    rcases ih.moreArguments hr hothers with
      ⟨close, rfl, hk, rfl⟩ | ⟨comma, back, close, rfl, hcomma', hk, ds⟩
    · refine ⟨current ts, front, close, ?_, hcomma, hk, .one d⟩
      exact eq_cons_of_tail_eq (by simp [hcomma]) htail
    · refine ⟨current ts, front ++ comma :: back, close, ?_, hcomma, hk, .more d hcomma' ds⟩
      simpa using eq_cons_of_tail_eq (by simp [hcomma]) htail
  next =>
    simp only [bind_eq_ok] at h
    obtain ⟨r, hclose, h⟩ := h
    obtain ⟨rfl, rfl⟩ : _ ∧ _ := by simpa using h
    obtain ⟨close, rfl, hk⟩ := expect_eq_ok (by simp) hclose
    exact .inl ⟨close, rfl, hk, rfl⟩

theorem sound (fuel : Nat) : Sound fuel := by
  induction fuel with
  | zero => constructor <;> intros <;> simp_all [Formula.ternary, Formula.binary, Formula.operand,
      Formula.chain, Formula.unary, Formula.primary, Formula.arguments, Formula.moreArguments]
  | succ fuel ih =>
      exact {
        ternary := ternary_sound ih
        binary := binary_sound ih
        operand := operand_sound ih
        chain := chain_sound ih
        unary := unary_sound ih
        primary := primary_sound ih
        arguments := arguments_sound ih
        moreArguments := moreArguments_sound ih }

end Skirmish.Formula
