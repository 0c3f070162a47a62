import Skirmish.Number.Numeral
import Skirmish.Proofs.Formula.Scanning

namespace Skirmish.Formula

open Text

def comparators : List String := ["<", ">", "<=", ">=", "==", "!="]

def Token.WellFormed (t : Token) : Prop :=
  (t.kind = .comparator → t.lexeme ∈ comparators) ∧
    (t.kind = .number → (Numeral.decimal? t.lexeme.toList).isSome)

theorem Token.wellFormed_of_kind {t : Token} (hc : t.kind ≠ .comparator) (hn : t.kind ≠ .number) :
    t.WellFormed :=
  ⟨fun h => absurd h hc, fun h => absurd h hn⟩

theorem isAsciiDigit_of_isNumberChar {c : Char} (h : isNumberChar c) (hc : c ≠ '.') :
    isAsciiDigit c := by
  simpa [isNumberChar, hc] using h

theorem decimal?_isSome {cs : List Char} (hall : ∀ c ∈ cs, isNumberChar c)
    (hdot : cs.count '.' ≤ 1) (hdigit : ∃ c ∈ cs, isAsciiDigit c) :
    (Numeral.decimal? cs).isSome := by
  have hsplit := List.takeWhile_append_dropWhile (p := isAsciiDigit) (l := cs)
  cases hrest : cs.dropWhile isAsciiDigit with
  | nil =>
      rw [hrest, List.append_nil] at hsplit
      have hne : (cs.takeWhile isAsciiDigit).isEmpty = false := by
        obtain ⟨c, hc, -⟩ := hdigit
        rw [hsplit]
        cases cs <;> simp_all
      simp [Numeral.decimal?, hrest, hne, Numeral.exponent?]
  | cons d rest =>
      have hd : isAsciiDigit d = false := by
        have h := List.head_dropWhile_not (p := isAsciiDigit) (l := cs) (by simp [hrest])
        simpa [hrest] using h
      rw [hrest] at hsplit
      have hpoint : d = '.' := by
        by_contra hne
        have h := isAsciiDigit_of_isNumberChar (hall d (by rw [← hsplit]; simp)) hne
        simp [hd] at h
      subst hpoint
      have hback : ∀ c ∈ rest, isAsciiDigit c := by
        intro c hc
        refine isAsciiDigit_of_isNumberChar (hall c (by rw [← hsplit]; simp [hc])) ?_
        rintro rfl
        have hone := List.count_pos_iff.2 hc
        rw [← hsplit, List.count_append, List.count_cons_self] at hdot
        omega
      have htake : rest.takeWhile isAsciiDigit = rest := List.takeWhile_eq_self_iff.2 hback
      have hdrop : rest.dropWhile isAsciiDigit = [] := List.dropWhile_eq_nil_iff.2 hback
      have hne : ((cs.takeWhile isAsciiDigit).isEmpty && rest.isEmpty) = false := by
        obtain ⟨c, hc, hcd⟩ := hdigit
        rw [← hsplit] at hc
        rcases List.mem_append.1 hc with hc | hc
        · cases hf : cs.takeWhile isAsciiDigit <;> simp_all
        · rcases List.mem_cons.1 hc with rfl | hc
          · simp [hd] at hcd
          · cases rest <;> simp_all
      simp [Numeral.decimal?, hrest, htake, hdrop, hne, Numeral.exponent?]

theorem IsLexeme.decimal?_isSome {word : List Char} (h : IsLexeme .number word) :
    (Numeral.decimal? word).isSome := by
  cases h with
  | @number c cs hstart hall hpoint =>
      apply Formula.decimal?_isSome hall hpoint
      simp only [startsNumber, Bool.or_eq_true, Bool.and_eq_true] at hstart
      rcases hstart with hdigit | ⟨-, hdigit⟩
      · exact ⟨c, by simp, hdigit⟩
      · cases cs with
        | nil => simp at hdigit
        | cons d cs => exact ⟨d, by simp, by simpa using hdigit⟩
  | pair h => exact absurd rfl (pairKind?_ne h).1
  | single h => exact absurd rfl (singleKind?_ne h).1

theorem IsLexeme.mem_comparators {word : List Char} (h : IsLexeme .comparator word) :
    String.ofList word ∈ comparators := by
  cases h with
  | pair h =>
      simp only [pairKind?] at h
      split at h <;> simp_all [comparators]
  | single h =>
      simp only [singleKind?] at h
      split at h <;> simp_all [comparators]

theorem IsLexeme.wellFormed {t : Token} (h : IsLexeme t.kind t.lexeme.toList) : t.WellFormed := by
  refine ⟨fun hkind => ?_, fun hkind => ?_⟩
  · rw [hkind] at h
    simpa using h.mem_comparators
  · rw [hkind] at h
    exact h.decimal?_isSome

/-- A list that ends with its only token for the end, all others being well formed. -/
structure Ended (ts : List Token) (body : List Token) (last : Token) : Prop where
  eq : ts = body ++ [last]
  last_kind : last.kind = .finish
  body_kind : ∀ t ∈ body, t.kind ≠ .finish
  body_wellFormed : ∀ t ∈ body, t.WellFormed

theorem tokenize_ended {formula : String} {ts : List Token} (h : tokenize formula = .ok ts) :
    ∃ body last, Ended ts body last := by
  have haccounts := accounts_of_tokenize h
  obtain ⟨body, rfl, hkind⟩ := haccounts.finish
  refine ⟨body, _, rfl, rfl, hkind, fun t ht => ?_⟩
  exact (haccounts.isLexeme t (by simp [ht]) (hkind t ht)).wellFormed

theorem ended_of_cuts {formula : String} {body : List Token} (h : Cuts [] 0 formula.toList body) :
    ∃ last, tokenize formula = .ok (body ++ [last]) ∧ Ended (body ++ [last]) body last := by
  have htokenize := tokenize_of_cuts h
  obtain ⟨body', last, hended⟩ := tokenize_ended htokenize
  obtain ⟨rfl, -⟩ := List.append_inj' hended.eq rfl
  rw [hended.eq] at htokenize hended
  exact ⟨last, htokenize, hended⟩

end Skirmish.Formula
