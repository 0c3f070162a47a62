import Mathlib.Data.List.TakeWhile
import Skirmish.Formula.Scan

namespace Skirmish.Formula

open Text

inductive IsLexeme : Token.Kind → List Char → Prop
  | number {c : Char} {cs : List Char} (hstart : startsNumber c cs)
      (hall : ∀ d ∈ c :: cs, isNumberChar d) (hpoint : (c :: cs).count '.' ≤ 1) :
      IsLexeme .number (c :: cs)
  | identifier {c : Char} {cs : List Char} (hstart : isNameStart c)
      (hall : ∀ d ∈ cs, isNameChar d) : IsLexeme .identifier (c :: cs)
  | pair {c d : Char} {kind : Token.Kind} (h : pairKind? c d = some kind) : IsLexeme kind [c, d]
  | single {c : Char} {kind : Token.Kind} (h : singleKind? c = some kind) : IsLexeme kind [c]

def Extends : Token.Kind → List Char → Char → Prop
  | .number, _, c => isNumberChar c
  | .identifier, _, c => isNameChar c
  | _, word, c => word ∈ [['<'], ['>'], ['!']] ∧ c = '='

/-- The word is the token at the front of a text with that rest: a lexeme cut as late as can be. -/
structure Leads (kind : Token.Kind) (word rest : List Char) : Prop where
  isLexeme : IsLexeme kind word
  ends : ∀ c ∈ rest.head?, ¬ Extends kind word c

/-- At the front of the text stands a character that starts no token, or a run of digits and
points with too many points. -/
inductive Breaks : Fault → List Char → Prop
  | stray {c : Char} {cs : List Char} (hblank : ¬ isBlank c)
      (hnone : ∀ kind word, IsLexeme kind word → ¬ word <+: c :: cs) :
      Breaks (.strayCharacter c) (c :: cs)
  | run {c : Char} {cs run : List Char} (hstart : startsNumber c cs)
      (hrun : run = (c :: cs).takeWhile isNumberChar) (hpoints : 2 ≤ run.count '.') :
      Breaks (.malformedNumber (String.ofList run)) (c :: cs)

theorem isNumberChar_of_startsNumber {c : Char} {cs : List Char} (h : startsNumber c cs) :
    isNumberChar c := by
  simp only [startsNumber, isNumberChar, Bool.or_eq_true, Bool.and_eq_true] at h ⊢
  exact h.imp_right And.left

theorem startsNumber_takeWhile {c : Char} {cs : List Char} :
    startsNumber c (cs.takeWhile isNumberChar) = startsNumber c cs := by
  cases cs with
  | nil => rfl
  | cons d ds =>
      cases hd : isNumberChar d with
      | true => simp [startsNumber, hd]
      | false =>
          have hdigit : isAsciiDigit d = false := by simp_all [isNumberChar]
          simp [startsNumber, hd, hdigit]

theorem startsNumber_append {c : Char} {word rest : List Char} (h : startsNumber c word) :
    startsNumber c (word ++ rest) := by
  cases word <;> simp_all [startsNumber]

theorem isNameChar_of_isNumberChar {c : Char} (h : isNumberChar c) : isNameChar c := by
  simp only [isNumberChar, isNameChar, Bool.or_eq_true] at h ⊢
  exact h.imp_left .inr

theorem isNameChar_of_isNameStart {c : Char} (h : isNameStart c) : isNameChar c := by
  simp [isNameChar, h]

theorem toNat_of_isAsciiDigit {c : Char} (h : isAsciiDigit c) : 48 ≤ c.toNat ∧ c.toNat ≤ 57 := by
  simpa [isAsciiDigit, Char.le_def, UInt32.le_iff_toNat_le] using h

theorem toNat_of_isNameStart {c : Char} (h : isNameStart c) : 65 ≤ c.toNat ∧ c.toNat ≤ 122 := by
  simp only [isNameStart, Bool.or_eq_true, Bool.and_eq_true, decide_eq_true_eq, Char.le_def,
    UInt32.le_iff_toNat_le] at h
  rcases h with (⟨hlow, hhigh⟩ | ⟨hlow, hhigh⟩) | rfl
  · change 97 ≤ c.toNat at hlow
    change c.toNat ≤ 122 at hhigh
    omega
  · change 65 ≤ c.toNat at hlow
    change c.toNat ≤ 90 at hhigh
    omega
  · decide

theorem toNat_of_isNameChar {c : Char} (h : isNameChar c) : 46 ≤ c.toNat ∧ c.toNat ≤ 122 := by
  simp only [isNameChar, Bool.or_eq_true, decide_eq_true_eq] at h
  rcases h with (h | h) | rfl
  · have := toNat_of_isNameStart h
    omega
  · have := toNat_of_isAsciiDigit h
    omega
  · decide

theorem startsNumber_of_isNameStart {c : Char} (h : isNameStart c) (cs : List Char) :
    startsNumber c cs = false := by
  have hbounds := toNat_of_isNameStart h
  have hdigit : isAsciiDigit c = false := by
    by_contra hc
    have := toNat_of_isAsciiDigit (by simpa using hc)
    omega
  have hpoint : c ≠ '.' := by
    rintro rfl
    exact absurd hbounds (by decide)
  simp [startsNumber, hdigit, hpoint]

theorem isBlank_of_isNameChar {c : Char} (h : isNameChar c) : isBlank c = false := by
  have hbounds := toNat_of_isNameChar h
  simp only [isBlank, Bool.or_eq_false_iff, Bool.and_eq_false_iff, decide_eq_false_iff_not,
    beq_eq_false_iff_ne]
  omega

theorem extends_single_iff {c d : Char} {kind : Token.Kind} (h : singleKind? c = some kind) :
    Extends kind [c] d ↔ (pairKind? c d).isSome := by
  simp only [singleKind?] at h
  by_cases hd : d = '='
  · subst hd
    split at h <;> cases h <;> simp [Extends, pairKind?]
  · split at h <;> cases h <;> simp [Extends, pairKind?, hd]

theorem not_extends_pair {c d : Char} {kind : Token.Kind} (h : pairKind? c d = some kind)
    (e : Char) : ¬ Extends kind [c, d] e := by
  simp only [pairKind?] at h
  split at h <;> cases h <;> simp [Extends]

theorem eq_false_of_head?_dropWhile {p : Char → Bool} {cs : List Char} {c : Char}
    (h : (cs.dropWhile p).head? = some c) : p c = false := by
  have hhead := List.head?_dropWhile_not p cs
  rwa [h] at hhead

theorem takeWhile_append_rest {p : Char → Bool} {word rest : List Char} (hword : ∀ c ∈ word, p c)
    (hrest : ∀ c ∈ rest.head?, ¬ p c) : (word ++ rest).takeWhile p = word := by
  rw [List.takeWhile_append_of_pos hword]
  cases rest with
  | nil => simp
  | cons c rest => simp [hrest c rfl]

theorem leads_number {c : Char} {cs : List Char} (hstart : startsNumber c cs)
    (hpoints : ¬ 1 < (c :: cs.takeWhile isNumberChar).count '.') :
    Leads .number (c :: cs.takeWhile isNumberChar) (cs.dropWhile isNumberChar) where
  isLexeme := by
    refine .number (by rwa [startsNumber_takeWhile]) ?_ (Nat.le_of_not_lt hpoints)
    exact List.forall_mem_cons.2 ⟨isNumberChar_of_startsNumber hstart,
      fun d hd => List.mem_takeWhile_imp hd⟩
  ends d hd := by simp [Extends, eq_false_of_head?_dropWhile hd]

theorem leads_identifier {c : Char} {cs : List Char} (hstart : isNameStart c) :
    Leads .identifier (c :: cs.takeWhile isNameChar) (cs.dropWhile isNameChar) where
  isLexeme := .identifier hstart fun d hd => List.mem_takeWhile_imp hd
  ends d hd := by simp [Extends, eq_false_of_head?_dropWhile hd]

theorem leads_pair {c d : Char} {cs : List Char} {kind : Token.Kind}
    (h : pairKind? c d = some kind) : Leads kind [c, d] cs where
  isLexeme := .pair h
  ends e _ := not_extends_pair h e

theorem leads_single {c : Char} {cs : List Char} {kind : Token.Kind}
    (hpair : cs.head?.bind (pairKind? c) = none) (h : singleKind? c = some kind) :
    Leads kind [c] cs where
  isLexeme := .single h
  ends d hd := by
    rw [Option.mem_def.1 hd, Option.bind_some] at hpair
    simp [extends_single_iff h, hpair]

theorem leads_of_lexeme {c : Char} {cs : List Char} {kind : Token.Kind} {more : Nat}
    (h : lexeme c cs = .ok (kind, more)) :
    ∃ word rest, cs = word ++ rest ∧ more = word.length ∧ Leads kind (c :: word) rest := by
  simp only [lexeme] at h
  split at h
  next hstart =>
    split at h
    next => cases h
    next hpoints =>
      cases h
      exact ⟨_, _, List.takeWhile_append_dropWhile.symm, rfl, leads_number hstart hpoints⟩
  next =>
    split at h
    next hstart =>
      cases h
      exact ⟨_, _, List.takeWhile_append_dropWhile.symm, rfl, leads_identifier hstart⟩
    next =>
      split at h
      next kind' hpair =>
        cases h
        cases cs with
        | nil => cases hpair
        | cons d ds => exact ⟨[d], ds, rfl, rfl, leads_pair hpair⟩
      next hpair =>
        split at h
        next kind' hsingle =>
          cases h
          exact ⟨[], cs, rfl, rfl, leads_single hpair hsingle⟩
        next => cases h

theorem startsNumber_of_pairKind? {c d : Char} {kind : Token.Kind} (h : pairKind? c d = some kind)
    (cs : List Char) : startsNumber c cs = false ∧ isNameStart c = false := by
  simp only [pairKind?] at h
  split at h <;> cases h <;> simp [startsNumber] <;> decide

theorem startsNumber_of_singleKind? {c : Char} {kind : Token.Kind} (h : singleKind? c = some kind)
    (cs : List Char) : startsNumber c cs = false ∧ isNameStart c = false := by
  simp only [singleKind?] at h
  split at h <;> cases h <;> simp [startsNumber] <;> decide

theorem IsLexeme.exists_cons {kind : Token.Kind} {word : List Char} (h : IsLexeme kind word) :
    ∃ c cs, word = c :: cs ∧ isBlank c = false := by
  cases h with
  | number hstart =>
      exact ⟨_, _, rfl, isBlank_of_isNameChar
        (isNameChar_of_isNumberChar (isNumberChar_of_startsNumber hstart))⟩
  | identifier hstart =>
      exact ⟨_, _, rfl, isBlank_of_isNameChar (isNameChar_of_isNameStart hstart)⟩
  | pair h =>
      refine ⟨_, _, rfl, ?_⟩
      simp only [pairKind?] at h
      split at h <;> cases h <;> decide
  | single h =>
      refine ⟨_, _, rfl, ?_⟩
      simp only [singleKind?] at h
      split at h <;> cases h <;> decide

theorem pairKind?_ne {c d : Char} {kind : Token.Kind} (h : pairKind? c d = some kind) :
    kind ≠ .number ∧ kind ≠ .finish := by
  simp only [pairKind?] at h
  split at h <;> cases h <;> simp

theorem singleKind?_ne {c : Char} {kind : Token.Kind} (h : singleKind? c = some kind) :
    kind ≠ .number ∧ kind ≠ .finish := by
  simp only [singleKind?] at h
  split at h <;> cases h <;> simp

theorem IsLexeme.ne_finish {kind : Token.Kind} {word : List Char} (h : IsLexeme kind word) :
    kind ≠ .finish := by
  cases h with
  | number | identifier => simp
  | pair h => exact (pairKind?_ne h).2
  | single h => exact (singleKind?_ne h).2

theorem not_extends_of_isBlank {kind : Token.Kind} {word : List Char} {c : Char} (h : isBlank c) :
    ¬ Extends kind word c := by
  intro hext
  cases kind
  case number => simp [isBlank_of_isNameChar (isNameChar_of_isNumberChar hext)] at h
  case identifier => simp [isBlank_of_isNameChar hext] at h
  all_goals
    obtain ⟨-, rfl⟩ := hext
    exact absurd h (by decide)

/-- A lexeme that the rest of the text does not lengthen is what is cut off at the front. -/
theorem lexeme_of_leads {kind : Token.Kind} {c : Char} {word rest : List Char}
    (h : Leads kind (c :: word) rest) : lexeme c (word ++ rest) = .ok (kind, word.length) := by
  obtain ⟨hlexeme, hends⟩ := h
  cases hlexeme with
  | number hstart hall hpoint =>
      have hrun : (word ++ rest).takeWhile isNumberChar = word :=
        takeWhile_append_rest (List.forall_mem_cons.1 hall).2 hends
      simp [lexeme, startsNumber_append hstart, hrun, Nat.not_lt.2 hpoint]
  | identifier hstart hall =>
      have hrun : (word ++ rest).takeWhile isNameChar = word := takeWhile_append_rest hall hends
      simp [lexeme, startsNumber_of_isNameStart hstart, hstart, hrun]
  | @pair c d kind hpair =>
      obtain ⟨hnumber, hname⟩ := startsNumber_of_pairKind? hpair (d :: rest)
      simp [lexeme, hnumber, hname, hpair]
  | single hsingle =>
      obtain ⟨hnumber, hname⟩ := startsNumber_of_singleKind? hsingle ([] ++ rest)
      have hpair : ([] ++ rest).head?.bind (pairKind? c) = none := by
        rw [Option.bind_eq_none_iff]
        intro d hd
        have hnot := hends d hd
        rw [extends_single_iff hsingle] at hnot
        simpa using hnot
      simp only [lexeme, hnumber, hname, hpair, hsingle]
      rfl

theorem breaks_of_lexeme {c : Char} {cs : List Char} {fault : Fault} (hblank : ¬ isBlank c)
    (h : lexeme c cs = .error fault) : Breaks fault (c :: cs) := by
  simp only [lexeme] at h
  split at h
  next hstart =>
    split at h
    next hpoints =>
      cases h
      refine .run hstart ?_ hpoints
      simp [isNumberChar_of_startsNumber hstart]
    next => cases h
  next hnumber =>
    split at h
    next => cases h
    next hname =>
      split at h
      next => cases h
      next hpair =>
        split at h
        next => cases h
        next hsingle =>
          cases h
          refine .stray hblank ?_
          rintro kind word hword ⟨rest, hrest⟩
          cases hword with
          | number hstart =>
              obtain ⟨rfl, rfl⟩ := List.cons.inj hrest
              exact hnumber (startsNumber_append hstart)
          | identifier hstart =>
              obtain ⟨rfl, rfl⟩ := List.cons.inj hrest
              exact hname hstart
          | pair h =>
              obtain ⟨rfl, rfl⟩ := List.cons.inj hrest
              simp [h] at hpair
          | single h =>
              obtain ⟨rfl, rfl⟩ := List.cons.inj hrest
              simp [h] at hsingle

end Skirmish.Formula
