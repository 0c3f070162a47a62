import Skirmish.Proofs.Formula.ParserCompleteness
import Skirmish.Proofs.Formula.Spelling

namespace Skirmish.Formula

variable {rest front : List Char} {position : Nat} {ts : List Token}

theorem Cuts.blanks {gap : List Char} (hgap : ∀ c ∈ gap, Text.isBlank c)
    (h : Cuts rest (position + gap.length) front ts) : Cuts rest position (gap ++ front) ts := by
  induction gap generalizing position with
  | nil => exact h
  | cons c gap ih =>
      obtain ⟨hc, hgap⟩ := List.forall_mem_cons.1 hgap
      refine .blank hc (ih hgap ?_)
      rwa [Nat.add_assoc, Nat.add_comm 1]

theorem Word.leads_last (w : Word) : Leads w.kind w.lexeme.chars [] where
  isLexeme := w.lexeme.isLexeme
  ends := by simp

theorem Word.leads_gap (w : Word) (gap : Gap) (rest : List Char) :
    Leads w.kind w.lexeme.chars (gap.chars ++ rest) where
  isLexeme := w.lexeme.isLexeme
  ends c hc := by
    obtain ⟨d, ds, hgap⟩ := List.exists_cons_of_ne_nil gap.ne_nil
    obtain rfl : d = c := by simpa [hgap] using hc
    exact not_extends_of_isBlank (gap.isBlank d (by simp [hgap]))

theorem exists_cuts_spread (gap : Nat → Gap) (ws : List Word) (position : Nat) :
    ∃ ts, Cuts [] position (spread gap ws) ts ∧ Spell ts ws := by
  induction ws generalizing gap position with
  | nil => exact ⟨[], .done, rfl⟩
  | cons w ws ih =>
      cases ws with
      | nil =>
          refine ⟨[⟨w.kind, w.lexeme.text, position⟩], ?_, rfl⟩
          rw [spread, ← List.append_nil w.lexeme.chars]
          simpa [Lexeme.text] using Cuts.token w.leads_last .done
      | cons v ws =>
          obtain ⟨ts, hcuts, hspell⟩ := ih (fun n => gap (n + 1))
            (position + w.lexeme.chars.length + (gap 0).chars.length)
          have hafter := hcuts.blanks (gap 0).isBlank
          refine ⟨⟨w.kind, w.lexeme.text, position⟩ :: ts, ?_, ?_⟩
          · rw [spread, List.append_assoc]
            exact .token (by simpa using w.leads_gap (gap 0) _) hafter
          · simpa [Spell, Token.spelling, Word.spelling] using hspell

theorem tokenize_print (d : Surface) (gap : Nat → Gap) :
    ∃ body last, tokenize (d.print gap) = .ok (body ++ [last]) ∧
      Ended (body ++ [last]) body last ∧ Spell body d.words := by
  obtain ⟨body, hcuts, hspell⟩ := exists_cuts_spread gap d.words 0
  have hprint : Cuts [] 0 (d.print gap).toList body := by simpa [Surface.print] using hcuts
  obtain ⟨last, htokenize, hended⟩ := ended_of_cuts hprint
  exact ⟨body, last, htokenize, hended, hspell⟩

/-- However the words of an expression are spread, the text is read as the expression, and no
formula that is read as it has fewer tokens. -/
theorem parse_print (d : Surface) (gap : Nat → Gap) :
    parse (d.print gap) = .ok d.expr ∧
      ∀ formula, parse formula = .ok d.expr → ∃ ts us, tokenize (d.print gap) = .ok ts ∧
        tokenize formula = .ok us ∧ ts.length ≤ us.length := by
  obtain ⟨body, last, htokenize, hended, hspell⟩ := tokenize_print d gap
  have hderives : Derives .ternary body d.expr := (d.derives hspell).loosest
  refine ⟨by simp [parse, htokenize, parseTokens_of_derives hended hderives], ?_⟩
  intro formula hparse
  obtain ⟨us, hus, hparse⟩ := Fallible.bind_eq_ok.1 hparse
  obtain ⟨others, last', hothers⟩ := tokenize_ended hus
  have hlen := (derives_of_parseTokens hothers hparse).length_le d rfl
  refine ⟨_, us, htokenize, hus, ?_⟩
  rw [hothers.eq, List.length_append, List.length_append, hspell.length_eq]
  simpa using hlen

/-- Of the operands at its own level, only the one on the right stands in parentheses. -/
example :
    let gap : Gap := ⟨[' '], List.cons_ne_nil _ _, List.forall_mem_singleton.2 rfl⟩
    let x : Surface := .name ⟨['x'], .identifier rfl (List.forall_mem_nil _)⟩
    let minus : Operator := ⟨.additive, .sub, by decide⟩
    (Surface.binary minus (.binary minus x x) (.binary minus x (.unary .neg x))).print
      (fun _ => gap) = "x - x - ( x - - x )" := by
  decide

end Skirmish.Formula
