import Skirmish.Proofs.Formula.Printing

namespace Skirmish.Formula

/-- Some words complete the tokens to a list of the sort, wherever they stand. -/
def Completable (P : List Token → Prop) (before : List Token) : Prop :=
  ∃ ws : List Word, ∀ us, Spell us ws → P (before ++ us)

namespace Completable

variable {P Q : List Token → Prop} {before : List Token}

theorem then_words (h : Completable P before) (front : List Token) (ws : List Word)
    (hPQ : ∀ ts us, P ts → Spell us ws → Q (front ++ (ts ++ us))) :
    Completable Q (front ++ before) := by
  obtain ⟨vs, hvs⟩ := h
  refine ⟨vs ++ ws, fun us hus => ?_⟩
  obtain ⟨us, more, rfl, hus, hmore⟩ := hus.append
  simpa using hPQ (before ++ us) more (hvs us hus) hmore

theorem after (h : Completable P before) (front : List Token) (hPQ : ∀ ts, P ts → Q (front ++ ts)) :
    Completable Q (front ++ before) := by
  obtain ⟨ws, hws⟩ := h
  refine ⟨ws, fun us hus => ?_⟩
  rw [List.append_assoc]
  exact hPQ _ (hws us hus)

theorem mono (h : Completable P before) (hPQ : ∀ ts, P ts → Q ts) : Completable Q before :=
  h.after [] hPQ

end Completable

def IsPhrase (p : Phrase) (ts : List Token) : Prop := ∃ e, Derives p ts e

/-- The tokens begin a phrase. -/
abbrev Viable (p : Phrase) : List Token → Prop := Completable (IsPhrase p)

def IsItems (ts : List Token) : Prop :=
  ∃ front close, ts = front ++ [close] ∧ close.kind = .rightParen ∧
    (front = [] ∨ ∃ es, DerivesList front es)

def IsMore (ts : List Token) : Prop :=
  ∃ front close, ts = front ++ [close] ∧ close.kind = .rightParen ∧
    ∀ item e, Derives .ternary item e → ∃ es, DerivesList (item ++ front) es

def Word.one : Word := ⟨.number, ['1'], .number rfl (List.forall_mem_singleton.2 rfl) (by simp)⟩

variable {p : Phrase} {l : Level} {cs ts us before first : List Token} {c d e : Expr}
  {left right t : Token}

theorem isPhrase_one (p : Phrase) (h : Spell us [.one]) : IsPhrase p us := by
  have hprimary : Derives .primary us _ := (Surface.number Word.one.lexeme).derives h
  exact ⟨_, hprimary.loosen p.rank_le⟩

theorem viable_nil (p : Phrase) : Viable p [] :=
  ⟨[.one], fun _ hus => isPhrase_one p hus⟩

theorem Derives.viable (d : Derives p ts e) : Viable p ts := by
  refine ⟨[], fun us hus => ⟨e, ?_⟩⟩
  rwa [hus.nil, List.append_nil]

theorem viable_plain (h : Viable (.binary .or) before) : Viable .ternary before := by
  apply h.mono
  rintro ts ⟨e, d⟩
  exact ⟨e, .plain d⟩

theorem viable_operand (h : Viable l.operand before) : Viable (.binary l) before := by
  apply h.mono
  rintro ts ⟨e, d⟩
  exact ⟨e, .operand d⟩

theorem viable_unsigned (h : Viable .primary before) : Viable .unary before := by
  apply h.mono
  rintro ts ⟨e, d⟩
  exact ⟨e, .unsigned d⟩

theorem viable_ifTrue (dc : Derives (.binary .or) cs c) (hl : left.kind = .question)
    (h : Viable .ternary before) : Viable .ternary (cs ++ left :: before) := by
  rw [List.append_cons]
  apply h.then_words _ [.colon, .one]
  rintro ts us ⟨t, dt⟩ hus
  obtain ⟨colon, us, rfl, hcolon, -, hus⟩ := hus.cons
  obtain ⟨f, df⟩ := isPhrase_one .ternary hus
  refine ⟨.ternary c t f, ?_⟩
  simpa using Derives.ternary dc hl dt hcolon df

theorem viable_ifFalse (dc : Derives (.binary .or) cs c) (hl : left.kind = .question)
    (dt : Derives .ternary ts d) (hr : right.kind = .colon) (h : Viable .ternary before) :
    Viable .ternary (cs ++ left :: (ts ++ right :: before)) := by
  have hafter : Viable .ternary (cs ++ left :: (ts ++ [right]) ++ before) := by
    apply h.after
    rintro fs ⟨f, df⟩
    refine ⟨.ternary c d f, ?_⟩
    simpa using Derives.ternary dc hl dt hr df
  simpa using hafter

theorem viable_chain {op : BinaryOp} (dl : Derives (.binary l) ts d) (ht : l.Spells t op)
    (h : Viable l.operand before) : Viable (.binary l) (ts ++ t :: before) := by
  rw [List.append_cons]
  apply h.after
  rintro rs ⟨e, dr⟩
  refine ⟨.binary op d e, ?_⟩
  simpa using Derives.chain dl ht dr

theorem viable_unary {op : UnaryOp} (ht : t.SpellsSign op) (h : Viable .unary before) :
    Viable .unary (t :: before) := by
  apply h.after [t]
  rintro ts ⟨e, d⟩
  exact ⟨.unary op e, .unary ht d⟩

theorem viable_parens (hl : left.kind = .leftParen) (h : Viable .ternary before) :
    Viable .primary (left :: before) := by
  apply h.then_words [left] [.rightParen]
  rintro ts us ⟨e, d⟩ hus
  obtain ⟨right, rfl, hr, -⟩ := hus.singleton
  exact ⟨e, .parens hl d hr⟩

theorem viable_call (ht : t.kind = .identifier) (hl : left.kind = .leftParen)
    (h : Completable IsItems before) : Viable .primary (t :: left :: before) := by
  apply h.after [t, left]
  rintro _ ⟨front, close, rfl, hclose, rfl | ⟨es, des⟩⟩
  · exact ⟨_, .callNone ht hl hclose⟩
  · exact ⟨_, .call ht hl des hclose⟩

theorem completable_item (h : Viable .ternary before) : Completable IsItems before := by
  apply h.then_words [] [.rightParen]
  rintro ts us ⟨e, d⟩ hus
  obtain ⟨right, rfl, hr, -⟩ := hus.singleton
  exact ⟨ts, right, rfl, hr, .inr ⟨[e], .one d⟩⟩

theorem completable_items (d : Derives .ternary first e) (h : Completable IsMore before) :
    Completable IsItems (first ++ before) := by
  apply h.after
  rintro _ ⟨front, close, rfl, hclose, hitems⟩
  exact ⟨first ++ front, close, by simp, hclose, .inr (hitems first e d)⟩

theorem completable_close : Completable IsMore [] := by
  refine ⟨[.rightParen], fun us hus => ?_⟩
  obtain ⟨right, rfl, hr, -⟩ := hus.singleton
  refine ⟨[], right, rfl, hr, fun item e d => ⟨[e], ?_⟩⟩
  rw [List.append_nil]
  exact .one d

theorem completable_next (hc : t.kind = .comma) (h : Viable .ternary before) :
    Completable IsMore (t :: before) := by
  apply h.then_words [t] [.rightParen]
  rintro ts us ⟨e, d⟩ hus
  obtain ⟨right, rfl, hr, -⟩ := hus.singleton
  exact ⟨t :: ts, right, rfl, hr, fun item e' d' => ⟨[e', e], .more d' hc (.one d)⟩⟩

theorem completable_more (hc : t.kind = .comma) (d : Derives .ternary first e)
    (h : Completable IsMore before) : Completable IsMore (t :: (first ++ before)) := by
  apply h.after (t :: first)
  rintro _ ⟨front, close, rfl, hclose, hitems⟩
  refine ⟨t :: (first ++ front), close, by simp, hclose, fun item e' d' => ?_⟩
  obtain ⟨es, des⟩ := hitems first e d
  exact ⟨e' :: es, .more d' hc des⟩

def Gap.space : Gap := ⟨[' '], List.cons_ne_nil _ _, List.forall_mem_singleton.2 rfl⟩

variable {formula : String} {after : List Token}

theorem cuts_before (h : tokenize formula = .ok (before ++ t :: after)) :
    Cuts [] 0 (formula.toList.take t.position) before := by
  obtain ⟨body, hbody, hcuts⟩ := exists_cuts_of_tokenize h
  rcases List.eq_nil_or_concat after with rfl | ⟨others, last, rfl⟩
  · obtain ⟨rfl, hlast⟩ := List.append_inj' hbody rfl
    obtain rfl := List.singleton_inj.1 hlast
    simpa using hcuts
  · rw [List.concat_eq_append, ← List.cons_append, ← List.append_assoc] at hbody
    obtain ⟨rfl, -⟩ := List.append_inj' hbody rfl
    obtain ⟨start, back, htext, hposition, hstart⟩ := hcuts.split
    have htake : formula.toList.take t.position = start := by simp [htext, hposition]
    rw [htake]
    exact hstart.alone

/-- Whatever words are to follow the tokens before one, the text before it goes on so. -/
theorem exists_completed (h : tokenize formula = .ok (before ++ t :: after)) (ws : List Word) :
    ∃ completed us last, formula.toList.take t.position <+: completed.toList ∧ Spell us ws ∧
      tokenize completed = .ok (before ++ us ++ [last]) ∧
      Ended (before ++ us ++ [last]) (before ++ us) last := by
  have hfront := cuts_before h
  generalize formula.toList.take t.position = start at hfront ⊢
  obtain ⟨us, hback, hspell⟩ := exists_cuts_spread (fun _ => Gap.space) ws (0 + start.length + 1)
  have hspace : Text.isBlank ' ' = true := rfl
  have hall := Cuts.append (hfront.before_blank hspace _) (.blank hspace hback)
  rw [← String.toList_ofList (l := start ++ _)] at hall
  obtain ⟨last, htokenize, hended⟩ := ended_of_cuts hall
  exact ⟨_, us, last, by simp, hspell, htokenize, hended⟩

theorem exists_formula (h : tokenize formula = .ok (before ++ t :: after))
    (hv : Viable .ternary before) :
    ∃ completed more e, formula.toList.take t.position <+: completed.toList ∧
      tokenize completed = .ok (before ++ more) ∧ parse completed = .ok e := by
  obtain ⟨ws, hws⟩ := hv
  obtain ⟨completed, us, last, hprefix, hus, htokenize, hended⟩ := exists_completed h ws
  obtain ⟨e, d⟩ := hws us hus
  refine ⟨completed, us ++ [last], e, hprefix, ?_, ?_⟩
  · rw [htokenize, List.append_assoc]
  · simpa [parse, htokenize] using parseTokens_of_derives hended d

end Skirmish.Formula
