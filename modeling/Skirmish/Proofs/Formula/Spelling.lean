import Skirmish.Proofs.Formula.Surface

namespace Skirmish.Formula

def Token.spelling (t : Token) : Token.Kind × String := (t.kind, t.lexeme)

def Word.spelling (w : Word) : Token.Kind × String := (w.kind, w.lexeme.text)

variable {p q : Phrase} {ts : List Token} {e : Expr}

theorem Phrase.rank_injective : Function.Injective rank := by
  intro p q h
  rcases p with _ | (_ | _ | _ | _ | _) | _ | _ <;>
    rcases q with _ | (_ | _ | _ | _ | _) | _ | _ <;> first | rfl | cases h

theorem Phrase.rank_le (p : Phrase) : p.rank ≤ 7 := by
  rcases p with _ | (_ | _ | _ | _ | _) | _ | _ <;> decide

theorem Phrase.rank_tighter (h : p.rank < 7) : p.tighter.rank = p.rank + 1 := by
  rcases p with _ | (_ | _ | _ | _ | _) | _ | _ <;> first | rfl | simp [rank] at h

theorem Derives.of_tighter (h : Derives p.tighter ts e) : Derives p ts e := by
  cases p with
  | ternary => exact .plain h
  | binary l => exact .operand h
  | unary => exact .unsigned h
  | primary => exact h

theorem Derives.loosen (h : Derives q ts e) (hle : p.rank ≤ q.rank) : Derives p ts e := by
  induction hn : q.rank - p.rank generalizing p with
  | zero =>
      obtain rfl : p = q := Phrase.rank_injective (by omega)
      exact h
  | succ n ih =>
      have hq := q.rank_le
      have hp := p.rank_tighter (by omega)
      have htighter : Derives p.tighter ts e := ih (by omega) (by omega)
      exact htighter.of_tighter

theorem Derives.loosest (h : Derives q ts e) : Derives .ternary ts e :=
  h.loosen (Nat.zero_le _)

def Spell (ts : List Token) (ws : List Word) : Prop :=
  ts.map Token.spelling = ws.map Word.spelling

namespace Spell

variable {ws vs : List Word} {w : Word}

theorem append (h : Spell ts (ws ++ vs)) :
    ∃ ts₁ ts₂, ts = ts₁ ++ ts₂ ∧ Spell ts₁ ws ∧ Spell ts₂ vs := by
  rw [Spell, List.map_append] at h
  exact List.map_eq_append_iff.1 h

theorem cons (h : Spell ts (w :: ws)) :
    ∃ t us, ts = t :: us ∧ t.kind = w.kind ∧ t.lexeme = w.lexeme.text ∧ Spell us ws := by
  rw [Spell, List.map_cons] at h
  obtain ⟨t, us, rfl, ht, hus⟩ := List.map_eq_cons_iff.1 h
  obtain ⟨hkind, htext⟩ := Prod.mk.inj ht
  exact ⟨t, us, rfl, hkind, htext, hus⟩

theorem length_eq (h : Spell ts ws) : ts.length = ws.length := by
  simpa using congrArg List.length h

theorem nil (h : Spell ts []) : ts = [] := List.map_eq_nil_iff.1 h

theorem singleton (h : Spell ts [w]) :
    ∃ t, ts = [t] ∧ t.kind = w.kind ∧ t.lexeme = w.lexeme.text := by
  obtain ⟨t, us, rfl, hkind, htext, hus⟩ := h.cons
  exact ⟨t, by rw [hus.nil], hkind, htext⟩

end Spell

theorem derives_enclose {own place : Phrase} {ws : List Word}
    (hown : ∀ {ts}, Spell ts ws → Derives own ts e) (h : Spell ts (place.enclose own ws)) :
    Derives place ts e := by
  by_cases hle : place.rank ≤ own.rank
  · rw [Phrase.enclose, if_pos hle] at h
    exact (hown h).loosen hle
  · rw [Phrase.enclose, if_neg hle] at h
    obtain ⟨left, us, rfl, hleft, -, h⟩ := h.cons
    obtain ⟨us, vs, rfl, hwords, h⟩ := h.append
    obtain ⟨right, rfl, hright, -⟩ := h.singleton
    have hinner : Derives .ternary us e := (hown hwords).loosest
    have houter : Derives .primary (left :: (us ++ [right])) e := .parens hleft hinner hright
    exact houter.loosen place.rank_le

theorem Operator.spells (o : Operator) {t : Token} (hkind : t.kind = o.word.kind)
    (htext : t.lexeme = o.word.lexeme.text) : o.level.Spells t o.op :=
  ⟨o.mem, hkind, by simpa [word, Lexeme.text] using htext⟩

theorem Sign.spellsSign (s : Sign) {t : Token} (hkind : t.kind = s.word.kind)
    (htext : t.lexeme = s.word.lexeme.text) : t.SpellsSign s.op := by
  cases s <;> exact ⟨hkind, htext⟩

theorem Lexeme.decimal?_text (l : Lexeme .number) :
    Numeral.decimal? l.text.toList = some l.value := by
  simp [text, value]

mutual

theorem Surface.derives : ∀ (d : Surface) {ts : List Token}, Spell ts d.words →
    Derives d.phrase ts d.expr
  | .number l, _, h => by
      obtain ⟨t, rfl, hkind, htext⟩ := h.singleton
      exact .number hkind (by rw [htext, l.decimal?_text])
  | .name n, _, h => by
      obtain ⟨t, rfl, hkind, htext⟩ := h.singleton
      rw [Surface.expr, ← htext]
      exact .name hkind
  | .unary s d, _, h => by
      obtain ⟨t, us, rfl, hkind, htext, h⟩ := h.cons
      exact .unary (s.spellsSign hkind htext) (derives_enclose d.derives h)
  | .binary o l r, _, h => by
      obtain ⟨us, vs, rfl, hl, h⟩ := h.append
      obtain ⟨t, vs, rfl, hkind, htext, hr⟩ := h.cons
      exact .chain (derives_enclose l.derives hl) (o.spells hkind htext)
        (derives_enclose r.derives hr)
  | .ternary c t f, _, h => by
      obtain ⟨us, vs, rfl, hc, h⟩ := h.append
      obtain ⟨question, vs, rfl, hquestion, -, h⟩ := h.cons
      obtain ⟨vs, ws, rfl, ht, h⟩ := h.append
      obtain ⟨colon, ws, rfl, hcolon, -, hf⟩ := h.cons
      exact .ternary (derives_enclose c.derives hc) hquestion
        (t.derives ht).loosest hcolon (f.derives hf).loosest
  | .call f [], _, h => by
      obtain ⟨t, us, rfl, hkind, htext, h⟩ := h.cons
      obtain ⟨left, us, rfl, hleft, -, h⟩ := h.cons
      obtain ⟨right, rfl, hright, -⟩ := h.singleton
      rw [Surface.expr, ← htext]
      exact .callNone hkind hleft hright
  | .call f (d :: ds), _, h => by
      obtain ⟨t, us, rfl, hkind, htext, h⟩ := h.cons
      obtain ⟨left, us, rfl, hleft, -, h⟩ := h.cons
      obtain ⟨us, vs, rfl, hitems, h⟩ := h.append
      obtain ⟨right, rfl, hright, -⟩ := h.singleton
      rw [Surface.expr, ← htext]
      exact .call hkind hleft (Surface.derivesList (d :: ds) (List.cons_ne_nil d ds) hitems) hright

theorem Surface.derivesList : ∀ (ds : List Surface) {ts : List Token}, ds ≠ [] →
    Spell ts (Surface.itemWords ds) → DerivesList ts (Surface.exprs ds)
  | [], _, hne, _ => absurd rfl hne
  | [d], _, _, h => .one (d.derives h).loosest
  | d :: e :: ds, _, _, h => by
      obtain ⟨us, vs, rfl, hd, h⟩ := h.append
      obtain ⟨comma, vs, rfl, hcomma, -, h⟩ := h.cons
      have hitems := Surface.derivesList (e :: ds) (List.cons_ne_nil e ds) h
      exact .more (d.derives hd).loosest hcomma hitems

end

@[simp] theorem Phrase.enclose_ternary (own : Phrase) (ws : List Word) :
    ternary.enclose own ws = ws :=
  if_pos (Nat.zero_le _)

@[simp] theorem Phrase.enclose_self (p : Phrase) (ws : List Word) : p.enclose p ws = ws :=
  if_pos le_rfl

theorem Phrase.length_enclose_le (p own : Phrase) (ws : List Word) :
    (p.enclose own ws).length ≤ ws.length + 2 := by
  unfold enclose
  split <;> simp

theorem Phrase.length_enclose_tighter (p own : Phrase) (ws : List Word) :
    (p.enclose own ws).length ≤ (p.tighter.enclose own ws).length := by
  have hrank : p.rank ≤ p.tighter.rank := by
    rcases p with _ | (_ | _ | _ | _ | _) | _ | _ <;> decide
  by_cases hown : p.tighter.rank ≤ own.rank
  · rw [enclose, enclose, if_pos hown, if_pos (hrank.trans hown)]
  · rw [enclose.eq_def p.tighter, if_neg hown]
    simpa using p.length_enclose_le own ws

mutual

/-- A phrase has at least as many tokens as its expression has words in that place. -/
theorem Derives.length_le : ∀ {p : Phrase} {ts : List Token} {e : Expr}, Derives p ts e →
    ∀ d : Surface, d.expr = e → (p.enclose d.phrase d.words).length ≤ ts.length
  | _, _, _, .plain h, d, hd =>
      (Phrase.ternary.length_enclose_tighter _ _).trans (h.length_le d hd)
  | _, _, _, .operand (l := l) h, d, hd =>
      ((Phrase.binary l).length_enclose_tighter _ _).trans (h.length_le d hd)
  | _, _, _, .unsigned h, d, hd =>
      (Phrase.unary.length_enclose_tighter _ _).trans (h.length_le d hd)
  | _, _, _, .ternary hc _ ht _ hf, d, hd => by
      cases d with
      | ternary c t f =>
          obtain ⟨hc', ht', hf'⟩ := Expr.ternary.inj hd
          have hclen := hc.length_le c hc'
          have htlen := ht.length_le t ht'
          have hflen := hf.length_le f hf'
          simp only [Phrase.enclose_ternary] at htlen hflen
          simp only [Surface.words, Phrase.enclose_ternary, List.length_append, List.length_cons]
          omega
      | _ => cases hd
  | _, _, _, .chain hl hop hr, d, hd => by
      cases d with
      | binary o l r =>
          obtain ⟨rfl, hl', hr'⟩ := Expr.binary.inj hd
          have hllen := hl.length_le l hl'
          have hrlen := hr.length_le r hr'
          rw [← Level.eq_of_mem_operators o.mem hop.1] at hllen hrlen ⊢
          simp only [Surface.words, Surface.phrase_binary, Phrase.enclose_self, List.length_append,
            List.length_cons]
          omega
      | _ => cases hd
  | _, _, _, .unary _ h, d, hd => by
      cases d with
      | unary s d =>
          obtain ⟨-, hd⟩ := Expr.unary.inj hd
          simpa [Surface.words, Surface.phrase] using h.length_le d hd
      | _ => cases hd
  | _, _, _, .number .., d, hd => by
      cases d with
      | number => exact le_rfl
      | _ => cases hd
  | _, _, _, .name .., d, hd => by
      cases d with
      | name => exact le_rfl
      | _ => cases hd
  | _, _, _, .callNone .., d, hd => by
      cases d with
      | call f args =>
          obtain ⟨-, hargs⟩ := Expr.call.inj hd
          cases args with
          | nil => exact le_rfl
          | cons => cases hargs
      | _ => cases hd
  | _, _, _, .call _ _ h _, d, hd => by
      cases d with
      | call f args =>
          obtain ⟨-, hargs⟩ := Expr.call.inj hd
          simpa [Surface.words, Surface.phrase] using h.length_le args hargs
      | _ => cases hd
  | _, _, _, .parens _ h _, d, hd => by
      have hlen := h.length_le d hd
      have houter := Phrase.primary.length_enclose_le d.phrase d.words
      simp only [Phrase.enclose_ternary] at hlen
      simp only [List.length_append, List.length_cons, List.length_nil]
      omega

theorem DerivesList.length_le : ∀ {ts : List Token} {es : List Expr}, DerivesList ts es →
    ∀ ds : List Surface, Surface.exprs ds = es → (Surface.itemWords ds).length ≤ ts.length
  | _, _, .one h, ds, hds => by
      match ds with
      | [] => cases hds
      | [d] => simpa [Surface.itemWords] using h.length_le d (List.cons.inj hds).1
      | d :: e :: ds => cases hds
  | _, _, .more h _ hs, ds, hds => by
      match ds with
      | [] => cases hds
      | [d] =>
          obtain ⟨-, rfl⟩ := List.cons.inj hds
          cases hs
      | d :: e :: ds =>
          obtain ⟨hd, hds⟩ := List.cons.inj hds
          have hlen := h.length_le d hd
          have hslen := hs.length_le (e :: ds) hds
          simp only [Phrase.enclose_ternary] at hlen
          simp only [Surface.itemWords, List.length_append, List.length_cons]
          omega

end

end Skirmish.Formula
