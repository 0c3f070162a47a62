import Skirmish.Proofs.Formula.Lexemes
import Skirmish.Proofs.Fallible

namespace Skirmish.Formula

open Text

/-- The tokens are cut off the front of a text that goes on with the rest; so many characters stand
before it. -/
inductive Cuts (rest : List Char) : Nat → List Char → List Token → Prop
  | done {position : Nat} : Cuts rest position [] []
  | blank {position : Nat} {c : Char} {front : List Char} {ts : List Token} (hc : isBlank c)
      (h : Cuts rest (position + 1) front ts) : Cuts rest position (c :: front) ts
  | token {position : Nat} {kind : Token.Kind} {word front : List Char} {ts : List Token}
      (hword : Leads kind word (front ++ rest))
      (h : Cuts rest (position + word.length) front ts) :
      Cuts rest position (word ++ front) (⟨kind, String.ofList word, position⟩ :: ts)

variable {position : Nat} {rest front word : List Char} {kind : Token.Kind} {ts : List Token}

theorem scanFrom_append (front rest : List Char) (position : Nat) :
    scanFrom position front.length (front ++ rest) = scanFrom (position + front.length) 0 rest := by
  induction front generalizing position with
  | nil => rfl
  | cons c front ih =>
      simp only [List.length_cons, List.cons_append, scanFrom, ih]
      congr 1
      omega

theorem scanFrom_token (h : Leads kind word rest) (position : Nat) :
    scanFrom position 0 (word ++ rest) = (do
      let ts ← scanFrom (position + word.length) 0 rest
      return ⟨kind, String.ofList word, position⟩ :: ts) := by
  obtain ⟨c, cs, rfl, hblank⟩ := h.isLexeme.exists_cons
  have hscan := scanFrom_append cs rest (position + 1)
  rw [Nat.add_right_comm, Nat.add_assoc] at hscan
  simp [scanFrom, hblank, lexeme_of_leads h, hscan]

theorem scanFrom_error {c : Char} {cs : List Char} {fault : Fault} (hblank : isBlank c = false)
    (h : lexeme c cs = .error fault) (position : Nat) :
    scanFrom position 0 (c :: cs) = .error (.malformed fault position) := by
  simp [scanFrom, hblank, h]

namespace Cuts

theorem scanFrom (h : Cuts rest position front ts) :
    scanFrom position 0 (front ++ rest) = (do
      let us ← scanFrom (position + front.length) 0 rest
      return ts ++ us) := by
  induction h with
  | done => exact (bind_pure _).symm
  | @blank position c front ts hc _ ih =>
      simp [Formula.scanFrom, hc, ih, Nat.add_assoc, Nat.add_comm 1]
  | token hword _ ih => simp [scanFrom_token hword, ih, Nat.add_assoc]

theorem alone (h : Cuts rest position front ts) : Cuts [] position front ts := by
  induction h with
  | done => exact .done
  | blank hc _ ih => exact .blank hc ih
  | @token position kind word front ts hword _ ih =>
      refine .token ⟨hword.isLexeme, fun c hc => hword.ends c ?_⟩ ih
      cases front with
      | nil => simp at hc
      | cons d front => exact hc

theorem before_blank {c : Char} (h : Cuts [] position front ts) (hc : isBlank c)
    (rest : List Char) : Cuts (c :: rest) position front ts := by
  induction h with
  | done => exact .done
  | blank hd _ ih => exact .blank hd ih
  | @token position kind word front ts hword _ ih =>
      refine .token ⟨hword.isLexeme, fun d hd => ?_⟩ ih
      cases front with
      | nil =>
          obtain rfl : c = d := by simpa using hd
          exact not_extends_of_isBlank hc
      | cons e front => exact hword.ends d (by simpa using hd)

theorem append {back : List Char} {us : List Token} (h : Cuts (back ++ rest) position front ts)
    (hs : Cuts rest (position + front.length) back us) :
    Cuts rest position (front ++ back) (ts ++ us) := by
  generalize hbehind : back ++ rest = behind at h
  induction h with
  | done => exact hs
  | @blank position c front ts hc _ ih =>
      refine .blank hc (ih ?_)
      rwa [Nat.add_assoc, Nat.add_comm 1]
  | @token position kind word front ts hword _ ih =>
      rw [List.append_assoc, List.cons_append]
      refine .token ?_ (ih ?_)
      · rwa [List.append_assoc, hbehind]
      · rwa [List.length_append, ← Nat.add_assoc] at hs

theorem split {before after : List Token} {t : Token}
    (h : Cuts rest position front (before ++ t :: after)) :
    ∃ start back, front = start ++ back ∧ t.position = position + start.length ∧
      Cuts (back ++ rest) position start before := by
  generalize hts : before ++ t :: after = ts at h
  induction h generalizing before with
  | done => simp at hts
  | @blank position c front ts hc _ ih =>
      obtain ⟨start, back, rfl, hposition, hstart⟩ := ih hts
      refine ⟨c :: start, back, rfl, ?_, .blank hc hstart⟩
      rw [hposition, List.length_cons]
      omega
  | @token position kind word front ts hword h ih =>
      cases before with
      | nil =>
          obtain ⟨rfl, -⟩ := List.cons.inj hts
          exact ⟨[], word ++ front, rfl, rfl, .done⟩
      | cons u before =>
          obtain ⟨rfl, htail⟩ := List.cons.inj hts
          obtain ⟨start, back, rfl, hposition, hstart⟩ := ih htail
          refine ⟨word ++ start, back, by simp, ?_, .token (by simpa using hword) hstart⟩
          rw [hposition, List.length_append]
          omega

end Cuts

theorem exists_cuts (cs : List Char) (position : Nat) :
    ∃ front rest ts, cs = front ++ rest ∧ Cuts rest position front ts ∧
      ∀ c ∈ rest.head?, isBlank c = false ∧ ∃ fault, lexeme c rest.tail = .error fault := by
  induction hn : cs.length using Nat.strong_induction_on generalizing cs position with
  | _ n ih =>
      cases cs with
      | nil => exact ⟨[], [], [], rfl, .done, by simp⟩
      | cons c cs =>
          by_cases hblank : isBlank c
          · obtain ⟨front, rest, ts, rfl, hcuts, hrest⟩ := ih cs.length (by simp [← hn]) cs _ rfl
            exact ⟨c :: front, rest, ts, rfl, .blank hblank hcuts, hrest⟩
          · cases hlex : lexeme c cs with
            | error fault =>
                refine ⟨[], c :: cs, [], rfl, .done, ?_⟩
                rintro _ ⟨⟩
                exact ⟨by simpa using hblank, fault, hlex⟩
            | ok cut =>
                obtain ⟨word, more, rfl, -, hleads⟩ := leads_of_lexeme hlex
                have hshort : more.length < n := by
                  rw [← hn, List.length_cons, List.length_append]
                  omega
                obtain ⟨front, rest, ts, rfl, hcuts, hrest⟩ := ih more.length hshort more _ rfl
                exact ⟨c :: word ++ front, rest, _, by simp, .token hleads hcuts, hrest⟩

def Token.Covers (t : Token) (i : Nat) : Prop :=
  t.position ≤ i ∧ i < t.position + t.lexeme.length

/-- The tokens are all of the text but for blanks. The token for the end, and it alone, stands
last, where the text ends. -/
structure Accounts (text : List Char) (ts : List Token) : Prop where
  increasing : ts.Pairwise fun t u => t.position < u.position
  apart : ts.Pairwise fun t u => t.position + t.lexeme.length ≤ u.position
  slice : ∀ t ∈ ts, t.lexeme.toList = (text.drop t.position).take t.lexeme.length
  isLexeme : ∀ t ∈ ts, t.kind ≠ .finish → IsLexeme t.kind t.lexeme.toList
  blank : ∀ i c, text[i]? = some c → (∀ t ∈ ts, ¬ t.Covers i) → isBlank c
  finish : ∃ body, ts = body ++ [⟨.finish, "", text.length⟩] ∧ ∀ t ∈ body, t.kind ≠ .finish
  munch : ∀ t ∈ ts, ∀ c, text[t.position + t.lexeme.length]? = some c →
    ¬ Extends t.kind t.lexeme.toList c

namespace Cuts

theorem exists_leads (h : Cuts rest position front ts) : ∀ t ∈ ts, ∃ before after,
    front = before ++ (t.lexeme.toList ++ after) ∧ t.position = position + before.length ∧
      Leads t.kind t.lexeme.toList (after ++ rest) := by
  induction h with
  | done => simp
  | @blank position c front ts _ _ ih =>
      intro t ht
      obtain ⟨before, after, rfl, hposition, hleads⟩ := ih t ht
      refine ⟨c :: before, after, rfl, ?_, hleads⟩
      rw [hposition, List.length_cons]
      omega
  | @token position kind word front ts hword _ ih =>
      rw [List.forall_mem_cons]
      refine ⟨⟨[], front, by simp, rfl, by simpa using hword⟩, fun t ht => ?_⟩
      obtain ⟨before, after, rfl, hposition, hleads⟩ := ih t ht
      refine ⟨word ++ before, after, by simp, ?_, hleads⟩
      rw [hposition, List.length_append]
      omega

theorem apart (h : Cuts rest position front ts) :
    ts.Pairwise fun t u => t.position + t.lexeme.length ≤ u.position := by
  induction h with
  | done => exact .nil
  | blank _ _ ih => exact ih
  | token _ h ih =>
      refine .cons (fun t ht => ?_) ih
      obtain ⟨before, after, -, hposition, -⟩ := h.exists_leads t ht
      simp [hposition]

theorem isBlank (h : Cuts rest position front ts) {i : Nat} {c : Char} (hc : front[i]? = some c)
    (hout : ∀ t ∈ ts, ¬ t.Covers (position + i)) : isBlank c := by
  induction h generalizing i with
  | done => simp at hc
  | blank hblank _ ih =>
      cases i with
      | zero =>
          obtain rfl := Option.some.inj hc
          exact hblank
      | succ i => exact ih hc (by simpa [Nat.add_assoc, Nat.add_comm 1] using hout)
  | @token position kind word front ts _ _ ih =>
      rw [List.forall_mem_cons] at hout
      have hi : word.length ≤ i := by simpa [Token.Covers] using hout.1
      rw [List.getElem?_append_right hi] at hc
      refine ih hc ?_
      rw [Nat.add_assoc, Nat.add_sub_cancel' hi]
      exact hout.2

end Cuts

theorem Cuts.leads {text : List Char} {t : Token} (h : Cuts [] 0 text ts) (ht : t ∈ ts) :
    t.lexeme.toList = (text.drop t.position).take t.lexeme.length ∧
      t.position + t.lexeme.length ≤ text.length ∧
      Leads t.kind t.lexeme.toList (text.drop (t.position + t.lexeme.length)) := by
  obtain ⟨before, after, rfl, hposition, hleads⟩ := h.exists_leads t ht
  rw [List.append_nil] at hleads
  rw [Nat.zero_add] at hposition
  have hdrop :
      (before ++ (t.lexeme.toList ++ after)).drop t.position = t.lexeme.toList ++ after := by
    rw [hposition, List.drop_left]
  rw [← List.drop_drop, hdrop, ← String.length_toList]
  exact ⟨by simp, by simp [hposition], by simpa using hleads⟩

theorem accounts_of_cuts {text : List Char} {body : List Token} (h : Cuts [] 0 text body) :
    Accounts text (body ++ [⟨.finish, "", text.length⟩]) where
  increasing := by
    have hlong : ∀ t ∈ body, 0 < t.lexeme.length := by
      intro t ht
      obtain ⟨c, cs, hword, -⟩ := (h.leads ht).2.2.isLexeme.exists_cons
      simp [← String.length_toList, hword]
    refine List.pairwise_append.2 ⟨h.apart.imp_of_mem ?_, List.pairwise_singleton _ _, ?_⟩
    · intro t u ht _ hapart
      have := hlong t ht
      omega
    · intro t ht u hu
      obtain rfl := List.mem_singleton.1 hu
      have := hlong t ht
      have := (h.leads ht).2.1
      simp only
      omega
  apart := by
    refine List.pairwise_append.2 ⟨h.apart, List.pairwise_singleton _ _, fun t ht u hu => ?_⟩
    obtain rfl := List.mem_singleton.1 hu
    exact (h.leads ht).2.1
  slice := by
    simpa [or_imp, forall_and] using fun t ht => (h.leads ht).1
  isLexeme := by
    intro t ht hkind
    rcases List.mem_append.1 ht with ht | ht
    · exact (h.leads ht).2.2.isLexeme
    · simp_all
  blank i c hc hout := by
    refine h.isBlank hc fun t ht => ?_
    simpa using hout t (List.mem_append_left _ ht)
  finish := ⟨body, rfl, fun t ht => (h.leads ht).2.2.isLexeme.ne_finish⟩
  munch := by
    intro t ht c hc
    rcases List.mem_append.1 ht with ht | ht
    · exact (h.leads ht).2.2.ends c (by simpa using hc)
    · simp_all

theorem tokenize_of_cuts {formula : String} (h : Cuts [] 0 formula.toList ts) :
    tokenize formula = .ok (ts ++ [⟨.finish, "", formula.toList.length⟩]) := by
  simpa [tokenize, scanFrom] using h.scanFrom

theorem tokenize_error_of_cuts {formula : String} {c : Char} {cs : List Char} {fault : Fault}
    (htext : formula.toList = front ++ c :: cs) (h : Cuts (c :: cs) 0 front ts)
    (hblank : isBlank c = false) (hlex : lexeme c cs = .error fault) :
    tokenize formula = .error (.malformed fault front.length) := by
  simp [tokenize, htext, h.scanFrom, scanFrom_error hblank hlex]

theorem exists_cuts_of_tokenize {formula : String} (h : tokenize formula = .ok ts) :
    ∃ body, ts = body ++ [⟨.finish, "", formula.toList.length⟩] ∧
      Cuts [] 0 formula.toList body := by
  obtain ⟨front, rest, body, htext, hcuts, hrest⟩ := exists_cuts formula.toList 0
  cases rest with
  | nil =>
      rw [List.append_nil] at htext
      subst htext
      exact ⟨body, Except.ok.inj (h.symm.trans (tokenize_of_cuts hcuts)), hcuts⟩
  | cons c cs =>
      obtain ⟨hblank, fault, hlex⟩ := hrest c rfl
      cases (tokenize_error_of_cuts htext hcuts hblank hlex).symm.trans h

theorem accounts_of_tokenize {formula : String} (h : tokenize formula = .ok ts) :
    Accounts formula.toList ts := by
  obtain ⟨body, rfl, hcuts⟩ := exists_cuts_of_tokenize h
  exact accounts_of_cuts hcuts

/-- The front of the text as far as the position has tokens, and a fault stands there. -/
def FailsAt (formula : String) (fault : Fault) (position : Nat) : Prop :=
  (∃ ts, tokenize (String.ofList (formula.toList.take position)) = .ok ts) ∧
    Breaks fault (formula.toList.drop position)

theorem failsAt_of_tokenize {formula : String} {e : Error} (h : tokenize formula = .error e) :
    ∃ fault position, e = .malformed fault position ∧ FailsAt formula fault position := by
  obtain ⟨front, rest, body, htext, hcuts, hrest⟩ := exists_cuts formula.toList 0
  cases rest with
  | nil =>
      rw [List.append_nil] at htext
      subst htext
      cases (tokenize_of_cuts hcuts).symm.trans h
  | cons c cs =>
      obtain ⟨hblank, fault, hlex⟩ := hrest c rfl
      obtain rfl := Except.error.inj ((tokenize_error_of_cuts htext hcuts hblank hlex).symm.trans h)
      have htake : formula.toList.take front.length = front := by simp [htext]
      have hdrop : formula.toList.drop front.length = c :: cs := by simp [htext]
      refine ⟨fault, front.length, rfl, ?_, ?_⟩
      · rw [htake]
        exact ⟨_, tokenize_of_cuts (by simpa using hcuts.alone)⟩
      · rw [hdrop]
        exact breaks_of_lexeme (by simp [hblank]) hlex

/-- The tokens of a text account for all of it. Where there are none, the front of the text has
tokens and a fault stands behind it. -/
theorem tokenize_accounts (formula : String) :
    (∀ ts, tokenize formula = .ok ts → Accounts formula.toList ts) ∧
      ∀ e, tokenize formula = .error e →
        ∃ fault position, e = .malformed fault position ∧ FailsAt formula fault position :=
  ⟨fun _ => accounts_of_tokenize, fun _ => failsAt_of_tokenize⟩

end Skirmish.Formula
