import Skirmish.Proofs.Battle.Waiting

namespace Skirmish.Battle

variable {b c d m : Battle} {k : Command} {s t : Call} {xs : List Battle}

/-- Turns are taken from a battle; those in the list are the states in which they start. -/
inductive Takes (b : Battle) : List Battle → Battle → Prop
  | none : Takes b [] b
  | turn {xs : List Battle} {c d : Battle} (h : Takes b xs c) (hruns : c.isRunning = true)
      (hturn : c.startTurn = .ok d) : Takes b (xs ++ [c]) d

def Opens (s : Call) (m : Battle) : Prop :=
  ∃ t, Reaches s t ∧ t.2 ≠ .turns ∧ Calls t (m, .turns)

/-- A command comes to an end, after the turns that are started in the states of the list. -/
inductive Acts (b : Battle) (k : Command) : List Battle → Battle → Prop
  | still {c : Battle} (h : k.apply b = .ok c) (hnone : ∀ m, ¬ Opens (b, .command k) m) :
      Acts b k [] c
  | turns {m c : Battle} {xs : List Battle} (hopens : Opens (b, .command k) m)
      (hturns : Takes m xs c) (hstops : c.isRunning = false) : Acts b k xs c

/-- Commands of the play, one after the other, with the states in which turns are started. -/
inductive Chronicle (b : Battle) : List Battle → Battle → Prop
  | none : Chronicle b [] b
  | act {xs ys : List Battle} {c d : Battle} {k : Command} (h : Chronicle b xs c)
      (hplay : k.IsPlay) (hfits : k.Fits c) (hacts : Acts c k ys d) : Chronicle b (xs ++ ys) d

theorem Takes.run_eq_ok_iff (h : Takes b xs c) : b.run = .ok d ↔ c.run = .ok d := by
  induction h with
  | none => rfl
  | turn _ hruns hturn ih => simp [ih, run_eq_ok_of_running hruns, hturn]

theorem run_eq_ok_iff_takes : b.run = .ok c ↔ ∃ xs, Takes b xs c ∧ c.isRunning = false := by
  constructor
  · intro h
    have hstep : ∀ d d', (∃ xs, Takes b xs d) → d.isRunning = true → d.startTurn = .ok d' →
        ∃ xs, Takes b xs d' := by
      rintro d d' ⟨xs, htakes⟩ hruns hturn
      exact ⟨_, htakes.turn hruns hturn⟩
    obtain ⟨⟨xs, htakes⟩, hstops⟩ := run_induction hstep h ⟨[], .none⟩
    exact ⟨xs, htakes, hstops⟩
  · rintro ⟨xs, htakes, hstops⟩
    rw [htakes.run_eq_ok_iff, run_of_waiting hstops]

/-- The tasks that may leave a battle to its turns; with them a call comes to its end. -/
def Task.IsLast : Task → Prop
  | .attemptFlee | .turns | .afterDialog | .resumePhase => True
  | _ => False

theorem Calls.result_eq_ok_iff (h : Calls s t) (ht : t.2.IsLast) :
    t.result = .ok d ↔ s.result = .ok d := by
  cases h
  all_goals first
    | exact ht.elim
    | skip
  all_goals simp only [Call.result, Command.apply]
  case start hqueue => simp [Battle.start, hqueue]
  case defended hphase hkind hactor hdone =>
    simp [selectAction_defend hphase hkind hactor, hdone]
  case flee hphase hkind hactor => rw [selectAction_flee hphase hkind hactor]
  case caught hchance hroll hfailed hend =>
    simp [Battle.attemptFlee, arithmetic, hchance, hroll, hfailed, hend]
  case targeted hpending hphase hdone => simp [selectTargets_eq hpending hphase, hdone]
  case dismiss hdialogs hplain => simp [Battle.dismissDialog, hdialogs, hplain]
  case choose hdialogs hoption hevent => simp [Battle.chooseOption, hdialogs, hoption, hevent]
  case answered hdialogs hoption hevent hdone hend =>
    simp [Battle.chooseOption, hdialogs, hoption, hevent, hdone, hend]
  case resume hdialogs hover => simp [Battle.afterDialog, hdialogs, hover]
  case resumedTurn hresume hcurrent hdone =>
    simp [resumePhase_of_turnStart hresume, hcurrent, hdone]
  case resumedNext hresume hcurrent hnext =>
    simp [resumePhase_of_turnStart hresume, hcurrent, hnext]
  case turned hruns hdone => simp [run_eq_ok_of_running hruns, hdone]

theorem Calls.isLast (h : Calls s t) (ht : t.2.IsLast) : s.2.IsLast ∨ ∃ k, s.2 = .command k := by
  cases h
  all_goals first
    | exact ht.elim
    | exact .inl trivial
    | exact .inr ⟨_, rfl⟩

theorem Calls.ne_command (h : Calls s t) : t.2 ≠ .command k := by
  cases h <;> simp

theorem Reaches.result_eq_ok_iff (h : Reaches (b, .command k) t) (ht : t.2.IsLast) :
    t.result = .ok d ↔ k.apply b = .ok d := by
  have hgeneral : t.2.IsLast ∨ t = (b, .command k) → (t.result = .ok d ↔ k.apply b = .ok d) := by
    clear ht
    induction h with
    | refl => exact fun _ => .rfl
    | @tail u v hbefore hcall ih =>
        rintro (hlast | rfl)
        · rw [hcall.result_eq_ok_iff hlast]
          refine ih ((hcall.isLast hlast).imp_right ?_)
          rintro ⟨k', hk'⟩
          rcases Relation.ReflTransGen.cases_tail hbefore with heq | ⟨w, -, hw⟩
          · exact heq
          · exact absurd hk' hw.ne_command
        · exact absurd rfl hcall.ne_command
  exact hgeneral (.inl ht)

theorem Opens.run_eq_ok_iff (h : Opens (b, .command k) m) :
    m.run = .ok d ↔ k.apply b = .ok d := by
  obtain ⟨t, hreaches, -, hcall⟩ := h
  exact Reaches.result_eq_ok_iff (hreaches.tail hcall) trivial

theorem Opens.of_calls (hcall : Calls s t) (h : Opens t m) : Opens s m := by
  obtain ⟨u, hreaches, hne, hlast⟩ := h
  exact ⟨u, hreaches.head hcall, hne, hlast⟩

theorem Acts.apply (h : Acts b k xs c) : k.apply b = .ok c := by
  cases h with
  | still h _ => exact h
  | turns hopens hturns hstops =>
      rw [← hopens.run_eq_ok_iff]
      exact run_eq_ok_iff_takes.2 ⟨_, hturns, hstops⟩

end Skirmish.Battle
