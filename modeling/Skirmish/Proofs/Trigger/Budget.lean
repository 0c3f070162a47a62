import Skirmish.Proofs.Battle.Firing

namespace Skirmish.Trigger

def isMet (t : Trigger) (c : Formula.Context) : Bool :=
  match Formula.compute t.condition c with
  | .ok x => !(x == 0)
  | .error _ => false

def hasLeft (t : Trigger) (n : Nat) : Bool :=
  (!t.once || n == 0) && t.maxFires.all fun most => (n : Int) < most

/-- How often a trigger that is by itself fires, over contexts in the order in which they come. -/
def firings (t : Trigger) (past : List Formula.Context) : Nat :=
  past.foldl (fun n c => if t.hasLeft n && t.isMet c then n + 1 else n) 0

/-- Whether a trigger that is by itself fires in a context that comes after others. -/
def isDue (t : Trigger) (past : List Formula.Context) (c : Formula.Context) : Bool :=
  t.hasLeft (t.firings past) && t.isMet c

/-- How often the triggers of an id fire together, each of them by itself. -/
def spent (key : String) (ts : List Trigger) (past : List Formula.Context) : Nat :=
  ((ts.filter fun t => t.key = key).map fun t => t.firings past).sum

/-- A trigger is due, but its id has no firing left to it: those before it in the list have had
their turn in the context already, those after it have not. -/
def Outspent (past : List Formula.Context) (c : Formula.Context) (before : List Trigger)
    (t : Trigger) (after : List Trigger) : Prop :=
  t.isDue past c = true ∧
    t.hasLeft (spent t.key before (past ++ [c]) + spent t.key (t :: after) past) = false

def Solvent (past : List Formula.Context) (c : Formula.Context) (before rest : List Trigger) :
    Prop :=
  ∀ front t after, rest = front ++ t :: after → ¬ Outspent past c (before ++ front) t after

variable {past : List Formula.Context} {c : Formula.Context} {t : Trigger} {key : String}
  {ts before rest after fired : List Trigger} {counts counts' : Counts} {m n : Nat}

theorem mayFire_eq_hasLeft : t.mayFire n = t.hasLeft n := by
  have honce : (!(t.once && decide (1 ≤ n))) = (!t.once || n == 0) := by
    cases t.once <;> cases n <;> simp
  rw [mayFire, hasLeft, honce]
  cases t.maxFires <;> rfl

theorem hasLeft_of_le (hle : m ≤ n) (h : t.hasLeft n = true) : t.hasLeft m = true := by
  simp only [hasLeft, Bool.and_eq_true, Bool.or_eq_true, beq_iff_eq, Option.all_eq_true,
    decide_eq_true_eq] at h ⊢
  obtain ⟨honce, hmost⟩ := h
  refine ⟨honce.imp_right fun hn => ?_, fun most h => ?_⟩
  · omega
  · have := hmost most h
    omega

theorem hasLeft_of_not_isBounded (h : ¬ t.IsBounded) : t.hasLeft n = true := by
  simp only [IsBounded, not_or, Bool.not_eq_true, Option.isSome_eq_false_iff,
    Option.isNone_iff_eq_none] at h
  simp [hasLeft, h.1, h.2]

theorem isMet_of_holds {met : Bool} (h : t.holds c = .ok met) : t.isMet c = met := by
  rw [holds] at h
  rw [isMet]
  split at h
  next x hx =>
    cases h
    rw [hx]
    rfl
  next => cases h
  next e _ he =>
    cases h
    rw [he]

theorem firings_snoc :
    t.firings (past ++ [c]) = t.firings past + if t.isDue past c = true then 1 else 0 := by
  rw [firings, List.foldl_append]
  show (if t.isDue past c = true then t.firings past + 1 else t.firings past) = _
  split <;> rfl

theorem spent_cons (t : Trigger) (ts : List Trigger) : spent key (t :: ts) past =
    (if t.key = key then t.firings past else 0) + spent key ts past := by
  by_cases h : t.key = key <;> simp [spent, h]

theorem spent_append :
    spent key (before ++ rest) past = spent key before past + spent key rest past := by
  simp [spent]

theorem spent_step :
    spent key (before ++ [t]) (past ++ [c]) + spent key rest past =
      spent key before (past ++ [c]) + spent key (t :: rest) past +
        if t.key = key ∧ t.isDue past c = true then 1 else 0 := by
  rw [spent_append, spent_cons t [], spent_cons t rest, firings_snoc]
  have hnone : spent key [] (past ++ [c]) = 0 := rfl
  by_cases hkey : t.key = key
  · simp only [hkey, if_true, true_and]
    omega
  · simp only [hkey, if_false, false_and]
    omega

theorem spent_nil : spent key ts [] = 0 := by
  simp [spent, firings]

theorem firings_le_spent (h : t ∈ ts) : t.firings past ≤ spent t.key ts past := by
  refine List.single_le_sum (by simp) _ (List.mem_map.2 ⟨t, ?_, rfl⟩)
  exact List.mem_filter.2 ⟨h, by simp⟩

theorem spent_of_forall_ne (h : ∀ u ∈ ts, u.key ≠ key) : spent key ts past = 0 := by
  have hnone : (ts.filter fun u => u.key = key) = [] := List.filter_eq_nil_iff.2 (by simpa using h)
  rw [spent, hnone]
  rfl

theorem solvent_cons : Solvent past c before (t :: rest) ↔
    ¬ Outspent past c before t rest ∧ Solvent past c (before ++ [t]) rest := by
  constructor
  · intro h
    refine ⟨by simpa using h [] t rest rfl, fun front u after hrest => ?_⟩
    simpa using h (t :: front) u after (by rw [hrest, List.cons_append])
  · rintro ⟨hfirst, hrest⟩ front u after hsplit
    rcases List.cons_eq_append_iff.1 hsplit with ⟨rfl, hcons⟩ | ⟨front, rfl, rfl⟩
    · obtain ⟨rfl, rfl⟩ : u = t ∧ after = rest := by simpa using hcons
      simpa using hfirst
    · simpa using hrest front u after rfl

/-- Where the counts are not below those of the triggers by themselves, nothing fires but what is
due. -/
theorem fireAll_sublist_isDue (hcounts : ∀ u ∈ rest, u.firings past ≤ counts.getD u.key 0)
    (h : (fireAll c rest).run.run counts = (.ok fired, counts')) :
    fired.Sublist (rest.filter fun u => u.isDue past c) := by
  induction rest generalizing fired counts with
  | nil =>
      cases h
      exact .refl []
  | cons t rest ih =>
      have hrest : ∀ u ∈ rest, u.firings past ≤ counts.getD u.key 0 :=
        fun u hu => hcounts u (.tail t hu)
      rcases fireAll_cons_eq_ok h with ⟨-, hrun⟩ | ⟨others, hmay, hholds, rfl, hrun⟩
      · rw [List.filter_cons]
        split
        next => exact (ih hrest hrun).cons t
        next => exact ih hrest hrun
      · have hleft : t.hasLeft (t.firings past) = true :=
          hasLeft_of_le (hcounts t (.head rest)) (mayFire_eq_hasLeft ▸ hmay)
        have hdue : t.isDue past c = true := by rw [isDue, hleft, isMet_of_holds hholds]; rfl
        rw [List.filter_cons, if_pos hdue]
        refine (ih (fun u hu => ?_) hrun).cons_cons t
        rw [Table.getD_insert]
        split
        next hkey => exact Nat.le_succ_of_le (hkey ▸ hrest u hu)
        next => exact hrest u hu

/-- From counts that are those of the triggers by themselves, what is due fires, and nothing else,
as long as no trigger is outspent; and the counts stay so. -/
theorem fireAll_eq_filter_iff
    (hcounts : ∀ key, counts.getD key 0 = spent key before (past ++ [c]) + spent key rest past)
    (h : (fireAll c rest).run.run counts = (.ok fired, counts')) :
    (fired = rest.filter (fun u => u.isDue past c) ↔ Solvent past c before rest) ∧
      (Solvent past c before rest →
        ∀ key, counts'.getD key 0 = spent key (before ++ rest) (past ++ [c])) := by
  induction rest generalizing before fired counts with
  | nil =>
      cases h
      refine ⟨?_, fun _ key => ?_⟩
      · simp [Solvent]
      · rw [hcounts, List.append_nil]
        rfl
  | cons t rest ih =>
      have hcount : counts.getD t.key 0 =
          spent t.key before (past ++ [c]) + spent t.key (t :: rest) past := hcounts t.key
      have hown : ∀ u ∈ t :: rest, u.firings past ≤ counts.getD u.key 0 := by
        intro u hu
        have hspent : u.firings past ≤ spent u.key (t :: rest) past := firings_le_spent hu
        rw [hcounts]
        omega
      have hlist : before ++ [t] ++ rest = before ++ t :: rest := by simp
      rw [solvent_cons, Outspent, ← hcount, List.filter_cons]
      rcases fireAll_cons_eq_ok h with ⟨hpasses, hrun⟩ | ⟨others, hmay, hholds, rfl, hrun⟩
      · by_cases hdue : t.isDue past c = true
        · -- The trigger is due and still passed over: its id has nothing left.
          have hleft : t.hasLeft (counts.getD t.key 0) = false := by
            rcases hpasses with hmay | hholds
            · rw [← mayFire_eq_hasLeft, hmay]
            · rw [isDue, isMet_of_holds hholds, Bool.and_false] at hdue
              cases hdue
          have hfew := (fireAll_sublist_isDue (fun u hu => hown u (.tail t hu)) hrun).length_le
          have hne : fired ≠ t :: rest.filter fun u => u.isDue past c := by
            rintro rfl
            exact absurd hfew (by simp)
          simp [hdue, hleft, hne]
        · have hcounts' : ∀ key, counts.getD key 0 =
              spent key (before ++ [t]) (past ++ [c]) + spent key rest past := by
            intro key
            rw [spent_step, if_neg (fun h => hdue h.2), hcounts, Nat.add_zero]
          simpa [hdue, hlist] using ih hcounts' hrun
      · have hleft : t.hasLeft (counts.getD t.key 0) = true := mayFire_eq_hasLeft ▸ hmay
        have hdue : t.isDue past c = true := by
          rw [isDue, hasLeft_of_le (hown t (.head rest)) hleft, isMet_of_holds hholds]
          rfl
        have hcounts' : ∀ key, (counts.insert t.key (counts.getD t.key 0 + 1)).getD key 0 =
            spent key (before ++ [t]) (past ++ [c]) + spent key rest past := by
          intro key
          rw [spent_step, Table.getD_insert, ← hcounts]
          by_cases hkey : key = t.key
          · rw [if_pos hkey, if_pos ⟨hkey.symm, hdue⟩, hkey]
          · rw [if_neg hkey, if_neg (fun h => hkey h.1.symm), Nat.add_zero]
        simpa [hdue, hleft, hlist] using ih hcounts' hrun

/-- What is due in contexts one after the other, each time in the order of the list. -/
def dueAll (ts : List Trigger) (past : List Formula.Context) :
    List Formula.Context → List (List Trigger)
  | [] => []
  | c :: cs => (ts.filter fun t => t.isDue past c) :: dueAll ts (past ++ [c]) cs

/-- Whoever shares an id fires without a limit. -/
def Apart (t u : Trigger) : Prop := t.key = u.key → ¬ t.IsBounded ∧ ¬ u.IsBounded

theorem solvent_of_apart (h : ts.Pairwise Apart) : Solvent past c [] ts := by
  rintro front t after rfl ⟨hdue, hspent⟩
  rw [List.nil_append] at hspent
  by_cases hbounded : t.IsBounded
  · obtain ⟨-, hafter, hfront⟩ := List.pairwise_append.1 h
    have hbefore : spent t.key front (past ++ [c]) = 0 := spent_of_forall_ne fun u hu hkey =>
      (hfront u hu t (.head after) hkey).2 hbounded
    have hbehind : spent t.key after past = 0 := spent_of_forall_ne fun u hu hkey =>
      ((List.pairwise_cons.1 hafter).1 u hu hkey.symm).1 hbounded
    rw [hbefore, spent_cons, if_pos rfl, hbehind, Nat.zero_add, Nat.add_zero] at hspent
    rw [isDue, hspent] at hdue
    cases hdue
  · rw [hasLeft_of_not_isBounded hbounded] at hspent
    cases hspent

namespace Book

def evaluateAll (k : Book) :
    List (List Fighter × Quantity) → Quantity.Result (List (List Trigger))
  | [] => .ok []
  | s :: ss => do
    let fired ← (k.evaluate s.1 s.2).1
    return fired :: (← evaluateAll (k.evaluate s.1 s.2).2 ss)

variable {k : Book} {ss : List (List Fighter × Quantity)} {answers : List (List Trigger)}

theorem evaluate_eq_ok {fighters : List Fighter} {turn : Quantity}
    (h : (k.evaluate fighters turn).1 = .ok fired) : ∃ c counts, context fighters turn = .ok c ∧
      (fireAll c k.triggers).run.run k.fired = (.ok fired, counts) ∧
      (k.evaluate fighters turn).2 = { k with fired := counts } := by
  rw [evaluate] at h ⊢
  split at h
  next => cases h
  next c hc =>
    cases hrun : (fireAll c k.triggers).run.run k.fired with
    | mk outcome counts =>
        rw [hrun] at h
        obtain rfl : outcome = .ok fired := h
        exact ⟨c, counts, hc, hrun, rfl⟩

theorem exists_contexts (h : k.evaluateAll ss = .ok answers) :
    ∃ cs, ss.mapM (fun s => context s.1 s.2) = .ok cs := by
  induction ss generalizing k answers with
  | nil => exact ⟨[], rfl⟩
  | cons s ss ih =>
      simp only [evaluateAll, Fallible.bind_eq_ok] at h
      obtain ⟨fired, hfired, others, hothers, -⟩ := h
      obtain ⟨c, counts, hc, -, -⟩ := evaluate_eq_ok hfired
      obtain ⟨cs, hcs⟩ := ih hothers
      exact ⟨c :: cs, by simp [hc, hcs]⟩

/-- While the counts are those of the triggers by themselves the answers are what is due, up to the
first trigger that is outspent. -/
theorem evaluateAll_eq_dueAll_iff {cs : List Formula.Context}
    (hcounts : ∀ key, k.firedCount key = spent key k.triggers past)
    (hcs : ss.mapM (fun s => context s.1 s.2) = .ok cs) (h : k.evaluateAll ss = .ok answers) :
    answers = dueAll k.triggers past cs ↔
      ∀ front c rest, cs = front ++ c :: rest → Solvent (past ++ front) c [] k.triggers := by
  induction ss generalizing k past answers cs with
  | nil =>
      cases h
      cases hcs
      simp [dueAll]
  | cons s ss ih =>
      simp only [evaluateAll, Fallible.bind_eq_ok, Fallible.pure_eq, Except.ok.injEq] at h
      obtain ⟨fired, hfired, others, hothers, rfl⟩ := h
      simp only [List.mapM_cons, Fallible.bind_eq_ok, Fallible.pure_eq, Except.ok.injEq] at hcs
      obtain ⟨c, hc, cs, hcs, rfl⟩ := hcs
      obtain ⟨c', counts, hc', hrun, hbook⟩ := evaluate_eq_ok hfired
      obtain rfl : c = c' := Except.ok.inj (hc.symm.trans hc')
      have hfired : ∀ key, k.fired.getD key 0 =
          spent key [] (past ++ [c]) + spent key k.triggers past := by
        intro key
        rw [← firedCount, hcounts]
        simp [spent]
      obtain ⟨hfirst, hkept⟩ := fireAll_eq_filter_iff hfired hrun
      have hnext (hsolvent : Solvent past c [] k.triggers) :=
        ih (k := { k with fired := counts }) (fun key => hkept hsolvent key) hcs (hbook ▸ hothers)
      rw [dueAll, List.cons.injEq, hfirst]
      constructor
      · rintro ⟨hsolvent, hrest⟩ front d rest hsplit
        rcases List.cons_eq_append_iff.1 hsplit with ⟨rfl, hcons⟩ | ⟨front, rfl, rfl⟩
        · obtain ⟨rfl, rfl⟩ : d = c ∧ rest = cs := by simpa using hcons
          simpa using hsolvent
        · simpa using (hnext hsolvent).1 hrest front d rest rfl
      · intro hall
        have hsolvent : Solvent past c [] k.triggers := by simpa using hall [] c cs rfl
        refine ⟨hsolvent, (hnext hsolvent).2 fun front d rest hsplit => ?_⟩
        simpa using hall (c :: front) d rest (by rw [hsplit, List.cons_append])

theorem forall₂_assignIds (named : Nat) (ts : List Trigger) :
    List.Forall₂ (fun t u => ∃ id, u = { t with id }) ts (assignIds named ts).1 := by
  induction ts generalizing named with
  | nil => exact .nil
  | cons t ts ih =>
      rw [assignIds]
      split
      · exact .cons ⟨_, rfl⟩ (ih (named + 1))
      · exact .cons ⟨_, rfl⟩ (ih named)

/-- However often a book is asked, it answers with what is due, trigger by trigger, exactly if no
trigger is outspent by others of its id on the way; and so if none with a limit shares its id. -/
theorem answers_eq_dueAll_iff {ts : List Trigger}
    (h : (k.setTriggers ts).evaluateAll ss = .ok answers) :
    List.Forall₂ (fun t u => ∃ id, u = { t with id }) ts (k.setTriggers ts).triggers ∧
      ∃ cs, ss.mapM (fun s => context s.1 s.2) = .ok cs ∧
        (answers = dueAll (k.setTriggers ts).triggers [] cs ↔
          ∀ past c rest, cs = past ++ c :: rest →
            Solvent past c [] (k.setTriggers ts).triggers) ∧
        ((k.setTriggers ts).triggers.Pairwise Apart →
          answers = dueAll (k.setTriggers ts).triggers [] cs) := by
  obtain ⟨cs, hcs⟩ := exists_contexts h
  have hcounts : ∀ key, (k.setTriggers ts).firedCount key =
      spent key (k.setTriggers ts).triggers [] := fun key => spent_nil.symm
  have hiff := evaluateAll_eq_dueAll_iff hcounts hcs h
  refine ⟨forall₂_assignIds k.named ts, cs, hcs, by simpa using hiff, fun hapart => ?_⟩
  exact hiff.2 fun past c rest _ => solvent_of_apart hapart

def always (id : Option String) : Trigger := ⟨id, "1", true, none, .multi []⟩

def late : Trigger := ⟨some "late", "turn > 1", false, some 1, .multi []⟩

theorem answers_eq_dueAll_iff_late :
    ∃ answers cs, (setTriggers {} [always none, late]).evaluateAll [([], 1), ([], 2), ([], 3)] =
        .ok answers ∧ answers.map (List.map Trigger.key) = [["trigger_0"], ["late"], []] ∧
      answers = dueAll (setTriggers {} [always none, late]).triggers [] cs := by
  have hok : ((setTriggers {} [always none, late]).evaluateAll
      [([], 1), ([], 2), ([], 3)]).toOption.map (List.map (List.map Trigger.key)) =
      some [["trigger_0"], ["late"], []] := by
    decide +kernel
  obtain ⟨answers, hanswers, hkeys⟩ := Fallible.exists_eq_ok_and hok
  obtain ⟨-, cs, -, -, hdue⟩ := answers_eq_dueAll_iff hanswers
  refine ⟨answers, cs, hanswers, hkeys, hdue ?_⟩
  have hapart :
      (setTriggers {} [always none, late]).triggers.Pairwise fun t u => t.key ≠ u.key := by
    decide +kernel
  exact hapart.imp fun hne heq => absurd heq hne

/-- In its first answer a book leaves out some of the triggers that are due. -/
def FallsShort (ts : List Trigger) : Prop :=
  ∃ answers c, (setTriggers {} ts).evaluateAll [([], 1)] = .ok answers ∧ context [] 1 = .ok c ∧
    answers ≠ dueAll (setTriggers {} ts).triggers [] [c]

theorem fallsShort_of_lengths {ts : List Trigger} {m n : Nat} (hne : m ≠ n) (h : (do
      let answers ← (setTriggers {} ts).evaluateAll [([], 1)]
      let c ← context [] 1
      return (answers.map List.length,
        (dueAll (setTriggers {} ts).triggers [] [c]).map List.length)).toOption =
      some ([m], [n])) : FallsShort ts := by
  obtain ⟨found, hfound, rfl⟩ := Fallible.exists_eq_ok_and (f := fun x => x) (by simpa using h)
  simp only [Fallible.bind_eq_ok, Except.ok.injEq, Prod.mk.injEq] at hfound
  obtain ⟨answers, hanswers, c, hc, hm, hn⟩ := hfound
  refine ⟨answers, c, hanswers, hc, ?_⟩
  rintro rfl
  exact hne (by simpa using hm.symm.trans hn)

/-- Of two triggers with one id only the first fires, be the id given twice or given to one and made
up for the other. -/
theorem not_due_twins : FallsShort [always (some "rage"), always (some "rage")] ∧
    FallsShort [always none, always (some "trigger_0")] := by
  have hone : 1 ≠ 2 := by decide
  exact ⟨fallsShort_of_lengths hone (by decide +kernel),
    fallsShort_of_lengths hone (by decide +kernel)⟩

end Book

end Skirmish.Trigger
