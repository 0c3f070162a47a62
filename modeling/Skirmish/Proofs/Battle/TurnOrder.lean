import Mathlib.Data.List.Chain
import Skirmish.Proofs.Battle.Rounds

namespace Skirmish.Battle

variable {ts : List Trigger} {b c d m x y : Battle} {f g : Fighter} {k : Command}
  {q : List Initiative.Entry} {xs ys : List Battle}

/-- The states in which turns are started, one after the other from the first place of the first
round on. -/
structure Record (xs : List Battle) : Prop where
  first : ∀ x ∈ xs.head?, Comes none x
  chain : xs.IsChain fun x y => ∃ q, Follows x q y
  consistent : ∀ x ∈ xs, Consistent x

namespace Record

theorem nil : Record [] := ⟨by simp, .nil, by simp⟩

theorem snoc (h : Record xs) (hc : Consistent c) (hcomes : Comes xs.getLast? c) :
    Record (xs ++ [c]) where
  first x hx := by
    cases xs with
    | nil =>
        cases hx
        exact hcomes
    | cons y ys => exact h.first x hx
  chain := by
    refine List.isChain_append.2 ⟨h.chain, .singleton c, fun x hx y hy => ?_⟩
    cases hy
    rwa [Option.mem_def.1 hx] at hcomes
  consistent x hx := by
    rcases List.mem_append.1 hx with hx | hx
    · exact h.consistent x hx
    · exact List.mem_singleton.1 hx ▸ hc

theorem takes (h : Record xs) (hm : Standing ts m ∧ Voiced m) (hc : Consistent m)
    (hnext : Sequel xs.getLast? m) (htakes : Takes m ys c) :
    Record (xs ++ ys) ∧ Sequel (xs ++ ys).getLast? c ∧ (Standing ts c ∧ Voiced c) ∧
      Consistent c := by
  induction htakes with
  | none =>
      rw [List.append_nil]
      exact ⟨h, hnext, hm, hc⟩
  | @turn ys c d _ hruns hturn ih =>
      obtain ⟨hrecord, hcomes, hstanding, hconsistent⟩ := ih
      have hsilent := hstanding.1.silent_of_isRunning hruns
      rcases hcomes with ⟨-, hcomes⟩ | ⟨hstops, -⟩
      · rw [← List.append_assoc, List.getLast?_append]
        refine ⟨hrecord.snoc hconsistent hcomes, ?_, ?_, ?_⟩
        · exact startTurn_sequel hsilent hconsistent.keyed hturn
        · exact (hsilent.takesTurn hturn).standing hsilent
        · exact (hconsistent.path (.startTurn hturn)).1
      · simp [hruns] at hstops

end Record

/-- A chronicle records its turns in their order, and tells how the battle stands to the last. -/
theorem Chronicle.record (h : Chronicle b xs c) (hb : Paused ts b) (hcons : Consistent b)
    (hstart : b.stage = .start) :
    Record xs ∧ Holds xs.getLast? c ∧ Paused ts c ∧ Consistent c := by
  induction h with
  | none => exact ⟨.nil, .fresh hstart, hb, hcons⟩
  | @act xs ys c d k _ hplay hfits hacts ih =>
      obtain ⟨hrecord, hholds, hpaused, hconsistent⟩ := ih
      have happly := hacts.apply
      refine and_assoc.1 ⟨?_, hpaused.apply hfits happly, (hconsistent.apply happly).1⟩
      have hdue : Due ts (c, .command k) := ⟨hfits, hpaused⟩
      cases hacts with
      | still _ hnone =>
          rw [List.append_nil]
          exact ⟨hrecord, hholds.apply hpaused hconsistent.keyed hplay happly hnone⟩
      | @turns m _ _ hopens hturns hstops =>
          have hsequel : Sequel xs.getLast? m :=
            Placed.opens (s := (c, .command k)) hholds hdue hconsistent.keyed hopens
          obtain ⟨t, hreaches, -, hcall⟩ := hopens
          have hm : Standing ts m ∧ Voiced m := hdue.reaches (hreaches.tail hcall)
          have hpath := Reaches.path (hreaches.tail hcall)
          obtain ⟨hmore, hgoes, -, -⟩ := hrecord.takes hm (hconsistent.path hpath).1 hsequel hturns
          refine ⟨hmore, ?_⟩
          rcases hgoes with ⟨hruns, -⟩ | ⟨-, hrest⟩
          · simp [hruns] at hstops
          · exact hrest

theorem nextTurn_place (h : b.nextTurn = .ok c) :
    b.index + 1 < b.queue.length ∧ c.turn = b.turn ∧ c.index = b.index + 1 ∧ c.queue = b.queue ∨
      b.queue.length ≤ b.index + 1 ∧ c.turn = b.turn + 1 ∧ c.index = 0 := by
  simp only [nextTurn] at h
  split at h
  next hmore =>
    cases h
    exact .inl ⟨hmore, rfl, rfl, rfl⟩
  next hmore =>
    obtain ⟨⟨queue, d⟩, hroll, h⟩ := Fallible.bind_eq_ok.1 h
    obtain ⟨dice, -, rfl⟩ := roll_eq_ok hroll
    refine .inr ⟨Nat.le_of_not_lt hmore, ?_⟩
    split at h
    · rcases checkEnd_cases h with ⟨rfl, -⟩ | ⟨-, -, phase, outcome, dice, log, notices, -, rfl⟩
      all_goals exact ⟨rfl, rfl⟩
    · cases h
      exact ⟨rfl, rfl⟩

theorem exists_slot_of_beginner? (h : x.beginner? = some f) :
    ∃ entry, x.slot? = some entry ∧ x.fighter? entry.id = some f ∧ f.isAlive = true := by
  obtain ⟨hcurrent, halive⟩ := Option.filter_eq_some_iff.1 h
  obtain ⟨entry, hslot, hf⟩ := Option.bind_eq_some_iff.1 hcurrent
  exact ⟨entry, hslot, hf, halive⟩

theorem lt_length_of_slot? {entry : Initiative.Entry} (h : x.slot? = some entry) :
    x.index < x.queue.length :=
  (List.getElem?_eq_some_iff.1 h).1

theorem Follows.place (h : Follows x q y) :
    x.queue <+: q ∧
      (y.turn = x.turn ∧ y.index = x.index + 1 ∧ x.index < x.queue.length ∧ y.queue = q ∨
        y.turn = x.turn + 1 ∧ y.index = 0 ∧ x.queue = q ∧ q.length ≤ x.index + 1) := by
  cases h with
  | skip _ h =>
      refine ⟨List.prefix_rfl, ?_⟩
      rcases nextTurn_place h with ⟨hmore, hturn, hindex, hqueue⟩ | ⟨hend, hturn, hindex⟩
      · exact .inl ⟨hturn, hindex, Nat.lt_of_succ_lt hmore, hqueue⟩
      · exact .inr ⟨hturn, hindex, rfl, hend⟩
  | @leave d _ hduring h =>
      refine ⟨hduring.queue, ?_⟩
      obtain ⟨f, hf⟩ := Option.isSome_iff_exists.1 hduring.begun
      obtain ⟨entry, hslot, -⟩ := exists_slot_of_beginner? hf
      have hplace := lt_length_of_slot? hslot
      rw [← hduring.index] at hplace ⊢
      rw [← hduring.turn]
      rcases nextTurn_place h with ⟨-, hturn, hindex, hqueue⟩ | ⟨hend, hturn, hindex⟩
      · exact .inl ⟨hturn, hindex, hplace, hqueue⟩
      · exact .inr ⟨hturn, hindex, hduring.queue.eq_of_length_le (by omega), hend⟩

/-- Turns come one after the other, and within a round in the order of the queue, to which
fighters may be added only at its end. -/
def Before (x y : Battle) : Prop :=
  x.turn < y.turn ∨ x.turn = y.turn ∧ x.index < y.index ∧ x.queue <+: y.queue

theorem Before.trans {z : Battle} (h : Before x y) (h' : Before y z) : Before x z := by
  rcases h with hturn | ⟨hturn, hindex, hqueue⟩
  · rcases h' with hturn' | ⟨hturn', -, -⟩
    · exact .inl (Nat.lt_trans hturn hturn')
    · exact .inl (hturn' ▸ hturn)
  · rcases h' with hturn' | ⟨hturn', hindex', hqueue'⟩
    · exact .inl (hturn ▸ hturn')
    · exact .inr ⟨hturn.trans hturn', Nat.lt_trans hindex hindex', hqueue.trans hqueue'⟩

theorem Follows.before (h : Follows x q y) : Before x y := by
  obtain ⟨hqueue, ⟨hturn, hindex, -, hsame⟩ | ⟨hturn, -, -⟩⟩ := h.place
  · exact .inr ⟨hturn.symm, by omega, hsame ▸ hqueue⟩
  · exact .inl (by omega)

theorem getElem?_of_lt_length {q' : List Initiative.Entry} {n : Nat} (h : q <+: q')
    (hn : n < q.length) : q'[n]? = q[n]? := by
  obtain ⟨rest, rfl⟩ := h
  exact List.getElem?_append_left hn

namespace Record

theorem follows (h : Record xs) {i : Nat} (hx : xs[i]? = some x) (hy : xs[i + 1]? = some y) :
    ∃ q, Follows x q y := by
  obtain ⟨hi, rfl⟩ := List.getElem?_eq_some_iff.1 hx
  obtain ⟨hi', rfl⟩ := List.getElem?_eq_some_iff.1 hy
  exact List.isChain_iff_getElem.1 h.chain i hi'

theorem before (h : Record xs) : xs.Pairwise Before := by
  have : IsTrans Battle Before := ⟨fun _ _ _ => .trans⟩
  refine List.IsChain.pairwise (h.chain.imp ?_)
  rintro x y ⟨q, hfollows⟩
  exact hfollows.before

/-- Whoever begins a turn begins no other one in the same round. -/
theorem once (h : Record xs) :
    xs.Pairwise fun x y => x.turn = y.turn → ∀ f g, x.beginner? = some f → y.beginner? = some g →
      f.id ≠ g.id := by
  refine h.before.imp_of_mem fun {x y} hx hy hbefore hturn f g hf hg => ?_
  obtain ⟨e, he, hfound, -⟩ := exists_slot_of_beginner? hf
  obtain ⟨e', he', hfound', -⟩ := exists_slot_of_beginner? hg
  rw [(h.consistent x hx).keyed _ f hfound, (h.consistent y hy).keyed _ g hfound']
  rcases hbefore with hless | ⟨-, hindex, hqueue⟩
  · exact absurd hturn (Nat.ne_of_lt hless)
  · -- the place of `x` is a place of the queue of `y` too, which holds nobody twice
    have hslot : y.queue[x.index]? = some e :=
      (getElem?_of_lt_length hqueue (lt_length_of_slot? he)).trans he
    have honce := (h.consistent y hy).once
    rintro hid
    refine Nat.ne_of_lt hindex ((List.getElem?_inj ?_ honce).1 ?_)
    · simpa using (List.getElem?_eq_some_iff.1 hslot).1
    · rw [List.getElem?_map, List.getElem?_map, hslot, show y.queue[y.index]? = some e' from he']
      exact congrArg some hid

/-- Before a place of the queue is reached, those before it are reached in the same round. -/
theorem reached (h : Record xs) {i n : Nat} {x : Battle} (hx : xs[i]? = some x)
    (hn : n ≤ x.index) (hlength : n < x.queue.length) :
    ∃ j ≤ i, ∃ z, xs[j]? = some z ∧ z.turn = x.turn ∧ z.slot? = x.queue[n]? := by
  induction i generalizing x with
  | zero =>
      have hfirst := h.first x (by rwa [List.head?_eq_getElem?])
      obtain rfl : n = 0 := by
        rw [hfirst.2] at hn
        exact Nat.le_zero.1 hn
      exact ⟨0, Nat.le_refl 0, x, hx, rfl, by rw [slot?, hfirst.2]⟩
  | succ i ih =>
      have hstay : n = x.index → ∃ j ≤ i + 1, ∃ z, xs[j]? = some z ∧ z.turn = x.turn ∧
          z.slot? = x.queue[n]? := by
        rintro rfl
        exact ⟨i + 1, Nat.le_refl _, x, hx, rfl, rfl⟩
      obtain ⟨w, hw⟩ : ∃ w, xs[i]? = some w := by
        have := (List.getElem?_eq_some_iff.1 hx).1
        exact ⟨_, List.getElem?_eq_getElem (by omega)⟩
      -- back through the places of the round, to the first place at the latest
      obtain ⟨q, hfollows⟩ := h.follows hw hx
      obtain ⟨hqueue, ⟨hturn, hindex, hplace, hsame⟩ | ⟨-, hindex, -⟩⟩ := hfollows.place
      · by_cases hreached : n = x.index
        · exact hstay hreached
        · have hbelow : n < w.queue.length := by omega
          obtain ⟨j, hj, z, hz, hzturn, hslot⟩ := ih hw (by omega) hbelow
          refine ⟨j, by omega, z, hz, hzturn.trans hturn.symm, ?_⟩
          rw [hslot, hsame, getElem?_of_lt_length hqueue hbelow]
      · exact hstay (by omega)

/-- When a round is over, every place of its queue has been reached in it. -/
theorem complete (h : Record xs) {i : Nat} {entry : Initiative.Entry} (hx : xs[i]? = some x)
    (hfollows : Follows x q y) (hturn : y.turn ≠ x.turn) (hentry : entry ∈ q) :
    ∃ j ≤ i, ∃ z, xs[j]? = some z ∧ z.turn = x.turn ∧ z.slot? = some entry := by
  obtain ⟨-, ⟨hsame, -⟩ | ⟨-, -, rfl, hend⟩⟩ := hfollows.place
  · exact absurd hsame hturn
  · obtain ⟨n, hn, rfl⟩ := List.getElem_of_mem hentry
    obtain ⟨j, hj, z, hz, hzturn, hslot⟩ := h.reached hx (show n ≤ x.index by omega) hn
    exact ⟨j, hj, z, hz, hzturn, by rw [hslot, List.getElem?_eq_getElem hn]⟩

end Record

end Skirmish.Battle
