import Skirmish.Proofs.Battle.Course
import Skirmish.Proofs.Battle.Muster
import Skirmish.Proofs.Modifier.Stack

namespace Skirmish

def Roster.Every (P : Fighter → Prop) (r : Roster) : Prop :=
  ∀ id f, r.get? id = some f → f.id = id ∧ P f

namespace Roster.Every

variable {P Q : Fighter → Prop} {r : Roster} {f : Fighter}

theorem empty : Every P {} := by
  intro id f h
  cases h

theorem imp (h : r.Every P) (hPQ : ∀ f, P f → Q f) : r.Every Q :=
  fun id f hf => ⟨(h id f hf).1, hPQ f (h id f hf).2⟩

theorem insert (h : r.Every P) (hf : P f) : Every P (r.insert f.id f) := by
  intro id g hg
  rw [Table.get?_insert] at hg
  split at hg
  next hid =>
    cases hg
    exact ⟨hid.symm, hf⟩
  next => exact h id g hg

end Roster.Every

namespace Battle

variable {r : Stat.Rules} {c : Config} {b b' : Battle} {f g : Fighter}

/-- Stats and maxima are those of base stats, rules and modifiers; a maximum that is no stat is the
default. -/
def UpToDate (r : Stat.Rules) (c : Config) (f : Fighter) : Prop :=
  ∃ complete, r.completeStats f.baseStats f.level = .ok complete ∧
    f.modifiers.applyTo complete.withCanonicalNames = .ok f.stats ∧
    f.maxHp = f.stats.getD "MaxHP" c.defaultMaxHp ∧ f.maxMp = f.stats.getD "MaxMP" c.defaultMaxMp

def Rooted (r : Stat.Rules) (c : Config) (f : Fighter) : Prop :=
  ∀ complete, r.completeStats f.baseStats f.level = .ok complete →
    ("MaxHP" ∉ complete.withCanonicalNames.keys → f.maxHp = c.defaultMaxHp) ∧
    ("MaxMP" ∉ complete.withCanonicalNames.keys → f.maxMp = c.defaultMaxMp)

theorem UpToDate.rooted (h : UpToDate r c f) : Rooted r c f := by
  obtain ⟨complete, hcomplete, hstats, hHp, hMp⟩ := h
  have hkeys := Modifier.Stack.keys_applyTo hstats
  intro complete' hcomplete'
  obtain rfl : complete = complete' := Except.ok.inj (hcomplete.symm.trans hcomplete')
  rw [← hkeys, hHp, hMp]
  exact ⟨Table.getD_of_notMem, Table.getD_of_notMem⟩

theorem statsOf_eq_ok {stats : Stat.Block} :
    statsOf r f = .ok stats ↔ ∃ complete, r.completeStats f.baseStats f.level = .ok complete ∧
      f.modifiers.applyTo complete.withCanonicalNames = .ok stats := by
  simp only [statsOf, arithmetic, Fallible.bind_eq_ok, Fallible.mapError_eq_ok]

theorem upToDate_of_renew (h : renew b f = .ok g) : UpToDate b.rules b.config g := by
  obtain ⟨stats, hstats, rfl⟩ := refreshWith_eq_ok.1 h
  obtain ⟨complete, hcomplete, happly⟩ := statsOf_eq_ok.1 hstats
  exact ⟨complete, hcomplete, happly, rfl, rfl⟩

theorem upToDate_of_refresh (hf : Rooted r c f) (h : refresh r f = .ok g) : UpToDate r c g := by
  obtain ⟨stats, hstats, rfl⟩ := refreshWith_eq_ok.1 h
  obtain ⟨complete, hcomplete, happly⟩ := statsOf_eq_ok.1 hstats
  have hroot := hf complete hcomplete
  rw [← Modifier.Stack.keys_applyTo happly] at hroot
  exact ⟨complete, hcomplete, happly, Table.getD_congr hroot.1, Table.getD_congr hroot.2⟩

/-- In a battle with these rules the fighters with these ids are up to date. -/
structure Coherent (among : String → Prop) (r : Stat.Rules) (c : Config) (b : Battle) : Prop where
  rules : b.rules = r
  config : b.config = c
  fighters : b.fighters.Every fun f => among f.id → UpToDate r c f

abbrev AllUpToDate : Stat.Rules → Config → Battle → Prop := Coherent fun _ => True

variable {among : String → Prop}

theorem Coherent.of_same (hb : Coherent among r c b) (h : SameField b b') :
    Coherent among r c b' where
  rules := h.rules.trans hb.rules
  config := h.config.trans hb.config
  fighters := h.fighters ▸ hb.fighters

theorem Coherent.setFighter (hb : Coherent among r c b) (hf : among f.id → UpToDate r c f) :
    Coherent among r c (b.setFighter f) where
  rules := hb.rules
  config := hb.config
  fighters := hb.fighters.insert hf

theorem coherent_of_refreshAll {ids : List String} (hrules : b.rules = r)
    (hconfig : b.config = c)
    (hb : b.fighters.Every fun f =>
      among f.id → Rooted r c f ∧ (UpToDate r c f ∨ f.id ∈ ids))
    (h : b.refreshAll ids = .ok b') : Coherent among r c b' := by
  induction ids generalizing b with
  | nil =>
      cases h
      exact ⟨hrules, hconfig, hb.imp fun f hf hid => by simpa using (hf hid).2⟩
  | cons id ids ih =>
      obtain ⟨d, hd, h⟩ := Fallible.bind_eq_ok.1 h
      simp only [refreshFighter] at hd
      split at hd
      next hnone =>
        cases hd
        refine ih hrules hconfig (fun k f hf => ?_) h
        obtain ⟨hid, hstate⟩ := hb k f hf
        have hne : f.id ≠ id := by
          rintro rfl
          rw [fighter?, hid, hf] at hnone
          cases hnone
        exact ⟨hid, fun hamong => by simpa [hne] using hstate hamong⟩
      next f hf =>
        obtain ⟨g, hg, hd⟩ := Fallible.bind_eq_ok.1 hd
        cases hd
        have hg : refresh r f = .ok g := hrules ▸ Fallible.leaving_eq_ok.1 hg
        obtain ⟨hid, hstate⟩ := hb id f hf
        have hgid := (refreshWith_side hg).1
        refine ih (b := b.setFighter g) hrules hconfig (fun k f' hf' => ?_) h
        rw [setFighter, Table.get?_insert] at hf'
        split at hf'
        next hk =>
          cases hf'
          refine ⟨hk.symm, fun hamong => ?_⟩
          have hup := upToDate_of_refresh (hstate (hgid ▸ hamong)).1 hg
          exact ⟨hup.rooted, .inl hup⟩
        next hk =>
          obtain ⟨hid', hstate'⟩ := hb k f' hf'
          have hne : f'.id ≠ id := by
            rw [hid', ← hid, ← hgid]
            exact hk
          exact ⟨hid', fun hamong => by simpa [hne] using hstate' hamong⟩

end Battle

end Skirmish
