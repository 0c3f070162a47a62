import Skirmish.Proofs.Formula.Agreement
import Skirmish.Proofs.Stat.CombatNames

namespace Skirmish

theorem Formula.Context.resolve_ofBlock_congr {b c : Table Quantity} {n : String}
    (h : b.get? n = c.get? n) : (ofBlock b).resolve n = (ofBlock c).resolve n := by
  by_cases hdot : '.' ∈ n.toList
  · rw [resolve_ofBlock_eq_unknown.2 (.inl hdot), resolve_ofBlock_eq_unknown.2 (.inl hdot)]
  · have hparts : Text.parts '.' n = [n] := by
      rw [Text.parts, Text.splitOn_of_notMem hdot, List.map_singleton, String.ofList_toList]
    simp only [resolve, hparts, at?_ofBlock, h]

namespace Stat

open Formula Rules

variable {cfg : Config} {r : Rules} {available known : List String} {d : Derived}
  {ds : List Derived} {context stats out final block : Block} {level : Quantity} {k : String}

/-- The formula of the stat, computed in the block and rounded down, gives the stat there. -/
def Solves (b : Block) (d : Derived) : Prop :=
  ∃ x n, compute d.formula (.ofBlock b) = .ok x ∧ (Quantity.real x).floor = .ok n ∧
    b.get? d.id = some (.whole n)

theorem get?_deriveFrom (h : deriveFrom context stats ds = .ok out)
    (hk : k ∉ ds.map Derived.id) : out.get? k = stats.get? k := by
  induction ds generalizing context stats with
  | nil =>
      cases h
      rfl
  | cons d ds ih =>
      simp only [deriveFrom, Fallible.bind_eq_ok] at h
      obtain ⟨x, -, n, -, h⟩ := h
      rw [List.map_cons, List.mem_cons, not_or] at hk
      rw [ih h hk.2, Table.get?_insert, if_neg hk.1]

/-- The final block while stats are derived: what has been derived so far stands in the context too,
and the context stands behind all that is derived in the end. -/
structure Completes (final context stats out : Block) : Prop where
  derived (k : String) : (stats.get? k).or (context.get? k) = context.get? k
  final (k : String) : final.get? k = (out.get? k).or (context.get? k)

namespace Completes

theorem insert {n : Int} (h : Completes final context stats out)
    (hd : out.get? d.id = some (.whole n)) :
    Completes final (context.insert d.id (.whole n)) (stats.insert d.id (.whole n)) out where
  derived k := by
    rw [Table.get?_insert, Table.get?_insert]
    by_cases hk : k = d.id
    · simp [hk]
    · simpa [hk] using h.derived k
  final k := by
    rw [Table.get?_insert, h.final]
    by_cases hk : k = d.id
    · simp [hk, hd]
    · simp [hk]

theorem get?_eq (h : Completes final context stats out)
    (hderive : deriveFrom context stats ds = .ok out) (hk : k ∉ ds.map Derived.id) :
    final.get? k = context.get? k := by
  rw [h.final, get?_deriveFrom hderive hk, h.derived]

/-- A derived stat uses known names only, and none of them is derived again: its formula gives the
same in the final block. -/
theorem solves (h : Completes final context stats out)
    (hcheck : checkDerived available ds = .ok known) (hdistinct : (ds.map Derived.id).Nodup)
    (hfresh : ∀ k ∈ available, k ∉ ds.map Derived.id)
    (hderive : deriveFrom context stats ds = .ok out) : ∀ d ∈ ds, Solves final d := by
  induction ds generalizing available context stats with
  | nil => simp
  | cons d ds ih =>
      have hkept : ∀ k ∈ available, final.get? k = context.get? k :=
        fun k hk => h.get?_eq hderive (hfresh k hk)
      simp only [checkDerived, Fallible.bind_eq_ok] at hcheck
      obtain ⟨⟨⟩, hformula, hchecked⟩ := hcheck
      simp only [deriveFrom, Fallible.bind_eq_ok] at hderive
      obtain ⟨x, hx, n, hn, hderived⟩ := hderive
      rw [List.map_cons, List.nodup_cons] at hdistinct
      have hout : out.get? d.id = some (.whole n) := by
        rw [get?_deriveFrom hderived hdistinct.1, Table.get?_insert, if_pos rfl]
      rw [List.forall_mem_cons]
      constructor
      · obtain ⟨e, he, hnames⟩ := exists_parse_of_checkFormula hformula
        refine ⟨x, n, ?_, Fallible.mapError_eq_ok.1 hn, ?_⟩
        · rw [← hx]
          apply computeWith_congr he
          intro k hk
          exact Context.resolve_ofBlock_congr (hkept k (hnames hk))
        · rw [h.final, hout, Option.some_or]
      · apply ih (h.insert hout) hchecked hdistinct.2 _ hderived
        intro k hk
        rcases List.mem_cons.1 hk with rfl | hk
        · exact hdistinct.1
        · exact fun hmem => hfresh k hk (List.mem_cons_of_mem _ hmem)

end Completes

theorem exists_completes (h : r.completeStats block level = .ok final) :
    ∃ out, deriveFrom (block.insert "Level" level) {} r.derived = .ok out ∧
      Completes final (block.insert "Level" level) {} out := by
  obtain ⟨out, hout, hfinal⟩ := Fallible.bind_eq_ok.1 h
  cases hfinal
  exact ⟨out, hout, fun k => rfl, fun k => Table.get?_insertAll _ out k⟩

/-- Where the ids of an accepted configuration are apart, complete stats keep the given ones and the
level, and every derived formula computed in them gives the stat that stands there. -/
theorem completeStats_solves (h : ofConfig cfg = .ok r)
    (hdistinct : (cfg.derived.map Derived.id).Nodup)
    (hlevel : "Level" ∉ cfg.derived.map Derived.id)
    (hprimary : ∀ s ∈ cfg.primary, s.id ∉ cfg.derived.map Derived.id)
    (hblock : ∀ k ∈ block.keys, k ∉ cfg.derived.map Derived.id)
    (hcomplete : r.completeStats block level = .ok final) :
    (∀ k ∈ block.keys, k ≠ "Level" → final.get? k = block.get? k) ∧
      final.get? "Level" = some level ∧ ∀ d ∈ cfg.derived, Solves final d := by
  obtain ⟨known, haccepted⟩ := exists_accepted h
  obtain ⟨out, hderive, hcompletes⟩ := exists_completes hcomplete
  rw [haccepted.derived] at hderive
  refine ⟨fun k hk hne => ?_, ?_, ?_⟩
  · rw [hcompletes.get?_eq hderive (hblock k hk), Table.get?_insert, if_neg hne]
  · rw [hcompletes.get?_eq hderive hlevel, Table.get?_insert, if_pos rfl]
  · apply hcompletes.solves haccepted.checked hdistinct _ hderive
    intro k hk
    rcases List.mem_cons.1 hk with rfl | hk
    · exact hlevel
    · obtain ⟨s, hs, rfl⟩ := List.mem_map.1 hk
      exact hprimary s hs

def layered : Config where
  primary := [{ id := "Strength", name := "Strength" }, { id := "Luck", name := "Luck" }]
  derived := [{ id := "Power", name := "Power", formula := "Strength * 2" },
    { id := "Might", name := "Might", formula := "Power > 9 ? Power + Level : Luck" }]
  combat := some ⟨"Level", "Level", "Level", "Level"⟩

theorem completeStats_solves_layered : ∃ r final, ofConfig layered = .ok r ∧
    r.completeStats (Table.ofList [("Strength", 5), ("Level", 99)]) 3 = .ok final ∧
    final.get? "Strength" = some 5 ∧ final.get? "Level" = some 3 ∧
      ∀ d ∈ layered.derived, Solves final d := by
  have hruns : (ofConfig layered).toOption.map (fun r =>
      (r.completeStats (Table.ofList [("Strength", 5), ("Level", 99)]) 3).isOk) = some true := by
    decide +kernel
  obtain ⟨r, hr, hok⟩ := Fallible.exists_eq_ok_and hruns
  obtain ⟨final, hfinal⟩ := Fallible.exists_eq_ok hok
  obtain ⟨hkept, hlevel, hsolves⟩ := completeStats_solves hr (by decide) (by decide) (by decide)
    (by decide) hfinal
  exact ⟨r, final, hr, hfinal, hkept "Strength" (by decide) (by decide), hlevel, hsolves⟩

end Stat

end Skirmish
