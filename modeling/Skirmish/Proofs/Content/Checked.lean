import Mathlib.Data.List.Forall2
import Skirmish.Content.Decode
import Skirmish.Proofs.Table

namespace Skirmish.Content

variable {α β γ : Type}

def Problem.along (way : List String) (p : Problem) : Problem := { p with path := way ++ p.path }

namespace Checked

variable {f : Checked (α → β)} {x : Checked α} {a : α} {b : β} {part : String}

@[simp] theorem map_ok (f : α → β) (a : α) : f <$> (ok a) = ok (f a) := rfl

@[simp] theorem map_wrong (f : α → β) (ps : List Problem) :
    f <$> (wrong ps : Checked α) = wrong ps := rfl

@[simp] theorem ok_seq (f : α → β) (x : Checked α) : ok f <*> x = f <$> x := by
  cases x <;> rfl

theorem seq_ok (f : Checked (α → β)) (a : α) : f <*> ok a = (fun g => g a) <$> f := by
  cases f <;> rfl

theorem map_eq_ok {f : α → β} : f <$> x = .ok b ↔ ∃ a, x = .ok a ∧ f a = b := by
  cases x <;> simp

theorem seq_eq_ok : f <*> x = .ok b ↔ ∃ g a, f = .ok g ∧ x = .ok a ∧ g a = b := by
  cases f with
  | ok g => simp [map_eq_ok]
  | wrong ps =>
      have hwrong : ∃ qs, (wrong ps : Checked (α → β)) <*> x = wrong qs := by
        cases x with
        | ok a => exact ⟨ps, rfl⟩
        | wrong qs => exact ⟨ps ++ qs, rfl⟩
      obtain ⟨qs, hqs⟩ := hwrong
      simp [hqs]

def toOption : Checked α → Option α
  | ok a => some a
  | wrong _ => none

theorem toOption_eq_some : x.toOption = some a ↔ x = .ok a := by
  cases x <;> simp [toOption]

theorem under_eq_ok : x.under part = .ok a ↔ x = .ok a := by
  cases x <;> simp [under]

def along (way : List String) : Checked α → Checked α
  | ok a => ok a
  | wrong ps => wrong (ps.map (Problem.along way))

theorem under_eq_along (part : String) (x : Checked α) : x.under part = x.along [part] := by
  cases x <;> rfl

theorem along_along (way more : List String) (x : Checked α) :
    (x.along more).along way = x.along (way ++ more) := by
  cases x with
  | ok a => rfl
  | wrong ps => simp [along, Problem.along, Function.comp_def]

theorem along_map (f : α → β) (way : List String) (x : Checked α) :
    (f <$> x).along way = f <$> x.along way := by
  cases x <;> rfl

theorem map_map (f : α → β) (g : β → γ) (x : Checked α) :
    g <$> f <$> x = (fun a => g (f a)) <$> x := by
  cases x <;> rfl

theorem all_cons_eq_ok {xs : List (Checked α)} {as : List α} : all (x :: xs) = .ok as ↔
    ∃ a rest, x = .ok a ∧ all xs = .ok rest ∧ as = a :: rest := by
  simp only [all, seq_eq_ok, map_eq_ok]
  constructor
  · rintro ⟨-, rest, ⟨a, ha, rfl⟩, hrest, rfl⟩
    exact ⟨a, rest, ha, hrest, rfl⟩
  · rintro ⟨a, rest, ha, hrest, rfl⟩
    exact ⟨_, rest, ⟨a, ha, rfl⟩, hrest, rfl⟩

theorem all_set {xs : List (Checked α)} {as : List α} {i : Nat} (h : all xs = .ok as)
    (hi : i < xs.length) (x : Checked α) : all (xs.set i x) = (fun a => as.set i a) <$> x := by
  induction xs generalizing as i with
  | nil => cases hi
  | cons y ys ih =>
      obtain ⟨a, rest, rfl, hrest, rfl⟩ := all_cons_eq_ok.1 h
      cases i with
      | zero =>
          simp only [List.set_cons_zero, all, hrest]
          cases x <;> rfl
      | succ i =>
          simp only [List.set_cons_succ, all, ih hrest (Nat.lt_of_succ_lt_succ hi)]
          cases x <;> rfl

end Checked

namespace Decode

variable {d : Decoder α} {v : Document} {vs : List Document} {as : List α} {a : α}
  {fs : Fields} {name key cls : String} {i j : Nat}

theorem all_indexed_eq_ok : Checked.all (indexed d i vs) = .ok as ↔
    List.Forall₂ (fun v a => d v = .ok a) vs as := by
  induction vs generalizing i as with
  | nil => cases as <;> simp [indexed, Checked.all]
  | cons v vs ih =>
      simp only [indexed, Checked.all_cons_eq_ok, Checked.under_eq_ok, ih,
        List.forall₂_cons_left_iff]

theorem list_eq_ok : list d v = .ok as ↔
    ∃ vs, v = .list vs ∧ List.Forall₂ (fun v a => d v = .ok a) vs as := by
  cases v with
  | list vs => simp [list, all_indexed_eq_ok]
  | _ => simp [list, Checked.fail]

theorem nonEmptyList_of_ne_nil (h : vs ≠ []) : nonEmptyList d (.list vs) = list d (.list vs) := by
  cases vs with
  | nil => exact absurd rfl h
  | cons v vs => rfl

theorem list_of_nonEmptyList (h : nonEmptyList d v = .ok as) : list d v = .ok as := by
  cases v with
  | list vs =>
      cases vs with
      | nil => cases h
      | cons v vs => exact h
  | _ => exact h

theorem indexed_set : indexed d i (vs.set j v) =
    (indexed d i vs).set j ((d v).under (toString (i + j))) := by
  induction vs generalizing i j with
  | nil => rfl
  | cons w vs ih =>
      cases j with
      | zero => rfl
      | succ j =>
          have hindex : i + 1 + j = i + (j + 1) := by omega
          simp only [List.set_cons_succ, indexed, ih, hindex]

theorem length_indexed : (indexed d i vs).length = vs.length := by
  induction vs generalizing i with
  | nil => rfl
  | cons v vs ih => simp [indexed, ih]

theorem list_set (h : list d (.list vs) = .ok as) (hj : j < vs.length) :
    list d (.list (vs.set j v)) = (fun a => as.set j a) <$> (d v).under (toString j) := by
  rw [list, indexed_set, Nat.zero_add]
  exact Checked.all_set h (by rwa [length_indexed]) _

theorem object_eq_ok {read : Fields → Checked α} :
    object cls read v = .ok a ↔ ∃ fs, v = .object fs ∧ read fs = .ok a := by
  cases v <;> simp [object, Checked.fail]

theorem find?_put_of_ne (h : camelCase name ≠ key) (h' : name ≠ key) :
    find? name (Table.put key v fs) = find? name fs := by
  simp only [find?, Table.lookup_put, if_neg h, if_neg h']

theorem required_put_of_ne (h : camelCase name ≠ key) (h' : name ≠ key) :
    required name d (Table.put key v fs) = required name d fs := by
  rw [required, required, find?_put_of_ne h h']

theorem withDefault_put_of_ne (h : camelCase name ≠ key) (h' : name ≠ key) :
    withDefault name d a (Table.put key v fs) = withDefault name d a fs := by
  rw [withDefault, withDefault, find?_put_of_ne h h']

theorem find?_of_lookup (h : camelCase name = name) (hv : Table.lookup name fs = some v) :
    find? name fs = some (name, v) := by
  simp only [find?, h, hv]

theorem required_put (h : camelCase name = name) :
    required name d (Table.put name v fs) = (d v).under name := by
  simp [required, find?, h, Table.lookup_put]

theorem withDefault_put (h : camelCase name = name) :
    withDefault name d a (Table.put name v fs) = (d v).under name := by
  simp [withDefault, find?, h, Table.lookup_put]

theorem required_of_lookup (h : camelCase name = name) (hv : Table.lookup name fs = some v) :
    required name d fs = (d v).under name := by
  rw [required, find?_of_lookup h hv]

theorem withDefault_of_lookup (h : camelCase name = name) (hv : Table.lookup name fs = some v) :
    withDefault name d a fs = (d v).under name := by
  rw [withDefault, find?_of_lookup h hv]

end Decode

end Skirmish.Content
