namespace Skirmish

structure Table (α : Type) where
  entries : List (String × α)
  nodup : (entries.map Prod.fst).Nodup

namespace Table

variable {α β : Type}

def empty : Table α := ⟨[], List.nodup_nil⟩

instance : Inhabited (Table α) := ⟨empty⟩

instance : EmptyCollection (Table α) := ⟨empty⟩

def keys (t : Table α) : List String := t.entries.map Prod.fst

def values (t : Table α) : List α := t.entries.map Prod.snd

def size (t : Table α) : Nat := t.entries.length

def isEmpty (t : Table α) : Bool := t.entries.isEmpty

def contains (t : Table α) (k : String) : Bool := t.keys.contains k

def lookup (k : String) : List (String × α) → Option α
  | [] => none
  | e :: es => if e.1 = k then some e.2 else lookup k es

def get? (t : Table α) (k : String) : Option α := lookup k t.entries

def getD (t : Table α) (k : String) (default : α) : α := (t.get? k).getD default

/-- Puts a value under a key of the list, or at the end under a new one. -/
def put {κ : Type} [DecidableEq κ] (k : κ) (a : α) : List (κ × α) → List (κ × α)
  | [] => [(k, a)]
  | e :: es => if e.1 = k then (k, a) :: es else e :: put k a es

theorem mem_keys_put {k x : String} {a : α} {es : List (String × α)} :
    x ∈ (put k a es).map Prod.fst ↔ x = k ∨ x ∈ es.map Prod.fst := by
  induction es with
  | nil => simp [put]
  | cons e es ih => by_cases h : e.1 = k <;> grind [put]

theorem nodup_put {k : String} {a : α} {es : List (String × α)}
    (h : (es.map Prod.fst).Nodup) : ((put k a es).map Prod.fst).Nodup := by
  induction es with
  | nil => simp [put]
  | cons e es ih =>
    by_cases hk : e.1 = k
    · simpa [put, hk] using h
    · have := @mem_keys_put α k e.1 a es
      simp only [put, hk, if_false, List.map_cons, List.nodup_cons] at h ⊢
      exact ⟨by grind, ih h.2⟩

def insert (t : Table α) (k : String) (a : α) : Table α :=
  ⟨put k a t.entries, nodup_put t.nodup⟩

def filter (t : Table α) (p : String → α → Bool) : Table α :=
  ⟨t.entries.filter fun e => p e.1 e.2, (List.filter_sublist.map Prod.fst).nodup t.nodup⟩

def erase (t : Table α) (k : String) : Table α := t.filter fun x _ => x ≠ k

def map (f : String → α → β) (t : Table α) : Table β :=
  ⟨t.entries.map fun e => (e.1, f e.1 e.2), by simpa [Function.comp_def] using t.nodup⟩

def modify (t : Table α) (k : String) (f : α → α) : Table α :=
  t.map fun x a => if x = k then f a else a

def ofList (es : List (String × α)) : Table α :=
  es.foldl (fun t e => t.insert e.1 e.2) empty

theorem lookup_put (k x : String) (a : α) (es : List (String × α)) :
    lookup x (put k a es) = if x = k then some a else lookup x es := by
  induction es with
  | nil => simp [put, lookup, eq_comm]
  | cons e es ih => by_cases h : e.1 = k <;> grind [put, lookup]

theorem get?_insert (t : Table α) (k x : String) (a : α) :
    (t.insert k a).get? x = if x = k then some a else t.get? x :=
  lookup_put k x a t.entries

theorem keys_put (k : String) (a : α) (es : List (String × α)) :
    (put k a es).map Prod.fst =
      if k ∈ es.map Prod.fst then es.map Prod.fst else es.map Prod.fst ++ [k] := by
  induction es with
  | nil => simp [put]
  | cons e es ih => by_cases h : e.1 = k <;> grind [put]

theorem keys_insert (t : Table α) (k : String) (a : α) :
    (t.insert k a).keys = if k ∈ t.keys then t.keys else t.keys ++ [k] :=
  keys_put k a t.entries

theorem lookup_eq_none {k : String} {es : List (String × α)} (h : k ∉ es.map Prod.fst) :
    lookup k es = none := by
  induction es with
  | nil => rfl
  | cons e es ih => grind [lookup]

theorem get?_map (f : String → α → β) (t : Table α) (k : String) :
    (t.map f).get? k = (t.get? k).map (f k) := by
  rcases t with ⟨es, h⟩
  simp only [get?, map]
  clear h
  induction es with
  | nil => rfl
  | cons e es ih => by_cases hk : e.1 = k <;> grind [lookup]

theorem lookup_filter (p : String → α → Bool) {es : List (String × α)}
    (h : (es.map Prod.fst).Nodup) (k : String) :
    lookup k (es.filter fun e => p e.1 e.2) = (lookup k es).filter (p k) := by
  induction es with
  | nil => rfl
  | cons e es ih =>
    have ih := ih (List.nodup_cons.1 h).2
    by_cases hk : e.1 = k
    · have hn := lookup_eq_none (α := α) (hk ▸ (List.nodup_cons.1 h).1)
      by_cases hp : p e.1 e.2 <;> simp_all [lookup, Option.filter]
    · by_cases hp : p e.1 e.2 <;> simp_all [lookup]

theorem get?_filter (p : String → α → Bool) (t : Table α) (k : String) :
    (t.filter p).get? k = (t.get? k).filter (p k) :=
  lookup_filter p t.nodup k

theorem get?_erase (t : Table α) (k x : String) :
    (t.erase k).get? x = if x = k then none else t.get? x := by
  simp only [erase, get?_filter]
  by_cases h : x = k <;> cases t.get? x <;> simp [h]

theorem contains_iff (t : Table α) (k : String) : t.contains k = true ↔ k ∈ t.keys := by
  simp [contains]

end Table

end Skirmish
