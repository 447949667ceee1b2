/-!
# Maps from names

A map from names keeps its entries in the order of the names, character by character, and has one
entry for each name.
-/

namespace Choreo

/-- Entries in the order of their names, each name once. -/
structure NameMap (α : Type) where
  entries : List (String × α)
  sorted : entries.Pairwise fun a b => a.1 < b.1

namespace NameMap

variable {α β : Type}

def empty : NameMap α := ⟨[], .nil⟩

instance : Inhabited (NameMap α) := ⟨empty⟩

/-- Puts an entry at its place, instead of one of the same name. -/
def place (name : String) (value : α) : List (String × α) → List (String × α)
  | [] => [(name, value)]
  | entry :: rest =>
    if name < entry.1 then (name, value) :: entry :: rest
    else if name = entry.1 then (name, value) :: rest
    else entry :: place name value rest

theorem mem_place {name : String} {value : α} {entries : List (String × α)} {e : String × α}
    (h : e ∈ place name value entries) : e = (name, value) ∨ e ∈ entries := by
  induction entries with
  | nil => simpa [place] using h
  | cons entry rest ih =>
    rw [place] at h
    split at h
    · simpa using h
    split at h
    · rcases List.mem_cons.1 h with h | h
      · exact .inl h
      · exact .inr (List.mem_cons_of_mem _ h)
    · rcases List.mem_cons.1 h with h | h
      · exact .inr (h ▸ List.mem_cons_self)
      · exact (ih h).imp_right (List.mem_cons_of_mem _)

theorem sorted_place (name : String) (value : α) {entries : List (String × α)}
    (h : entries.Pairwise fun a b => a.1 < b.1) :
    (place name value entries).Pairwise fun a b => a.1 < b.1 := by
  induction entries with
  | nil => simp [place]
  | cons entry rest ih =>
    obtain ⟨head, tail⟩ := List.pairwise_cons.1 h
    rw [place]
    split
    · rename_i lt
      refine List.pairwise_cons.2 ⟨fun e he => ?_, h⟩
      rcases List.mem_cons.1 he with rfl | he
      · exact lt
      · exact String.lt_trans lt (head e he)
    split
    · rename_i eq
      exact List.pairwise_cons.2 ⟨fun e he => eq ▸ head e he, tail⟩
    · rename_i nlt ne
      refine List.pairwise_cons.2 ⟨fun e he => ?_, ih tail⟩
      rcases mem_place he with rfl | he
      · rcases Decidable.em (entry.1 < name) with lt | nlt'
        · exact lt
        · exact absurd (String.le_antisymm (String.not_lt.1 nlt') (String.not_lt.1 nlt)) ne
      · exact head e he

def insert (name : String) (value : α) (map : NameMap α) : NameMap α :=
  ⟨place name value map.entries, sorted_place name value map.sorted⟩

/-- The map with these entries; of several with one name the last counts. -/
def ofList (entries : List (String × α)) : NameMap α :=
  entries.foldl (fun map entry => map.insert entry.1 entry.2) empty

def names (map : NameMap α) : List String := map.entries.map Prod.fst

def isEmpty (map : NameMap α) : Bool := map.entries.isEmpty

def contains (name : String) (map : NameMap α) : Bool := map.names.contains name

def position? (name : String) (map : NameMap α) : Option Nat :=
  map.names.findIdx? fun other => other == name

/-- Puts each value through a function that may fail, in the order of the names. -/
def traverseEntries {ε : Type} (f : String → α → Except ε β) :
    List (String × α) → Except ε (List (String × β))
  | [] => .ok []
  | (name, value) :: rest =>
    match f name value with
    | .error e => .error e
    | .ok value =>
      match traverseEntries f rest with
      | .error e => .error e
      | .ok rest => .ok ((name, value) :: rest)

theorem names_traverseEntries {ε : Type} {f : String → α → Except ε β}
    {entries : List (String × α)} {result : List (String × β)}
    (h : traverseEntries f entries = .ok result) :
    result.map Prod.fst = entries.map Prod.fst := by
  induction entries generalizing result with
  | nil => cases h; rfl
  | cons entry rest ih =>
    rw [traverseEntries] at h
    split at h
    · cases h
    split at h
    · cases h
    · rename_i tail
      cases h
      simp [ih tail]

theorem sorted_iff_names (entries : List (String × α)) :
    (entries.Pairwise fun a b => a.1 < b.1) ↔ (entries.map Prod.fst).Pairwise (· < ·) := by
  rw [List.pairwise_map]

def traverse {ε : Type} (f : String → α → Except ε β) (map : NameMap α) : Except ε (NameMap β) :=
  match h : traverseEntries f map.entries with
  | .error e => .error e
  | .ok entries => .ok ⟨entries, by
      rw [sorted_iff_names, names_traverseEntries h, ← sorted_iff_names]
      exact map.sorted⟩

end NameMap

end Choreo
