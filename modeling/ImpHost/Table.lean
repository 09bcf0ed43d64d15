/-!
Finite maps from names, in the order in which the names were first bound. Each name is bound once,
and rebinding it keeps its place. `mem_keys_bind` and `nodup_keys_bind` say that one binding keeps
this so.
-/

namespace ImpHost

namespace Table

variable {α : Type}

/-- Binds `x` to `v` in a list of bindings: in its place if it is bound, else at the end. -/
def bind (x : String) (v : α) : List (String × α) → List (String × α)
  | [] => [(x, v)]
  | (y, w) :: rest => if y = x then (y, v) :: rest else (y, w) :: bind x v rest

theorem mem_keys_bind {x y : String} {v : α} {l : List (String × α)} :
    y ∈ (bind x v l).map Prod.fst ↔ y = x ∨ y ∈ l.map Prod.fst := by
  induction l with
  | nil => simp [bind]
  | cons p rest ih =>
    obtain ⟨z, w⟩ := p
    by_cases h : z = x
    · subst h
      simp [bind]
    · simp only [bind, h, if_false, List.map_cons, List.mem_cons, ih]
      grind

theorem nodup_keys_bind {x : String} {v : α} {l : List (String × α)}
    (distinct : (l.map Prod.fst).Nodup) : ((bind x v l).map Prod.fst).Nodup := by
  induction l with
  | nil => simp [bind]
  | cons p rest ih =>
    obtain ⟨z, w⟩ := p
    rw [List.map_cons, List.nodup_cons] at distinct
    by_cases h : z = x
    · rw [bind, if_pos h, List.map_cons, List.nodup_cons]
      exact distinct
    · rw [bind, if_neg h, List.map_cons, List.nodup_cons, mem_keys_bind]
      exact ⟨fun bound => bound.elim h distinct.1, ih distinct.2⟩

end Table

/-- A finite map from names: bindings in the order of first binding, each name once. -/
structure Table (α : Type) where
  entries : List (String × α)
  distinct : (entries.map Prod.fst).Nodup
deriving DecidableEq

namespace Table

variable {α : Type}

/-- The table that binds nothing. -/
def empty : Table α := ⟨[], List.nodup_nil⟩

instance : EmptyCollection (Table α) := ⟨empty⟩

instance : Inhabited (Table α) := ⟨empty⟩

/-- What is bound to `x`. -/
def get? (t : Table α) (x : String) : Option α :=
  t.entries.lookup x

/-- Binds or rebinds `x`. -/
def set (t : Table α) (x : String) (v : α) : Table α :=
  ⟨bind x v t.entries, nodup_keys_bind t.distinct⟩

/-- Removes the binding of `x`. -/
def erase (t : Table α) (x : String) : Table α :=
  ⟨t.entries.filter fun p => p.1 ≠ x, t.distinct.sublist (List.filter_sublist.map _)⟩

/-- The bound names, in the order of first binding. -/
def keys (t : Table α) : List String :=
  t.entries.map Prod.fst

/-- What is bound, in the order of first binding. -/
def values (t : Table α) : List α :=
  t.entries.map Prod.snd

/-- The number of bindings. -/
def size (t : Table α) : Nat :=
  t.entries.length

/-- Binds the entries of `l` in order, so that the last of several entries for a name counts. -/
def setAll (t : Table α) (l : List (String × α)) : Table α :=
  l.foldl (fun t p => t.set p.1 p.2) t

/-- The table with the given bindings. -/
def ofList (l : List (String × α)) : Table α :=
  empty.setAll l

/-- Binds every entry of `other` in `t`, over what `t` has. -/
def merge (t other : Table α) : Table α :=
  t.setAll other.entries

end Table

end ImpHost
