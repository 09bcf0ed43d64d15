import ImpHost.Proofs.Memory.Acceptance
import ImpHost.Proofs.Program.Frame
import ImpHost.Proofs.Program.Variables

/-!
How a store came about, and what it answers.

A `Memory.History` tells by which operations a store was built. Beside the store it gives the log of
the bindings that were made since the store was new, and the store is that log bound one entry after
the other (`History.store_eq_ofList`). What is known of binding a list is thereby known of every
store.

A store may as well be kept in two parts, the list of the names in the order of first binding and a
map with the values. Every operation keeps the parts in step with each other (`Parts.Hold`): the
list has the names of the map and no others. The comparison of two stores looks up one side's names
only, and it is right because of that.

Main statement: `Memory.stores_are_ordered_maps`.
-/

namespace ImpHost

namespace Table

variable {α β : Type}

/-- The last entry of a name counts. -/
theorem get?_setAll_last (t : Table α) (l : List (String × α)) (x : String) :
    (t.setAll l).get? x = (l.reverse.lookup x).or (t.get? x) := by
  induction l generalizing t with
  | nil => rfl
  | cons p rest ih =>
    have step : (t.setAll (p :: rest)).get? x =
        (rest.reverse.lookup x).or ((t.set p.1 p.2).get? x) := ih (t.set p.1 p.2)
    rw [step, get?_set, List.reverse_cons, List.lookup_append, Option.or_assoc]
    congr 1
    obtain ⟨y, v⟩ := p
    rw [lookup_cons]
    split <;> rfl

theorem sorted_map (f : α → β) (t : Table α) :
    (t.map f).sorted = t.sorted.map fun p => (p.1, f p.2) :=
  sorted_eq_of_perm (t.sorted_perm.map _) (List.pairwise_map.2 t.pairwise_sorted)

end Table

namespace Memory

/-! ## Stores from decoded maps -/

/-- The binding that an entry of a decoded map denotes. -/
def bindingOf (p : String × Scalar) : Except StoreError (String × Value) :=
  match p.2.toValue with
  | .ok v => .ok (p.1, v)
  | .error why => .error (.entry p.1 why)

/-- The bindings that a decoded map denotes, in byte order of the names. -/
def bindingsOf (raw : Table Scalar) : Except StoreError (List (String × Value)) :=
  raw.sorted.mapM bindingOf

/-- The store that a decoded map denotes. -/
def ofMap (raw : Table Scalar) : Except StoreError Memory :=
  (bindingsOf raw).map Table.ofList

/-- The map that a text is decoded to. -/
def rawMap (text : Text) : Except StoreError (Table Scalar) :=
  let cs := trimSpace text.chars
  if cs.isEmpty then .ok ∅
  else
    match Json.first? cs with
    | some .null => .ok ∅
    | some (.object fields) => .ok ((Table.ofList fields).map Scalar.ofJson)
    | _ => .error .notObject

/-- The bindings that a text denotes, in byte order of the names. -/
def bindingsOfText (text : Text) : Except StoreError (List (String × Value)) := do
  bindingsOf (← rawMap text)

theorem sorted_ofList (fields : List (String × Json)) :
    (Table.ofList fields).sorted = sortedFields fields := by
  let listed : Table Json := ⟨sortedFields fields, nodup_sortedFields fields⟩
  have same (x : String) : (Table.ofList fields).get? x = listed.get? x :=
    ((∅ : Table Json).get?_setAll_last fields x).trans
      ((Option.or_none).trans (lookup_sortedFields fields x).symm)
  rw [Table.sorted_congr same]
  exact Table.sorted_of_inKeyOrder ((pairwise_sortedFields fields).imp Std.le_of_lt)

theorem mapM_entryOf (fields : List (String × Json)) :
    fields.mapM entryOf = (fields.map fun f => (f.1, Scalar.ofJson f.2)).mapM bindingOf := by
  rw [List.mapM_map]
  rfl

theorem ofFields_eq_ofMap (fields : List (String × Json)) :
    ofFields fields = ofMap ((Table.ofList fields).map Scalar.ofJson) := by
  rw [ofFields_eq, mapM_entryOf, ofMap, bindingsOf, Table.sorted_map, sorted_ofList]
  rfl

theorem ofMap_empty : ofMap ∅ = .ok ∅ := by
  have none : (∅ : Table Scalar).sorted = [] := Table.sorted_of_inKeyOrder .nil
  rw [ofMap, bindingsOf, none]
  rfl

/-- A store is read in steps: the text is decoded to a map, and what the map denotes is bound. -/
theorem ofJson_eq (text : Text) : ofJson text = (bindingsOfText text).map Table.ofList := by
  have steps : (bindingsOfText text).map Table.ofList = (do ofMap (← rawMap text)) := by
    rw [bindingsOfText]
    cases rawMap text <;> rfl
  rw [steps]
  unfold ofJson rawMap
  dsimp only
  split
  · exact ofMap_empty.symm
  · cases Json.first? (trimSpace text.chars) with
    | none => rfl
    | some v =>
      cases v with
      | object fields => exact ofFields_eq_ofMap fields
      | null => exact ofMap_empty.symm
      | bool b => rfl
      | number s => rfl
      | string s => rfl
      | bytes t => rfl
      | array vs => rfl

/-! ## Histories -/

/-- A copy of the store. -/
def clone (m : Memory) : Memory :=
  (∅ : Memory).merge m

/-- Replaces what the store has by what a text denotes. A text that is no store is reported, and the
store stays as it is. -/
def reread (m : Memory) (text : Text) : Option StoreError × Memory :=
  match ofJson text with
  | .ok read => (none, read)
  | .error why => (some why, m)

theorem reread_eq (m : Memory) (text : Text) :
    (m.reread text).2 =
      match bindingsOfText text with
      | .ok log => Table.ofList log
      | .error _ => m := by
  rw [reread, ofJson_eq]
  cases bindingsOfText text <;> rfl

theorem exists_of_ofMap {raw : Table Scalar} {m : Memory} (read : ofMap raw = .ok m) :
    ∃ log, bindingsOf raw = .ok log ∧ m = Table.ofList log := by
  unfold ofMap at read
  cases bound : bindingsOf raw with
  | error why =>
    rw [bound] at read
    cases read
  | ok log =>
    rw [bound] at read
    cases read
    exact ⟨log, rfl, rfl⟩

/-- How a store was built. -/
inductive History where
  | new
  | set (h : History) (x : String) (v : Value)
  | merge (h other : History)
  | clone (h : History)
  | reread (h : History) (text : Text)
  | ofMap (raw : Table Scalar) (m : Memory) (read : ofMap raw = .ok m)

namespace History

/-- The store that was built. -/
def store : History → Memory
  | new => ∅
  | set h x v => h.store.set x v
  | merge h other => h.store.merge other.store
  | clone h => h.store.clone
  | reread h text => (h.store.reread text).2
  | ofMap _ m _ => m

/-- The bindings that were made in the store since it was new. -/
def log : History → List (String × Value)
  | new => []
  | set h x v => h.log ++ [(x, v)]
  | merge h other => h.log ++ other.store.entries
  | clone h => h.store.entries
  | reread h text =>
    match bindingsOfText text with
    | .ok log => log
    | .error _ => h.log
  | ofMap raw _ _ =>
    match bindingsOf raw with
    | .ok log => log
    | .error _ => []

/-- A store has what was bound in it. -/
theorem store_eq_ofList (h : History) : h.store = Table.ofList h.log := by
  induction h with
  | new => rfl
  | set h x v ih =>
    have bound : Table.ofList (h.log ++ [(x, v)]) = (Table.ofList h.log).set x v :=
      Table.setAll_append ..
    rw [store, log, bound, ih]
  | merge h other ih _ =>
    have bound : Table.ofList (h.log ++ other.store.entries) =
        (Table.ofList h.log).merge other.store := Table.setAll_append ..
    rw [store, log, bound, ih]
  | clone h => rfl
  | reread h text ih =>
    rw [store, log, reread_eq]
    cases bindingsOfText text with
    | ok log => rfl
    | error why => exact ih
  | ofMap raw m read =>
    obtain ⟨log, bound, made⟩ := exists_of_ofMap read
    rw [store, History.log, bound, made]

-- The name that is bound again keeps its place.
example :
    let h := ((History.new.set "z" (.int 1)).set "a" (.bool false)).set "z" (.int 2)
    h.store.entries = [("z", .int 2), ("a", .bool false)] ∧ h.log.length = 3 := by
  decide

end History

/-- The store is an ordered map with what was bound last: it has each name once, in the order in
which they were first bound, it answers for these names and no others, and it answers what was bound
last. -/
structure OrderedMap (m : Memory) (log : List (String × Value)) : Prop where
  nodup : m.keys.Nodup
  mem_keys_iff : ∀ x, x ∈ m.keys ↔ (m.get? x).isSome
  inOrder : Table.FirstNew [] (log.map Prod.fst) m.keys
  last : ∀ x, m.get? x = log.reverse.lookup x

theorem orderedMap_ofList (log : List (String × Value)) : OrderedMap (Table.ofList log) log := by
  obtain ⟨new, keys, first⟩ := (∅ : Memory).exists_keys_setAll log
  have keys : (Table.ofList log).keys = new := keys
  refine ⟨Table.distinct _, fun x => (Table.isSome_get?_iff _ x).symm, keys ▸ first, fun x => ?_⟩
  exact ((∅ : Memory).get?_setAll_last log x).trans Option.or_none

/-! ## Stores in two parts -/

/-- A store in two parts: the names in the order of first binding, and a map with their values. -/
structure Parts where
  names : List String
  values : String → Option Value

namespace Parts

/-- The store that binds nothing. -/
def empty : Parts :=
  ⟨[], fun _ => none⟩

/-- Binds or rebinds `x`. A name that the map does not have is added to the list. -/
def set (p : Parts) (x : String) (v : Value) : Parts :=
  ⟨if (p.values x).isSome then p.names else p.names ++ [x],
    fun y => if y = x then some v else p.values y⟩

/-- What the map gives for a name, which is the default value if it does not have it. -/
def value (p : Parts) (x : String) : Value :=
  (p.values x).getD default

/-- Binds what `other` lists over what the store has. -/
def merge (p other : Parts) : Parts :=
  other.names.foldl (fun p x => p.set x (other.value x)) p

/-- A copy of the store. -/
def clone (p : Parts) : Parts :=
  empty.merge p

/-- The store that is built by binding the entries of a list in order. -/
def ofList (log : List (String × Value)) : Parts :=
  log.foldl (fun p b => p.set b.1 b.2) empty

/-- Whether the stores list as many names, and `other` has the value of each that `p` lists. -/
def same (p other : Parts) : Bool :=
  p.names.length == other.names.length && p.names.all fun x =>
    match other.values x with
    | some v => p.value x == v
    | none => false

/-- The parts are in step with each other: they hold the names and the values of one store. -/
structure Hold (p : Parts) (m : Memory) : Prop where
  names : p.names = m.keys
  values : ∀ x, p.values x = m.get? x

theorem hold_empty : empty.Hold ∅ :=
  ⟨rfl, fun _ => rfl⟩

variable {p q : Parts} {m m' : Memory}

theorem Hold.set (hold : p.Hold m) (x : String) (v : Value) : (p.set x v).Hold (m.set x v) := by
  refine ⟨?_, fun y => ?_⟩
  · simp only [Parts.set, Table.keys_set, hold.values, Table.isSome_get?_iff, hold.names]
  · rw [Table.get?_set, ← hold.values]
    rfl

theorem Hold.ofList (log : List (String × Value)) : (Parts.ofList log).Hold (Table.ofList log) := by
  have each (p : Parts) (m : Memory) (hold : p.Hold m) :
      (log.foldl (fun p b => p.set b.1 b.2) p).Hold (m.setAll log) := by
    induction log generalizing p m with
    | nil => exact hold
    | cons b log ih => exact ih _ _ (hold.set b.1 b.2)
  exact each _ _ hold_empty

/-- What the map gives for a binding of the store is its value. -/
theorem Hold.value (hold : p.Hold m) {b : String × Value} (bound : b ∈ m.entries) :
    p.value b.1 = b.2 := by
  rw [Parts.value, hold.values, (m.get?_eq_some_iff).2 bound]
  rfl

theorem Hold.merge (hold : p.Hold m) (hold' : q.Hold m') : (p.merge q).Hold (m.merge m') := by
  have each (l : List (String × Value)) (within : ∀ b ∈ l, b ∈ m'.entries) (p : Parts) (m : Memory)
      (hold : p.Hold m) :
      ((l.map Prod.fst).foldl (fun p x => p.set x (q.value x)) p).Hold (m.setAll l) := by
    induction l generalizing p m with
    | nil => exact hold
    | cons b l ih =>
      obtain ⟨bound, within⟩ := List.forall_mem_cons.1 within
      rw [List.map_cons, List.foldl_cons, hold'.value bound]
      exact ih within _ _ (hold.set b.1 b.2)
  rw [Parts.merge, hold'.names]
  exact each m'.entries (fun _ bound => bound) p m hold

theorem Hold.clone (hold : p.Hold m) : p.clone.Hold m.clone :=
  hold_empty.merge hold

/-- Looking up one side's names in the other side's map compares the stores. -/
theorem Hold.same (hold : p.Hold m) (hold' : q.Hold m') : p.same q = m.same m' := by
  have length : p.names.length = m.size ∧ q.names.length = m'.size := by
    rw [hold.names, hold'.names]
    exact ⟨List.length_map .., List.length_map ..⟩
  rw [Parts.same, Memory.same, length.1, length.2, hold.names, Table.keys, List.all_map]
  congr 1
  rw [Bool.eq_iff_iff, List.all_eq_true, List.all_eq_true]
  refine forall₂_congr fun b bound => ?_
  obtain ⟨x, v⟩ := b
  dsimp only [Function.comp]
  rw [hold'.values, hold.value bound]
  cases m'.get? x with
  | none => exact iff_of_false Bool.false_ne_true Bool.false_ne_true
  | some w =>
    rw [beq_iff_eq, beq_iff_eq, Option.some.injEq]
    exact eq_comm

end Parts

namespace History

/-- The store that was built, in two parts. -/
def parts : History → Parts
  | new => .empty
  | set h x v => h.parts.set x v
  | merge h other => h.parts.merge other.parts
  | clone h => h.parts.clone
  | reread h text =>
    match bindingsOfText text with
    | .ok log => .ofList log
    | .error _ => h.parts
  | ofMap raw _ _ =>
    match bindingsOf raw with
    | .ok log => .ofList log
    | .error _ => .empty

theorem hold_parts (h : History) : h.parts.Hold h.store := by
  induction h with
  | new => exact Parts.hold_empty
  | set h x v ih => exact ih.set x v
  | merge h other ih ih' => exact ih.merge ih'
  | clone h ih => exact ih.clone
  | reread h text ih =>
    rw [parts, store, reread_eq]
    cases bindingsOfText text with
    | ok log => exact Parts.Hold.ofList log
    | error why => exact ih
  | ofMap raw m read =>
    obtain ⟨log, bound, made⟩ := exists_of_ofMap read
    rw [parts, store, bound, made]
    exact Parts.Hold.ofList log

end History

/-- Stores are ordered maps, however they were built, and the two parts that a store can be kept in
are in step. A merge answers what the second store binds over what the first does, and appends the
new names in their order; a copy has the same names in the same order with the same values; a text
that is no store leaves the store, and its parts, as they were. Two stores are the same if and only
if they answer alike, which is an equivalence, although only one side's names are looked at. -/
theorem stores_are_ordered_maps :
    (∀ h : History, h.store.OrderedMap h.log ∧ h.parts.Hold h.store) ∧
      (∀ h o : History,
        (h.merge o).store.keys = h.store.keys ++ o.store.keys.filter (· ∉ h.store.keys) ∧
          ∀ x, (h.merge o).store.get? x = (o.store.get? x).or (h.store.get? x)) ∧
      (∀ h : History, h.clone.store.keys = h.store.keys ∧
        ∀ x, h.clone.store.get? x = h.store.get? x) ∧
      (∀ (h : History) text why, ofJson text = .error why →
        h.store.reread text = (some why, h.store) ∧ (h.reread text).parts = h.parts) ∧
      (∀ h o : History, (h.store.same o.store = true ↔ ∀ x, h.store.get? x = o.store.get? x) ∧
        h.parts.same o.parts = h.store.same o.store) ∧
      Equivalence fun h o : History => h.store.same o.store = true := by
  refine ⟨fun h => ⟨?_, h.hold_parts⟩, fun h o => ⟨?_, ?_⟩, fun h => ?_,
    fun h text why failed => ?_, fun h o => ⟨same_iff, h.hold_parts.same o.hold_parts⟩, ?_⟩
  · rw [h.store_eq_ofList]
    exact orderedMap_ofList h.log
  · exact Table.keys_merge ..
  · exact Table.get?_merge h.store o.store
  · have copied : h.clone.store = h.store := Table.empty_merge h.store
    rw [copied]
    exact ⟨rfl, fun _ => rfl⟩
  · refine ⟨by rw [reread, failed], ?_⟩
    rw [ofJson_eq] at failed
    rw [History.parts]
    cases bound : bindingsOfText text with
    | ok log =>
      rw [bound] at failed
      cases failed
    | error why => rfl
  · refine ⟨fun h => ?_, fun {h o} => ?_, fun {h o k} => ?_⟩
    · exact same_iff.2 fun _ => rfl
    · rw [same_iff, same_iff]
      exact fun answers x => (answers x).symm
    · rw [same_iff, same_iff, same_iff]
      exact fun answers answers' x => (answers x).trans (answers' x)

end Memory

end ImpHost
