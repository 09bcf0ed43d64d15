import ImpHost.Memory.Json
import ImpHost.Proofs.Json.Numbers
import ImpHost.Proofs.Program.Parsing
import ImpHost.Proofs.Table
import ImpHost.Proofs.Text

/-!
Stores and their JSON.

The names of a store that is read from a text are in byte order, each once
(`Memory.pairwise_keys_of_ofJson`). A store is read from the text it is written as, with its names
in that order (`Memory.ofJson_render`).
-/

namespace ImpHost.Memory

open Json

/-! ## Stores that are read -/

theorem mem_of_mem_lastOfEach {f : String × Json} {fields : List (String × Json)}
    (member : f ∈ lastOfEach fields) : f ∈ fields := by
  fun_induction lastOfEach fields with
  | case1 => exact member
  | case2 => exact member
  | case3 g h rest same ih => exact List.mem_cons_of_mem _ (ih member)
  | case4 g h rest other ih =>
    rcases List.mem_cons.1 member with rfl | member
    · exact List.mem_cons_self
    · exact List.mem_cons_of_mem _ (ih member)

/-- Of fields in order the last of each name are in order, and no name is left twice. -/
theorem pairwise_lastOfEach {fields : List (String × Json)}
    (inOrder : fields.Pairwise fun f g => f.1 ≤ g.1) :
    (lastOfEach fields).Pairwise fun f g => f.1 < g.1 := by
  fun_induction lastOfEach fields with
  | case1 => exact .nil
  | case2 => exact List.pairwise_singleton ..
  | case3 g h rest same ih => exact ih (List.pairwise_cons.1 inOrder).2
  | case4 g h rest other ih =>
    obtain ⟨first, inOrder⟩ := List.pairwise_cons.1 inOrder
    refine List.pairwise_cons.2 ⟨fun f member => ?_, ih inOrder⟩
    have next : g.1 < h.1 := Std.lt_of_le_of_ne (first h List.mem_cons_self) other
    rcases List.mem_cons.1 (mem_of_mem_lastOfEach member) with rfl | later
    · exact next
    · exact Std.lt_of_lt_of_le next ((List.pairwise_cons.1 inOrder).1 f later)

theorem pairwise_sortedFields (fields : List (String × Json)) :
    (sortedFields fields).Pairwise fun f g => f.1 < g.1 :=
  pairwise_lastOfEach (Table.pairwise_mergeSort fields)

theorem nodup_sortedFields (fields : List (String × Json)) :
    ((sortedFields fields).map Prod.fst).Nodup :=
  (List.pairwise_map.2 (pairwise_sortedFields fields)).imp
    fun {a b} (before : a < b) (same : a = b) => String.lt_irrefl b (same ▸ before)

/-- The binding that a field denotes. -/
def entryOf (f : String × Json) : Except StoreError (String × Value) :=
  match (Scalar.ofJson f.2).toValue with
  | .ok v => .ok (f.1, v)
  | .error why => .error (.entry f.1 why)

theorem ofFields_eq (fields : List (String × Json)) :
    ofFields fields = (do return Table.ofList (← (sortedFields fields).mapM entryOf)) :=
  rfl

/-- The bindings have the names of the fields. -/
theorem keys_of_mapM {fields : List (String × Json)} {entries : List (String × Value)}
    (read : fields.mapM entryOf = .ok entries) :
    entries.map Prod.fst = fields.map Prod.fst := by
  induction fields generalizing entries with
  | nil =>
    cases read
    rfl
  | cons f fields ih =>
    rw [List.mapM_cons] at read
    obtain ⟨entry, first, rest⟩ := bind_eq_ok.1 read
    obtain ⟨others, found, made⟩ := bind_eq_ok.1 rest
    cases made
    rw [List.map_cons, List.map_cons, ih found]
    unfold entryOf at first
    split at first
    · cases first
      rfl
    · cases first

/-- The names are distinct already, so the bindings are kept as they are read. -/
theorem mapM_of_ofFields {fields : List (String × Json)} {m : Memory}
    (read : ofFields fields = .ok m) : (sortedFields fields).mapM entryOf = .ok m.entries := by
  rw [ofFields_eq] at read
  obtain ⟨entries, found, made⟩ := bind_eq_ok.1 read
  cases made
  have distinct : (entries.map Prod.fst).Nodup := by
    rw [keys_of_mapM found]
    exact nodup_sortedFields fields
  have listed : (Table.ofList entries).entries = entries := Table.entries_setAll ∅ distinct
  rwa [listed]

theorem pairwise_keys_of_ofFields {fields : List (String × Json)} {m : Memory}
    (read : ofFields fields = .ok m) : m.keys.Pairwise (· < ·) := by
  rw [Table.keys, keys_of_mapM (mapM_of_ofFields read)]
  exact List.pairwise_map.2 (pairwise_sortedFields fields)

/-- The names of a store that is read are in byte order. -/
theorem pairwise_keys_of_ofJson {text : Text} {m : Memory} (read : ofJson text = .ok m) :
    m.keys.Pairwise (· < ·) := by
  unfold ofJson at read
  dsimp only at read
  split at read
  · cases read
    exact .nil
  · split at read
    · next v first =>
      unfold ofValue at read
      split at read
      · cases read
        exact .nil
      · exact pairwise_keys_of_ofFields read
      · cases read
    · cases read

theorem inKeyOrder_of_ofJson {text : Text} {m : Memory} (read : ofJson text = .ok m) :
    m.InKeyOrder :=
  (List.pairwise_map.1 (pairwise_keys_of_ofJson read)).imp Std.le_of_lt

/-! ## Stores that are written -/

/-- A text without white space at its ends. -/
theorem trimSpace_of_ends {c d : Char} (front : Text.isSpace c = false)
    (back : Text.isSpace d = false) (middle : List Char) :
    trimSpace (c :: (middle ++ [d])) = c :: (middle ++ [d]) := by
  simp [trimSpace, front, back]

theorem write_value (v : Value) (k : List Char) : v.toJson.write k = v.render.toList ++ k := by
  cases v with
  | int n => rfl
  | bool b => cases b <;> rfl

theorem exists_writeFields (entries : List (String × Value)) (k : List Char) :
    ∃ front, writeFields (entries.map fun (x, v) => (x, v.toJson)) k = front ++ k := by
  induction entries with
  | nil => exact ⟨[], rfl⟩
  | cons p entries ih =>
    obtain ⟨x, v⟩ := p
    obtain ⟨front, rest⟩ := ih
    refine ⟨',' :: Json.writeString x (':' :: (v.render.toList ++ front)), ?_⟩
    simp [writeFields, write_value, rest, Json.writeString]

/-- A store is written between braces. -/
theorem exists_write (m : Memory) : ∃ middle, m.toJson.write [] = '{' :: (middle ++ ['}']) := by
  unfold toJson
  cases m.entries with
  | nil => exact ⟨[], rfl⟩
  | cons p entries =>
    obtain ⟨x, v⟩ := p
    obtain ⟨front, rest⟩ := exists_writeFields entries ['}']
    refine ⟨Json.writeString x (':' :: (v.render.toList ++ front)), ?_⟩
    have written : write (.object (((x, v) :: entries).map fun (x, v) => (x, v.toJson))) [] =
        '{' :: Json.writeString x (':' :: v.toJson.write
          (writeFields (entries.map fun (x, v) => (x, v.toJson)) ['}'])) := rfl
    rw [written, write_value, rest]
    simp only [Json.writeString, List.cons_append, List.append_assoc]

theorem lastOfEach_of_nodup {fields : List (String × Json)}
    (distinct : (fields.map Prod.fst).Nodup) : lastOfEach fields = fields := by
  fun_induction lastOfEach fields with
  | case1 => rfl
  | case2 => rfl
  | case3 g h rest same ih =>
    have other := (List.nodup_cons.1 distinct).1
    exact absurd (by simp [same]) other
  | case4 g h rest other ih => rw [ih (List.nodup_cons.1 distinct).2]

/-- The fields that a store is written with. -/
def fields (m : Memory) : List (String × Json) :=
  (m.map Value.toJson).entries

theorem sortedFields_fields (m : Memory) : sortedFields m.fields = fields m.inOrder := by
  have written : sortedFields m.fields = lastOfEach (m.map Value.toJson).inOrder.entries := rfl
  have sorted : (m.map Value.toJson).sorted = fields m.inOrder :=
    Table.sorted_eq_of_perm (m.sorted_perm.map _) (List.pairwise_map.2 m.pairwise_sorted)
  rw [written, lastOfEach_of_nodup (Table.distinct _)]
  exact sorted

theorem mapM_fields (m : Memory) : m.fields.mapM entryOf = .ok m.entries := by
  have each (entries : List (String × Value)) :
      (entries.map fun p => (p.1, p.2.toJson)).mapM entryOf = .ok entries := by
    induction entries with
    | nil => rfl
    | cons p entries ih =>
      rw [List.map_cons, List.mapM_cons, ih, entryOf, Value.toValue_toJson]
      rfl
  exact each m.entries

theorem ofFields_fields (m : Memory) : ofFields m.fields = .ok m.inOrder := by
  rw [ofFields_eq, sortedFields_fields, mapM_fields]
  exact congrArg Except.ok (Table.ofList_entries m.inOrder)

/-- Whatever follows, the fields of a store are read from what it is written as. -/
theorem readAs_toJson (m : Memory) : ReadAs maxDepth m.toJson (.object m.fields) := by
  have each : ∀ field ∈ m.fields, ReadInObject 9999 field.2 (id field.2) := by
    intro field member
    obtain ⟨p, -, rfl⟩ := List.mem_map.1 member
    exact p.2.readInObject_toJson 9999
  have same : (m.fields.map fun field => (field.1, id field.2)) = m.fields := List.map_id _
  have whole := ReadAs.object each
  rwa [same] at whole

/-- A store in front of other text is read from what it is written as, with its names in byte
order. -/
theorem ofJson_write (m : Memory) {k : List Char}
    (trimmed : trimSpace (m.toJson.write k) = m.toJson.write k) :
    ofJson (Text.ofString (String.ofList (m.toJson.write k))) = .ok m.inOrder := by
  obtain ⟨shorter, found⟩ := m.readAs_toJson k
  have first : first? (m.toJson.write k) = some (.object m.fields) := by
    rw [first?, found]
    rfl
  have nonempty : (m.toJson.write k).isEmpty = false :=
    List.isEmpty_eq_false_iff.2 (List.ne_nil_of_length_pos (Nat.zero_lt_of_lt shorter))
  rw [ofJson, Text.chars_ofString, String.toList_ofList, trimmed, nonempty, first]
  exact ofFields_fields m

/-- A store is read from the text it is written as, with its names in byte order. -/
theorem ofJson_render (m : Memory) : ofJson (Text.ofString m.toJson.render) = .ok m.inOrder := by
  obtain ⟨middle, written⟩ := exists_write m
  refine ofJson_write m ?_
  rw [written, trimSpace_of_ends (by decide) (by decide)]

end ImpHost.Memory
