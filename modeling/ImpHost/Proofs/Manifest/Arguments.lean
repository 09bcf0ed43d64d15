import ImpHost.Proofs.Manifest
import ImpHost.Proofs.Memory

/-!
The store from which an execution starts, and what is recorded of its argument.

An execution starts from the initial store of its manifest with the argument over it
(`Manifest.bindings_of_initialStore`). What is recorded is that store and not the text that was
given. The names of an argument are read in byte order, and still the record, given as an argument
again, leads to the same store with every name in its place
(`Manifest.initialStore_recordedArgument`): the names of the manifest have their places anyway, and
the others were in byte order before.
-/

namespace ImpHost.Manifest

variable {m : Manifest} {argument : Text} {start : Memory}

/-! ## Arguments that are recorded -/

/-- What is recorded of the argument of an execution that starts from the store `start`. -/
def recordedArgument (argument : Text) (start : Memory) : String :=
  if argument.isEmpty then "" else start.toJson.render

theorem merge_of_initialStore (fit : m.initialStore argument = .ok start) :
    ∃ args, Memory.ofJson argument = .ok args ∧ start = m.store.merge args := by
  unfold initialStore at fit
  split at fit
  · next args read =>
    cases fit
    exact ⟨args, read, rfl⟩
  · cases fit

/-- An execution of what was recorded starts from the same store. -/
theorem initialStore_recordedArgument (fit : m.initialStore argument = .ok start) :
    m.initialStore (recordedArgument argument start) = .ok start := by
  unfold recordedArgument
  split
  · next empty =>
    have same : Memory.ofJson (Text.ofString "") = Memory.ofJson argument := by
      rw [Memory.ofJson, Memory.ofJson, Text.chars_ofString, Text.chars_of_isEmpty empty]
      rfl
    rw [initialStore, same]
    exact fit
  · obtain ⟨args, read, rfl⟩ := merge_of_initialStore fit
    have merged := Table.merge_inOrder_merge m.store (Memory.inKeyOrder_of_ofJson read)
    rw [initialStore, Memory.ofJson_render]
    exact congrArg Except.ok merged

/-- What is recorded of a recorded argument is the argument itself. -/
theorem recordedArgument_recordedArgument (argument : Text) (start : Memory) :
    recordedArgument (recordedArgument argument start) start = recordedArgument argument start := by
  by_cases empty : argument.isEmpty
  · have none : recordedArgument argument start = "" := if_pos empty
    rw [none]
    rfl
  · have some : recordedArgument argument start = start.toJson.render := if_neg empty
    rw [some]
    refine if_neg fun empty => ?_
    obtain ⟨middle, written⟩ := start.exists_write
    have chars := Text.chars_of_isEmpty empty
    rw [Text.chars_ofString, Json.render, String.toList_ofList, written] at chars
    cases chars

/-! ## The bindings of an initial store -/

/-- The argument counts where it binds a name, and the manifest where it does not. The names of the
manifest come first, in their order, and then the others of the argument, in byte order. -/
theorem bindings_of_initialStore (fit : m.initialStore argument = .ok start) :
    ∃ args, Memory.ofJson argument = .ok args ∧
      (∀ x, start.get? x = (args.get? x).or (m.store.get? x)) ∧
      start.keys = m.store.keys ++ args.keys.filter (· ∉ m.store.keys) ∧
      args.keys.Pairwise (· < ·) := by
  obtain ⟨args, read, rfl⟩ := merge_of_initialStore fit
  exact ⟨args, read, Table.get?_merge m.store args, Table.keys_merge m.store args,
    Memory.pairwise_keys_of_ofJson read⟩

/-- The names that a mapping binds, in the order of the document. -/
def namesOf : Yaml.Node → List String
  | .mapping entries => entries.map fun e => e.1.text
  | _ => []

/-- The names in the field `store` of a document, and in the last one if there are several. -/
def storeNames (entries : List (Yaml.Node × Yaml.Node)) : List String :=
  match (entries.filter fun e => e.1.text = "store").getLast? with
  | some field => namesOf field.2
  | none => []

theorem keys_storeOfEntries {entries : List (Yaml.Node × Yaml.Node)} {d d' : Memory}
    (read : storeOfEntries d entries = .ok d') :
    d'.keys = d.keys ++ entries.map fun e => e.1.text := by
  induction entries generalizing d with
  | nil =>
    cases read
    exact (List.append_nil _).symm
  | cons e rest ih =>
    obtain ⟨key, v⟩ := e
    rw [storeOfEntries] at read
    split at read
    · cases read
    · next new =>
      split at read
      · cases read
      · next v _ =>
        have absent : key.text ∉ d.keys := fun bound => new ((d.isSome_get?_iff _).2 bound)
        rw [ih read, Table.keys_set, if_neg absent, List.append_assoc]
        rfl

theorem keys_storeOfNode {node : Yaml.Node} {d : Memory} (read : storeOfNode node = .ok d) :
    d.keys = namesOf node := by
  unfold storeOfNode at read
  split at read
  · exact keys_storeOfEntries read
  · split at read
    · cases read
      rfl
    · cases read
  · cases read

/-- The initial store of a manifest has its names in the order of the document. -/
theorem keys_of_ofYaml {text : Text} (read : ofYaml text = .ok m) :
    ∃ entries, Yaml.parse text = .ok (some (.mapping entries)) ∧
      m.store.keys = storeNames entries := by
  obtain ⟨entries, document, store⟩ := store_of_ofYaml read
  refine ⟨entries, document, ?_⟩
  unfold storeField at store
  unfold storeNames
  cases last : (entries.filter fun e => e.1.text = "store").getLast? with
  | none =>
    rw [last] at store
    exact congrArg Table.keys store
  | some field =>
    rw [last] at store
    exact keys_storeOfNode store

end ImpHost.Manifest
