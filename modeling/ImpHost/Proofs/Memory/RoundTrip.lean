import ImpHost.Proofs.Json.Parsing
import ImpHost.Proofs.Memory
import ImpHost.Proofs.Program.Variables
import ImpHost.Proofs.Text.Order

/-!
Stores that are written and read again (`Memory.json_round_trip`).

A store is written with its bindings in their order and read with its names in byte order, so it
comes back as the same store, and from then on nothing changes any more. Of two names neither is
written as the beginning of the other (`Json.writeString_inj`).
-/

namespace ImpHost

open Json Text

/-- What is written as one string is written as no other, whatever follows. -/
theorem Json.writeString_inj {x y : String} {k l : List Char}
    (same : Json.writeString x k = Json.writeString y l) : x = y ∧ k = l := by
  obtain ⟨_, left⟩ := @readAs_string 0 x k
  obtain ⟨_, right⟩ := @readAs_string 0 y l
  have written (x : String) (k : List Char) : (Json.string x).write k = Json.writeString x k := rfl
  have trees : ((readValue 0 (Json.writeString x k)).map fun p => (p.tree, p.rest)) =
      some (.string x, k) := by
    rw [← written, left]
    rfl
  rw [same, ← written, right] at trees
  cases trees
  exact ⟨rfl, rfl⟩

namespace Memory

variable (m : Memory)

/-- What a store is written as spells the object with its bindings. -/
theorem spells_toJson : Spells maxDepth (m.toJson.write []) (.object m.fields) := by
  obtain ⟨shorter, read⟩ := m.readAs_toJson []
  obtain ⟨xs, us, blanks, spells, split⟩ := sound_readValue maxDepth _ _ read
  have front : skipBlanks (m.toJson.write []) = m.toJson.write [] := by
    obtain ⟨middle, written⟩ := m.exists_write
    rw [written]
    rfl
  have whole : m.toJson.write [] = us := by
    have skipped := spells.starts.skipBlanks_append blanks []
    rw [List.append_nil] at skipped split
    rw [← front, split, skipped]
  rw [whole]
  exact spells

theorem inOrder_inOrder : m.inOrder.inOrder = m.inOrder :=
  Table.ext (Table.sorted_of_inKeyOrder m.inKeyOrder_inOrder)

/-- A store is written as one object with its bindings in their order. It is read as the same store
with its names in byte order, and what that is written as is read as it is. Names are written apart:
what one of them is written as is not the beginning of what another is written as. -/
theorem json_round_trip :
    Spells maxDepth m.toJson.render.toList
      (.object (m.entries.map fun (x, v) => (x, v.toJson))) ∧
    (∃ m' : Memory, ofJson (Text.ofString m.toJson.render) = .ok m' ∧ m.same m' = true ∧
      m'.keys.Pairwise (fun x y : String => Text.lt (Text.ofString x) (Text.ofString y) = true) ∧
      ofJson (Text.ofString m'.toJson.render) = .ok m' ∧
      (ofJson (Text.ofString m'.toJson.render)).map (fun m => m.toJson.render) =
        .ok m'.toJson.render) ∧
    ∀ x y k l, Json.writeString x k = Json.writeString y l → x = y ∧ k = l := by
  have again : ofJson (Text.ofString (toJson m.inOrder).render) = .ok m.inOrder := by
    rw [ofJson_render, inOrder_inOrder]
  refine ⟨?_, ⟨m.inOrder, m.ofJson_render, ?_, ?_, again, ?_⟩, ?_⟩
  · rw [Json.render, String.toList_ofList]
    exact m.spells_toJson
  · exact same_iff.2 fun x => (m.get?_inOrder x).symm
  · exact (pairwise_keys_of_ofJson m.ofJson_render).imp Text.lt_ofString
  · rw [again]
    rfl
  · exact fun x y k l => Json.writeString_inj

end Memory

end ImpHost
