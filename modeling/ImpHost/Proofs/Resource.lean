import ImpHost.Proofs.Text
import ImpHost.Resource

/-!
Identifiers of programs. No character of theirs has a part in the structure of a name, so
the identifier in the name of a program is the one that it was given (`Resource.id_program`).
-/

namespace ImpHost.Resource

theorem checkProgramId_eq_ok_iff {id : Text} :
    checkProgramId id = .ok () ↔ isProgramId id = true := by
  unfold checkProgramId
  split
  · next empty =>
    have invalid : isProgramId id = false := by
      rw [isProgramId, Text.chars_of_isEmpty empty, isId, Bool.and_false]
    rw [invalid]
    exact ⟨nofun, nofun⟩
  · split
    · next valid => exact ⟨fun _ => valid, fun _ => rfl⟩
    · next invalid => exact ⟨nofun, fun valid => (invalid valid).elim⟩

theorem checkProgramId_ofString {id : String} (small : id.utf8ByteSize ≤ maxIdLength)
    (valid : isId id.toList = true) : checkProgramId id = .ok () := by
  rw [checkProgramId_eq_ok_iff, isProgramId, Text.chars_ofString, valid, Bool.and_true,
    decide_eq_true_iff]
  exact small

theorem isIdChar_of_mem {cs : List Char} (valid : isId cs = true) {c : Char} (member : c ∈ cs) :
    isIdChar c = true := by
  cases cs with
  | nil => cases member
  | cons d cs =>
    rw [isId, Bool.and_eq_true, List.all_eq_true] at valid
    rcases List.mem_cons.1 member with rfl | member
    · simp [isIdChar, valid.1]
    · exact valid.2 c member

/-- An identifier is made of characters. -/
theorem ofString_lossy_of_isProgramId {id : Text} (valid : isProgramId id = true) :
    Text.ofString id.lossy = id := by
  rw [isProgramId, Bool.and_eq_true] at valid
  have whole : Text.replacement ∉ id.chars := by
    intro member
    exact absurd (isIdChar_of_mem valid.2 member) (by decide)
  exact (Text.isUtf8_of_not_mem whole).ofString_lossy

theorem slash_not_mem_of_isId {cs : List Char} (valid : isId cs = true) : '/' ∉ cs := by
  intro member
  exact absurd (isIdChar_of_mem valid member) (by decide)

/-- What stands after the last slash. -/
theorem idChars_append {last : List Char} (inside : '/' ∉ last) (front : List Char) :
    idChars (front ++ '/' :: last) = last := by
  have before (c : Char) (member : c ∈ last.reverse) : (c != '/') = true := by
    rw [bne_iff_ne]
    rintro rfl
    exact inside (List.mem_reverse.1 member)
  rw [idChars, List.reverse_append, List.reverse_cons, List.append_assoc,
    List.takeWhile_append_of_pos before]
  simp

/-- The identifier of a program is found in its name. -/
theorem id_program {id : String} (parent : String) (valid : isProgramId id = true) :
    Resource.id (program parent id) = id := by
  rw [isProgramId, Bool.and_eq_true, Text.chars_ofString] at valid
  have name : (program parent id).toList =
      (parent.toList ++ "/workflows".toList) ++ '/' :: id.toList := by
    simp [program, programsOf, programSegment]
  rw [Resource.id, name, idChars_append (slash_not_mem_of_isId valid.2), String.ofList_toList]

end ImpHost.Resource
