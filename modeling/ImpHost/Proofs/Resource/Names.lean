import ImpHost.Proofs.Resource

/-!
Names are made of segments.

The segments of a name are what stands between its slashes, and no segment has a slash of its own.
So names are equal, or one starts like the other, only if their segments are (`prefix_segment_iff`):
a name belongs to one place, one program and one execution (`isBelow_program_iff`,
`isBelow_execution_iff`).
-/

namespace ImpHost.Resource

/-- A part of a name: it is not empty, and no slash takes it apart. -/
structure IsSegment (s : String) : Prop where
  ne_empty : s ≠ ""
  slash_not_mem : '/' ∉ s.toList

/-- The characters of a UUID. -/
def isUuidChar (c : Char) : Bool :=
  Text.isAsciiDigit c || ('a' ≤ c && c ≤ 'f') || c == '-'

/-- Whether a text is a UUID: groups of 8, 4, 4, 4 and 12 hexadecimal digits with dashes between. -/
def isUuid (u : String) : Bool :=
  (u.toList.splitOn '-').map List.length == [8, 4, 4, 4, 12] && u.toList.all isUuidChar

theorem isIdChar_of_isUuidChar {c : Char} (part : isUuidChar c = true) : isIdChar c = true := by
  simp only [isUuidChar, isIdChar, isIdStart, Bool.or_eq_true, Bool.and_eq_true,
    decide_eq_true_iff] at part ⊢
  rcases part with (digit | ⟨low, high⟩) | dash
  · exact .inl (.inl (.inr digit))
  · exact .inl (.inl (.inl ⟨low, Char.le_trans high (by decide)⟩))
  · exact .inr dash

theorem isIdChar_of_isUuid {u : String} (uuid : isUuid u = true) {c : Char}
    (member : c ∈ u.toList) : isIdChar c = true := by
  rw [isUuid, Bool.and_eq_true, List.all_eq_true] at uuid
  exact isIdChar_of_isUuidChar (uuid.2 c member)

theorem isSegment_of_isUuid {u : String} (uuid : isUuid u = true) : IsSegment u := by
  refine ⟨?_, fun member => absurd (isIdChar_of_isUuid uuid member) (by decide)⟩
  rintro rfl
  exact absurd uuid (by decide)

theorem isIdChar_of_isProgramId {id : String} (valid : isProgramId id = true) {c : Char}
    (member : c ∈ id.toList) : isIdChar c = true := by
  rw [isProgramId, Bool.and_eq_true, Text.chars_ofString] at valid
  exact isIdChar_of_mem valid.2 member

theorem isSegment_of_isProgramId {id : String} (valid : isProgramId id = true) : IsSegment id := by
  refine ⟨?_, fun member => absurd (isIdChar_of_isProgramId valid member) (by decide)⟩
  rintro rfl
  rw [isProgramId, Text.chars_ofString, Bool.and_eq_true] at valid
  exact absurd valid.2 (by decide)

/-! ## Segments -/

section

variable {a b x y : List Char}

/-- A name starts with a segment and what follows if it has the same segment and starts with the
same after it. -/
theorem prefix_segment_iff (left : '/' ∉ a) (right : '/' ∉ b) :
    a ++ '/' :: x <+: b ++ '/' :: y ↔ a = b ∧ x <+: y := by
  induction a generalizing b with
  | nil =>
    cases b with
    | nil => simp
    | cons d b =>
      have apart : '/' ≠ d := fun same => right (same ▸ List.mem_cons_self)
      simp [apart]
  | cons c a ih =>
    cases b with
    | nil =>
      have apart : c ≠ '/' := fun same => left (same ▸ List.mem_cons_self)
      simp [apart]
    | cons d b =>
      rw [List.cons_append, List.cons_append, List.cons_prefix_cons,
        ih (List.not_mem_of_not_mem_cons left) (List.not_mem_of_not_mem_cons right),
        List.cons.injEq, and_assoc]

/-- A mark between slashes is found after the first segment, or it is looked for further on. -/
theorem before?_segment {mark : List Char} (slashFree : '/' ∉ a) :
    before? ('/' :: mark) (a ++ '/' :: x) =
      if ('/' :: mark).isPrefixOf ('/' :: x) then some a
      else (before? ('/' :: mark) x).map (a ++ '/' :: ·) := by
  induction a with
  | nil => rfl
  | cons c a ih =>
    have apart : '/' ≠ c := fun same => slashFree (same ▸ List.mem_cons_self)
    have passed : ('/' :: mark).isPrefixOf (c :: (a ++ '/' :: x)) = false := by
      rw [List.isPrefixOf, beq_eq_false_iff_ne.2 apart, Bool.false_and]
    rw [List.cons_append, before?, passed, if_neg Bool.false_ne_true,
      ih (List.not_mem_of_not_mem_cons slashFree)]
    split
    · rfl
    · rw [Option.map_map]
      rfl

end

/-! ## Names -/

section

variable {p l id u p' l' id' u' : String}

theorem toList_programsOf (p l : String) : (programsOf (place p l)).toList =
    "projects".toList ++ '/' :: (p.toList ++ '/' :: ("locations".toList ++ '/' ::
      (l.toList ++ '/' :: ("workflows".toList ++ '/' :: [])))) := by
  simp [programsOf, place, programSegment]

theorem toList_program (p l id : String) : (program (place p l) id).toList =
    "projects".toList ++ '/' :: (p.toList ++ '/' :: ("locations".toList ++ '/' ::
      (l.toList ++ '/' :: ("workflows".toList ++ '/' :: id.toList)))) := by
  rw [program, String.toList_append, toList_programsOf]
  simp

theorem toList_executionsOf (p l id : String) : (executionsOf (program (place p l) id)).toList =
    "projects".toList ++ '/' :: (p.toList ++ '/' :: ("locations".toList ++ '/' ::
      (l.toList ++ '/' :: ("workflows".toList ++ '/' ::
        (id.toList ++ '/' :: ("executions".toList ++ '/' :: [])))))) := by
  rw [executionsOf, String.toList_append, String.toList_append, String.toList_append,
    toList_program]
  simp [executionSegment]

theorem toList_execution (p l id u : String) :
    (execution (program (place p l) id) u).toList =
    "projects".toList ++ '/' :: (p.toList ++ '/' :: ("locations".toList ++ '/' ::
      (l.toList ++ '/' :: ("workflows".toList ++ '/' ::
        (id.toList ++ '/' :: ("executions".toList ++ '/' :: u.toList)))))) := by
  rw [execution, String.toList_append, toList_executionsOf]
  simp

theorem segments_execution (project : IsSegment p) (location : IsSegment l) (program : IsSegment id)
    (execution : IsSegment u) : segments (Resource.execution (Resource.program (place p l) id) u) =
      ["projects", p, "locations", l, "workflows", id, "executions", u] := by
  let parts := ["projects", p, "locations", l, "workflows", id, "executions", u]
  have slashFree (part : List Char) (member : part ∈ parts.map String.toList) : '/' ∉ part := by
    simp only [parts, List.map_cons, List.map_nil, List.mem_cons, List.not_mem_nil,
      or_false] at member
    rcases member with rfl | rfl | rfl | rfl | rfl | rfl | rfl | rfl
    · decide
    · exact project.slash_not_mem
    · decide
    · exact location.slash_not_mem
    · decide
    · exact program.slash_not_mem
    · decide
    · exact execution.slash_not_mem
  have joined : (Resource.execution (Resource.program (place p l) id) u).toList =
      ['/'].intercalate (parts.map String.toList) := by
    rw [toList_execution]
    simp [parts, List.intercalate]
  rw [segments, joined, List.splitOn_intercalate '/' slashFree (by simp [parts]), List.map_map]
  simp [parts, Function.comp_def]

theorem prefix_of_isBelow {start name : String} (below : isBelow start name = true) :
    start.toList <+: name.toList := by
  rw [isBelow, Bool.and_eq_true, List.isPrefixOf_iff_prefix] at below
  exact below.1

/-- A name is below whatever a segment of it follows. -/
theorem isBelow_append {rest : String} (segment : IsSegment rest) (start : String) :
    isBelow start (start ++ rest) = true := by
  have more : rest.length ≠ 0 := fun empty => segment.ne_empty (String.length_eq_zero_iff.1 empty)
  rw [isBelow, Bool.and_eq_true, List.isPrefixOf_iff_prefix, decide_eq_true_iff,
    String.length_append, String.toList_append]
  exact ⟨List.prefix_append _ _, by omega⟩

/-- What is named below the programs of a place is a program of that place. -/
theorem isBelow_program_iff (project : IsSegment p) (location : IsSegment l)
    (project' : IsSegment p') (location' : IsSegment l') (program' : IsSegment id') :
    isBelow (programsOf (place p l)) (program (place p' l') id') = true ↔ p = p' ∧ l = l' := by
  constructor
  · intro below
    have front := prefix_of_isBelow below
    rw [toList_programsOf, toList_program, prefix_segment_iff (by decide) (by decide),
      prefix_segment_iff project.slash_not_mem project'.slash_not_mem,
      prefix_segment_iff (by decide) (by decide),
      prefix_segment_iff location.slash_not_mem location'.slash_not_mem] at front
    exact ⟨String.toList_inj.1 front.2.1, String.toList_inj.1 front.2.2.2.1⟩
  · rintro ⟨rfl, rfl⟩
    exact isBelow_append program' _

/-- What is named below the executions of a program is an execution of that program. -/
theorem isBelow_execution_iff (project : IsSegment p) (location : IsSegment l)
    (program : IsSegment id) (project' : IsSegment p') (location' : IsSegment l')
    (program' : IsSegment id') (execution' : IsSegment u') :
    isBelow (executionsOf (Resource.program (place p l) id))
        (execution (Resource.program (place p' l') id') u') = true ↔
      p = p' ∧ l = l' ∧ id = id' := by
  constructor
  · intro below
    have front := prefix_of_isBelow below
    rw [toList_executionsOf, toList_execution, prefix_segment_iff (by decide) (by decide),
      prefix_segment_iff project.slash_not_mem project'.slash_not_mem,
      prefix_segment_iff (by decide) (by decide),
      prefix_segment_iff location.slash_not_mem location'.slash_not_mem,
      prefix_segment_iff (by decide) (by decide),
      prefix_segment_iff program.slash_not_mem program'.slash_not_mem] at front
    exact ⟨String.toList_inj.1 front.2.1, String.toList_inj.1 front.2.2.2.1,
      String.toList_inj.1 front.2.2.2.2.2.1⟩
  · rintro ⟨rfl, rfl, rfl⟩
    exact isBelow_append execution' _

/-- The name of an execution tells what it is the name of. -/
theorem execution_inj (project : IsSegment p) (location : IsSegment l) (program : IsSegment id)
    (execution : IsSegment u) (project' : IsSegment p') (location' : IsSegment l')
    (program' : IsSegment id') (execution' : IsSegment u') :
    Resource.execution (Resource.program (place p l) id) u =
        Resource.execution (Resource.program (place p' l') id') u' ↔
      p = p' ∧ l = l' ∧ id = id' ∧ u = u' := by
  constructor
  · intro same
    have parts := congrArg segments same
    rw [segments_execution project location program execution,
      segments_execution project' location' program' execution'] at parts
    simpa using parts
  · rintro ⟨rfl, rfl, rfl, rfl⟩
    rfl

end

end ImpHost.Resource
