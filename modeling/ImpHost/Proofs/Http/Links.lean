import Mathlib.Data.List.TakeWhile
import ImpHost.Http.Server
import ImpHost.Proofs.Encoding
import ImpHost.Proofs.Resource.Names

/-!
The parts of the name of an execution, as its records and the pages read them.

The identifiers at the ends of names are always read back. The other parts are looked for behind the
words `workflows` and `executions`, from the front: a project, a location or a program that is
called by such a word is found in the place of the mark that is meant
(`Resource.programOf_execution`, `Resource.segmentAfter_programSegment`,
`Resource.segmentAfter_executionSegment`). A link to an execution asks for what was read
(`serve_executionAddress`), so it leads back to the execution where the parts are the right ones.

Main statement: `links_lead_back_unless_marked`.
-/

namespace ImpHost

namespace Resource

variable {p l id u : String}

/-- The identifier of an execution is found in its name. -/
theorem id_execution (program : String) (execution : IsSegment u) :
    Resource.id (Resource.execution program u) = u := by
  have name : (Resource.execution program u).toList =
      (program.toList ++ "/executions".toList) ++ '/' :: u.toList := by
    simp [Resource.execution, executionsOf, executionSegment]
  rw [Resource.id, name, idChars_append execution.slash_not_mem, String.ofList_toList]

/-- A segment after the first one is the mark, or the mark is looked for from that segment on. -/
theorem before?_segments {mark a b x : List Char} (word : '/' ∉ mark) (first : '/' ∉ a)
    (second : '/' ∉ b) :
    before? ('/' :: (mark ++ '/' :: [])) (a ++ '/' :: (b ++ '/' :: x)) =
      if mark = b then some a
      else (before? ('/' :: (mark ++ '/' :: [])) (b ++ '/' :: x)).map (a ++ '/' :: ·) := by
  have found : ('/' :: (mark ++ '/' :: [])).isPrefixOf ('/' :: (b ++ '/' :: x)) = true ↔
      mark = b := by
    rw [List.isPrefixOf_iff_prefix, List.cons_prefix_cons, prefix_segment_iff word second]
    simp
  rw [before?_segment first]
  simp only [found]

/-- The program that is read from the name of an execution: what stands before the first segment
that is the mark of executions. -/
theorem programOf_execution (project : IsSegment p) (location : IsSegment l)
    (program : IsSegment id) (u : String) :
    programOf (execution (Resource.program (place p l) id) u) =
      if p = executionSegment then "projects"
      else if l = executionSegment then "projects/" ++ p ++ "/locations"
      else if id = executionSegment then place p l ++ "/" ++ programSegment
      else Resource.program (place p l) id := by
  have mark : (executionsOf "").toList = '/' :: ("executions".toList ++ '/' :: []) := by decide
  have word : '/' ∉ "executions".toList := by decide
  have isMark (s : String) : "executions".toList = s.toList ↔ s = executionSegment := by
    rw [String.toList_inj, eq_comm, executionSegment]
  rw [programOf, mark, toList_execution,
    before?_segments word (by decide) project.slash_not_mem]
  by_cases first : p = executionSegment
  · rw [if_pos ((isMark p).2 first), if_pos first]
    rfl
  rw [if_neg (mt (isMark p).1 first), if_neg first,
    before?_segments word project.slash_not_mem (by decide), if_neg (by decide),
    before?_segments word (by decide) location.slash_not_mem]
  by_cases second : l = executionSegment
  · rw [if_pos ((isMark l).2 second), if_pos second, ← String.toList_inj]
    simp
  rw [if_neg (mt (isMark l).1 second), if_neg second,
    before?_segments word location.slash_not_mem (by decide), if_neg (by decide),
    before?_segments word (by decide) program.slash_not_mem]
  by_cases third : id = executionSegment
  · rw [if_pos ((isMark id).2 third), if_pos third, ← String.toList_inj]
    simp [place, programSegment]
  rw [if_neg (mt (isMark id).1 third), if_neg third,
    before?_segments word program.slash_not_mem (by decide), if_pos rfl, ← String.toList_inj,
    toList_program]
  simp

/-- What the pages take for the identifier of a program. -/
theorem segmentAfter_programSegment (project : IsSegment p) (location : IsSegment l)
    (program : IsSegment id) (execution : IsSegment u) :
    segmentAfter programSegment (Resource.execution (Resource.program (place p l) id) u) =
      if p = programSegment then "locations"
      else if l = programSegment then programSegment
      else id := by
  rw [segmentAfter, segments_execution project location program execution]
  simp only [segmentAfter?, programSegment, String.reduceEq, reduceIte]
  rw [apply_ite (Option.getD · _), apply_ite (Option.getD · _)]
  rfl

/-- What the pages take for the identifier of an execution. -/
theorem segmentAfter_executionSegment (project : IsSegment p) (location : IsSegment l)
    (program : IsSegment id) (execution : IsSegment u) :
    segmentAfter executionSegment (Resource.execution (Resource.program (place p l) id) u) =
      if p = executionSegment then "locations"
      else if l = executionSegment then programSegment
      else if id = executionSegment then executionSegment
      else u := by
  rw [segmentAfter, segments_execution project location program execution]
  simp only [segmentAfter?, executionSegment, programSegment, String.reduceEq, reduceIte]
  rw [apply_ite (Option.getD · _), apply_ite (Option.getD · _), apply_ite (Option.getD · _)]
  rfl

end Resource

/-! ## Addresses -/

theorem Resource.toNat_lt_of_isIdChar {c : Char} (part : isIdChar c = true) : c.toNat < 128 := by
  simp only [isIdChar, isIdStart, Text.isAsciiDigit, Bool.or_eq_true, Bool.and_eq_true,
    decide_eq_true_iff, beq_iff_eq] at part
  rcases part with ((⟨_, small⟩ | ⟨_, digit⟩) | rfl) | rfl
  · exact Nat.lt_of_le_of_lt small (by decide)
  · exact Nat.lt_of_le_of_lt digit (by decide)
  · decide
  · decide

/-- A text that may stand in an address as it is. -/
structure IsPlain (s : String) : Prop where
  ne_empty : s ≠ ""
  isIdChar : ∀ c ∈ s.toList, Resource.isIdChar c = true

section

variable {a b : String}

/-- A character of an identifier stands for itself in an address, wherever that is written. -/
theorem stands_of_isIdChar {c : Char} (part : Resource.isIdChar c = true) :
    Html.isAddressByte (UInt8.ofNat c.toNat) = true ∧ Char.ofNat (UInt8.ofNat c.toNat).toNat = c ∧
      Html.escaped c = [c] ∧ c.toLower = c := by
  have ascii := Resource.toNat_lt_of_isIdChar part
  revert part
  refine Text.of_ascii ascii ?_
  decide +kernel

theorem isPlain_of_all (plain : (!a.isEmpty && a.toList.all Resource.isIdChar) = true) :
    IsPlain a := by
  obtain ⟨nonempty, each⟩ := Bool.and_eq_true_iff.1 plain
  refine ⟨fun empty => ?_, List.all_eq_true.1 each⟩
  subst empty
  cases nonempty

theorem IsPlain.slash_not_mem (plain : IsPlain a) : '/' ∉ a.toList :=
  fun member => absurd (plain.isIdChar _ member) (by decide)

theorem addressChars_cons {x : UInt8} (isByte : Html.isAddressByte x = true) (bytes : List UInt8) :
    Html.addressChars (x :: bytes) = Char.ofNat x.toNat :: Html.addressChars bytes := by
  conv =>
    lhs
    unfold Html.addressChars
  dsimp only
  rw [isByte, Bool.true_or, if_pos rfl]

theorem addressChars_of_plain {cs : List Char} (plain : ∀ c ∈ cs, Resource.isIdChar c = true) :
    Html.addressChars (cs.flatMap String.utf8EncodeChar) = cs := by
  induction cs with
  | nil => rfl
  | cons c cs ih =>
    have part := plain c List.mem_cons_self
    obtain ⟨isByte, same, -⟩ := stands_of_isIdChar part
    have small : c.val.toNat ≤ 127 := Nat.le_of_lt_succ (Resource.toNat_lt_of_isIdChar part)
    have single : String.utf8EncodeChar c = [UInt8.ofNat c.toNat] := if_pos small
    rw [List.flatMap_cons, single, List.singleton_append, addressChars_cons isByte, same,
      ih fun d member => plain d (List.mem_cons_of_mem _ member)]

theorem flatMap_escaped {cs : List Char} (plain : ∀ c ∈ cs, Resource.isIdChar c = true) :
    cs.flatMap Html.escaped = cs := by
  induction cs with
  | nil => rfl
  | cons c cs ih =>
    obtain ⟨-, -, same, -⟩ := stands_of_isIdChar (plain c List.mem_cons_self)
    rw [List.flatMap_cons, same, List.singleton_append,
      ih fun d member => plain d (List.mem_cons_of_mem _ member)]

theorem map_toLower {cs : List Char} (plain : ∀ c ∈ cs, Resource.isIdChar c = true) :
    cs.map Char.toLower = cs := by
  refine (List.map_congr_left fun c member => ?_).trans (List.map_id cs)
  exact (stands_of_isIdChar (plain c member)).2.2.2

/-- A plain text is written into an address as it is. -/
theorem IsPlain.url_eq (plain : IsPlain a) : (Html.url a).source = a := by
  have bytes : a.toByteArray.data.toList = a.toList.flatMap String.utf8EncodeChar := by
    rw [← String.utf8Encode_toList, List.utf8Encode, List.data_toByteArray]
  rw [Html.url, bytes, addressChars_of_plain plain.isIdChar, Html.text, String.toList_ofList,
    flatMap_escaped plain.isIdChar, String.ofList_toList]

/-! ## Routes -/

open Http

theorem indexOf?_slash {cs : List Char} (slashFree : '/' ∉ cs) (rest : List Char) :
    Pattern.indexOf? ['/'] (cs ++ '/' :: rest) = some cs.length := by
  induction cs with
  | nil => rfl
  | cons c cs ih =>
    have apart : '/' ≠ c := fun same => slashFree (same ▸ List.mem_cons_self)
    have passed : ['/'].isPrefixOf (c :: (cs ++ '/' :: rest)) = false := by
      rw [List.isPrefixOf, beq_eq_false_iff_ne.2 apart, Bool.false_and]
    rw [List.cons_append, Pattern.indexOf?, passed, if_neg Bool.false_ne_true,
      ih (List.not_mem_of_not_mem_cons slashFree)]
    rfl

theorem executionAddress_eq (a b : String) :
    executionAddress a b = "/ui/executions/" ++ a ++ "/" ++ b :=
  rfl

theorem toList_executionAddress (a b : String) : (executionAddress a b).toList =
    "/ui/executions/".toList ++ (a.toList ++ '/' :: b.toList) := by
  simp [executionAddress_eq]

/-- The address of an execution is compared with patterns as it is. -/
theorem comparable_executionAddress (program : IsPlain a) (execution : IsPlain b) :
    Pattern.comparable (executionAddress a b).toList = (executionAddress a b).toList := by
  have lower : (executionAddress a b).toList.map Char.toLower = (executionAddress a b).toList := by
    have fixed : "/ui/executions/".toList.map Char.toLower = "/ui/executions/".toList := by decide
    rw [toList_executionAddress, List.map_append, List.map_append, List.map_cons,
      map_toLower program.isIdChar, map_toLower execution.isIdChar, fixed]
    rfl
  have long : ¬ (executionAddress a b).toList.length ≤ 1 := by
    have prefixed : "/ui/executions/".toList.length = 15 := rfl
    rw [toList_executionAddress, List.length_append]
    omega
  have last (d : Char) (rest : List Char) (ends : b.toList.reverse = d :: rest) : d ≠ '/' := by
    rintro rfl
    refine execution.slash_not_mem (List.mem_reverse.1 ?_)
    rw [ends]
    exact List.mem_cons_self
  have closed : (executionAddress a b).toList.reverse.dropWhile (· == '/') =
      (executionAddress a b).toList.reverse := by
    rw [toList_executionAddress, List.reverse_append, List.reverse_append, List.reverse_cons]
    cases ends : b.toList.reverse with
    | nil => exact (execution.ne_empty (by simpa using ends)).elim
    | cons d rest =>
      simp [last d rest ends]
  rw [Pattern.comparable, lower, if_neg long, closed, List.reverse_reverse]

/-- The parts of the address of an execution come back from it. -/
theorem params?_executionAddress (program : IsPlain a) (execution : IsPlain b) :
    Pattern.params? [.fixed "/ui/executions/", .param, .fixed "/", .param]
      (executionAddress a b).toList (executionAddress a b).toList = some [a, b] := by
  have first : a.toList.length ≠ 0 := by simpa using program.ne_empty
  have second : b.toList.length ≠ 0 := by simpa using execution.ne_empty
  have inside (c : Char) (member : c ∈ b.toList) : (c != '/') = true := by
    rw [bne_iff_ne]
    rintro rfl
    exact execution.slash_not_mem member
  have length : Pattern.paramLength (a.toList ++ '/' :: b.toList) [.fixed "/", .param] =
      a.toList.length := by
    have boundary : Pattern.boundary "/" = ['/'] := rfl
    rw [Pattern.paramLength, boundary, indexOf?_slash program.slash_not_mem]
    exact if_neg fun long => absurd long.1 (by decide)
  have rest : Pattern.params? [.fixed "/", .param] ('/' :: b.toList) ('/' :: b.toList) =
      some [b] := by
    have whole : Pattern.paramLength b.toList [] = b.toList.length := by
      rw [Pattern.paramLength, List.takeWhile_eq_self_iff.2 inside]
      nofun
    have slash : "/".toList.isPrefixOf ('/' :: b.toList) = true := rfl
    rw [Pattern.params?, if_pos slash]
    change Pattern.params? [.param] b.toList b.toList = _
    simp only [Pattern.params?, whole, if_neg second]
    simp
  rw [toList_executionAddress, Pattern.params?, if_pos (by simp)]
  change Pattern.params? [.param, .fixed "/", .param] (a.toList ++ '/' :: b.toList)
    (a.toList ++ '/' :: b.toList) = _
  rw [Pattern.params?]
  rw [length, if_neg first, List.drop_left, List.take_left, rest, Option.map_some,
    String.ofList_toList]

/-- A request is answered by the first route that fits. -/
theorem dispatch_of_fits {σ : Type} {before after : List (Route σ)} {route : Route σ} {s : σ}
    {r : Request} {ps : List String} (known : methods.contains r.method = true)
    (unfit : ∀ earlier ∈ before, earlier.answers r.method = true →
      earlier.pattern.match? r.path = none)
    (answers : route.answers r.method = true) (fits : route.pattern.match? r.path = some ps) :
    dispatch (before ++ route :: after) s r =
      ((route.handle s r ps).1, if r.method == "HEAD" then (route.handle s r ps).2.withoutBody
        else (route.handle s r ps).2) := by
  have passed : before.findSome? (fun route => if route.answers r.method then
      (route.pattern.match? r.path).map fun ps => (route, ps) else none) = none := by
    rw [List.findSome?_eq_none_iff]
    intro earlier member
    split
    · next earlierAnswers => rw [unfit earlier member earlierAnswers, Option.map_none]
    · rfl
  rw [dispatch, known, List.findSome?_append, passed, List.findSome?_cons, if_pos answers, fits]
  rfl

/-- The address of an execution is that of its page. -/
theorem serve_executionAddress (scope : Html.Scope) (s : Service) {r : Request}
    (program : IsPlain a) (execution : IsPlain b) (method : r.method = "GET")
    (path : r.path = executionAddress a b) :
    serve scope s r = executionDetail scope s r [a, b] := by
  have params (p : Pattern) : p.match? r.path =
      p.params? (executionAddress a b).toList (executionAddress a b).toList := by
    rw [path, Pattern.match?, comparable_executionAddress program execution]
  let route : Route Service :=
    ⟨"GET", [.fixed "/ui/executions/", .param, .fixed "/", .param], executionDetail scope⟩
  have listed : routes scope = (routes scope).take 17 ++ route :: (routes scope).drop 18 := rfl
  have unfit : ((routes scope).take 17).all (fun route => !route.answers "GET" ||
      (route.pattern.params? (executionAddress a b).toList
        (executionAddress a b).toList).isNone) = true := by
    rw [toList_executionAddress]
    rfl
  rw [serve, listed, dispatch_of_fits (by rw [method]; rfl) ?_ (by rw [method]; rfl)
    ((params _).trans (params?_executionAddress program execution)), method]
  · rfl
  · intro earlier member answers
    have here := List.all_eq_true.1 unfit earlier member
    rw [method] at answers
    rw [answers] at here
    rw [params]
    simpa using here

theorem executionLink_eq {e : Execution} (program : IsPlain (Html.programIdOf e))
    (execution : IsPlain (Html.executionIdOf e)) (label : Html) :
    (Html.executionLink e label).source =
      "<a href=\"" ++ executionAddress (Html.programIdOf e) (Html.executionIdOf e) ++ "\">" ++
        label.source ++ "</a>" := by
  change "<a href=\"/ui/executions/" ++ (Html.url (Html.programIdOf e)).source ++ "/" ++
    (Html.url (Html.executionIdOf e)).source ++ "\">" ++ label.source ++ "</a>" = _
  have start : "<a href=\"/ui/executions/" = "<a href=\"" ++ "/ui/executions/" := by decide
  rw [program.url_eq, execution.url_eq, executionAddress_eq, start]
  simp only [String.append_assoc]

end

/-- What is read from the name of an execution: the identifiers at the ends of names, always; the
program, its identifier and that of the execution, unless the project, the location or the program
is called by the word that is looked for. The link to the execution asks for the parts that were
read, and it leads back to the execution if they are the right ones. -/
theorem links_lead_back_unless_marked (p l id u : String) (project : Resource.IsSegment p)
    (location : Resource.IsSegment l) (valid : Resource.isProgramId id = true)
    (uuid : Resource.isUuid u = true) :
    (∀ d : Deployment, d.name = Resource.program (Resource.place p l) id → d.id = id) ∧
    ∀ e : Execution, e.name = Resource.execution (Resource.program (Resource.place p l) id) u →
      e.id = u ∧
      e.program = (if p = Resource.executionSegment then "projects"
        else if l = Resource.executionSegment then "projects/" ++ p ++ "/locations"
        else if id = Resource.executionSegment then
          Resource.place p l ++ "/" ++ Resource.programSegment
        else Resource.program (Resource.place p l) id) ∧
      Html.programIdOf e = (if p = Resource.programSegment then "locations"
        else if l = Resource.programSegment then Resource.programSegment
        else id) ∧
      Html.executionIdOf e = (if p = Resource.executionSegment then "locations"
        else if l = Resource.executionSegment then Resource.programSegment
        else if id = Resource.executionSegment then Resource.executionSegment
        else u) ∧
      (∀ label, (Html.executionLink e label).source =
        "<a href=\"" ++ Http.executionAddress (Html.programIdOf e) (Html.executionIdOf e) ++
          "\">" ++ label.source ++ "</a>") ∧
      ∀ (s : Service) (r : Http.Request), r.method = "GET" →
        r.path = Http.executionAddress (Html.programIdOf e) (Html.executionIdOf e) →
        Http.serve ⟨p, l⟩ s r =
          Http.executionDetail ⟨p, l⟩ s r [Html.programIdOf e, Html.executionIdOf e] ∧
        (Html.programIdOf e = id → Html.executionIdOf e = u →
          s.registry.executions.get? e.name = some e →
          ∃ live?, Http.serve ⟨p, l⟩ s r = (s, .page (Html.page ⟨p, l⟩ (some .executions)
            (Html.executionDetail s.clock id u e live?)))) := by
  have program := Resource.isSegment_of_isProgramId valid
  have execution := Resource.isSegment_of_isUuid uuid
  refine ⟨fun d name => ?_, fun e name => ?_⟩
  · rw [Deployment.id, name, Resource.id_program _ valid]
  have programId := Resource.segmentAfter_programSegment project location program execution
  have executionId := Resource.segmentAfter_executionSegment project location program execution
  rw [← name] at programId executionId
  have plainProgram : IsPlain (Html.programIdOf e) := by
    rw [Html.programIdOf, programId]
    split
    · exact isPlain_of_all (by decide)
    · split
      · exact isPlain_of_all (by decide)
      · exact ⟨program.ne_empty, fun _ => Resource.isIdChar_of_isProgramId valid⟩
  have plainExecution : IsPlain (Html.executionIdOf e) := by
    rw [Html.executionIdOf, executionId]
    split
    · exact isPlain_of_all (by decide)
    · split
      · exact isPlain_of_all (by decide)
      · split
        · exact isPlain_of_all (by decide)
        · exact ⟨execution.ne_empty, fun _ => Resource.isIdChar_of_isUuid uuid⟩
  refine ⟨?_, ?_, programId, executionId, executionLink_eq plainProgram plainExecution,
    fun s r method path => ?_⟩
  · rw [Execution.id, name, Resource.id_execution _ execution]
  · rw [Execution.program, name, Resource.programOf_execution project location program]
  have served := serve_executionAddress ⟨p, l⟩ s plainProgram plainExecution method path
  refine ⟨served, fun rightProgram rightExecution recorded => ?_⟩
  have found :
      s.registry.execution (Resource.execution (Http.scopeProgram ⟨p, l⟩ id) u) = .ok e := by
    rw [Registry.execution, Http.scopeProgram, Http.scopePlace, ← name, recorded]
  have programParam : Http.param [id, u] 0 = id := rfl
  have executionParam : Http.param [id, u] 1 = u := rfl
  rw [served, rightProgram, rightExecution, Http.executionDetail, programParam, executionParam,
    found]
  exact ⟨_, rfl⟩

/-- An execution that has begun under the given name. -/
def begun (name : String) : Execution :=
  ⟨name, .active, "", "", none, ⟨1⟩, .unset, "000001-000", 0⟩

/-- The parts of a name without the words are read back, and its link leads back. -/
theorem links_lead_back_unless_marked_plain :
    let u := "00000000-0000-4000-8000-000000000001"
    let e := begun (Resource.execution (Resource.program (Resource.place "p" "l") "a") u)
    e.id = u ∧ e.program = Resource.program (Resource.place "p" "l") "a" ∧
      Html.programIdOf e = "a" ∧ Html.executionIdOf e = u ∧
      ∀ (s : Service) (r : Http.Request), r.method = "GET" → r.path = "/ui/executions/a/" ++ u →
        s.registry.executions.get? e.name = some e →
        ∃ live?, Http.serve ⟨"p", "l"⟩ s r = (s, .page (Html.page ⟨"p", "l"⟩ (some .executions)
          (Html.executionDetail s.clock "a" u e live?))) := by
  intro u e
  have valid : Resource.isProgramId "a" = true :=
    Resource.checkProgramId_eq_ok_iff.1 (Resource.checkProgramId_ofString (by decide) (by decide))
  obtain ⟨-, parts⟩ := links_lead_back_unless_marked "p" "l" "a" u ⟨by decide, by decide⟩
    ⟨by decide, by decide⟩ valid (by decide +kernel)
  obtain ⟨id, program, programId, executionId, -, leads⟩ := parts e rfl
  refine ⟨id, program, programId, executionId, fun s r method path recorded => ?_⟩
  refine (leads s r method ?_).2 programId executionId recorded
  rw [path, programId, executionId]
  rfl

/-- A program may be called `executions`, and a project `workflows`. Then what is read from the name
of an execution is not its program, and the link asks for another execution: the mark is taken for
the identifier of the execution, or a word of the name for that of the program. -/
theorem marked_names_are_misread :
    Resource.checkProgramId "executions" = .ok () ∧
    (begun ("projects/p/locations/l/workflows/executions/executions/" ++
      "00000000-0000-4000-8000-000000000001")).program = "projects/p/locations/l/workflows" ∧
    Html.executionIdOf (begun ("projects/p/locations/l/workflows/executions/executions/" ++
      "00000000-0000-4000-8000-000000000001")) = "executions" ∧
    Html.programIdOf (begun ("projects/workflows/locations/l/workflows/a/executions/" ++
      "00000000-0000-4000-8000-000000000001")) = "locations" := by
  refine ⟨Resource.checkProgramId_ofString (by decide) (by decide), ?_, ?_, ?_⟩ <;> decide +kernel

end ImpHost
