import ImpHost.Http.Programs
import ImpHost.Rpc
import ImpHost.Proofs.Manifest
import ImpHost.Proofs.Resource

/-!
Requests with a text that is no program.

Such a request leaves the service as it is. What protocols are told of it depends on the reason for
which the text is rejected: it is a malformed request, except where the text is a manifest with a
value in its store that is neither an integer nor a boolean. The diagnostic of such a value has the
kind of those that a running program fails with, and it decides the code before the place in the
manifest does.

Main statement: `Service.rejections_change_nothing`.
-/

namespace ImpHost

/-! ## Codes of rejections -/

theorem ParseError.codeOfDiagnostic_report (e : ParseError) :
    Problem.codeOfDiagnostic e.report = .invalidArgument := by
  cases e with
  | lexical e => cases e <;> rfl
  | grammar e => cases e <;> rfl

/-- The value is told to be of the wrong type. A scalar that does not denote what its tag says is
not. -/
def ValueError.isMistyped : ValueError → Bool
  | .mismatch _ _ _ => false
  | _ => true

/-- The text is a manifest that is rejected for a value of the wrong type in its store. -/
def SourceError.isMistyped : SourceError → Bool
  | .manifest (.entry _ why) => why.isMistyped
  | _ => false

/-- The code of a rejected text. -/
def SourceError.code (e : SourceError) : Code :=
  if e.isMistyped then .failedPrecondition else .invalidArgument

theorem SourceError.code_problem (e : SourceError) : e.problem.code = e.code := by
  cases e with
  | bare e => exact e.codeOfDiagnostic_report
  | manifest e =>
    cases e with
    | source e => exact e.codeOfDiagnostic_report
    | entry name why => cases why <;> rfl
    | tooLarge | malformed | noDocument | notMapping | notText | unknownField | noSource
    | storeNotMapping | duplicate => rfl

/-! ## Entries at fault -/

namespace Manifest

/-- The document is a mapping with a field `store`, in which the value of the entry `name` is
rejected for `why`. -/
def RejectsEntry (text : Text) (name : String) (why : ValueError) : Prop :=
  ∃ fields field entries entry, Yaml.parse text = .ok (some (.mapping fields)) ∧
    field ∈ fields ∧ field.1.text = "store" ∧ field.2 = .mapping entries ∧
    entry ∈ entries ∧ entry.1.text = name ∧ Value.ofNode entry.2 = .error why

variable {name : String} {why : ValueError}

theorem exists_of_storeOfEntries {m : Memory} {entries : List (Yaml.Node × Yaml.Node)}
    (rejected : storeOfEntries m entries = .error (.entry name why)) :
    ∃ entry ∈ entries, entry.1.text = name ∧ Value.ofNode entry.2 = .error why := by
  induction entries generalizing m with
  | nil => cases rejected
  | cons entry entries ih =>
    obtain ⟨key, v⟩ := entry
    rw [storeOfEntries] at rejected
    split at rejected
    · cases rejected
    · split at rejected
      · next why' value =>
        cases rejected
        exact ⟨_, List.mem_cons_self, rfl, value⟩
      · obtain ⟨entry, member, fault⟩ := ih rejected
        exact ⟨entry, List.mem_cons_of_mem _ member, fault⟩

theorem exists_of_storeOfNode {v : Yaml.Node}
    (rejected : storeOfNode v = .error (.entry name why)) :
    ∃ entries, v = .mapping entries ∧
      ∃ entry ∈ entries, entry.1.text = name ∧ Value.ofNode entry.2 = .error why := by
  unfold storeOfNode at rejected
  split at rejected
  · exact ⟨_, rfl, exists_of_storeOfEntries rejected⟩
  · split at rejected <;> cases rejected
  · cases rejected

/-- Only the field `store` is rejected for an entry. -/
theorem Fields.store_of_apply {f : Fields} {key : String} {v : Yaml.Node}
    (rejected : f.apply key v = .error (.entry name why)) :
    key = "store" ∧ storeOfNode v = .error (.entry name why) := by
  -- The other fields are texts, which are rejected for their shape only.
  have text (field : String) {f : String → Fields} :
      (do return f (← fieldText field v)) ≠ (.error (.entry name why) : Except _ Fields) := by
    cases v <;> exact nofun
  unfold apply at rejected
  split at rejected
  · exact (text _ rejected).elim
  · exact (text _ rejected).elim
  · exact (text _ rejected).elim
  · cases store : storeOfNode v with
    | error why' =>
      rw [store] at rejected
      cases rejected
      exact ⟨rfl, rfl⟩
    | ok m =>
      rw [store] at rejected
      cases rejected
  · cases rejected

theorem exists_of_readFields {fields : List (Yaml.Node × Yaml.Node)} {f : Fields}
    (rejected : fields.foldlM (fun f e => f.apply e.1.text e.2) f = .error (.entry name why)) :
    ∃ field ∈ fields, field.1.text = "store" ∧
      storeOfNode field.2 = .error (.entry name why) := by
  induction fields generalizing f with
  | nil => cases rejected
  | cons field fields ih =>
    rw [List.foldlM_cons] at rejected
    cases applied : f.apply field.1.text field.2 with
    | error why' =>
      rw [applied] at rejected
      cases rejected
      exact ⟨field, List.mem_cons_self, Fields.store_of_apply applied⟩
    | ok f' =>
      rw [applied] at rejected
      obtain ⟨field, member, isStore⟩ := ih rejected
      exact ⟨field, List.mem_cons_of_mem _ member, isStore⟩

theorem ofFields_ne_entry (f : Fields) : ofFields f ≠ .error (.entry name why) := by
  unfold ofFields
  split
  · exact nofun
  · split <;> exact nofun

/-- A document that is rejected for an entry has it in its store. -/
theorem rejectsEntry_of_ofYaml {text : Text}
    (rejected : ofYaml text = .error (.entry name why)) : RejectsEntry text name why := by
  unfold ofYaml at rejected
  split at rejected
  · cases rejected
  · split at rejected
    · cases rejected
    · cases rejected
    · next fields document =>
      cases read : fields.foldlM (fun f e => f.apply e.1.text e.2) (⟨"", "", "", ∅⟩ : Fields) with
      | ok f =>
        rw [read] at rejected
        exact (ofFields_ne_entry f rejected).elim
      | error why' =>
        rw [read] at rejected
        cases rejected
        obtain ⟨field, isField, isStore, store⟩ := exists_of_readFields read
        obtain ⟨entries, isMapping, entry, isEntry, value⟩ := exists_of_storeOfNode store
        exact ⟨fields, field, entries, entry, document, isField, isStore, isMapping, isEntry, value⟩
    · cases rejected

theorem rejectsEntry_of_ofText {id source : Text} {why : SourceError}
    (rejected : ofText id source = .error why) (mistyped : why.isMistyped = true) :
    ∃ name reason, RejectsEntry source name reason ∧ reason.isMistyped = true := by
  unfold ofText at rejected
  split at rejected
  · cases read : ofYaml source with
    | ok m =>
      rw [read] at rejected
      cases rejected
    | error fault =>
      rw [read] at rejected
      cases rejected
      cases fault with
      | entry name reason => exact ⟨name, reason, rejectsEntry_of_ofYaml read, mistyped⟩
      | source | tooLarge | malformed | noDocument | notMapping | notText | unknownField | noSource
      | storeNotMapping | duplicate => cases mistyped
  · cases read : ofSource id source with
    | ok m =>
      rw [read] at rejected
      cases rejected
    | error fault =>
      rw [read] at rejected
      cases rejected
      cases mistyped

end Manifest

/-! ## Requests -/

/-- A text that is no identifier is a malformed request. -/
theorem Resource.of_checkProgramId_error {id : Text} {bad : Problem}
    (refused : checkProgramId id = .error bad) :
    isProgramId id = false ∧ bad.code = .invalidArgument := by
  constructor
  · cases valid : isProgramId id with
    | false => rfl
    | true => cases refused.symm.trans (checkProgramId_eq_ok_iff.2 valid)
  · unfold checkProgramId at refused
    split at refused
    · cases refused
      rfl
    · split at refused <;> cases refused
      rfl

/-- The problem with a text that is rejected for a program with this identifier. The identifier is
looked at first. -/
def SourceError.problemFor (id : Text) (e : SourceError) : Problem :=
  match Resource.checkProgramId id with
  | .error bad => bad
  | .ok _ => e.problem

/-- The code of a text that is rejected for a program with this identifier. -/
def SourceError.codeFor (id : Text) (e : SourceError) : Code :=
  if Resource.isProgramId id then e.code else .invalidArgument

theorem SourceError.code_problemFor (id : Text) (e : SourceError) :
    (e.problemFor id).code = e.codeFor id := by
  unfold problemFor codeFor
  cases checked : Resource.checkProgramId id with
  | error bad =>
    obtain ⟨invalid, code⟩ := Resource.of_checkProgramId_error checked
    rw [invalid, if_neg Bool.false_ne_true]
    exact code
  | ok =>
    rw [if_pos (Resource.checkProgramId_eq_ok_iff.1 checked)]
    exact e.code_problem

variable {id source : Text} {why : SourceError}

theorem Service.deploy_of_rejected (s : Service) (parent : String) (description : Text)
    (labels : Option Labels) (rejected : Manifest.ofText id source = .error why) :
    s.deploy parent id source description labels = (s, .error (why.problemFor id)) := by
  unfold deploy SourceError.problemFor
  cases Resource.checkProgramId id with
  | error bad => rfl
  | ok =>
    dsimp only
    rw [rejected]

theorem Service.update_of_rejected (s : Service) (name : String) (description : Text)
    (labels : Option Labels) (given : source.isEmpty = false)
    (rejected : Manifest.ofText name source = .error why) :
    s.update name source description labels = (s, .error why.problem) := by
  unfold update
  rw [given, if_neg Bool.false_ne_true, rejected]

/-- The message of a text that is rejected, as the handlers of both protocols give it: they call it
an invalid program if the request is malformed. -/
def SourceError.messageFor (id : Text) (e : SourceError) : String :=
  if e.codeFor id = .invalidArgument then "invalid program: " ++ (e.problemFor id).message
  else (e.problemFor id).message

theorem Rpc.createProgram_of_rejected (s : Service) (parent : String) (m : ProgramMessage)
    (named : id.isEmpty = false) (given : m.source.isEmpty = false)
    (rejected : Manifest.ofText id m.source = .error why) :
    createProgram s parent id (some m) = (s, .error ⟨why.codeFor id, why.messageFor id⟩) := by
  unfold createProgram SourceError.messageFor
  rw [named, if_neg Bool.false_ne_true]
  dsimp only
  rw [given, if_neg Bool.false_ne_true, s.deploy_of_rejected _ _ _ rejected]
  dsimp only
  rw [why.code_problemFor]
  split
  · next malformed => rw [malformed]
  · rw [Status.ofProblem, why.code_problemFor]

theorem Http.createProgram_of_rejected (s : Service) (r : Request) (ps : List String)
    (q : ProgramRequest) (named : (r.queryValue "workflowId").isEmpty = false)
    (read : ProgramRequest.read? r = some q) (given : q.source.isEmpty = false)
    (rejected : Manifest.ofText (r.queryValue "workflowId") q.source = .error why) :
    createProgram s r ps = (s, .failure (why.codeFor (r.queryValue "workflowId"))
      (why.messageFor (r.queryValue "workflowId")) []) := by
  unfold createProgram SourceError.messageFor
  dsimp only
  rw [named, if_neg Bool.false_ne_true, read]
  dsimp only
  rw [given, if_neg Bool.false_ne_true, s.deploy_of_rejected _ _ _ rejected]
  dsimp only
  rw [why.code_problemFor]
  split
  · next malformed => rw [malformed, Response.invalid]
  · rw [Response.ofProblem, why.code_problemFor]

/-! ## Main statement -/

/-- A request to deploy or to replace a program whose text is rejected, for whatever reason, leaves
the service as it is. It is a malformed request, and both protocols call the program invalid, unless
the identifier is valid and the text is a manifest that is rejected for a value of the wrong type in
its store: then it fails a precondition. -/
theorem Service.rejections_change_nothing (s : Service) (source description : Text)
    (labels : Option Labels) (why : SourceError) :
    (∀ (parent : String) (id : Text), Manifest.ofText id source = .error why →
      s.deploy parent id source description labels = (s, .error (why.problemFor id)) ∧
      (why.problemFor id).code = why.codeFor id) ∧
    (∀ name : String, source.isEmpty = false → Manifest.ofText name source = .error why →
      s.update name source description labels = (s, .error why.problem) ∧
      why.problem.code = why.code) ∧
    (∀ id : Text, Manifest.ofText id source = .error why → why.isMistyped = true →
      ∃ name reason, Manifest.RejectsEntry source name reason ∧ reason.isMistyped = true) ∧
    (∀ (parent : String) (id : Text) (m : Rpc.ProgramMessage), m.source = source →
      id.isEmpty = false → source.isEmpty = false → Manifest.ofText id source = .error why →
      Rpc.createProgram s parent id (some m) =
        (s, .error ⟨why.codeFor id, why.messageFor id⟩)) ∧
    ∀ (r : Http.Request) (ps : List String) (q : Http.ProgramRequest) (id : Text),
      Http.ProgramRequest.read? r = some q → q.source = source → r.queryValue "workflowId" = id →
      id.isEmpty = false → source.isEmpty = false → Manifest.ofText id source = .error why →
      Http.createProgram s r ps =
        (s, .failure (why.codeFor id) (why.messageFor id) []) := by
  refine ⟨fun parent id rejected => ?_, fun name given rejected => ?_,
    fun id rejected => Manifest.rejectsEntry_of_ofText rejected, ?_, ?_⟩
  · exact ⟨s.deploy_of_rejected parent description labels rejected, why.code_problemFor id⟩
  · exact ⟨s.update_of_rejected name description labels given rejected, why.code_problem⟩
  · rintro parent id m rfl named given rejected
    exact Rpc.createProgram_of_rejected s parent m named given rejected
  · rintro r ps q id read rfl rfl named given rejected
    exact Http.createProgram_of_rejected s r ps q named read given rejected

/-- What is wrong with a document. -/
def Manifest.documentFault? (text : Text) : Option ManifestError :=
  match ofYaml text with
  | .error fault => some fault
  | .ok _ => none

theorem Manifest.ofText_of_documentFault? {fault : ManifestError}
    (isManifest : isManifest source = true) (rejected : documentFault? source = some fault)
    (id : Text) : ofText id source = .error (.manifest fault) := by
  unfold documentFault? at rejected
  split at rejected
  · next read =>
    cases rejected
    rw [ofText, if_pos isManifest, read]
    rfl
  · cases rejected

/-- A manifest that binds a variable twice is a malformed request, to deploy it and to replace a
program by it. -/
theorem Service.rejections_change_nothing_duplicate :
    let s := Service.new .empty 1 ⟨0⟩
    let source : Text := "source: skip\nstore: \x7bx: 1, x: 2\x7d"
    let why : SourceError := .manifest (.duplicate "x")
    Manifest.ofText "a" source = .error why ∧
      s.deploy "l" "a" source ∅ none = (s, .error why.problem) ∧
      s.update "n" source ∅ none = (s, .error why.problem) ∧
      why.problem.code = .invalidArgument := by
  intro s source why
  have rejected (id : Text) : Manifest.ofText id source = .error why :=
    Manifest.ofText_of_documentFault? (by decide +kernel) (by decide +kernel) id
  obtain ⟨deploys, updates, -⟩ := rejections_change_nothing s source ∅ none why
  have valid : Resource.checkProgramId "a" = .ok () :=
    Resource.checkProgramId_ofString (by decide) (by decide)
  obtain ⟨deployed, -⟩ := deploys "l" "a" (rejected "a")
  obtain ⟨updated, code⟩ := updates "n" (by decide) (rejected "n")
  rw [SourceError.problemFor, valid] at deployed
  exact ⟨rejected "a", deployed, updated, code⟩

/-- A manifest with a text in its store is rejected as one, and fails a precondition. -/
theorem Service.mistyped_entry_fails_precondition :
    let s := Service.new .empty 1 ⟨0⟩
    let source : Text := "source: skip\nstore: \x7bx: hello\x7d"
    let why : SourceError := .manifest (.entry "x" (.other "hello"))
    Manifest.ofText "a" source = .error why ∧
      s.deploy "l" "a" source ∅ none = (s, .error why.problem) ∧
      why.problem.code = .failedPrecondition := by
  intro s source why
  have rejected : Manifest.ofText "a" source = .error why :=
    Manifest.ofText_of_documentFault? (by decide +kernel) (by decide +kernel) "a"
  have valid : Resource.checkProgramId "a" = .ok () :=
    Resource.checkProgramId_ofString (by decide) (by decide)
  have deployed := s.deploy_of_rejected "l" ∅ none rejected
  rw [SourceError.problemFor, valid] at deployed
  exact ⟨rejected, deployed, rfl⟩

end ImpHost
