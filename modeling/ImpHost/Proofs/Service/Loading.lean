import ImpHost.Proofs.Manifest.Forms
import ImpHost.Proofs.Service.Agreement
import ImpHost.Proofs.Service.Runnable

/-!
What loading a directory does to the programs of a service.

A file is `Eligible` for an identifier if its name gives it and its contents are a program. Such a
file is deployed, or it replaces what is deployed under its name: either way its texts are laid over
the record of the program (`Deployment.overlaid`), where an empty text leaves what there is. All
other files are passed over. So for each name the record after a directory is the one before with
the texts of the files for that name laid over it one after the other (`Service.overlaid_load`), or
a new one if there was none, but for its revision. Laying the same texts over it again makes no
difference (`Deployment.foldl_overlaid_twice`).

Main statement: `Service.loading_is_exact`.
-/

namespace ImpHost

/-! ## Texts laid over a record -/

namespace Text

/-- The text that counts when one comes after another: the new one, unless it is empty. -/
def later (old new : Text) : Text :=
  if new.isEmpty then old else new

/-- Either all texts are empty, or what was there before them makes no difference. -/
theorem foldl_later_cases (ts : List Text) :
    (∀ t, ts.foldl later t = t) ∨ ∃ last, ∀ t, ts.foldl later t = last := by
  induction ts with
  | nil => exact .inl fun _ => rfl
  | cons u ts ih =>
    simp only [List.foldl_cons, later]
    cases u.isEmpty with
    | true => exact ih
    | false => exact .inr ⟨ts.foldl later u, fun _ => rfl⟩

theorem foldl_later_twice (ts : List Text) (t : Text) :
    ts.foldl later (ts.foldl later t) = ts.foldl later t := by
  rcases foldl_later_cases ts with all | ⟨last, all⟩
  · exact all _
  · rw [all, all]

end Text

namespace Deployment

/-- The record without what tells when it was last written: its revision and the time of the last
update. -/
def unstamped (p : Deployment) : Deployment :=
  { p with revision := "", updated := .unset }

/-- The record with a source and a description laid over it. -/
def overlaid (p : Deployment) (texts : Text × Text) : Deployment :=
  { p with source := p.source.later texts.1, description := p.description.later texts.2 }

theorem foldl_overlaid (p : Deployment) (texts : List (Text × Text)) :
    texts.foldl overlaid p =
      { p with
        source := (texts.map Prod.fst).foldl Text.later p.source
        description := (texts.map Prod.snd).foldl Text.later p.description } := by
  induction texts generalizing p with
  | nil => rfl
  | cons t texts ih => exact ih (p.overlaid t)

/-- Texts that have been laid over a record make no difference to it. -/
theorem foldl_overlaid_twice (p : Deployment) (texts : List (Text × Text)) :
    texts.foldl overlaid (texts.foldl overlaid p) = texts.foldl overlaid p := by
  simp only [foldl_overlaid, Text.foldl_later_twice]

theorem unstamped_revised (p : Deployment) (now : Instant) (number : Nat)
    (source description : Text) :
    (Registry.revised p now number source description none).unstamped =
      p.unstamped.overlaid (source, description) :=
  rfl

/-- What becomes of a record that may not exist when texts are laid over it. Without any texts it
stays as it is. With some there is a record after them; it is the one before with the texts over it,
but for its revision. -/
inductive Overlaid (old? : Option Deployment) : List (Text × Text) → Option Deployment → Prop
  | untouched : Overlaid old? [] old?
  | touched {texts : List (Text × Text)} {base p : Deployment} : texts ≠ [] →
    (∀ old, old? = some old → base = old.unstamped) → p.unstamped = texts.foldl overlaid base →
    Overlaid old? texts (some p)

variable {old? mid? new? : Option Deployment} {texts texts' : List (Text × Text)}

theorem Overlaid.eq_of_nil (overlaid : Overlaid old? texts new?) (none : texts = []) :
    new? = old? := by
  cases overlaid with
  | untouched => rfl
  | touched some => exact (some none).elim

theorem Overlaid.exists_of_ne_nil (overlaid : Overlaid old? texts new?) (some : texts ≠ []) :
    ∃ base p, new? = .some p ∧ p.unstamped = texts.foldl Deployment.overlaid base := by
  cases overlaid with
  | untouched => exact (some rfl).elim
  | touched _ _ shows => exact ⟨_, _, rfl, shows⟩

theorem Overlaid.append (first : Overlaid old? texts mid?) (second : Overlaid mid? texts' new?) :
    Overlaid old? (texts ++ texts') new? := by
  cases first with
  | untouched => exact second
  | @touched _ base p some start shows =>
    cases second with
    | untouched =>
      rw [List.append_nil]
      exact .touched some start shows
    | @touched _ base' q some' start' shows' =>
      refine .touched (List.append_ne_nil_of_left_ne_nil some _) start ?_
      rw [shows', start' p rfl, shows, List.foldl_append]

/-- A record over which texts have been laid stays as it is, but for its revision, when they are
laid over it again. -/
theorem Overlaid.again (first : Overlaid old? texts mid?) (second : Overlaid mid? texts new?) :
    Option.Rel (fun p q => p.unstamped = q.unstamped) mid? new? := by
  cases first with
  | untouched =>
    cases second with
    | touched some => exact (some rfl).elim
    | untouched =>
      cases old? with
      | none => exact .none
      | some p => exact .some rfl
  | @touched _ base p some start shows =>
    cases second with
    | untouched => exact (some rfl).elim
    | @touched _ base' q some' start' shows' =>
      refine .some ?_
      rw [shows', start' p rfl, shows, foldl_overlaid_twice]

end Deployment

/-! ## Eligible files -/

theorem Text.eq_empty_of_isEmpty {t : Text} (empty : t.isEmpty = true) : t = ∅ := by
  obtain ⟨⟨⟨bytes⟩⟩⟩ := t
  cases bytes with
  | nil => rfl
  | cons b bytes => cases empty

/-- No program is spelled without a text. -/
theorem Manifest.IsFormOf.isEmpty_eq_false {source : Text} {m : Manifest}
    (form : IsFormOf source m) : source.isEmpty = false := by
  refine Bool.eq_false_iff.2 fun empty => ?_
  obtain ⟨m', read, -⟩ := form ∅
  rw [Text.eq_empty_of_isEmpty empty] at read
  have bare : isManifest ∅ = false := by decide +kernel
  have noTokens : Command.parse ∅ = .error (.grammar .emptyProgram) := by
    have noCharacters : Text.chars ∅ = [] := Text.chars_of_isEmpty rfl
    have lexed : Token.lex [] = .ok [] := by
      unfold Token.lex Token.lexFrom
      rfl
    rw [Command.parse, if_neg (by decide), noCharacters, lexed]
    rfl
  rw [ofText, if_neg (Bool.eq_false_iff.1 bare), ofSource, noTokens] at read
  cases read

namespace Service

variable {s : Service} {parent name id : String} {file : String × FileEntry} {contents : Text}
  {m : Manifest}

/-- The file can be deployed under the identifier: it is no directory, it has the extension of a
program file, its name without the extension is the identifier in lower case, and its contents are
a program in the form that the extension tells. -/
structure Eligible (file : String × FileEntry) (id : String) (contents : Text) : Prop where
  isFile : file.2 = .file contents
  isProgramFile : Manifest.isProgramFile file.1 = true
  isNamed : idOfFile file.1 = id
  isValid : Resource.checkProgramId id = .ok ()
  loads : ∃ m, Manifest.load (Files.ofEntries [file]) file.1 = .ok m

theorem read_of_single (name : String) (contents : Text) :
    (Files.ofEntries [(name, .file contents)]).read name = .ok contents := by
  rw [Files.read, Files.ofEntries, List.lookup_cons_self]

/-- A program file is eligible if its name gives an identifier and it has a program in the form that
its extension tells. -/
theorem eligible_of_spelled {name : String} (isProgramFile : Manifest.isProgramFile name = true)
    (isNamed : idOfFile name = id) (isValid : Resource.checkProgramId id = .ok ())
    (spelled : (Manifest.isSourceFile name = true ∧
        ∃ program, Command.parse contents = .ok program) ∨
      (Manifest.isSourceFile name = false ∧ ∃ m, Manifest.ofYaml contents = .ok m)) :
    Eligible (name, .file contents) id contents := by
  refine ⟨rfl, isProgramFile, isNamed, isValid, ?_⟩
  rw [Manifest.load, isProgramFile, read_of_single]
  dsimp only
  rcases spelled with ⟨isSource, program, parsed⟩ | ⟨isDocument, m, read⟩
  · rw [if_pos isSource, Manifest.ofSource_of_parse _ parsed]
    exact ⟨_, rfl⟩
  · rw [if_neg (Bool.eq_false_iff.1 isDocument), read]
    exact ⟨_, rfl⟩

/-- What is deployed of a file is its contents and the manifest that is loaded from it. -/
theorem deployable?_eq_some_iff : deployable? file.1 file.2 = some (contents, m) ↔
    Eligible file (idOfFile file.1) contents ∧
      Manifest.load (Files.ofEntries [file]) file.1 = .ok m := by
  obtain ⟨name, entry⟩ := file
  constructor
  · intro isDeployable
    cases eq_file_of_deployable? isDeployable
    rw [deployable?] at isDeployable
    split at isDeployable
    · next isFile =>
      obtain ⟨isProgramFile, isId⟩ := Bool.and_eq_true_iff.1 isFile
      split at isDeployable
      · next loaded =>
        cases isDeployable
        have isValid := Resource.checkProgramId_eq_ok_iff.2 isId
        exact ⟨⟨rfl, isProgramFile, rfl, isValid, m, loaded⟩, loaded⟩
      · cases isDeployable
    · cases isDeployable
  · rintro ⟨eligible, loaded⟩
    cases eligible.isFile
    have isId := Resource.checkProgramId_eq_ok_iff.1 eligible.isValid
    rw [deployable?, eligible.isProgramFile, isId, Bool.and_self, if_pos rfl]
    simp only [loaded]

/-- A file is passed over if it is eligible for no identifier. -/
theorem deployable?_eq_none (passed : ∀ id contents, ¬ Eligible file id contents) :
    deployable? file.1 file.2 = none := by
  cases found : deployable? file.1 file.2 with
  | none => rfl
  | some d => exact (passed _ _ (deployable?_eq_some_iff.1 found).1).elim

/-- A file can be read as a program from its contents alone. -/
theorem Eligible.isFormOf (eligible : Eligible file id contents)
    (loaded : Manifest.load (Files.ofEntries [file]) file.1 = .ok m) :
    Manifest.IsFormOf contents m := by
  obtain ⟨contents', isFile, form⟩ := Manifest.isFormOf_of_load loaded
  obtain ⟨name, entry⟩ := file
  cases eligible.isFile
  cases (read_of_single name contents).symm.trans isFile
  exact form

theorem Eligible.isEmpty_eq_false (eligible : Eligible file id contents) :
    contents.isEmpty = false := by
  obtain ⟨m, loaded⟩ := eligible.loads
  exact (eligible.isFormOf loaded).isEmpty_eq_false

/-! ## Loading a file -/

/-- Nothing but programs and their parsed forms is changed, and the database takes what it took. -/
structure KeepsRuns (s s' : Service) : Prop where
  executions : s'.registry.executions = s.registry.executions
  engines : s'.engines = s.engines
  issued : s'.issued = s.issued
  accepts : ∀ key, s.registry.Accepts key → s'.registry.Accepts key

theorem KeepsRuns.refl (s : Service) : KeepsRuns s s :=
  ⟨rfl, rfl, rfl, fun _ accepts => accepts⟩

theorem KeepsRuns.trans {s s' s'' : Service} (first : KeepsRuns s s') (second : KeepsRuns s' s'') :
    KeepsRuns s s'' :=
  ⟨second.executions.trans first.executions, second.engines.trans first.engines,
    second.issued.trans first.issued, fun key accepts =>
      second.accepts key (first.accepts key accepts)⟩

theorem keepsRuns_tick (s : Service) : KeepsRuns s s.tick :=
  ⟨rfl, rfl, rfl, fun _ accepts => accepts⟩

theorem keepsRuns_written (s : Service) (name : String) (p : Deployment) (m : Manifest) :
    KeepsRuns s (s.written name p m) :=
  ⟨rfl, rfl, rfl, fun _ accepts => Registry.Accepts.withProgram accepts _ _⟩

/-- A program that is there is not deployed once more. -/
theorem deploy_of_present {source description : Text} {m : Manifest} {old : Deployment}
    (valid : Resource.checkProgramId id = .ok ()) (read : Manifest.ofText id source = .ok m)
    (present : s.registry.programs.get? (Resource.program parent id) = some old) :
    s.deploy parent id source description none =
      (s.tick, .error (Registry.programExists (Resource.program parent id))) := by
  have refused (now : Instant) (description : Text) :
      s.registry.createProgram now parent id source description none =
        (s.registry, .error (Registry.programExists (Resource.program parent id))) := by
    simp only [Registry.createProgram, present, Option.isSome_some, if_true]
  simp only [deploy, valid, read, Text.lossy_ofString]
  rw [onRegistry_eq (refused ..)]
  rfl

/-- The texts that are given are laid over the record of a program that is there. -/
theorem update_of_present {source : Text} {m : Manifest} {old : Deployment}
    (given : source.isEmpty = false) (read : Manifest.ofText name source = .ok m)
    (present : s.registry.programs.get? name = some old) (accepts : s.registry.Accepts name)
    (description : Text) :
    ∃ p : Deployment, s.update name source description none = (s.written name p m, .ok p) ∧
      p.unstamped = old.unstamped.overlaid (source, description) := by
  let p := Registry.revised old s.tick.clock (s.registry.revisions + 1) source description none
  have revised : s.registry.updateProgram s.tick.clock name source description none =
      (s.registry.changed (.program name p), .ok p) := by
    -- The number of the revision is taken before the record is written.
    have counted :
        Registry.Accepts { s.registry with revisions := s.registry.revisions + 1 } name := accepts
    simp only [Registry.updateProgram, present, Registry.putProgram_of_accepts counted]
    rfl
  refine ⟨p, ?_, Deployment.unstamped_revised ..⟩
  simp only [update, given, Bool.false_eq_true, if_false, read]
  rw [onRegistry_eq revised]
  rfl

/-- A file that is eligible is deployed, or its texts are laid over what is deployed already. -/
theorem loadFile_of_eligible (eligible : Eligible file id contents)
    (loaded : Manifest.load (Files.ofEntries [file]) file.1 = .ok m)
    (accepts : s.registry.Accepts (Resource.program parent id)) :
    KeepsRuns s (s.loadFile parent file.1 file.2) ∧ ∃ p : Deployment,
      (s.loadFile parent file.1 file.2).registry.programs =
        s.registry.programs.set (Resource.program parent id) p ∧
      Deployment.Overlaid (s.registry.programs.get? (Resource.program parent id))
        [(contents, m.description)] (some p) := by
  have form := eligible.isFormOf loaded
  have isNamed := eligible.isNamed
  subst isNamed
  have isDeployable := deployable?_eq_some_iff.2 ⟨eligible, loaded⟩
  obtain ⟨m', read, alike⟩ := form (idOfFile file.1)
  have same : m'.description = m.description := by rw [← alike]
  cases held : s.registry.programs.get? (Resource.program parent (idOfFile file.1)) with
  | none =>
    rw [← Text.lossy_ofString (idOfFile file.1)] at held accepts
    obtain ⟨p, deployed, name, source, description⟩ :=
      deploy_eq_written eligible.isValid read held accepts m.description none
    rw [same, ite_self] at description
    rw [Text.lossy_ofString] at name
    simp only [loadFile, isDeployable, deployed, name]
    have shows : p.unstamped = p.unstamped.overlaid (contents, m.description) := by
      simp [Deployment.overlaid, Text.later, Deployment.unstamped, source, description]
    exact ⟨keepsRuns_written .., p, rfl, .touched (by simp) nofun shows⟩
  | some old =>
    obtain ⟨m', read', -⟩ := form (Resource.program parent (idOfFile file.1))
    obtain ⟨p, updated, shows⟩ :=
      update_of_present (s := s.tick) form.isEmpty_eq_false read' held accepts m.description
    have refusal : (Registry.programExists (Resource.program parent (idOfFile file.1))).refusal? =
        some .alreadyExists := rfl
    simp only [loadFile, isDeployable, deploy_of_present eligible.isValid read held, refusal,
      if_true, updated]
    refine ⟨s.keepsRuns_tick.trans (keepsRuns_written ..), p, rfl,
      .touched (by simp) (fun _ same => ?_) shows⟩
    cases same
    rfl

/-- A file that is eligible for no identifier is passed over. -/
theorem loadFile_of_passed (s : Service) (parent : String)
    (passed : ∀ id contents, ¬ Eligible file id contents) :
    s.loadFile parent file.1 file.2 = s := by
  rw [loadFile, deployable?_eq_none passed]

/-! ## Loading a directory -/

/-- The texts that a file has for the program `name`: its contents and its description, if it is
deployed under this name. -/
def textsOf (parent name : String) (file : String × FileEntry) : List (Text × Text) :=
  match deployable? file.1 file.2 with
  | some (contents, m) =>
    if Resource.program parent (idOfFile file.1) = name then [(contents, m.description)] else []
  | none => []

/-- The database takes the programs that the files are deployed as. -/
def AcceptsAll (s : Service) (parent : String) (listing : List (String × FileEntry)) : Prop :=
  ∀ file ∈ listing, ∀ id contents, Eligible file id contents →
    s.registry.Accepts (Resource.program parent id)

variable {listing front back : List (String × FileEntry)}

theorem AcceptsAll.keeps {s s' : Service} (accepts : s.AcceptsAll parent listing)
    (keeps : KeepsRuns s s') : s'.AcceptsAll parent listing :=
  fun file member id contents eligible => keeps.accepts _ (accepts file member id contents eligible)

/-- What a file does to each program. -/
theorem overlaid_loadFile (accepts : s.AcceptsAll parent [file]) :
    KeepsRuns s (s.loadFile parent file.1 file.2) ∧ ∀ name,
      Deployment.Overlaid (s.registry.programs.get? name) (textsOf parent name file)
        ((s.loadFile parent file.1 file.2).registry.programs.get? name) := by
  cases found : deployable? file.1 file.2 with
  | none =>
    have same : s.loadFile parent file.1 file.2 = s := by rw [loadFile, found]
    rw [same]
    refine ⟨.refl s, fun name => ?_⟩
    rw [textsOf, found]
    exact .untouched
  | some d =>
    obtain ⟨eligible, loaded⟩ := deployable?_eq_some_iff.1 found
    have here := accepts file List.mem_cons_self _ _ eligible
    obtain ⟨keeps, p, programs, overlaid⟩ := loadFile_of_eligible eligible loaded here
    refine ⟨keeps, fun name => ?_⟩
    rw [textsOf, found, programs, Table.get?_set]
    dsimp only
    by_cases same : Resource.program parent (idOfFile file.1) = name
    · subst same
      rw [if_pos rfl, if_pos rfl]
      exact overlaid
    · rw [if_neg same, if_neg (Ne.symm same)]
      exact .untouched

/-- What a directory does to each program. -/
theorem overlaid_load (accepts : s.AcceptsAll parent listing) :
    KeepsRuns s (s.loadDirectory parent listing) ∧ ∀ name,
      Deployment.Overlaid (s.registry.programs.get? name) (listing.flatMap (textsOf parent name))
        ((s.loadDirectory parent listing).registry.programs.get? name) := by
  induction listing generalizing s with
  | nil => exact ⟨.refl s, fun name => .untouched⟩
  | cons file files ih =>
    obtain ⟨here, later⟩ := List.forall_mem_cons.1 accepts
    obtain ⟨keeps, overlaid⟩ := overlaid_loadFile (List.forall_mem_singleton.2 here)
    obtain ⟨keeps', overlaid'⟩ := ih (AcceptsAll.keeps later keeps)
    exact ⟨keeps.trans keeps', fun name => (overlaid name).append (overlaid' name)⟩

theorem loadDirectory_append (s : Service) (parent : String) (front back) :
    s.loadDirectory parent (front ++ back) =
      (s.loadDirectory parent front).loadDirectory parent back :=
  List.foldl_append

/-- Files that are deployed under other names have no texts for the program. -/
theorem textsOf_eq_nil (other : ∀ id contents, Eligible file id contents →
    name ≠ Resource.program parent id) : textsOf parent name file = [] := by
  cases found : deployable? file.1 file.2 with
  | none => rw [textsOf, found]
  | some d =>
    have eligible := (deployable?_eq_some_iff.1 found).1
    rw [textsOf, found]
    exact if_neg (Ne.symm (other _ _ eligible))

theorem exists_textsOf (parent : String) (eligible : Eligible file id contents) :
    ∃ description,
      textsOf parent (Resource.program parent id) file = [(contents, description)] := by
  obtain ⟨m, loaded⟩ := eligible.loads
  have isNamed := eligible.isNamed
  subst isNamed
  refine ⟨m.description, ?_⟩
  rw [textsOf, deployable?_eq_some_iff.2 ⟨eligible, loaded⟩]
  exact if_pos rfl

/-- The contents of the last file that is eligible for the identifier. -/
def LastFor (listing : List (String × FileEntry)) (id : String) (contents : Text) : Prop :=
  ∃ front file back, listing = front ++ file :: back ∧ Eligible file id contents ∧
    ∀ other ∈ back, ∀ contents, ¬ Eligible other id contents

theorem exists_lastFor (some : ∃ file ∈ listing, ∃ contents, Eligible file id contents) :
    ∃ contents, LastFor listing id contents := by
  induction listing with
  | nil =>
    obtain ⟨file, member, -⟩ := some
    cases member
  | cons first files ih =>
    by_cases later : ∃ file ∈ files, ∃ contents, Eligible file id contents
    · obtain ⟨contents, front, file, back, rfl, last⟩ := ih later
      exact ⟨contents, first :: front, file, back, rfl, last⟩
    · obtain ⟨file, member, contents, eligible⟩ := some
      rcases List.mem_cons.1 member with rfl | member
      · refine ⟨contents, [], file, files, rfl, eligible, fun other isLater contents' => ?_⟩
        exact fun eligible' => later ⟨other, isLater, contents', eligible'⟩
      · exact (later ⟨file, member, contents, eligible⟩).elim

/-- The identifier of a program is found in its name. -/
theorem program_inj {id' : String} (valid : Resource.checkProgramId id = .ok ())
    (valid' : Resource.checkProgramId id' = .ok ())
    (same : Resource.program parent id = Resource.program parent id') : id = id' := by
  rw [← Resource.id_program parent (Resource.checkProgramId_eq_ok_iff.1 valid), same,
    Resource.id_program parent (Resource.checkProgramId_eq_ok_iff.1 valid')]

/-- The last file for an identifier has the source of the program. -/
theorem source_of_lastFor {old? new? : Option Deployment} (last : LastFor listing id contents)
    (overlaid : Deployment.Overlaid old?
      (listing.flatMap (textsOf parent (Resource.program parent id))) new?) :
    ∃ p, new? = some p ∧ p.source = contents := by
  obtain ⟨front, file, back, rfl, eligible, none⟩ := last
  have behind : back.flatMap (textsOf parent (Resource.program parent id)) = [] := by
    refine List.flatMap_eq_nil_iff.2 fun other isLater => textsOf_eq_nil ?_
    intro id' contents' eligible' same
    cases program_inj eligible.isValid eligible'.isValid same
    exact none other isLater contents' eligible'
  obtain ⟨description, texts⟩ := exists_textsOf parent eligible
  rw [List.flatMap_append, List.flatMap_cons, behind, texts, List.append_nil] at overlaid
  obtain ⟨base, p, loaded, shows⟩ :=
    overlaid.exists_of_ne_nil (List.append_ne_nil_of_right_ne_nil _ (List.cons_ne_nil _ _))
  refine ⟨p, loaded, ?_⟩
  have source := congrArg Deployment.source shows
  rw [List.foldl_append, List.foldl_cons, List.foldl_nil] at source
  exact source.trans (if_neg (Bool.eq_false_iff.1 eligible.isEmpty_eq_false))

/-- Loading a directory is exact and may be repeated. For each identifier with an eligible file
there is a program afterwards, and its source is what the last of these files contains. Every other
program and every execution is as before, and a file that is eligible for no identifier could as
well be missing. Loading the directory once more changes nothing of a program but its revision and
the time of its update. -/
theorem loading_is_exact (s : Service) (parent : String) (listing : List (String × FileEntry))
    (accepts : s.AcceptsAll parent listing) :
    let once := s.loadDirectory parent listing
    let twice := once.loadDirectory parent listing
    (∀ id, (∃ file ∈ listing, ∃ contents, Eligible file id contents) →
      ∃ contents p, LastFor listing id contents ∧
        once.registry.programs.get? (Resource.program parent id) = some p ∧
        p.source = contents) ∧
    (∀ name, (∀ file ∈ listing, ∀ id contents, Eligible file id contents →
        name ≠ Resource.program parent id) →
      once.registry.programs.get? name = s.registry.programs.get? name) ∧
    (once.registry.executions = s.registry.executions ∧ once.engines = s.engines) ∧
    (∀ front file back, listing = front ++ file :: back →
      (∀ id contents, ¬ Eligible file id contents) →
      once = s.loadDirectory parent (front ++ back)) ∧
    (∀ name, Option.Rel (fun p q => p.unstamped = q.unstamped)
      (once.registry.programs.get? name) (twice.registry.programs.get? name)) ∧
    (twice.registry.executions = once.registry.executions ∧ twice.engines = once.engines) := by
  obtain ⟨keeps, overlaid⟩ := overlaid_load accepts
  obtain ⟨keeps', overlaid'⟩ := overlaid_load (accepts.keeps keeps)
  refine ⟨fun id some => ?_, fun name other => ?_, ⟨keeps.executions, keeps.engines⟩, ?_,
    fun name => (overlaid name).again (overlaid' name), keeps'.executions, keeps'.engines⟩
  · obtain ⟨contents, last⟩ := exists_lastFor some
    obtain ⟨p, loaded, source⟩ := source_of_lastFor last (overlaid (Resource.program parent id))
    exact ⟨contents, p, last, loaded, source⟩
  · refine (overlaid name).eq_of_nil (List.flatMap_eq_nil_iff.2 fun file member => ?_)
    exact textsOf_eq_nil (other file member)
  · rintro front file back rfl passed
    rw [loadDirectory_append, loadDirectory_append]
    exact congrArg (loadDirectory · parent back) (loadFile_of_passed _ parent passed)

/-- A manifest and a bare source for one identifier. The program has the source of the second file,
also when both are loaded once more. -/
theorem loading_is_exact_collision :
    let manifest : Text := "description: d\nsource: skip"
    let listing : List (String × FileEntry) :=
      [("P.yml", .file manifest), ("p.imp", .file "skip")]
    let once := (Service.new .empty 1 ⟨0⟩).loadDirectory "l" listing
    let twice := once.loadDirectory "l" listing
    Eligible ("P.yml", .file manifest) "p" manifest ∧ Eligible ("p.imp", .file "skip") "p" "skip" ∧
      ∃ p q, once.registry.programs.get? (Resource.program "l" "p") = some p ∧
        twice.registry.programs.get? (Resource.program "l" "p") = some q ∧
        p.source = "skip" ∧ p.unstamped = q.unstamped := by
  intro manifest listing once twice
  have valid : Resource.checkProgramId "p" = .ok () :=
    Resource.checkProgramId_ofString (by decide) (by decide)
  have parsed : Command.parse "skip" = .ok .skip :=
    Command.parse_of_readFrom (by decide) (Command.readFrom_format (c := .skip) trivial)
  have first : Eligible ("P.yml", .file manifest) "p" manifest := by
    have parts : Path.parts "P.yml" = ["P.yml"] := by
      rw [Path.parts, String.splitOn, if_neg (by decide)]
      iterate 5 rw [String.splitOnAux, if_neg (by decide +kernel), if_neg (by decide +kernel)]
      rw [String.splitOnAux, if_pos (by decide +kernel)]
      decide +kernel
    have isProgramFile : Manifest.isProgramFile "P.yml" = true := by
      rw [Manifest.isProgramFile, Path.extension, parts]
      decide +kernel
    have isSourceFile : Manifest.isSourceFile "P.yml" = false := by
      rw [Manifest.isSourceFile, Path.extension, parts]
      decide +kernel
    have fields : (Manifest.documentFields manifest).map Manifest.Fields.source = some "skip" := by
      decide +kernel
    obtain ⟨f, document, source⟩ := Option.map_eq_some_iff.1 fields
    have read := Manifest.ofYaml_of_documentFields (by decide) document
    rw [Manifest.ofFields, source, if_neg (by decide), parsed] at read
    exact eligible_of_spelled isProgramFile (by decide +kernel) valid (.inr ⟨isSourceFile, _, read⟩)
  have second : Eligible ("p.imp", .file "skip") "p" "skip" := by
    have parts : Path.parts "p.imp" = ["p.imp"] := by
      rw [Path.parts, String.splitOn, if_neg (by decide)]
      iterate 5 rw [String.splitOnAux, if_neg (by decide +kernel), if_neg (by decide +kernel)]
      rw [String.splitOnAux, if_pos (by decide +kernel)]
      decide +kernel
    have isProgramFile : Manifest.isProgramFile "p.imp" = true := by
      rw [Manifest.isProgramFile, Path.extension, parts]
      decide +kernel
    have isSourceFile : Manifest.isSourceFile "p.imp" = true := by
      rw [Manifest.isSourceFile, Path.extension, parts]
      decide +kernel
    exact eligible_of_spelled isProgramFile (by decide +kernel) valid
      (.inl ⟨isSourceFile, _, parsed⟩)
  have accepts : (Service.new .empty 1 ⟨0⟩).AcceptsAll "l" listing := by
    intro _ _ _ _ _ db had
    cases had
  obtain ⟨sources, -, -, -, again, -⟩ := loading_is_exact (.new .empty 1 ⟨0⟩) "l" listing accepts
  obtain ⟨contents, p, ⟨front, file, back, split, eligible, none⟩, loaded, source⟩ :=
    sources "p" ⟨_, List.mem_cons_self, _, first⟩
  have isSecond : contents = "skip" := by
    change [_, _] = front ++ file :: back at split
    rcases front with _ | ⟨_, _ | ⟨_, front⟩⟩
    · cases split
      exact (none _ List.mem_cons_self _ second).elim
    · cases split
      exact (FileEntry.file.inj eligible.isFile).symm
    · cases front <;> cases split
  have same := again (Resource.program "l" "p")
  rw [loaded] at same
  cases found : twice.registry.programs.get? (Resource.program "l" "p") with
  | none =>
    rw [found] at same
    cases same
  | some q =>
    rw [found] at same
    cases same with
    | some same => exact ⟨first, second, p, q, loaded, rfl, source.trans isSecond, same⟩

end Service

end ImpHost
