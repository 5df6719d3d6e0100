import CiPipeline.Pipeline
import CiPipeline.Proofs.Sequencing

/-!
# How jobs are built

A job that is built holds what was read from the single fields of
its definition.
-/

namespace CiPipeline

open CiPipeline.Sequencing

/-! ## Containers -/

namespace Node

private theorem eq_text_of_plain {node : Node} {text : String}
    (shown : node.plain = .text text) :
    node = .text text := by
  cases node with
  | text value => simpa [plain] using shown
  | number value =>
      simp only [plain] at shown
      split at shown <;> cases shown
  | _ => simp [plain] at shown

private theorem lookup_plainEntries (entries : Entries) (key : String) :
    (plainEntries entries).lookup key = (entries.lookup key).map plain := by
  induction entries with
  | nil => rfl
  | cons entry rest step =>
      obtain ⟨name, value⟩ := entry
      rw [plainEntries, List.lookup_cons, List.lookup_cons, step]
      cases key == name <;> rfl

theorem readText_eq_ok_iff {node : Node} {text : String} :
    node.readText = .ok text ↔ node = .text text := by
  constructor
  · intro success
    unfold readText at success
    split at success
    · cases success
      rfl
    · cases success
  · rintro rfl
    rfl

end Node

namespace Container

private theorem readField_name {draft next : Draft} {field : String}
    {value : Node} (success : readField draft field value = .ok next) :
    next.name = draft.name ∨ field = "name" ∧ ∃ text, value = .text text := by
  unfold readField at success
  split at success
  · obtain ⟨text, isText, _⟩ := bind_eq_ok_iff.mp success
    exact .inr ⟨rfl, text, Node.readText_eq_ok_iff.mp isText⟩
  · obtain ⟨_, _, equal⟩ := bind_eq_ok_iff.mp success
    cases equal
    exact .inl rfl
  · obtain ⟨_, _, equal⟩ := bind_eq_ok_iff.mp success
    cases equal
    exact .inl rfl
  · obtain ⟨_, _, equal⟩ := bind_eq_ok_iff.mp success
    cases equal
    exact .inl rfl
  · cases success
    exact .inl rfl

/-- A name that is there in the end was read from a text among the fields. -/
theorem readFields_name {fields : List (String × Node)} {draft final : Draft}
    (success : fields.foldlM
      (fun draft (field, value) => readField draft field value) draft =
      .ok final)
    (named : final.name.isSome = true) :
    draft.name.isSome = true ∨ ∃ text, ("name", .text text) ∈ fields := by
  induction fields generalizing draft with
  | nil =>
      cases success
      exact .inl named
  | cons entry rest step =>
      obtain ⟨field, value⟩ := entry
      rw [List.foldlM_cons] at success
      obtain ⟨next, first, others⟩ := bind_eq_ok_iff.mp success
      rcases step others with early | ⟨text, inRest⟩
      · rcases readField_name first with kept | ⟨rfl, text, rfl⟩
        · exact .inl (kept ▸ early)
        · exact .inr ⟨text, by simp⟩
      · exact .inr ⟨text, by simp [inRest]⟩

/-- A container that can be read from a mapping has a text for a name. -/
theorem readDraft_name {kind : String} {fields : List String}
    {entries : Entries} {draft : Draft}
    (success : readDraft kind fields (.mapping entries) = .ok draft) :
    ∃ name, entries.lookup "name" = some (.text name) := by
  unfold readDraft at success
  dsimp only at success
  obtain ⟨read, folded, checked⟩ := bind_eq_ok_iff.mp success
  have named : read.name.isSome = true := by
    cases found : read.name with
    | some name => rfl
    | none => simp [found] at checked
  rcases readFields_name folded named with start | ⟨text, member⟩
  · cases start
  · rw [List.mem_mergeSort, List.mem_filterMap] at member
    obtain ⟨field, _, picked⟩ := member
    obtain ⟨value, found, equal⟩ := Option.map_eq_some_iff.mp picked
    cases equal
    exact ⟨text, found⟩

end Container

theorem Image.ofNode_name {entries : Entries} {image : Image}
    (success : Image.ofNode (Node.mapping entries).plain = .ok image) :
    ∃ name, entries.lookup "name" = some (.text name) := by
  obtain ⟨draft, read, _⟩ := bind_eq_ok_iff.mp success
  obtain ⟨name, found⟩ := Container.readDraft_name read
  rw [Node.lookup_plainEntries] at found
  obtain ⟨value, written, shown⟩ := Option.map_eq_some_iff.mp found
  exact ⟨name, by rw [written, Node.eq_text_of_plain shown]⟩

/-! ## Jobs and pipelines -/

namespace Job

variable {environment : JobEnvironment} {trail : Trail} {name field : String}
  {definition : Node}

/-- What a job holds that is built from a definition. -/
structure Built (environment : JobEnvironment) (trail : Trail) (name : String)
    (definition : Node) (job : Job) : Prop where
  named : job.name = name
  stage : job.stage = ((definition.get? "stage").bind Node.scalar?).getD "test"
  bindings : allVariables environment trail name job.stage definition =
    .ok job.bindings
  rules : readRules trail definition = .ok job.rules
  image : readField trail definition "image" Image.ofNode = .ok job.image
  services : ∃ services,
    readField trail definition "services" Service.ofNodes = .ok services ∧
    job.services = services.getD []
  beforeScript : lines trail definition "before_script" = .ok job.beforeScript
  script : lines trail definition "script" = .ok job.script
  afterScript : lines trail definition "after_script" = .ok job.afterScript
  needs : readNeeds trail definition = .ok job.needs
  artifacts : job.artifacts = definition.get? "artifacts"
  trigger : job.trigger = (definition.get? "trigger").isSome

theorem ofDefinition_built {job : Job}
    (success : ofDefinition environment trail name definition = .ok job) :
    Built environment trail name definition job := by
  unfold ofDefinition at success
  dsimp only at success
  obtain ⟨bindings, layered, success⟩ := bind_eq_ok_iff.mp success
  obtain ⟨rules, rulesRead, success⟩ := bind_eq_ok_iff.mp success
  obtain ⟨declaredWhen, _, success⟩ := bind_eq_ok_iff.mp success
  obtain ⟨schedule, _, success⟩ := bind_eq_ok_iff.mp success
  obtain ⟨image, imageRead, success⟩ := bind_eq_ok_iff.mp success
  obtain ⟨services, servicesRead, success⟩ := bind_eq_ok_iff.mp success
  obtain ⟨beforeScript, beforeLines, success⟩ := bind_eq_ok_iff.mp success
  obtain ⟨script, ownLines, success⟩ := bind_eq_ok_iff.mp success
  obtain ⟨afterScript, afterLines, success⟩ := bind_eq_ok_iff.mp success
  obtain ⟨needs, needsRead, success⟩ := bind_eq_ok_iff.mp success
  cases success
  exact {
    named := rfl
    stage := rfl
    bindings := layered
    rules := rulesRead
    image := imageRead
    services := ⟨services, servicesRead, rfl⟩
    beforeScript := beforeLines
    script := ownLines
    afterScript := afterLines
    needs := needsRead
    artifacts := rfl
    trigger := rfl }

/-- The lines of a script are read exactly when the field is missing or a list
of scalars. -/
theorem lines_eq_ok_iff {texts : List String} :
    lines trail definition field = .ok texts ↔
      (definition.get? field = none ∧ texts = []) ∨
      ∃ items, definition.get? field = some (.sequence items) ∧
        List.Forall₂ (fun item text => item.scalar? = some text)
          items texts := by
  unfold lines
  dsimp only
  cases found : definition.get? field with
  | none => simp [eq_comm]
  | some value =>
      cases value with
      | sequence items =>
          simp only [mapM_eq_ok_iff, Trail.require_eq_ok_iff]
          simp
      | _ => simp

theorem readField_eq_ok_iff {Value : Type} {read : Node → Except String Value}
    {result : Option Value} :
    readField trail definition field read = .ok result ↔
      (definition.get? field = none ∧ result = none) ∨
      ∃ value parsed,
        definition.get? field = some value ∧ read value.plain = .ok parsed ∧
        result = some parsed := by
  unfold readField
  cases found : definition.get? field with
  | none => simp [eq_comm]
  | some value =>
      cases parsed : read value.plain <;> simp [parsed, eq_comm]

end Job

namespace Pipeline

/-- A job is read exactly when it is built from its definition and belongs to
one of the stages. -/
theorem readJob_eq_ok_iff {environment : JobEnvironment} {stages : List String}
    {trail : Trail} {definition : String × Node} {job : Job} :
    readJob environment stages trail definition = .ok job ↔
      Job.ofDefinition environment (trail.descend definition.1) definition.1
        definition.2 =
        .ok job ∧ job.stage ∈ stages := by
  unfold readJob
  dsimp only
  constructor
  · intro success
    obtain ⟨built, builds, checked⟩ := bind_eq_ok_iff.mp success
    obtain ⟨_, listed, equal⟩ := bind_eq_ok_iff.mp checked
    cases equal
    exact ⟨builds, by simpa using Trail.assert_eq_ok_iff.mp listed⟩
  · rintro ⟨builds, listed⟩
    refine bind_eq_ok_iff.mpr ⟨job, builds, bind_eq_ok_iff.mpr ⟨(), ?_, rfl⟩⟩
    exact Trail.assert_eq_ok_iff.mpr (by simpa using listed)

/-- What the jobs of a document take from the pipeline around them. -/
def environment (options : PipelineOptions) (repository : Repository)
    (document : Node) : JobEnvironment :=
  { document, repository, pipelineNumber := options.pipelineNumber,
    overrides := options.overrides, version := options.version }

/-- The parts of a pipeline that a document resolves into. -/
structure Resolved (options : PipelineOptions) (repository : Repository)
    (document : Node) (normal : Node) (pipeline : Pipeline) : Prop where
  normalizes : normalize Trail.root document = .ok normal
  stages : readStages Trail.root normal = .ok pipeline.stages
  document : pipeline.document = withStages normal pipeline.stages
  jobs : (definitions pipeline.document).mapM
    (readJob (environment options repository pipeline.document) pipeline.stages
      Trail.root) = .ok pipeline.jobs

section

variable {options : PipelineOptions} {repository : Repository} {document : Node}
  {pipeline : Pipeline}

/-- A document resolves into a pipeline exactly when the parts of the pipeline
are resolved from it, the variables of every job are texts or numbers, and the
repository is the given one. -/
theorem ofDocument_eq_ok_iff :
    ofDocument options repository document = .ok pipeline ↔
      ∃ normal, Resolved options repository document normal pipeline ∧
        (∀ definition ∈ definitions pipeline.document,
          checkVariables Trail.root definition = .ok ()) ∧
        pipeline.repository = repository := by
  unfold ofDocument
  dsimp only
  constructor
  · intro success
    obtain ⟨normal, normalizes, success⟩ := bind_eq_ok_iff.mp success
    obtain ⟨stages, listed, success⟩ := bind_eq_ok_iff.mp success
    obtain ⟨_, checked, success⟩ := bind_eq_ok_iff.mp success
    obtain ⟨jobs, built, success⟩ := bind_eq_ok_iff.mp success
    cases success
    exact ⟨normal, ⟨normalizes, listed, rfl, built⟩,
      forM_eq_ok_iff.mp checked, rfl⟩
  · intro parts
    obtain ⟨normal, resolved, checked, rfl⟩ := parts
    have jobs := resolved.jobs
    rw [resolved.document] at checked jobs
    refine bind_eq_ok_iff.mpr ⟨normal, resolved.normalizes, ?_⟩
    refine bind_eq_ok_iff.mpr ⟨pipeline.stages, resolved.stages, ?_⟩
    refine bind_eq_ok_iff.mpr ⟨(), forM_eq_ok_iff.mpr checked, ?_⟩
    refine bind_eq_ok_iff.mpr ⟨pipeline.jobs, jobs, ?_⟩
    rw [pure_eq_ok, ← resolved.document]

theorem ofDocument_resolved
    (success : ofDocument options repository document = .ok pipeline) :
    ∃ normal, Resolved options repository document normal pipeline := by
  obtain ⟨normal, resolved, _⟩ := ofDocument_eq_ok_iff.mp success
  exact ⟨normal, resolved⟩

end

end Pipeline

end CiPipeline
