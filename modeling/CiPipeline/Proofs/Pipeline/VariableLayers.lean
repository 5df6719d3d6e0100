import CiPipeline.Proofs.Document.Entries
import CiPipeline.Proofs.Expansion
import CiPipeline.Proofs.Pipeline.JobBuilding

/-!
# Layers of variables

The variables of a job come in layers, each over the one before: the predefined
ones, those of the pipeline, its own and those that were asked for.  The topmost
layer with a name gives its value, and the layer that has it first gives its
place.  A job's own variables see the two layers below them and nothing else.
-/

namespace CiPipeline

open CiPipeline.Sequencing

/-! ## One layer over another -/

namespace Variables

/-- What pairs give a name.  Of equal names the last counts. -/
def latest? {Value : Type} (pairs : List (String × Value)) (name : String) :
    Option Value :=
  pairs.reverse.lookup name

private theorem latest?_cons {Value : Type} (name : String) (value : Value)
    (rest : List (String × Value)) (key : String) :
    latest? ((name, value) :: rest) key =
      (latest? rest key).or (if key = name then some value else none) := by
  unfold latest?
  rw [List.reverse_cons, List.lookup_append]
  by_cases same : key = name
  · simp [same]
  · have absent : (key == name) = false := by simpa using same
    simp [List.lookup_cons, absent, same]

private theorem latest?_map {Value Result : Type} (change : Value → Result)
    (pairs : List (String × Value)) (key : String) :
    latest? (pairs.map fun (name, value) => (name, change value)) key =
      (latest? pairs key).map change := by
  induction pairs with
  | nil => rfl
  | cons pair rest induction =>
      obtain ⟨name, value⟩ := pair
      rw [List.map_cons, latest?_cons, latest?_cons, induction, Option.map_or]
      split <;> rfl

private theorem lookup_put (bindings : Variables) (name value key : String) :
    (bindings.put name value).lookup key =
      (if key = name then some value else none).or (bindings.lookup key) := by
  split
  · rename_i same
    subst same
    exact lookup_put_self bindings key value
  · rename_i different
    exact lookup_put_of_ne bindings value different

private theorem lookup_layer (earlier later : Variables) (key : String) :
    (layer earlier later).lookup key =
      (latest? later key).or (earlier.lookup key) := by
  induction later generalizing earlier with
  | nil => rfl
  | cons pair rest induction =>
      obtain ⟨name, value⟩ := pair
      have step : layer earlier ((name, value) :: rest) =
        layer (earlier.put name value) rest := rfl
      rw [step, induction, lookup_put, latest?_cons, Option.or_assoc]

private theorem names_put_of_mem {bindings : Variables} {name : String}
    (known : name ∈ bindings.names) (value : String) :
    (bindings.put name value).names = bindings.names := by
  induction bindings with
  | nil => simp [names] at known
  | cons pair rest induction =>
      obtain ⟨other, old⟩ := pair
      by_cases same : other = name
      · simp [put, names, same]
      · have inRest : name ∈ names rest := by
          simpa [names, Ne.symm same] using known
        simpa [put, names, same] using induction inRest

private theorem names_put_of_notMem {bindings : Variables} {name : String}
    (new : name ∉ bindings.names) (value : String) :
    (bindings.put name value).names = bindings.names ++ [name] := by
  induction bindings with
  | nil => rfl
  | cons pair rest induction =>
      obtain ⟨other, old⟩ := pair
      obtain ⟨different, notInRest⟩ := not_or.mp (List.mem_cons.not.mp new)
      simpa [put, names, Ne.symm different] using induction notInRest

/-- Where names stand in the order in which some list introduced them, those of
a later layer are introduced behind them.  The induction is on the later layer,
whose names join that list. -/
theorem names_layer {earlier : Variables} {introduced : List String}
    (order : earlier.names = introduced.eraseDups) (later : Variables) :
    (layer earlier later).names = (introduced ++ later.names).eraseDups := by
  induction later generalizing earlier introduced with
  | nil => simpa [layer, names] using order
  | cons pair rest induction =>
      obtain ⟨name, value⟩ := pair
      have next : (earlier.put name value).names =
          (introduced ++ [name]).eraseDups := by
        rw [List.eraseDups_append]
        by_cases known : name ∈ introduced
        · have present : name ∈ earlier.names := by
            rw [order]
            exact List.mem_eraseDups.mpr known
          rw [names_put_of_mem present, order]
          simp [List.removeAll, known]
        · have new : name ∉ earlier.names := by
            rw [order]
            exact fun member => known (List.mem_eraseDups.mp member)
          rw [names_put_of_notMem new, order]
          simp [List.removeAll, known, List.eraseDups_cons]
      have step : layer earlier ((name, value) :: rest) =
        layer (earlier.put name value) rest := rfl
      rw [step, induction next]
      simp [names]

end Variables

private theorem eraseDups_of_nodup {names : List String}
    (distinct : names.Nodup) :
    names.eraseDups = names := by
  induction names with
  | nil => rfl
  | cons name rest induction =>
      obtain ⟨new, others⟩ := List.nodup_cons.mp distinct
      have unchanged : rest.filter (fun other => !other == name) = rest := by
        apply List.filter_eq_self.mpr
        intro other member
        have different : other ≠ name := fun same => new (same ▸ member)
        simpa using different
      rw [List.eraseDups_cons, unchanged, induction others]

private theorem nodup_eraseDups (names : List String) :
    names.eraseDups.Nodup := by
  match names with
  | [] => exact .nil
  | name :: rest =>
      rw [List.eraseDups_cons, List.nodup_cons]
      refine ⟨?_, nodup_eraseDups (rest.filter fun other => !other == name)⟩
      rw [List.mem_eraseDups]
      simp
  termination_by names.length
  decreasing_by
    have shorter := List.length_filter_le (fun other => !other == name) rest
    simp only [List.length_cons]
    omega

/-! ## The layers of a job -/

namespace Job

open CiPipeline.Variables

variable {environment : JobEnvironment} {trail : Trail} {name : String}
  {definition : Node} {job : Job}

/-- The entries under `variables` of a definition or of a document. -/
def variableTable (node : Node) : Entries :=
  match node.get? "variables" with
  | some (.mapping entries) => entries
  | _ => []

/-- Entries with a text that can be read. -/
def readable (read : Node → Option String) (entries : Entries) : Entries :=
  entries.filter fun entry => (read entry.2).isSome

/-- The variables that are read from entries. -/
def readTable (read : Node → Option String) (entries : Entries) : Variables :=
  entries.filterMap fun (name, value) => (read value).map fun text =>
    (name, text)

private theorem exists_read_of_latest? {read : Node → Option String}
    {entries : Entries} {key : String} {value : Node}
    (found : latest? (readable read entries) key = some value) :
    ∃ text, read value = some text := by
  have member := List.mem_reverse.mp (Entries.mem_of_lookup found)
  exact Option.isSome_iff_exists.mp (List.mem_filter.mp member).2

private theorem latest?_readTable (read : Node → Option String)
    (entries : Entries) (key : String) :
    latest? (readTable read entries) key =
      (latest? (readable read entries) key).bind read := by
  induction entries with
  | nil => rfl
  | cons entry rest induction =>
      obtain ⟨name, value⟩ := entry
      cases found : read value with
      | none => simpa [readTable, readable, found] using induction
      | some text =>
          have table : readTable read ((name, value) :: rest) =
              (name, text) :: readTable read rest := by
            simp [readTable, found]
          have entries : readable read ((name, value) :: rest) =
              (name, value) :: readable read rest := by
            simp [readable, found]
          rw [table, entries, latest?_cons, latest?_cons, induction]
          cases later : latest? (readable read rest) key with
          | none => split <;> simp [found]
          | some other =>
              obtain ⟨text, isText⟩ := exists_read_of_latest? later
              simp [isText]

private theorem names_readTable (read : Node → Option String)
    (entries : Entries) :
    (readTable read entries).names = (readable read entries).keys := by
  induction entries with
  | nil => rfl
  | cons entry rest induction =>
      obtain ⟨name, value⟩ := entry
      simp only [readTable, readable, names, Entries.keys] at induction ⊢
      cases found : read value <;> simp [found, induction]

private theorem globalVariables_eq (document : Node) :
    globalVariables document =
      readTable globalValue? (variableTable document) := by
  unfold globalVariables variableTable
  split <;> simp_all [readTable]

/-- A job's own variables are read when all of them are scalars. -/
theorem ownVariables_eq_ok {own : Variables}
    (success : ownVariables trail definition = .ok own) :
    own = readTable Node.scalar? (variableTable definition) ∧
      readable Node.scalar? (variableTable definition) =
        variableTable definition := by
  unfold ownVariables at success
  unfold variableTable
  split at success
  · rename_i missing
    rw [missing]
    cases success
    exact ⟨rfl, rfl⟩
  · rename_i entries table
    rw [table]
    dsimp only
    have related := mapM_eq_ok_iff.mp success
    clear success table
    induction related with
    | nil => exact ⟨rfl, rfl⟩
    | @cons entry pair rest others step _ induction =>
        obtain ⟨name, value⟩ := entry
        obtain ⟨text, required, equal⟩ := bind_eq_ok_iff.mp step
        have scalar := Trail.require_eq_ok_iff.mp required
        cases equal
        obtain ⟨read, all⟩ := induction
        constructor
        · simp [readTable, scalar, read]
        · simpa [readable, scalar] using List.filter_eq_self.mp all
  · cases success

private theorem predefined_distinct (environment : JobEnvironment)
    (name stage : String) :
    (predefined environment name stage).names.Nodup := by
  apply ((List.mergeSort_perm _ _).map Prod.fst).nodup_iff.mpr
  simp only [Repository.bindings, List.map_append, List.map_cons, List.map_nil]
  decide

private theorem predefined_sorted (environment : JobEnvironment)
    (name stage : String) :
    (predefined environment name stage).names.Pairwise (· < ·) := by
  have sorted : (predefined environment name stage).Pairwise fun left right =>
      decide (left.1 ≤ right.1) = true := by
    apply List.pairwise_mergeSort
    · intro left middle right first second
      exact decide_eq_true
        (String.le_trans (of_decide_eq_true first) (of_decide_eq_true second))
    · intro left right
      simpa using String.le_total left.1 right.1
  have below : (predefined environment name stage).names.Pairwise (· ≤ ·) := by
    rw [names, List.pairwise_map]
    exact sorted.imp of_decide_eq_true
  apply (below.and (predefined_distinct environment name stage)).imp
  intro left right both
  by_contra notBelow
  exact both.2 (String.le_antisymm both.1 notBelow)

/-- What the variables of a job are: `common` are the layers below its own. -/
structure Layered (environment : JobEnvironment) (name : String)
    (definition : Node) (job : Job) (common : Variables) : Prop where
  /-- The variables of the pipeline come over the predefined ones. -/
  below : ∀ key, common.lookup key =
    ((latest? (readable globalValue? (variableTable environment.document))
      key).bind globalValue?).or
      ((predefined environment name job.stage).lookup key)
  /-- Overrides come first, then the job's own variables, expanded over the
  layers below. -/
  value : ∀ key, job.bindings.lookup key =
    (latest? environment.overrides key).or
      ((((latest? (variableTable definition) key).bind Node.scalar?).map
        (Expansion.expandText common)).or (common.lookup key))
  distinct : job.bindings.names.Nodup
  order : job.bindings.names =
    ((predefined environment name job.stage).names ++
      (readable globalValue? (variableTable environment.document)).keys ++
      (variableTable definition).keys ++ environment.overrides.names).eraseDups
  alphabetical : (predefined environment name job.stage).names.Pairwise (· < ·)

/-- The variables below a job's own. -/
def commonVariables (environment : JobEnvironment) (name stage : String) :
    Variables :=
  layer (predefined environment name stage)
    (globalVariables environment.document)

private theorem lookup_commonVariables (environment : JobEnvironment)
    (name stage key : String) :
    (commonVariables environment name stage).lookup key =
      ((latest? (readable globalValue? (variableTable environment.document))
        key).bind globalValue?).or
        ((predefined environment name stage).lookup key) := by
  rw [commonVariables, lookup_layer, globalVariables_eq, latest?_readTable]

private theorem names_commonVariables (environment : JobEnvironment)
    (name stage : String) :
    (commonVariables environment name stage).names =
      ((predefined environment name stage).names ++
        (readable globalValue?
          (variableTable environment.document)).keys).eraseDups := by
  rw [commonVariables, globalVariables_eq, ← names_readTable]
  exact names_layer
    (eraseDups_of_nodup (predefined_distinct environment name stage)).symm _

private theorem ofDefinition_layered
    (success : ofDefinition environment trail name definition = .ok job) :
    Layered environment name definition job
      (commonVariables environment name job.stage) := by
  obtain ⟨own, read, finished⟩ :=
    bind_eq_ok_iff.mp (ofDefinition_built success).bindings
  obtain ⟨rfl, scalars⟩ := ownVariables_eq_ok read
  have bindings :
      job.bindings = layer (layer (commonVariables environment name job.stage)
        (Expansion.expandValues (commonVariables environment name job.stage)
          (readTable Node.scalar? (variableTable definition))))
        environment.overrides :=
    (Except.ok.inj finished).symm
  have ownNames :
      (Expansion.expandValues (commonVariables environment name job.stage)
      (readTable Node.scalar? (variableTable definition))).names =
        (variableTable definition).keys := by
    rw [← scalars, ← names_readTable, scalars]
    simp [names, Expansion.expandValues, Function.comp_def]
  have order : job.bindings.names =
      ((predefined environment name job.stage).names ++
        (readable globalValue? (variableTable environment.document)).keys ++
        (variableTable definition).keys ++
        environment.overrides.names).eraseDups := by
    rw [bindings, ← ownNames]
    exact names_layer
      (names_layer (names_commonVariables environment name job.stage) _) _
  constructor
  · intro key
    exact lookup_commonVariables environment name job.stage key
  · intro key
    rw [bindings, lookup_layer, lookup_layer, Expansion.expandValues,
      latest?_map, latest?_readTable, scalars]
  · rw [order]
    exact nodup_eraseDups _
  · exact order
  · exact predefined_sorted environment name job.stage

/-- A variable of a job has the value of the topmost layer with its name, and
stands where the first one has it.  So another override, or another variable of
the job's own, changes no variable but the one it names. -/
theorem ofDefinition_layers
    (success : ofDefinition environment trail name definition = .ok job) :
    (∃ common, Layered environment name definition job common) ∧
      ∀ overrides otherTrail other otherJob,
        ofDefinition { environment with overrides } otherTrail name other =
          .ok otherJob →
        otherJob.stage = job.stage →
        ∀ key, latest? overrides key = latest? environment.overrides key →
          latest? (variableTable other) key =
            latest? (variableTable definition) key →
          otherJob.bindings.lookup key = job.bindings.lookup key := by
  have layered := ofDefinition_layered success
  refine ⟨⟨_, layered⟩, ?_⟩
  intro overrides otherTrail other otherJob otherSuccess sameStage key
    sameOverride sameOwn
  have otherLayered := ofDefinition_layered otherSuccess
  have common :
      commonVariables { environment with overrides } name otherJob.stage =
        commonVariables environment name job.stage := by
    rw [sameStage]
    rfl
  rw [otherLayered.value, layered.value, common, sameOverride, sameOwn]

/-- A job whose variables have names of the layers above and below. -/
def greetingJob : Node :=
  .mapping [("script", .sequence [.text "make"]),
    ("variables", .mapping [("GREETING", .text "hello $GITLAB_USER_LOGIN"),
      ("LEVEL", .text "job"), ("PORT", .text "8080")])]

/-- What that job takes from a pipeline with variables of its own, over all of
which `PORT` wins. -/
def greetingEnvironment (port : String) : JobEnvironment where
  document := .mapping [("variables", .mapping [("LEVEL", .text "global"),
    ("GLOBAL_ONLY",
      .mapping [("value", .text "yes"), ("description", .text "doc")])])]
  repository := {}
  pipelineNumber := 7
  overrides := [("PORT", port)]
  version := Version.standard

private theorem expandText_greeting {bindings : Variables}
    (login : bindings.lookup "GITLAB_USER_LOGIN" = some "local") :
    Expansion.expandText bindings "hello $GITLAB_USER_LOGIN" =
      "hello local" := by
  have cut : Expansion.pieces "hello $GITLAB_USER_LOGIN".toList =
      "hello ".toList.map .plain ++
        [.reference false "GITLAB_USER_LOGIN".toList false] := by
    decide +kernel
  have value : Expansion.valueOf bindings "GITLAB_USER_LOGIN".toList =
      "local".toList := by
    rw [Expansion.valueOf, String.ofList_toList, login]
    rfl
  have reference : Expansion.Piece.value bindings
      (.reference false "GITLAB_USER_LOGIN".toList false) =
      "local".toList := value
  rw [Expansion.expandText, Expansion.expand_eq_value, cut, List.flatMap_append,
    List.flatMap_singleton, reference]
  rfl

private theorem expandText_level (bindings : Variables) :
    Expansion.expandText bindings "job" = "job" := by
  have cut : Expansion.pieces "job".toList = "job".toList.map .plain := by
    decide +kernel
  rw [Expansion.expandText, Expansion.expand_eq_value, cut]
  rfl

theorem ofDefinition_layers_greeting :
    ∃ job otherJob,
      ofDefinition (greetingEnvironment "9090") Trail.root "job" greetingJob =
        .ok job ∧
      ofDefinition (greetingEnvironment "80") Trail.root "job" greetingJob =
        .ok otherJob ∧
      job.bindings.lookup "GREETING" = some "hello local" ∧
      job.bindings.lookup "LEVEL" = some "job" ∧
      job.bindings.lookup "GLOBAL_ONLY" = some "yes" ∧
      job.bindings.lookup "PORT" = some "9090" ∧
      otherJob.bindings.lookup "GREETING" = job.bindings.lookup "GREETING" := by
  obtain ⟨job, success, stage⟩ : ∃ job,
      ofDefinition (greetingEnvironment "9090") Trail.root "job" greetingJob =
        .ok job ∧
        job.stage = "test" := ⟨_, rfl, rfl⟩
  obtain ⟨otherJob, otherSuccess, otherStage⟩ : ∃ job,
      ofDefinition (greetingEnvironment "80") Trail.root "job" greetingJob =
        .ok job ∧
        job.stage = "test" := ⟨_, rfl, rfl⟩
  obtain ⟨⟨common, layered⟩, isolated⟩ := ofDefinition_layers success
  have login : common.lookup "GITLAB_USER_LOGIN" = some "local" := by
    have known :
        ("GITLAB_USER_LOGIN", "local") ∈ Repository.bindings {} := by decide
    have predefinedLogin := lookup_of_mem_of_nodup
      (predefined_distinct (greetingEnvironment "9090") "job" job.stage)
      (List.mem_mergeSort.mpr (List.mem_append_left _ known))
    rw [layered.below, predefinedLogin]
    rfl
  have greeting :
      (latest? (variableTable greetingJob) "GREETING").bind Node.scalar? =
        some "hello $GITLAB_USER_LOGIN" := rfl
  have level : (latest? (variableTable greetingJob) "LEVEL").bind Node.scalar? =
    some "job" := rfl
  refine ⟨job, otherJob, success, otherSuccess, ?_, ?_, ?_, ?_, ?_⟩
  · rw [layered.value, greeting, Option.map_some, expandText_greeting login]
    rfl
  · rw [layered.value, level, Option.map_some, expandText_level]
    rfl
  · rw [layered.value, layered.below]
    rfl
  · rw [layered.value]
    rfl
  · exact isolated [("PORT", "80")] Trail.root greetingJob otherJob otherSuccess
      (otherStage.trans stage.symm) "GREETING" rfl rfl

end Job

end CiPipeline
