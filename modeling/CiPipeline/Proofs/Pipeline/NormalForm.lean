import CiPipeline.Proofs.Document.Inheritance
import CiPipeline.Proofs.Document.ReferenceFree
import CiPipeline.Proofs.Pipeline.JobBuilding

/-!
# The normal form of a resolved document

Every pass settles one part of a document, and no later pass touches what is
settled.  What the passes leave open is checked when the jobs are built from
their definitions.
-/

namespace CiPipeline

open CiPipeline.Sequencing

/-- A container as a mapping that has a name, which is a text, and no other
fields than some. -/
def IsContainer (fields : List String) (node : Node) : Prop :=
  ∃ (entries : Entries) (name : String), node = .mapping entries ∧
    entries.lookup "name" = some (.text name) ∧ ∀ key ∈ entries.keys,
      key ∈ fields

/-- A job whose image, services and scripts are missing, null, or in
one form each. -/
structure NormalJob (job : Entries) : Prop where
  image : ∀ value, job.lookup "image" = some value →
    value = .null ∨ IsContainer ["name", "entrypoint"] value
  services : ∀ value, job.lookup "services" = some value →
    value = .null ∨ ∃ items, value = .sequence items ∧
      ∀ item ∈ items,
        IsContainer ["name", "entrypoint", "command", "alias"] item
  scripts : ∀ field ∈ ["before_script", "script", "after_script"],
    ∀ value, job.lookup field = some value →
      value = .null ∨ ∃ lines, value = .sequence lines ∧ ∀ line ∈ lines,
        line.scalar?.isSome

/-! ## Forms of fields -/

namespace JobFields

/-- Fields with the form in which each of them stands, unless it is null. -/
abbrev Forms := List (String × (Node → Prop))

/-- A job whose fields stand in their forms. -/
def InForm (forms : Forms) (job : Entries) : Prop :=
  ∀ form ∈ forms, ∀ value,
    job.lookup form.1 = some value → value = .null ∨ form.2 value

/-- An update that puts a field into a form, or finds it in that form. -/
structure Update.Settles (update : Update) (form : Node → Prop) : Prop where
  puts : ∀ trail current value,
    update trail current = .ok (some value) → form value
  keeps : ∀ trail current value,
    update trail current = .ok none → current = some value →
    value = .null ∨ form value

/-- Writing a field settles it and leaves the forms of the other fields
as they are. -/
theorem InForm.write {forms : Forms} {form : Node → Prop} {field : String}
    {update : Update} {trail : Trail} {job changed : Entries}
    (inForm : InForm forms job) (settles : update.Settles form)
    (others : ∀ settled ∈ forms, settled.1 ≠ field)
    (success : write field update trail job = .ok changed) :
    InForm ((field, form) :: forms) changed := by
  rcases write_eq_ok_iff.mp success with ⟨kept, rfl⟩ | ⟨new, updated, rfl⟩
  · intro settled member value found
    rcases List.mem_cons.mp member with rfl | earlier
    · exact settles.keeps trail _ value kept found
    · exact inForm settled earlier value found
  · intro settled member value found
    rcases List.mem_cons.mp member with rfl | earlier
    · rw [Entries.lookup_put_self] at found
      cases found
      exact .inr (settles.puts trail _ new updated)
    · rw [Entries.lookup_put_of_ne _ _ (others settled earlier)] at found
      exact inForm settled earlier value found

private theorem settles_any (update : Update) : update.Settles fun _ => True :=
  ⟨fun _ _ _ _ => trivial, fun _ _ _ _ _ => .inr trivial⟩

private theorem normalizing_settles (field : String)
    {normal : Trail → Node → Except Failure Node}
    (fallback : Option Node) {form : Node → Prop}
    (normalForm : ∀ trail node result,
      normal trail node = .ok result → form result) :
    (normalizing field normal fallback).Settles form := by
  constructor
  · intro trail current value success
    unfold normalizing at success
    split at success
    · cases success
    · obtain ⟨result, normalized, equal⟩ := bind_eq_ok_iff.mp success
      cases equal
      exact normalForm _ _ _ normalized
  · intro trail current value success found
    subst found
    unfold normalizing at success
    split at success
    · rename_i nothing
      have absent := (Option.or_eq_none_iff.mp nothing).1
      cases value with
      | null => exact .inl rfl
      | _ => cases absent
    · obtain ⟨_, _, equal⟩ := bind_eq_ok_iff.mp success
      cases equal

private theorem pick_keys (fields : Entries) (keys : List String) :
    ∀ key ∈ Entries.keys (pick fields keys), key ∈ keys := by
  intro key member
  obtain ⟨entry, picked, rfl⟩ := List.mem_map.mp member
  obtain ⟨chosen, listed, equal⟩ := List.mem_filterMap.mp picked
  obtain ⟨value, _, rfl⟩ := Option.map_eq_some_iff.mp equal
  exact listed

/-- The form in which images are left: a mapping of a name and an entrypoint. -/
def ImageForm (node : Node) : Prop :=
  ∃ entries : Entries, node = .mapping entries ∧ ∀ key ∈ entries.keys,
    key ∈ ["name", "entrypoint"]

private theorem normalizeImage_form (trail : Trail) (node result : Node)
    (success : normalizeImage trail node = .ok result) : ImageForm result := by
  cases node with
  | text name =>
      cases success
      exact ⟨_, rfl, by simp [Entries.keys]⟩
  | mapping fields =>
      cases success
      exact ⟨_, rfl, pick_keys fields _⟩
  | _ => cases success

private theorem normalizeService_container {trail : Trail} {node result : Node}
    (success : normalizeService trail node = .ok result) :
    IsContainer ["name", "entrypoint", "command", "alias"] result := by
  cases node with
  | text name =>
      cases success
      exact ⟨_, name, rfl, rfl, by simp [Entries.keys]⟩
  | mapping fields =>
      simp only [normalizeService] at success
      split at success
      · rename_i name found
        cases success
        refine ⟨_, name, rfl, ?_, pick_keys fields _⟩
        simp [pick, Entries.value?, found]
      · cases success
  | _ => cases success

/-- The form in which services are left: a list of containers. -/
def ServicesForm (node : Node) : Prop :=
  ∃ items, node = .sequence items ∧
    ∀ item ∈ items, IsContainer ["name", "entrypoint", "command", "alias"] item

private theorem normalizeServices_form (trail : Trail) (node result : Node)
    (success : normalizeServices trail node = .ok result) :
    ServicesForm result := by
  cases node with
  | sequence items =>
      obtain ⟨services, normalized, equal⟩ := bind_eq_ok_iff.mp success
      cases equal
      refine ⟨services, rfl, forall_of_mapM normalized ?_⟩
      rintro ⟨entry, index⟩ _ service step
      exact normalizeService_container step
  | _ => cases success

end JobFields

/-! ## What the passes settle -/

/-- An entry without parents, the entries that configure the pipeline apart; a
job is a mapping whose fields stand in their forms. -/
structure Settled (forms : JobFields.Forms) (name : String)
    (definition : Node) : Prop where
  parents : JobName.isReserved name = false →
    ∀ fields : Entries, definition = .mapping fields → "extends" ∉ fields.keys
  job : JobName.isReal name = true →
    ∀ fields : Entries, definition = .mapping fields →
      JobFields.InForm forms fields

/-- Entries all of which are settled. -/
def AllSettled (forms : JobFields.Forms) (entries : Entries) : Prop :=
  ∀ name definition,
    (name, definition) ∈ entries → Settled forms name definition

namespace Inheritance

private theorem resolve_settled {trail : Trail} {entries : Entries}
    {result : Node} (success : resolve trail (.mapping entries) = .ok result) :
    ∃ after : Entries,
      result = .mapping after ∧ after.keys = entries.keys ∧
        AllSettled [] after := by
  obtain ⟨after, rfl, inherited⟩ := resolve_inherited success
  refine ⟨after, rfl, inherited.keys, ?_⟩
  intro name definition member
  obtain ⟨before, _, becomes⟩ := inherited.mem_right member
  refine ⟨?_, by simp [JobFields.InForm]⟩
  intro listed fields equal
  have forgotten : ∃ node : Node, definition = node.without "extends" := by
    cases real : JobName.isReal name with
    | false => exact ⟨before, becomes.template listed real⟩
    | true =>
        obtain ⟨lineage, _, merged⟩ := becomes.job real
        exact ⟨_, merged⟩
  obtain ⟨node, rfl⟩ := forgotten
  cases node with
  | mapping inner =>
      cases equal
      exact Entries.notMem_keys_without inner "extends"
  | _ => cases equal

end Inheritance

namespace JobFields

variable {trail : Trail} {forms : Forms} {entries : Entries}

/-- A field pass settles its field in every job. -/
theorem mapJobs_write_settled {field : String} {update : Update}
    {form : Node → Prop} (settles : update.Settles form)
    (others : ∀ settled ∈ forms, settled.1 ≠ field)
    (notParents : field ≠ "extends")
    {result : Node} (settled : AllSettled forms entries)
    (success : mapJobs trail (write field update) (.mapping entries) =
      .ok result) :
    ∃ after : Entries, result = .mapping after ∧ after.keys = entries.keys ∧
      AllSettled ((field, form) :: forms) after := by
  obtain ⟨after, rfl, related⟩ := mapJobs_eq_ok_iff.mp success
  refine ⟨after, rfl, related.keys, ?_⟩
  intro name definition member
  obtain ⟨original, listed, becomes⟩ := related.mem_right member
  have before := settled name original listed
  cases becomes with
  | @job fields changed real step =>
      refine ⟨?_, ?_⟩
      · rintro notReserved _ ⟨rfl⟩
        have absent := before.parents notReserved fields rfl
        rcases write_eq_ok_iff.mp step with ⟨_, rfl⟩ | ⟨value, _, rfl⟩
        · exact absent
        · simpa [Entries.mem_keys_put, Ne.symm notParents] using absent
      · rintro _ _ ⟨rfl⟩
        exact (before.job real fields rfl).write settles others step
  | other hidden => exact ⟨before.parents, by simp [hidden]⟩

private theorem joinScripts_settled {field : String}
    (others : ∀ settled ∈ forms, settled.1 ≠ field)
    (notParents : field ≠ "extends")
    {result : Node} (settled : AllSettled forms entries)
    (success : joinScripts field trail (.mapping entries) = .ok result) :
    ∃ after : Entries, result = .mapping after ∧ after.keys = entries.keys ∧
      AllSettled ((field, fun _ => True) :: forms) after := by
  rw [joinScripts_eq_write] at success
  exact mapJobs_write_settled (settles_any _) others notParents settled success

/-- The last pass leaves a document in which every job is a mapping that has
something to run. -/
theorem mapJobs_requireScript {result : Node}
    (success : mapJobs trail requireScript (.mapping entries) = .ok result) :
    result = .mapping entries ∧ ∀ name definition,
      (name, definition) ∈ entries →
      JobName.isReal name = true → ∃ job,
        definition = .mapping job ∧ isRunnable job = true := by
  obtain ⟨after, rfl, related⟩ := mapJobs_eq_ok_iff.mp success
  clear success
  induction related with
  | nil => simp
  | @cons entry changed rest others head _ step =>
      obtain ⟨name, definition⟩ := entry
      obtain ⟨changedName, changedDefinition⟩ := changed
      obtain ⟨rfl, becomes⟩ := head
      obtain ⟨equal, runnable⟩ := step
      cases equal
      cases becomes with
      | job real required =>
          obtain ⟨runs, rfl⟩ := requireScript_eq_ok_iff.mp required
          refine ⟨rfl, ?_⟩
          intro name definition member isReal
          rcases List.mem_cons.mp member with equal | inRest
          · cases equal
            exact ⟨_, rfl, runs⟩
          · exact runnable name definition inRest isReal
      | other hidden =>
          refine ⟨rfl, ?_⟩
          intro name definition member isReal
          rcases List.mem_cons.mp member with equal | inRest
          · cases equal
            simp [hidden] at isReal
          · exact runnable name definition inRest isReal

end JobFields

/-- The fields whose forms the passes settle. -/
def settledForms : JobFields.Forms :=
  [("script", fun _ => True), ("after_script", fun _ => True),
    ("before_script", fun _ => True),
    ("services", JobFields.ServicesForm), ("image", JobFields.ImageForm),
    ("artifacts", fun _ => True)]

theorem References.resolve_keys {trail : Trail} {entries : Entries}
    {result : Node}
    (success : References.resolve trail (.mapping entries) = .ok result) :
    ∃ after : Entries, result = .mapping after ∧ after.keys = entries.keys := by
  obtain ⟨after, steps, equal⟩ := bind_eq_ok_iff.mp success
  cases equal
  exact ⟨after, rfl, References.resolveEntries_keys steps⟩

/-- What the passes leave: the keys of the document, settled entries, and jobs
that are mappings with something to run. -/
theorem normalize_settled {trail : Trail} {entries : Entries} {result : Node}
    (success : normalize trail (.mapping entries) = .ok result) :
    ∃ normal : Entries, result = .mapping normal ∧ normal.keys = entries.keys ∧
      AllSettled settledForms normal ∧
      ∀ name definition,
        (name, definition) ∈ normal → JobName.isReal name = true →
        ∃ job, definition = .mapping job ∧ JobFields.isRunnable job = true := by
  simp only [normalize, Pass.all, List.foldlM_cons, List.foldlM_nil,
    Pass.run] at success
  obtain ⟨_, resolved, success⟩ := bind_eq_ok_iff.mp success
  obtain ⟨first, rfl, firstKeys⟩ := References.resolve_keys resolved
  obtain ⟨_, inherited, success⟩ := bind_eq_ok_iff.mp success
  obtain ⟨second, rfl, secondKeys, secondSettled⟩ :=
    Inheritance.resolve_settled inherited
  obtain ⟨_, withArtifacts, success⟩ := bind_eq_ok_iff.mp success
  rw [JobFields.artifacts_eq_write] at withArtifacts
  obtain ⟨third, rfl, thirdKeys, thirdSettled⟩ :=
    JobFields.mapJobs_write_settled
    (JobFields.settles_any _) (by simp) (by decide) secondSettled withArtifacts
  obtain ⟨_, withImage, success⟩ := bind_eq_ok_iff.mp success
  rw [JobFields.image_eq_write] at withImage
  obtain ⟨fourth, rfl, fourthKeys, fourthSettled⟩ :=
    JobFields.mapJobs_write_settled
      (JobFields.normalizing_settles _ _ JobFields.normalizeImage_form)
      (by simp) (by decide) thirdSettled withImage
  obtain ⟨_, withServices, success⟩ := bind_eq_ok_iff.mp success
  rw [JobFields.services_eq_write] at withServices
  obtain ⟨fifth, rfl, fifthKeys, fifthSettled⟩ :=
    JobFields.mapJobs_write_settled
      (JobFields.normalizing_settles _ _ JobFields.normalizeServices_form)
      (by simp) (by decide) fourthSettled withServices
  obtain ⟨_, withBefore, success⟩ := bind_eq_ok_iff.mp success
  obtain ⟨sixth, rfl, sixthKeys, sixthSettled⟩ :=
    JobFields.joinScripts_settled (by simp) (by decide) fifthSettled withBefore
  obtain ⟨_, withAfter, success⟩ := bind_eq_ok_iff.mp success
  obtain ⟨seventh, rfl, seventhKeys, seventhSettled⟩ :=
    JobFields.joinScripts_settled (by simp) (by decide) sixthSettled withAfter
  obtain ⟨_, withScripts, equal⟩ := bind_eq_ok_iff.mp success
  cases equal
  obtain ⟨_, joined, required⟩ := bind_eq_ok_iff.mp withScripts
  obtain ⟨eighth, rfl, eighthKeys, eighthSettled⟩ :=
    JobFields.joinScripts_settled (by simp) (by decide) seventhSettled joined
  obtain ⟨rfl, runnable⟩ := JobFields.mapJobs_requireScript required
  refine ⟨eighth, rfl, ?_, eighthSettled, runnable⟩
  rw [eighthKeys, seventhKeys, sixthKeys, fifthKeys, fourthKeys, thirdKeys,
    secondKeys, firstKeys]

/-! ## What building the jobs checks -/

namespace Job

variable {environment : JobEnvironment} {trail : Trail} {name : String}
  {fields : Entries} {job : Job}

/-- The forms that the passes leave open are closed by reading the job. -/
theorem Built.normalJob
    (built : Built environment trail name (.mapping fields) job)
    (inForm : JobFields.InForm settledForms fields) : NormalJob fields := by
  refine ⟨?_, ?_, ?_⟩
  · intro value found
    by_cases null : value = .null
    · exact .inl null
    · have present := Entries.value?_of_lookup found null
      rcases inForm ("image", JobFields.ImageForm) (by simp [settledForms])
          value found with
        absent | ⟨entries, rfl, keys⟩
      · exact .inl absent
      · rcases readField_eq_ok_iff.mp built.image with
          ⟨missing, _⟩ | ⟨node, image, get, read, _⟩
        · cases missing.symm.trans present
        · cases get.symm.trans present
          obtain ⟨imageName, named⟩ := Image.ofNode_name read
          exact .inr ⟨entries, imageName, rfl, named, keys⟩
  · intro value found
    exact inForm ("services", JobFields.ServicesForm)
      (by simp [settledForms]) value found
  · intro field listed value found
    by_cases null : value = .null
    · exact .inl null
    · have present := Entries.value?_of_lookup found null
      have read : ∃ texts, lines trail (.mapping fields) field = .ok texts := by
        simp only [List.mem_cons, List.not_mem_nil, or_false] at listed
        rcases listed with rfl | rfl | rfl
        · exact ⟨_, built.beforeScript⟩
        · exact ⟨_, built.script⟩
        · exact ⟨_, built.afterScript⟩
      obtain ⟨texts, success⟩ := read
      rcases lines_eq_ok_iff.mp success with
        ⟨missing, _⟩ | ⟨items, get, scalars⟩
      · cases missing.symm.trans present
      · cases get.symm.trans present
        refine .inr ⟨items, rfl, ?_⟩
        intro line member
        obtain ⟨index, bound, rfl⟩ := List.mem_iff_getElem.mp member
        have scalar := scalars.get bound (scalars.length_eq ▸ bound)
        simp only [List.get_eq_getElem] at scalar
        simp [scalar]

/-- A definition with something to run is built into a job with lines
or a trigger. -/
theorem Built.runs (built : Built environment trail name (.mapping fields) job)
    (runnable : JobFields.isRunnable fields = true) :
    job.script ≠ [] ∨ job.trigger = true := by
  rcases Bool.or_eq_true_iff.mp runnable with hasScript | hasTrigger
  · split at hasScript
    · rename_i items found
      have present := Entries.value?_of_lookup found (by simp)
      rcases lines_eq_ok_iff.mp built.script with
        ⟨missing, _⟩ | ⟨others, get, scalars⟩
      · cases missing.symm.trans present
      · cases get.symm.trans present
        refine .inl ?_
        intro none
        rw [none] at scalars
        cases scalars
        simp at hasScript
    · cases hasScript
  · exact .inr (built.trigger.trans hasTrigger)

end Job

namespace Pipeline

/-- The stages of a document are listed under a key that the document holds. -/
theorem stages_mem_keys {trail : Trail} {entries : Entries}
    {stages : List String}
    (success : readStages trail (.mapping entries) = .ok stages) :
    "stages" ∈ entries.keys := by
  obtain ⟨declared, required, _⟩ := bind_eq_ok_iff.mp success
  obtain ⟨value, found, _⟩ :=
    Option.bind_eq_some_iff.mp (Trail.require_eq_ok_iff.mp required)
  by_contra absent
  have missing := Entries.lookup_of_notMem_keys absent
  simp [Node.get?, Entries.value?, missing] at found

private theorem names_of_readJobs {environment : JobEnvironment}
    {stages : List String}
    {trail : Trail} {definitions : List (String × Node)} {jobs : List Job}
    (success : definitions.mapM (readJob environment stages trail) = .ok jobs) :
    jobs.map Job.name = definitions.map Prod.fst := by
  have related := mapM_eq_ok_iff.mp success
  clear success
  induction related with
  | nil => rfl
  | cons head _ step =>
      have built := Job.ofDefinition_built (readJob_eq_ok_iff.mp head).1
      rw [List.map_cons, List.map_cons, built.named, step]

/-- The jobs read from some entries are named by those of their keys
that name jobs. -/
theorem names_of_definitions {environment : JobEnvironment}
    {stages : List String} {trail : Trail} {entries : Entries} {jobs : List Job}
    (success : (definitions (.mapping entries)).mapM
      (readJob environment stages trail) = .ok jobs) :
    jobs.map Job.name = entries.keys.filter JobName.isReal := by
  rw [names_of_readJobs success, Entries.keys, List.filter_map]
  rfl

/-- A resolved pipeline has the jobs of its document in order, each of which
belongs to a stage and has something to run.  Its document is in normal form: no
reference is left, no entry beside those that configure the pipeline names
parents, and the fields of every job have one form. -/
theorem ofDocument_normal {options : PipelineOptions} {repository : Repository}
    {entries : Entries} {pipeline : Pipeline}
    (success : ofDocument options repository (.mapping entries) =
      .ok pipeline) :
    pipeline.jobs.map Job.name = entries.keys.filter JobName.isReal ∧
      (∀ job ∈ pipeline.jobs,
        job.stage ∈ pipeline.stages ∧ (job.script ≠ [] ∨ job.trigger = true)) ∧
      pipeline.document.containsReference = false ∧
      ∃ normal : Entries,
        pipeline.document = .mapping normal ∧ normal.keys = entries.keys ∧
        ∀ name definition, (name, definition) ∈ normal →
          (JobName.isReserved name = false →
            ∀ fields : Entries, definition = .mapping fields →
              "extends" ∉ fields.keys) ∧
          (JobName.isReal name = true →
            ∃ job, definition = .mapping job ∧ NormalJob job) := by
  obtain ⟨normal, resolved⟩ := ofDocument_resolved success
  have free := normalize_free resolved.normalizes
  obtain ⟨settled, rfl, keys, allSettled, runnable⟩ :=
    normalize_settled resolved.normalizes
  have listed := stages_mem_keys resolved.stages
  let stages : Node := .sequence (pipeline.stages.map .text)
  let final := settled.put "stages" stages
  have document : pipeline.document = .mapping final := resolved.document
  have finalKeys : final.keys = entries.keys := by
    rw [Entries.keys_put_of_mem listed, keys]
  have stagesFree : stages.containsReference = false := by
    refine Node.anyReference_eq_false_iff.mpr ?_
    intro item member
    obtain ⟨text, _, rfl⟩ := List.mem_map.mp member
    rfl
  have kept : ∀ name definition, (name, definition) ∈ final →
      (name, definition) ∈ settled ∨
        (name = "stages" ∧ definition = stages) := by
    intro name definition member
    exact (Entries.mem_put member).symm
  have jobsRead := resolved.jobs
  rw [document] at jobsRead
  have definitionsEq : definitions (.mapping final) =
      final.filter fun entry => JobName.isReal entry.1 := rfl
  -- every job of the document is a mapping that is settled, can run and has
  -- been built
  have jobOf :
      ∀ name definition, (name, definition) ∈ definitions (.mapping final) →
      JobName.isReal name = true ∧ ∃ fields, definition = .mapping fields ∧
        JobFields.InForm settledForms fields ∧
        JobFields.isRunnable fields = true := by
    intro name definition member
    obtain ⟨inFinal, real⟩ := List.mem_filter.mp (definitionsEq ▸ member)
    rcases kept name definition inFinal with inSettled | ⟨rfl, _⟩
    · obtain ⟨fields, rfl, runs⟩ := runnable name definition inSettled real
      exact ⟨real, fields, rfl,
        (allSettled _ _ inSettled).job real fields rfl, runs⟩
    · cases real
  refine ⟨?_, ?_, ?_, final, document, finalKeys, ?_⟩
  · rw [names_of_definitions jobsRead, finalKeys]
  · intro job member
    obtain ⟨⟨name, definition⟩, inDefinitions, read⟩ :=
      exists_value_of_mapM jobsRead member
    obtain ⟨_, fields, rfl, _, runs⟩ := jobOf name definition inDefinitions
    obtain ⟨builds, inStages⟩ := readJob_eq_ok_iff.mp read
    exact ⟨inStages, (Job.ofDefinition_built builds).runs runs⟩
  · rw [document]
    exact Node.put_free free stagesFree
  · intro name definition member
    refine ⟨?_, ?_⟩
    · intro notReserved fields equal
      rcases kept name definition member with inSettled | ⟨rfl, _⟩
      · exact (allSettled _ _ inSettled).parents notReserved fields equal
      · cases notReserved
    · intro real
      have inDefinitions : (name, definition) ∈ definitions (.mapping final) :=
        definitionsEq ▸ List.mem_filter.mpr ⟨member, real⟩
      obtain ⟨_, fields, rfl, inForm, _⟩ := jobOf name definition inDefinitions
      obtain ⟨job, _, read⟩ := exists_result_of_mapM jobsRead inDefinitions
      have built := Job.ofDefinition_built (readJob_eq_ok_iff.mp read).1
      exact ⟨fields, rfl, built.normalJob inForm⟩

/-- A document with a job that takes its parts from a template, from defaults
and by reference, and with a job that starts another pipeline. -/
def templatedDocument : Entries :=
  [("stages", .sequence [.text "build"]),
    ("default", .mapping [("before_script", .text "setup")]),
    ("image", .text "alpine"),
    (".base", .mapping [("stage", .text "build"),
      ("services", .sequence [.text "postgres"])]),
    ("job", .mapping [("extends", .text ".base"), ("script", .sequence
      [.reference [.text "default", .text "before_script"], .text "make"])]),
    ("downstream",
      .mapping [("trigger", .text "group/other"), ("stage", .text ".post")])]

theorem ofDocument_normal_templated :
    ∃ pipeline, ofDocument {} {} (.mapping templatedDocument) = .ok pipeline ∧
      pipeline.jobs.map Job.name = ["job", "downstream"] ∧
      pipeline.document.containsReference = false := by
  have resolves :
      (ofDocument {} {} (.mapping templatedDocument)).isOk = true := by
    decide +kernel
  obtain ⟨pipeline, success⟩ := exists_of_isOk resolves
  obtain ⟨names, _, free, _⟩ := ofDocument_normal success
  exact ⟨pipeline, success, names, free⟩

end Pipeline

end CiPipeline
