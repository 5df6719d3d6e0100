import CiPipeline.Proofs.Pipeline.JobBuilding

/-!
# The parts of a job

A definition is read to a job exactly when the parts of the job are what the
single fields of the definition are read to.
-/

namespace CiPipeline.Job

open CiPipeline.Sequencing

variable {environment : JobEnvironment} {trail : Trail} {name : String}
  {definition : Node} {job : Job}

/-- A field that is set or not. -/
def readFlag (definition : Node) (field : String) (missing : Bool) : Bool :=
  ((definition.get? field).bind Node.boolean?).getD missing

/-- What a job holds that is built from a definition, with its schedule
and its flags. -/
structure Composed (environment : JobEnvironment) (trail : Trail)
    (name : String) (definition : Node) (job : Job) :
    Prop extends Built environment trail name definition job where
  scheduled : ∃ declaredWhen, readWhen trail definition = .ok declaredWhen ∧
    schedule environment.version trail job.bindings declaredWhen
      ((definition.get? "allow_failure").bind Node.boolean?) job.rules =
        .ok ⟨job.when_, job.allowFailure⟩
  interactive : job.interactive = readFlag definition "interactive" false
  injectSshAgent :
    job.injectSshAgent = readFlag definition "injectSSHAgent" false
  artifactsToSource :
    job.artifactsToSource = readFlag definition "artifactsToSource" true
  description : job.description = (definition.get? "description").bind
    Node.scalar?

theorem ofDefinition_composed
    (success : ofDefinition environment trail name definition = .ok job) :
    Composed environment trail name definition job := by
  have built := ofDefinition_built success
  unfold ofDefinition at success
  dsimp only at success
  obtain ⟨bindings, _, success⟩ := bind_eq_ok_iff.mp success
  obtain ⟨rules, _, success⟩ := bind_eq_ok_iff.mp success
  obtain ⟨declaredWhen, declared, success⟩ := bind_eq_ok_iff.mp success
  obtain ⟨schedule, scheduled, success⟩ := bind_eq_ok_iff.mp success
  obtain ⟨_, _, success⟩ := bind_eq_ok_iff.mp success
  obtain ⟨_, _, success⟩ := bind_eq_ok_iff.mp success
  obtain ⟨_, _, success⟩ := bind_eq_ok_iff.mp success
  obtain ⟨_, _, success⟩ := bind_eq_ok_iff.mp success
  obtain ⟨_, _, success⟩ := bind_eq_ok_iff.mp success
  obtain ⟨_, _, success⟩ := bind_eq_ok_iff.mp success
  cases success
  exact {
    built with
    scheduled := ⟨declaredWhen, declared, scheduled⟩
    interactive := rfl
    injectSshAgent := rfl
    artifactsToSource := rfl
    description := rfl }

/-- A job is read from a definition exactly when it is composed of what the
definition says. -/
theorem ofDefinition_eq_ok_iff :
    ofDefinition environment trail name definition = .ok job ↔
      Composed environment trail name definition job := by
  constructor
  · exact ofDefinition_composed
  · intro composed
    obtain ⟨declaredWhen, declared, scheduled⟩ := composed.scheduled
    obtain ⟨services, servicesRead, listed⟩ := composed.services
    have bindings := composed.bindings
    rw [composed.stage] at bindings
    unfold ofDefinition
    dsimp only
    rw [bindings, ok_bind, composed.rules, ok_bind, declared, ok_bind,
      scheduled, ok_bind, composed.image, ok_bind, servicesRead,
      ok_bind, composed.beforeScript, ok_bind, composed.script, ok_bind,
      composed.afterScript, ok_bind, composed.needs, ok_bind, pure_eq_ok]
    cases job
    simp only [Except.ok.injEq, mk.injEq, true_and]
    exact ⟨composed.named.symm, composed.stage.symm, listed.symm,
      composed.artifacts.symm, composed.trigger.symm, composed.interactive.symm,
      composed.injectSshAgent.symm,
      composed.artifactsToSource.symm, composed.description.symm⟩

end CiPipeline.Job
