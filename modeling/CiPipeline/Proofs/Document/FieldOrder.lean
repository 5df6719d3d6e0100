import CiPipeline.Proofs.Document.Completion
import Mathlib.Data.List.Count
import Mathlib.Data.List.Nodup
import Mathlib.Data.List.Perm.Basic

/-!
# Field passes in another order

Every field pass writes a field of its own, and what it writes depends on what
stands under this field only; the main script is required beside a trigger,
which no pass writes.  So the passes succeed in every order or in none, and the
order shows in the order of the keys of jobs only.
-/

namespace CiPipeline

open CiPipeline.Sequencing

/-! ## Entries under a key -/

namespace Entries

/-- Entries that agree under every key differ in the order of the
keys at most. -/
theorem perm_of_under {entries others : Entries}
    (same : ∀ key, entries.under key = others.under key) :
    entries.Perm others := by
  let _ : DecidableEq (String × Node) := Classical.decEq _
  let _ : BEq (String × Node) := instBEqOfDecidableEq
  apply List.perm_iff_count.mpr
  intro entry
  have counted (entries : Entries) :
      entries.count entry = (entries.under entry.1).count entry :=
    (List.count_filter (by simp)).symm
  rw [counted entries, counted others, same]

end Entries

namespace JobFields

variable {trail : Trail} {entries job after otherAfter : Entries}
  {document result : Node}

/-! ## Writes in another order -/

/-- Writes of distinct fields can be made in another order, and leave the same
under every key. -/
theorem writeAll_perm {writes others : List (String × Update)}
    (permutation : writes.Perm others) (distinct : (writes.map Prod.fst).Nodup)
    (success : writeAll writes trail job = .ok after) :
    ∃ otherAfter, writeAll others trail job = .ok otherAfter ∧
      ∀ key, after.under key = otherAfter.under key := by
  have replaced := replaced_of_writeAll distinct success
  have keys := permutation.map Prod.fst
  have otherDistinct : (others.map Prod.fst).Nodup := keys.nodup_iff.mp distinct
  have each : ∀ field update, (field, update) ∈ others →
      ∃ new, update trail (job.lookup field) = .ok new := by
    intro field update member
    obtain ⟨new, updated, _⟩ :=
      replaced.updated field update (permutation.mem_iff.mpr member)
    exact ⟨new, updated⟩
  obtain ⟨otherAfter, otherSuccess⟩ := exists_writeAll otherDistinct each
  have otherReplaced := replaced_of_writeAll otherDistinct otherSuccess
  refine ⟨otherAfter, otherSuccess, ?_⟩
  intro key
  by_cases written : key ∈ writes.map Prod.fst
  · obtain ⟨⟨field, update⟩, member, rfl⟩ := List.mem_map.mp written
    obtain ⟨new, updated, equal⟩ := replaced.updated field update member
    obtain ⟨otherNew, otherUpdated, otherEqual⟩ :=
      otherReplaced.updated field update (permutation.mem_iff.mp member)
    cases updated.symm.trans otherUpdated
    rw [equal, otherEqual]
  · have absent : key ∉ others.map Prod.fst :=
      fun member => written (keys.mem_iff.mpr member)
    rw [replaced.others key written, otherReplaced.others key absent]

private theorem isRunnable_of_lookup
    (script : after.lookup "script" = job.lookup "script")
    (trigger : after.lookup "trigger" = job.lookup "trigger") :
    isRunnable after = isRunnable job := by
  unfold isRunnable Entries.value?
  rw [script, trigger]

/-! ## The passes over single fields -/

/-- The fields of jobs that have a pass of their own. -/
inductive Field where
  | artifacts
  | image
  | services
  | beforeScript
  | afterScript
  | script
  deriving DecidableEq, Repr

namespace Field

/-- All fields in the order in which they are completed. -/
def all : List Field :=
  [artifacts, image, services, beforeScript, afterScript, script]

def key : Field → String
  | artifacts => "artifacts"
  | image => "image"
  | services => "services"
  | beforeScript => "before_script"
  | afterScript => "after_script"
  | script => "script"

def pass : Field → Pass
  | artifacts => .artifacts
  | image => .image
  | services => .services
  | beforeScript => .beforeScripts
  | afterScript => .afterScripts
  | script => .scripts

/-- The update of a field, given what the pipeline has for it. -/
def completing : Field → Option Node → Update
  | artifacts => inheriting
  | image => normalizing "image" normalizeImage
  | services => normalizing "services" normalizeServices
  | beforeScript => joining "before_script"
  | afterScript => joining "after_script"
  | script => joining "script"

/-- The write that the pass over a field makes to every job of a document. -/
def completion (document : Node) (field : Field) : String × Update :=
  (field.key, field.completing (pipelineDefault document field.key))

/-- What the pass over a field does to a job: the main script is required of
every job. -/
def change (document : Node) (field : Field) (trail : Trail) (job : Entries) :
    Except Failure Entries :=
  let written := write field.key (field.completion document).2 trail job
  match field with
  | script => written >>= requireScript trail
  | _ => written

/-- Runs the passes over some fields in the given order. -/
def runAll (order : List Field) (trail : Trail) (document : Node) :
    Except Failure Node :=
  (order.map pass).foldlM
    (fun document pass => pass.run trail document) document

/-- What the passes over some fields do to a job, one after another. -/
def changeAll (order : List Field) (document : Node) (trail : Trail)
    (job : Entries) : Except Failure Entries :=
  order.foldlM (fun job field => field.change document trail job) job

private theorem key_injective : Function.Injective key := by
  intro field other same
  cases field <;> cases other <;> first | rfl | exact absurd same (by decide)

theorem run_pass_eq_ok_iff {field : Field} :
    field.pass.run trail (.mapping entries) = .ok result ↔
      mapJobs trail (field.change (.mapping entries)) (.mapping entries) =
        .ok result := by
  cases field with
  | artifacts =>
      exact Eq.congr_left (artifacts_eq_write trail (.mapping entries))
  | image => exact Eq.congr_left (image_eq_write trail (.mapping entries))
  | services => exact Eq.congr_left (services_eq_write trail (.mapping entries))
  | beforeScript =>
      exact Eq.congr_left (joinScripts_eq_write _ trail (.mapping entries))
  | afterScript =>
      exact Eq.congr_left (joinScripts_eq_write _ trail (.mapping entries))
  | script =>
      have joined : mapJobs trail (joinScript "script"
          (pipelineDefault (.mapping entries) "script")) (.mapping entries) =
          mapJobs trail (write "script"
            (script.completion (.mapping entries)).2) (.mapping entries) :=
              joinScripts_eq_write "script" trail _
      refine bind_eq_ok_iff.trans ?_
      rw [joinScripts, joined]
      exact mapJobs_comp_eq_ok_iff

private theorem change_of_defaults {document other : Node}
    (same : ∀ field, pipelineDefault other field = pipelineDefault document
      field) (field : Field) : field.change other = field.change document := by
  funext trail job
  simp only [change, completion, same]

/-- The passes together make one change to every job. -/
theorem runAll_eq_ok_iff (field : Field) (rest : List Field) :
    runAll (field :: rest) trail (.mapping entries) = .ok result ↔
      mapJobs trail (changeAll (field :: rest) (.mapping entries))
        (.mapping entries) = .ok result := by
  unfold runAll
  rw [List.map_cons, List.foldlM_cons, bind_eq_ok_iff]
  simp only [run_pass_eq_ok_iff, List.foldlM_map]
  apply mapJobs_foldlM_eq_ok_iff
  intro step between result same
  rw [run_pass_eq_ok_iff, change_of_defaults same]

private theorem keys_completions (order : List Field) (document : Node) :
    (order.map (completion document)).map Prod.fst = order.map key :=
      List.map_map

private theorem distinct_completions {order : List Field}
    (distinct : order.Nodup) (document : Node) :
    ((order.map (completion document)).map Prod.fst).Nodup := by
  rw [keys_completions]
  exact List.Nodup.map key_injective distinct

theorem change_eq_ok_iff {field : Field} :
    field.change document trail job = .ok after ↔
      write field.key (field.completion document).2 trail job = .ok after ∧
        (field = script → isRunnable after = true) := by
  cases field with
  | script =>
      refine bind_eq_ok_iff.trans ?_
      simp only [requireScript_eq_ok_iff]
      grind
  | _ => simp [change]

/-- Writes of other fields than the script do not change whether there is
something to run. -/
theorem isRunnable_of_writeAll {order : List Field} (distinct : order.Nodup)
    (absent : script ∉ order)
    (success : writeAll (order.map (completion document)) trail job =
      .ok after) :
    isRunnable after = isRunnable job := by
  have written :=
    written_of_writeAll (distinct_completions distinct document) success
  have kept (key : String) (other : ∀ field ∈ order, field.key ≠ key) :
      after.lookup key = job.lookup key := by
    apply written.others
    rw [keys_completions]
    simpa using other
  apply isRunnable_of_lookup
  · apply kept
    intro field member same
    obtain rfl : field = script := key_injective same
    exact absent member
  · apply kept
    intro field _
    cases field <;> decide

/-- A job is changed by writes alone, and is required to be runnable in the end
if its script is among them, for no write behind that of the script changes
whether it is. -/
theorem changeAll_eq_ok_iff {order : List Field} (distinct : order.Nodup) :
    changeAll order document trail job = .ok after ↔
      writeAll (order.map (completion document)) trail job = .ok after ∧
        (script ∈ order → isRunnable after = true) := by
  induction order generalizing job with
  | nil => simp [changeAll, writeAll]
  | cons field rest induction =>
      obtain ⟨fresh, distinctRest⟩ := List.nodup_cons.mp distinct
      have first : changeAll (field :: rest) document trail job =
          (field.change document trail job >>= changeAll rest document trail) :=
            List.foldlM_cons
      rw [first, List.map_cons, completion, writeAll_cons, bind_eq_ok_iff,
        bind_eq_ok_iff]
      simp only [induction distinctRest, change_eq_ok_iff]
      constructor
      · intro changed
        obtain ⟨between, ⟨written, runs⟩, others, runsLater⟩ := changed
        refine ⟨⟨between, written, others⟩, ?_⟩
        intro member
        rcases List.mem_cons.mp member with rfl | inRest
        · rw [isRunnable_of_writeAll distinctRest fresh others]
          exact runs rfl
        · exact runsLater inRest
      · intro changed
        obtain ⟨⟨between, written, others⟩, runs⟩ := changed
        refine ⟨between, ⟨written, ?_⟩, others, fun inRest =>
          runs (by simp [inRest])⟩
        rintro rfl
        rw [← isRunnable_of_writeAll distinctRest fresh others]
        exact runs (by simp)

/-- The passes can be run on a job in another order, which leaves the same under
every key. -/
theorem changeAll_perm {order other : List Field}
    (permutation : order.Perm other) (distinct : order.Nodup)
    (success : changeAll order document trail job = .ok after) :
    ∃ otherAfter, changeAll other document trail job = .ok otherAfter ∧
      after.Perm otherAfter := by
  obtain ⟨written, runs⟩ := (changeAll_eq_ok_iff distinct).mp success
  obtain ⟨otherAfter, otherWritten, same⟩ :=
    writeAll_perm (permutation.map (completion document))
    (distinct_completions distinct document) written
  have lookups (key : String) : otherAfter.lookup key = after.lookup key := by
    rw [Entries.lookup_eq_under, Entries.lookup_eq_under, same]
  have runsAlike : isRunnable otherAfter = isRunnable after :=
    isRunnable_of_lookup (lookups "script") (lookups "trigger")
  refine ⟨otherAfter,
    (changeAll_eq_ok_iff (permutation.nodup_iff.mp distinct)).mpr ⟨?_, ?_⟩,
    Entries.perm_of_under same⟩
  · exact otherWritten
  · intro member
    rw [runsAlike]
    exact runs (permutation.mem_iff.mpr member)

/-! ## Whole documents -/

/-- Entries of two documents that differ at most in the order of the
keys of a job. -/
inductive Rearranged (name : String) : Node → Node → Prop where
  | job {fields others : Entries} :
      JobName.isReal name = true →
      fields.Perm others →
      Rearranged name (.mapping fields) (.mapping others)
  | other {definition : Node} :
      JobName.isReal name = false →
      Rearranged name definition definition

theorem Rearranged.symm {name : String} {definition other : Node}
    (rearranged : Rearranged name definition other) :
    Rearranged name other definition := by
  cases rearranged with
  | job real permutation => exact .job real permutation.symm
  | other hidden => exact .other hidden

/-- What stands beside the jobs of a document is the same in
another document. -/
def KeepsOthers (entries after : Entries) : Prop :=
  Entries.Related (fun name before after => JobName.isReal name = false →
    after = before) entries after

/-- Where the passes over some fields succeed, they succeed in any
other order, too. -/
theorem runAll_perm {order other : List Field} (filled : order ≠ [])
    (permutation : order.Perm other) (distinct : order.Nodup)
    (success : runAll order trail (.mapping entries) = .ok result) :
    ∃ after otherAfter, result = .mapping after ∧
      runAll other trail (.mapping entries) = .ok (.mapping otherAfter) ∧
      Entries.Related Rearranged after otherAfter ∧
      KeepsOthers entries after := by
  have otherFilled : other ≠ [] := by
    rintro rfl
    exact filled permutation.eq_nil
  obtain ⟨field, rest, rfl⟩ := List.exists_cons_of_ne_nil filled
  obtain ⟨first, others, rfl⟩ := List.exists_cons_of_ne_nil otherFilled
  obtain ⟨after, rfl, related⟩ :=
    mapJobs_eq_ok_iff.mp ((runAll_eq_ok_iff field rest).mp success)
  have apart : Entries.Related (fun name before final => ∃ middle,
      Changed trail (changeAll (first :: others) (.mapping entries)) name
        before middle ∧
        Rearranged name middle final) entries after := by
    apply related.mono
    intro name before final becomes
    cases becomes with
    | job real changed =>
        obtain ⟨otherChanged, otherSuccess, same⟩ :=
          changeAll_perm permutation distinct changed
        exact ⟨_, .job real otherSuccess, .job real same.symm⟩
    | other hidden => exact ⟨_, .other hidden, .other hidden⟩
  obtain ⟨otherAfter, otherRelated, rearranged⟩ := apart.split
  refine ⟨after, otherAfter, rfl, ?_, ?_, ?_⟩
  · apply (runAll_eq_ok_iff first others).mpr
    exact mapJobs_eq_ok_iff.mpr ⟨otherAfter, rfl, otherRelated⟩
  · exact rearranged.symm.mono fun _ _ _ pair => pair.symm
  · apply related.mono
    intro name before final becomes hidden
    cases becomes with
    | job real _ => cases real.symm.trans hidden
    | other _ => rfl

/-- In any two orders the passes over all fields succeed alike.  The two
documents then differ in the order of the keys of jobs at most, and nothing
beside the jobs is changed. -/
theorem runAll_reordered (trail : Trail) (entries : Entries)
    {order other : List Field} (complete : order.Perm all)
    (otherComplete : other.Perm all) :
    ((∃ result, runAll order trail (.mapping entries) = .ok result) ↔
        ∃ result, runAll other trail (.mapping entries) = .ok result) ∧
      ∀ result otherResult, runAll order trail (.mapping entries) = .ok result →
        runAll other trail (.mapping entries) = .ok otherResult →
        ∃ after otherAfter,
          result = .mapping after ∧ otherResult = .mapping otherAfter ∧
          Entries.Related Rearranged after otherAfter ∧
          KeepsOthers entries after ∧ KeepsOthers entries otherAfter := by
  have filled {order : List Field} (complete : order.Perm all) :
      order ≠ [] := by
    rintro rfl
    cases complete.length_eq
  have distinct {order : List Field} (complete : order.Perm all) :
      order.Nodup :=
    complete.nodup_iff.mpr (by decide)
  have permutation : order.Perm other := complete.trans otherComplete.symm
  constructor
  · constructor
    · intro success
      obtain ⟨result, success⟩ := success
      obtain ⟨_, _, _, otherSuccess, _⟩ :=
        runAll_perm (filled complete) permutation (distinct complete) success
      exact ⟨_, otherSuccess⟩
    · intro success
      obtain ⟨result, success⟩ := success
      obtain ⟨_, _, _, otherSuccess, _⟩ :=
        runAll_perm (filled otherComplete) permutation.symm
          (distinct otherComplete) success
      exact ⟨_, otherSuccess⟩
  · intro result otherResult success otherSuccess
    obtain ⟨after, otherAfter, rfl, ran, rearranged, kept⟩ :=
      runAll_perm (filled complete) permutation (distinct complete) success
    cases otherSuccess.symm.trans ran
    obtain ⟨_, _, equal, _, _, otherKept⟩ :=
      runAll_perm (filled otherComplete) permutation.symm
        (distinct otherComplete) otherSuccess
    cases equal
    exact ⟨after, otherAfter, rfl, rfl, rearranged, kept, otherKept⟩

/-- A document whose job takes three of its fields from the pipeline. -/
def inheritingJob : Entries :=
  [("default", .mapping [("image", .text "alpine"),
    ("artifacts", .text "out")]), ("before_script", .text "setup"),
    (".hidden", .mapping [("script", .text "make")]),
    ("job", .mapping [("script", .text "make")])]

/-- That document when its job got the fields in an order. -/
def inheritedBy (fields : Entries) : Entries :=
  [("default", .mapping [("image", .text "alpine"),
    ("artifacts", .text "out")]), ("before_script", .text "setup"),
    (".hidden", .mapping [("script", .text "make")]),
    ("job", .mapping (("script", .sequence [.text "make"]) :: fields))]

/-- The passes in their order and backwards: the fields are appended in
another order. -/
theorem runAll_reordered_reverse :
    let image : String × Node := ("image", .mapping [("name", .text "alpine")])
    let artifacts : String × Node := ("artifacts", .text "out")
    let setup : String × Node := ("before_script", .sequence [.text "setup"])
    all.Perm all ∧ all.reverse.Perm all ∧
      runAll all Trail.root (.mapping inheritingJob) =
        .ok (.mapping (inheritedBy [artifacts, image, setup])) ∧
      runAll all.reverse Trail.root (.mapping inheritingJob) =
        .ok (.mapping (inheritedBy [setup, image, artifacts])) ∧
      Entries.Related Rearranged (inheritedBy [artifacts, image, setup])
        (inheritedBy [setup, image, artifacts]) ∧
      KeepsOthers inheritingJob (inheritedBy [artifacts, image, setup]) := by
  intro image artifacts setup
  have complete : all.Perm all := .refl _
  have reversed : all.reverse.Perm all := List.reverse_perm all
  have forwards : runAll all Trail.root (.mapping inheritingJob) =
      .ok (.mapping (inheritedBy [artifacts, image, setup])) := rfl
  have backwards : runAll all.reverse Trail.root (.mapping inheritingJob) =
      .ok (.mapping (inheritedBy [setup, image, artifacts])) := rfl
  obtain ⟨_, _, equal, otherEqual, rearranged, kept, _⟩ :=
    (runAll_reordered Trail.root inheritingJob complete reversed).2 _ _
      forwards backwards
  cases equal
  cases otherEqual
  exact ⟨complete, reversed, forwards, backwards, rearranged, kept⟩

end Field

end JobFields

end CiPipeline
