import CiPipeline.Proofs.Document.Completion
import CiPipeline.Proofs.Document.Inheritance
import CiPipeline.Proofs.Document.Splicing

/-!
# Passes over what they left

A document that the passes have been over has nothing left to resolve, to
inherit or to bring into form.  Only the lines of the pipeline come in front of
every script once more.
-/

namespace CiPipeline

open CiPipeline.Sequencing

/-! ## Inheritance -/

namespace Node

/-- Entries with distinct keys that none of the earlier ones has
are appended. -/
theorem mergeEntries_of_fresh {earlier later : Entries}
    (distinct : (Entries.keys (earlier ++ later)).Nodup) :
    mergeEntries earlier later = earlier ++ later := by
  induction later generalizing earlier with
  | nil => simp [mergeEntries]
  | cons entry rest induction =>
      obtain ⟨key, value⟩ := entry
      have fresh : key ∉ Entries.keys earlier := by
        intro member
        rw [Entries.keys, List.map_append, List.nodup_append] at distinct
        exact distinct.2.2 key member key (by simp) rfl
      have appended : earlier ++ (key, value) :: rest =
        (earlier ++ [(key, value)]) ++ rest := by simp
      rw [appended] at distinct ⊢
      rw [mergeEntries, Entries.lookup_of_notMem_keys fresh]
      show mergeEntries (earlier.put key value) rest = _
      rw [Entries.put_of_notMem_keys fresh, induction distinct]

private theorem mergeAll_single {fields : Entries}
    (distinct : fields.keys.Nodup) :
    mergeAll [.mapping fields] = .mapping fields := by
  show Node.mapping (mergeEntries [] fields) = .mapping fields
  have fresh : (Entries.keys ([] ++ fields)).Nodup := distinct
  rw [mergeEntries_of_fresh fresh]
  rfl

private theorem nodup_keys_mergeEntries {earlier : Entries}
    (distinct : earlier.keys.Nodup) (later : Entries) :
    (Entries.keys (mergeEntries earlier later)).Nodup := by
  induction later generalizing earlier with
  | nil => exact distinct
  | cons entry rest induction =>
      obtain ⟨key, value⟩ := entry
      exact induction (Entries.nodup_keys_put distinct key _)

/-- Merged documents have no key twice, whatever the documents are. -/
theorem mergeAll_distinct (documents : List Node) :
    ∃ merged : Entries, mergeAll documents = .mapping merged ∧
      merged.keys.Nodup := by
  have steps (mappings : List Node)
      (allMappings : ∀ node ∈ mappings, node.isMapping = true)
      (earlier : Entries) (distinct : earlier.keys.Nodup) :
      ∃ merged : Entries,
        mappings.foldl merge (.mapping earlier) = .mapping merged ∧
          merged.keys.Nodup := by
    induction mappings generalizing earlier with
    | nil => exact ⟨earlier, rfl, distinct⟩
    | cons node rest induction =>
        have isMapping := allMappings node (by simp)
        cases node with
        | mapping later =>
            apply induction (fun other member =>
              allMappings other (by simp [member]))
            exact nodup_keys_mergeEntries distinct later
        | _ => cases isMapping
  exact steps _ (fun node member => (List.mem_filter.mp member).2)
    [] List.nodup_nil

end Node

namespace Inheritance

/-- An entry that neither names parents nor needs merging. -/
structure Complete (name : String) (definition : Node) : Prop where
  parents : JobName.isReserved name = false →
    ∀ fields : Entries, definition = .mapping fields → "extends" ∉ fields.keys
  job : JobName.isReal name = true →
    ∃ fields : Entries, definition = .mapping fields ∧ fields.keys.Nodup

/-- A definition with an empty list of parents, if its entry may have any. -/
def parentless (name : String) (definition : Node) : Node :=
  match definition with
  | .mapping fields =>
      if JobName.isReserved name then definition
      else .mapping (Entries.put fields "extends" (.sequence []))
  | _ => definition

variable {name : String} {definition : Node}

private theorem normalizeEntry_complete (complete : Complete name definition)
    (trail : Trail) :
    normalizeEntry trail (name, definition) =
      .ok (name, parentless name definition) := by
  apply normalizeEntry_eq_ok_iff.mpr
  cases reserved : JobName.isReserved name with
  | true =>
      exact .inl ⟨.inl rfl, by cases definition <;> simp [parentless, reserved]⟩
  | false =>
      cases definition with
      | mapping fields =>
          have absent := complete.parents reserved fields rfl
          refine .inr ⟨rfl, fields, [], rfl, ?_, by simp [parentless, reserved]⟩
          rw [Entries.lookup_of_notMem_keys absent, normalizeParents]
      | _ =>
          have notReal : JobName.isReal name = false := by
            refine Bool.eq_false_iff.mpr fun real => ?_
            obtain ⟨_, equal, _⟩ := complete.job real
            cases equal
          exact .inl ⟨.inr ⟨rfl, notReal⟩, rfl⟩

private theorem inheritEntry_complete (complete : Complete name definition)
    (trail : Trail) (entries : Entries) :
    inheritEntry trail entries (name, parentless name definition) =
      .ok (name, parentless name definition) := by
  cases real : JobName.isReal name with
  | false => simp [inheritEntry, real]
  | true =>
      obtain ⟨fields, rfl, distinct⟩ := complete.job real
      have listed := JobName.isReserved_of_isReal real
      have alone := Entries.nodup_keys_put distinct "extends" (.sequence [])
      have nobody : ancestors entries depthLimit (trail.descend name) name
          (.mapping (fields.put "extends" (.sequence []))) = .ok [] := by
        simp [depthLimit, ancestors, parentNames_put]
      simp [parentless, listed, inheritEntry, real, nobody,
        Node.mergeAll_single alone]

private theorem forgetParents_complete (complete : Complete name definition) :
    forgetParents (name, parentless name definition) = (name, definition) := by
  rw [forgetParents_eq]
  cases reserved : JobName.isReserved name with
  | true => cases definition <;> simp [parentless, reserved]
  | false =>
      cases definition with
      | mapping fields =>
          have absent := complete.parents reserved fields rfl
          simp [parentless, reserved, Node.without, Entries.without_put_self,
            Entries.without_of_notMem_keys absent]
      | _ => simp [parentless, Node.without]

/-- Complete entries inherit nothing. -/
theorem resolve_of_complete {entries : Entries}
    (complete : ∀ name definition,
      (name, definition) ∈ entries → Complete name definition) (trail : Trail) :
    resolve trail (.mapping entries) = .ok (.mapping entries) := by
  let normal : Entries :=
    entries.map fun entry => (entry.1, parentless entry.1 entry.2)
  have normalized : entries.mapM (normalizeEntry trail) = .ok normal := by
    apply mapM_eq_ok_iff.mpr
    rw [List.forall₂_map_right_iff, List.forall₂_same]
    intro entry member
    exact normalizeEntry_complete (complete _ _ member) trail
  have inherited : normal.mapM (inheritEntry trail normal) = .ok normal := by
    apply mapM_eq_ok_iff.mpr
    rw [List.forall₂_same]
    intro entry member
    obtain ⟨original, listed, rfl⟩ := List.mem_map.mp member
    exact inheritEntry_complete (complete _ _ listed) trail normal
  have forgotten : normal.map forgetParents = entries := by
    rw [List.map_map]
    apply (List.map_congr_left _).trans (List.map_id entries)
    intro entry member
    exact forgetParents_complete (complete _ _ member)
  exact resolve_eq_ok_iff.mpr
    ⟨normal, normal, normalized, inherited, by rw [forgotten]⟩

/-- A job that has inherited is a mapping without repeated fields. -/
theorem resolve_distinct {trail : Trail} {entries after : Entries}
    (success : resolve trail (.mapping entries) = .ok (.mapping after))
    {name : String} {definition : Node} (member : (name, definition) ∈ after)
    (real : JobName.isReal name = true) :
    ∃ fields : Entries, definition = .mapping fields ∧ fields.keys.Nodup := by
  obtain ⟨_, equal, inherited⟩ := resolve_inherited success
  cases equal
  obtain ⟨before, _, becomes⟩ := inherited.mem_right member
  obtain ⟨lineage, _, rfl⟩ := becomes.job real
  obtain ⟨merged, equal, distinct⟩ :=
    Node.mergeAll_distinct (lineage ++ [before])
  rw [equal]
  exact ⟨_, rfl, Entries.nodup_keys_without distinct "extends"⟩

end Inheritance

/-! ## Values in their forms -/

namespace JobFields

variable {trail : Trail} {field : String} {fallback current new : Option Node}

private theorem inheriting_rests
    (success : inheriting fallback trail current = .ok new) :
    (inheriting fallback).Rests trail (new.or current) := by
  cases found : given current with
  | some value =>
      simp only [inheriting, found] at success
      cases success
      exact ⟨none, by simp [inheriting, found], rfl⟩
  | none =>
      cases fallback with
      | none =>
          simp only [inheriting, found] at success
          cases success
          exact ⟨none, by simp [inheriting], rfl⟩
      | some value =>
          simp only [inheriting, found] at success
          cases success
          cases value with
          | null => exact ⟨some .null, rfl, rfl⟩
          | _ => exact ⟨none, rfl, rfl⟩

/-- A form that is brought into itself, wherever it stands. -/
def Stable (normal : Trail → Node → Except Failure Node) : Prop :=
  ∀ trail node result, normal trail node = .ok result →
    result ≠ .null ∧ ∀ other, normal other result = .ok result

private theorem normalizing_rests {normal : Trail → Node → Except Failure Node}
    (stable : Stable normal)
    (success : normalizing field normal fallback trail current = .ok new) :
    (normalizing field normal fallback).Rests trail (new.or current) := by
  cases wanted : (given current).or fallback with
  | none =>
      simp only [normalizing, wanted] at success
      cases success
      exact ⟨none, by simp [normalizing, wanted], rfl⟩
  | some value =>
      simp only [normalizing, wanted] at success
      obtain ⟨result, normalized, equal⟩ := bind_eq_ok_iff.mp success
      cases equal
      obtain ⟨present, again⟩ := stable _ _ _ normalized
      have found : given (some result) = some result := by
        cases result with
        | null => exact (present rfl).elim
        | _ => rfl
      refine ⟨some result, ?_, rfl⟩
      simp [normalizing, found, again]

private theorem lookup_pick (fields : Entries) (keys : List String)
    (key : String) :
    (pick fields keys).lookup key = if key ∈ keys then
    fields.value? key else none := by
  induction keys with
  | nil => rfl
  | cons first rest induction =>
      unfold pick at induction ⊢
      rw [List.filterMap_cons]
      by_cases same : key = first
      · subst same
        cases found : fields.value? key with
        | none => simpa [found] using induction
        | some value => simp
      · have different : (key == first) = false := by simpa using same
        cases fields.value? first with
        | none => simpa [same] using induction
        | some value =>
            simpa [same, List.lookup_cons, different] using induction

private theorem pick_pick (fields : Entries) (keys : List String) :
    pick (pick fields keys) keys = pick fields keys := by
  apply List.filterMap_congr
  intro key listed
  have kept : Entries.value? (pick fields keys) key = fields.value? key := by
    rw [value?_eq_given, lookup_pick, if_pos listed, value?_eq_given]
    cases fields.lookup key with
    | none => rfl
    | some value => cases value <;> rfl
  rw [kept]

private theorem normalizeImage_stable : Stable normalizeImage := by
  intro trail node result success
  cases node with
  | text name =>
      cases success
      exact ⟨nofun, fun _ => rfl⟩
  | mapping fields =>
      cases success
      refine ⟨nofun, fun other => ?_⟩
      rw [normalizeImage, pick_pick]
  | _ => cases success

private theorem normalizeService_stable : Stable normalizeService := by
  intro trail node result success
  cases node with
  | text name =>
      cases success
      exact ⟨nofun, fun _ => rfl⟩
  | mapping fields =>
      simp only [normalizeService] at success
      split at success
      · rename_i name found
        cases success
        refine ⟨nofun, fun other => ?_⟩
        have named :
            (pick fields ["name", "entrypoint", "command", "alias"]).lookup
              "name" = some (.text name) := by
          rw [lookup_pick, if_pos (by simp)]
          exact Entries.value?_of_lookup found nofun
        simp only [normalizeService, named, pick_pick]
      · cases success
  | _ => cases success

private theorem normalizeServices_stable : Stable normalizeServices := by
  intro trail node result success
  cases node with
  | sequence items =>
      obtain ⟨services, normalized, equal⟩ := bind_eq_ok_iff.mp success
      cases equal
      refine ⟨nofun, fun other => ?_⟩
      have again : ∀ service ∈ services, ∀ other,
          normalizeService other service = .ok service :=
        forall_of_mapM normalized fun _ _ _ step =>
          (normalizeService_stable _ _ _ step).2
      refine bind_eq_ok_iff.mpr ⟨services, ?_, rfl⟩
      have each : List.Forall₂ (fun entry service =>
          normalizeService (other.descend (toString entry.2)) entry.1 =
            .ok service)
          services.zipIdx (services.zipIdx.map Prod.fst) := by
        rw [List.forall₂_map_right_iff, List.forall₂_same]
        intro entry member
        exact again entry.1 (List.fst_mem_of_mem_zipIdx member) _
      rw [List.zipIdx_map_fst] at each
      exact mapM_eq_ok_iff.mpr each
  | _ => cases success

/-! ## Scripts -/

/-- The lines under a field of a script: none, those of a list, or
a single one. -/
def linesOf : Option Node → List Node
  | none => []
  | some .null => []
  | some (.sequence lines) => lines
  | some line => [line]

/-- The lines that come in front of a script of every job: those under the field
for the whole pipeline, with nested lists spliced. -/
def commonLines (document : Node) (field : String) : List Node :=
  (linesOf (pipelineDefault document field)).flatMap References.spliced

/-- The value of a field of a job that can be read as the lines of a script. -/
inductive IsScript : Option Node → Prop where
  | missing : IsScript none
  | null : IsScript (some .null)
  | lines {lines : List Node} :
      (∀ line ∈ lines, line.scalar?.isSome = true) →
        IsScript (some (.sequence lines))

private theorem IsScript.scalars (script : IsScript current) :
    ∀ line ∈ linesOf current, line.scalar?.isSome = true := by
  cases script with
  | lines scalars => exact scalars
  | _ => simp [linesOf]

theorem scriptLines_eq_ok {value : Option Node} {lines : List Node}
    (success : scriptLines trail value = .ok lines) :
    lines = linesOf value := by
  unfold scriptLines at success
  split at success <;> cases success <;> rfl

private theorem IsScript.scriptLines (script : IsScript current)
    (trail : Trail) :
    JobFields.scriptLines trail current = .ok (linesOf current) := by
  cases script <;> rfl

/-- What joining the lines of the pipeline and those of a job puts
under the field. -/
theorem joining_eq_ok_iff {common own : List Node}
    (commonLines : scriptLines (trail.descend field) fallback = .ok common)
    (ownLines : scriptLines (trail.descend field) current = .ok own) :
    joining field fallback trail current = .ok new ↔
      (common ++ own = [] ∧ new = none) ∨
      (common ++ own ≠ [] ∧ ((common ++ own).any References.isSequence = true →
          .null ∉ common ++ own) ∧
        new =
            some (.sequence ((common ++ own).flatMap References.spliced))) := by
  unfold joining
  dsimp only
  rw [commonLines, ok_bind, ownLines, ok_bind]
  by_cases empty : common ++ own = []
  · simp [empty, eq_comm]
  · have isEmpty : (common ++ own).isEmpty = false := by simpa using empty
    rw [isEmpty]
    simp only [Bool.false_eq_true, if_false, bind_eq_ok_iff,
      References.flattenItems_eq_ok_iff, pure_eq_ok, empty, false_and, false_or,
      ne_eq, not_false_eq_true, true_and]
    constructor
    · intro success
      obtain ⟨_, ⟨present, rfl⟩, equal⟩ := success
      cases equal
      exact ⟨present, rfl⟩
    · intro both
      obtain ⟨present, rfl⟩ := both
      exact ⟨_, ⟨present, rfl⟩, rfl⟩

/-- A script whose lines the lines of the pipeline come in front of, where they
stand already. -/
structure ScriptAgain (common : List Node)
    (before after : Option Node) : Prop where
  front : common <+: linesOf before
  lines : linesOf after = common ++ linesOf before
  script : IsScript after
  same : common = [] → after = before

private theorem null_notMem_of_spliced {lines : List Node}
    (scalars : ∀ line ∈ lines.flatMap References.spliced,
      line.scalar?.isSome = true) :
    .null ∉ lines := by
  intro member
  have spliced : Node.null ∈ lines.flatMap References.spliced :=
    List.mem_flatMap.mpr ⟨.null, member, by simp [References.spliced]⟩
  exact References.null_notMem_of_scalars scalars spliced

/-- The lines of a script that was joined are not flattened further: only the
lines of the pipeline can be nested. -/
theorem joining_again (success : joining field fallback trail current = .ok new)
    (script : IsScript (new.or current)) :
    ∃ again, joining field fallback trail (new.or current) = .ok again ∧
      ScriptAgain ((linesOf fallback).flatMap References.spliced)
        (new.or current) (again.or (new.or current)) := by
  obtain ⟨common, commonLines, remaining⟩ := bind_eq_ok_iff.mp success
  obtain ⟨own, ownLines, _⟩ := bind_eq_ok_iff.mp remaining
  obtain rfl := scriptLines_eq_ok commonLines
  rcases (joining_eq_ok_iff commonLines ownLines).mp success with
    ⟨empty, rfl⟩ | ⟨_, _, rfl⟩
  · refine ⟨none, success, ?_⟩
    rw [(List.append_eq_nil_iff.mp empty).1]
    exact ⟨List.nil_prefix, rfl, script, fun _ => rfl⟩
  · rw [Option.some_or] at script ⊢
    let flat := (linesOf fallback ++ own).flatMap References.spliced
    have split : flat = (linesOf fallback).flatMap References.spliced ++
        own.flatMap References.spliced := List.flatMap_append
    have scalars : ∀ line ∈ flat, line.scalar?.isSome = true := script.scalars
    have front : (linesOf fallback).flatMap References.spliced <+: flat :=
      split ▸ List.prefix_append ..
    have commonScalars := fun line member => scalars line (front.subset member)
    by_cases empty : linesOf fallback ++ flat = []
    · obtain ⟨nothing, noLines⟩ := List.append_eq_nil_iff.mp empty
      refine ⟨none,
        (joining_eq_ok_iff commonLines (script.scriptLines _)).mpr ?_, ?_⟩
      · exact .inl ⟨empty, rfl⟩
      · have bare : (linesOf fallback).flatMap References.spliced = [] := by
          rw [nothing]; rfl
        rw [bare]
        exact ⟨List.nil_prefix, rfl, script, fun _ => rfl⟩
    · have present : .null ∉ linesOf fallback ++ flat := by
        rw [List.mem_append, not_or]
        exact ⟨null_notMem_of_spliced commonScalars,
          References.null_notMem_of_scalars scalars⟩
      have joined : (linesOf fallback ++ flat).flatMap References.spliced =
          (linesOf fallback).flatMap References.spliced ++ flat := by
        rw [List.flatMap_append, References.flatMap_spliced_of_scalars scalars]
      refine ⟨some
        (.sequence ((linesOf fallback ++ flat).flatMap References.spliced)),
        (joining_eq_ok_iff commonLines (script.scriptLines _)).mpr ?_, ?_⟩
      · exact .inr ⟨empty, fun _ => present, rfl⟩
      · rw [joined, Option.some_or]
        refine ⟨front, rfl, ?_, ?_⟩
        · apply IsScript.lines
          intro line member
          rcases List.mem_append.mp member with inCommon | inFlat
          · exact commonScalars line inCommon
          · exact scalars line inFlat
        · intro nothing
          rw [nothing, List.nil_append]

/-! ## Jobs -/

/-- The fields of the scripts of a job. -/
def scriptFields : List String := ["before_script", "script", "after_script"]

/-- What becomes of the value of a field that is updated once more. -/
inductive FieldAgain (field : String) (common : List Node)
    (before after : Option Node) : Prop where
  | rests : field ∉ scriptFields → after = before →
      FieldAgain field common before after
  | script :
      field ∈ scriptFields → ScriptAgain common before after →
      FieldAgain field common before after

private theorem Update.Rests.again {update : Update} {common : List Node}
    (rests : update.Rests trail current) (noScript : field ∉ scriptFields) :
    ∃ again, update trail current = .ok again ∧
      FieldAgain field common current (again.or current) := by
  obtain ⟨again, updated, same⟩ := rests
  exact ⟨again, updated, .rests noScript same⟩

/-- A pass over one field, run again over what it left. -/
theorem fieldPass_again {pass : FieldPass} (listed : pass ∈ fieldPasses)
    (success : pass.2 fallback trail current = .ok new)
    (script : pass.1 ∈ scriptFields → IsScript (new.or current)) :
    ∃ again, pass.2 fallback trail (new.or current) = .ok again ∧
      FieldAgain pass.1 ((linesOf fallback).flatMap References.spliced)
        (new.or current) (again.or (new.or current)) := by
  simp only [fieldPasses, List.mem_cons, List.not_mem_nil, or_false] at listed
  have joins (field : String) (isScript : field ∈ scriptFields)
      (success : joining field fallback trail current = .ok new)
      (script : IsScript (new.or current)) :
      ∃ again, joining field fallback trail (new.or current) = .ok again ∧
        FieldAgain field ((linesOf fallback).flatMap References.spliced)
          (new.or current) (again.or (new.or current)) := by
    obtain ⟨again, updated, lines⟩ := joining_again success script
    exact ⟨again, updated, .script isScript lines⟩
  rcases listed with rfl | rfl | rfl | rfl | rfl | rfl
  · have rests : (inheriting fallback).Rests trail (new.or current) :=
      inheriting_rests success
    exact rests.again (by decide)
  · exact (normalizing_rests normalizeImage_stable success).again (by decide)
  · exact (normalizing_rests normalizeServices_stable success).again (by decide)
  · exact joins _ (by decide) success (script (by decide))
  · exact joins _ (by decide) success (script (by decide))
  · exact joins _ (by decide) success (script (by decide))

/-- A completed job beside the same job completed again. -/
structure Repeats (document : Node) (job again : Entries) : Prop where
  others : ∀ key, key ∉ scriptFields → again.lookup key = job.lookup key
  scripts : ∀ field ∈ scriptFields,
    ScriptAgain (commonLines document field) (job.lookup field)
      (again.lookup field)
  same : (∀ field ∈ scriptFields, commonLines document field = []) → again = job

/-- A job whose script can be read is runnable if it has a line or a trigger. -/
theorem isRunnable_eq {job : Entries}
    (script : IsScript (job.lookup "script")) :
    isRunnable job =
      (!(linesOf (job.lookup "script")).isEmpty ||
        (job.value? "trigger").isSome) := by
  unfold isRunnable
  cases found : job.lookup "script" with
  | none => rfl
  | some value =>
      rw [found] at script
      cases script <;> rfl

private theorem Repeats.runs {document : Node} {job again : Entries}
    (repeats : Repeats document job again)
    (script : IsScript (job.lookup "script")) (runs : isRunnable job = true) :
    isRunnable again = true := by
  have scriptAgain := repeats.scripts "script" (by decide)
  rw [isRunnable_eq script] at runs
  rw [isRunnable_eq scriptAgain.script, scriptAgain.lines, value?_eq_given,
    repeats.others "trigger" (by decide), ← value?_eq_given]
  rcases Bool.or_eq_true_iff.mp runs with hasLines | isTrigger
  · simp only [Bool.not_eq_true', List.isEmpty_eq_false_iff] at hasLines
    simp [hasLines]
  · simp [isTrigger]

/-- Each field of a job can be updated once more. -/
def FieldsAgain (document : Node) (trail : Trail) (job : Entries) : Prop :=
  ∀ pass ∈ fieldPasses, ∃ new,
    pass.2 (pipelineDefault document pass.1) trail (job.lookup pass.1) =
      .ok new ∧
      FieldAgain pass.1 (commonLines document pass.1) (job.lookup pass.1)
        (new.or (job.lookup pass.1))

section

variable {document : Node} {original job again : Entries}

private theorem fieldsAgain_of_writeAll
    (written : writeAll (FieldPass.writes fieldPasses document) trail original =
      .ok job) (scripts : ∀ field ∈ scriptFields, IsScript (job.lookup field)) :
    FieldsAgain document trail job := by
  intro pass listed
  have first := written_of_writeAll (distinct_writes document) written
  obtain ⟨new, updated, left⟩ :=
    first.updated pass.1 _ (List.mem_map_of_mem listed)
  have script := scripts pass.1
  rw [left] at script ⊢
  exact fieldPass_again listed updated script

private theorem FieldsAgain.exists_writeAll
    (fields : FieldsAgain document trail job) :
    ∃ again, writeAll (FieldPass.writes fieldPasses document) trail job =
      .ok again := by
  apply JobFields.exists_writeAll (distinct_writes document)
  intro field update member
  obtain ⟨pass, listed, equal⟩ := List.mem_map.mp member
  cases equal
  obtain ⟨new, updated, _⟩ := fields pass listed
  exact ⟨new, updated⟩

/-- What a field is left with is what it comes to when it is
updated on its own. -/
theorem FieldsAgain.left (fields : FieldsAgain document trail job)
    (written : Written (FieldPass.writes fieldPasses document) trail job again)
    {pass : FieldPass} (listed : pass ∈ fieldPasses) :
    FieldAgain pass.1 (commonLines document pass.1) (job.lookup pass.1)
      (again.lookup pass.1) := by
  obtain ⟨new, updated, becomes⟩ := fields pass listed
  obtain ⟨_, updatedAgain, left⟩ :=
    written.updated pass.1 _ (List.mem_map_of_mem listed)
  cases updated.symm.trans updatedAgain
  rw [left]
  exact becomes

private theorem FieldsAgain.rests (fields : FieldsAgain document trail job)
    (nothing : ∀ field ∈ scriptFields, commonLines document field = []) :
    writeAll (FieldPass.writes fieldPasses document) trail job = .ok job := by
  apply writeAll_of_rests
  intro field update member
  obtain ⟨pass, listed, equal⟩ := List.mem_map.mp member
  cases equal
  obtain ⟨new, updated, becomes⟩ := fields pass listed
  refine ⟨new, updated, ?_⟩
  cases becomes with
  | rests _ same => exact same
  | script isScript scriptAgain =>
      exact scriptAgain.same (nothing pass.1 isScript)

private theorem FieldsAgain.repeats (fields : FieldsAgain document trail job)
    (success : writeAll (FieldPass.writes fieldPasses document) trail job =
      .ok again) :
    Repeats document job again := by
  have written := written_of_writeAll (distinct_writes document) success
  constructor
  · intro key noScript
    by_cases listed : key ∈ (FieldPass.writes fieldPasses document).map Prod.fst
    · obtain ⟨_, member, rfl⟩ := List.mem_map.mp listed
      obtain ⟨pass, isPass, rfl⟩ := List.mem_map.mp member
      cases fields.left written isPass with
      | rests _ same => exact same
      | script isScript _ => exact (noScript isScript).elim
    · exact written.others key listed
  · intro field isScript
    have covered :
        ∀ field ∈ scriptFields, field ∈ fieldPasses.map Prod.fst := by decide
    obtain ⟨pass, isPass, rfl⟩ := List.mem_map.mp (covered field isScript)
    cases fields.left written isPass with
    | rests noScript _ => exact (noScript isScript).elim
    | script _ becomes => exact becomes
  · intro nothing
    cases success.symm.trans (fields.rests nothing)
    rfl

/-- Completing a completed job whose scripts can be read puts the lines of the
pipeline in front of them once more, and does nothing else. -/
theorem complete_again (success : complete document trail original = .ok job)
    (scripts : ∀ field ∈ scriptFields, IsScript (job.lookup field)) :
    ∃ again, complete document trail job = .ok again ∧
      Repeats document job again := by
  obtain ⟨written, runs⟩ := complete_eq_ok_iff.mp success
  have fields := fieldsAgain_of_writeAll written scripts
  obtain ⟨again, writtenAgain⟩ := fields.exists_writeAll
  have repeats := fields.repeats writtenAgain
  have runsAgain := repeats.runs (scripts "script" (by decide)) runs
  exact ⟨again, complete_eq_ok_iff.mpr ⟨writtenAgain, runsAgain⟩, repeats⟩

end

end JobFields

end CiPipeline
