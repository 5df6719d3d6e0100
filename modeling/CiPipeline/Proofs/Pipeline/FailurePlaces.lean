import CiPipeline.Proofs.Document.Completion
import CiPipeline.Proofs.Document.FailurePlaces
import CiPipeline.Proofs.Pipeline.Independence
import CiPipeline.Proofs.Pipeline.JobFailures

/-!
# Where a document fails

A document is resolved phase by phase, and in each phase entry by entry.  When
it fails, it does so at one entry, and the failure has a place, whose path
starts with the key of that entry.
-/

namespace CiPipeline.Pipeline

open CiPipeline.Sequencing CiPipeline.Trail CiPipeline.JobFields

/-! ## The entry at which a document fails -/

/-- The inheritance of a document, behind its references. -/
def inherit (entries : Entries) : Except Failure Node :=
  References.resolve Trail.root (.mapping entries) >>=
    Inheritance.resolve Trail.root

/-- The passes over single fields of the jobs. -/
def completeFields (passes : List FieldPass) (document : Node) :
    Except Failure Node :=
  passes.foldlM (fun document pass => pass.run Trail.root document) document

/-- Normalizing a document fails while the entry under a key is worked on.
There is one rule for every pass: in each of them, the passes before succeed,
and so do the entries in front. -/
inductive NormalizeStops (entries : Entries) (failure : Failure) :
    String → Prop where
  | reference {key : String} {value : Node} :
      StopsAt (References.resolveOne Trail.root (.mapping entries)) failure
        (key, value) entries →
      NormalizeStops entries failure key
  | parents {resolved : Entries} {key : String} {value : Node} :
      References.resolve Trail.root (.mapping entries) =
        .ok (.mapping resolved) →
      StopsAt (Inheritance.normalizeEntry Trail.root) failure
        (key, value) resolved →
      NormalizeStops entries failure key
  | ancestors {resolved listed : Entries} {key : String} {value : Node} :
      References.resolve Trail.root (.mapping entries) =
        .ok (.mapping resolved) →
      resolved.mapM (Inheritance.normalizeEntry Trail.root) = .ok listed →
      StopsAt (Inheritance.inheritEntry Trail.root listed) failure
        (key, value) listed →
      NormalizeStops entries failure key
  | field {inherited : Node} {front back : List FieldPass} {pass : FieldPass}
      {current : Entries} {key : String} {value : Node} :
      inherit entries = .ok inherited →
      fieldPasses = front ++ pass :: back →
      completeFields front inherited = .ok (.mapping current) →
      StopsAt (changeEntry Trail.root
        (write pass.1 (pass.2 (pipelineDefault (.mapping current) pass.1))))
        failure (key, value) current →
      NormalizeStops entries failure key
  | script {inherited : Node} {completed : Entries} {key : String}
      {value : Node} :
      inherit entries = .ok inherited →
      completeFields fieldPasses inherited = .ok (.mapping completed) →
      StopsAt (changeEntry Trail.root requireScript) failure
        (key, value) completed →
      NormalizeStops entries failure key

/-- Resolving a document fails while the entry under a key is worked on: in its
normalization, at its stages, when the variables of its jobs are checked, or
when its jobs are read. -/
inductive Stops (options : PipelineOptions) (repository : Repository)
    (entries : Entries) (failure : Failure) : String → Prop where
  | normalize {key : String} :
      NormalizeStops entries failure key →
      Stops options repository entries failure key
  | stages {normal : Node} :
      normalize Trail.root (.mapping entries) = .ok normal →
      readStages Trail.root normal = .error failure →
      Stops options repository entries failure "stages"
  | bindings {normal : Node} {stages : List String} {key : String}
      {value : Node} :
      normalize Trail.root (.mapping entries) = .ok normal →
      readStages Trail.root normal = .ok stages →
      StopsAt (checkVariables Trail.root) failure (key, value)
        (definitions (withStages normal stages)) →
      Stops options repository entries failure key
  | job {normal : Node} {stages : List String} {key : String} {value : Node} :
      normalize Trail.root (.mapping entries) = .ok normal →
      readStages Trail.root normal = .ok stages →
      (definitions (withStages normal stages)).forM
        (checkVariables Trail.root) = .ok () →
      StopsAt (readJob (environment options repository
        (withStages normal stages)) stages Trail.root) failure (key, value)
        (definitions (withStages normal stages)) →
      Stops options repository entries failure key

variable {options : PipelineOptions} {repository : Repository}
  {entries : Entries} {failure : Failure} {key : String}

private theorem inherit_keys {result : Node}
    (success : inherit entries = .ok result) :
    ∃ inherited : Entries,
      result = .mapping inherited ∧ inherited.keys = entries.keys := by
  obtain ⟨_, references, inheritance⟩ := bind_eq_ok_iff.mp success
  obtain ⟨resolved, rfl, resolvedKeys⟩ := References.resolve_keys references
  obtain ⟨inherited, rfl, related⟩ := Inheritance.resolve_inherited inheritance
  exact ⟨inherited, rfl, related.keys.trans resolvedKeys⟩

private theorem completeFields_keys {passes : List FieldPass} {result : Node}
    (success : completeFields passes (.mapping entries) = .ok result) :
    ∃ completed : Entries,
      result = .mapping completed ∧ completed.keys = entries.keys := by
  unfold completeFields at success
  induction passes generalizing entries with
  | nil =>
      cases success
      exact ⟨entries, rfl, rfl⟩
  | cons pass rest induction =>
      rw [List.foldlM_cons] at success
      obtain ⟨_, first, others⟩ := bind_eq_ok_iff.mp success
      obtain ⟨between, rfl, related⟩ := mapJobs_eq_ok_iff.mp first
      obtain ⟨completed, rfl, keys⟩ := induction others
      exact ⟨completed, rfl, keys.trans related.keys⟩

theorem inherit_eq_error_iff :
    inherit entries = .error failure ↔
      (∃ entry, StopsAt (References.resolveOne Trail.root (.mapping entries))
        failure entry entries) ∨
      ∃ resolved, References.resolve Trail.root (.mapping entries) =
        .ok (.mapping resolved) ∧
        ((∃ entry, StopsAt (Inheritance.normalizeEntry Trail.root) failure
          entry resolved) ∨
          ∃ listed, resolved.mapM (Inheritance.normalizeEntry Trail.root) =
            .ok listed ∧
            ∃ entry, StopsAt (Inheritance.inheritEntry Trail.root listed)
              failure entry listed) := by
  unfold inherit
  rw [bind_eq_error_iff, References.resolve_eq_error_iff]
  simp only [← Inheritance.resolve_eq_error_iff]
  apply or_congr_right
  constructor
  · intro failed
    obtain ⟨_, references, inheritance⟩ := failed
    obtain ⟨resolved, rfl, _⟩ := References.resolve_keys references
    exact ⟨resolved, references, inheritance⟩
  · intro failed
    obtain ⟨resolved, references, inheritance⟩ := failed
    exact ⟨_, references, inheritance⟩

theorem completeFields_eq_error_iff {passes : List FieldPass} :
    completeFields passes (.mapping entries) = .error failure ↔
      ∃ front pass back current, passes = front ++ pass :: back ∧
        completeFields front (.mapping entries) = .ok (.mapping current) ∧
        ∃ entry, StopsAt (changeEntry Trail.root
          (write pass.1 (pass.2 (pipelineDefault (.mapping current) pass.1))))
          failure entry current := by
  simp only [← mapJobs_eq_error_iff]
  unfold completeFields
  rw [foldlM_eq_error_iff]
  constructor
  · intro failed
    obtain ⟨front, pass, back, _, split, passed, passFailed⟩ := failed
    obtain ⟨current, rfl, _⟩ := completeFields_keys passed
    exact ⟨front, pass, back, current, split, passed, passFailed⟩
  · intro failed
    obtain ⟨front, pass, back, current, split, passed, passFailed⟩ := failed
    exact ⟨front, pass, back, _, split, passed, passFailed⟩

/-- Normalizing a document fails exactly when it stops at one of the entries. -/
theorem normalize_eq_error_iff :
    normalize Trail.root (.mapping entries) = .error failure ↔
      ∃ key, NormalizeStops entries failure key := by
  have spelled : normalize Trail.root (.mapping entries) = inherit entries >>=
      fun inherited =>
      completeFields fieldPasses inherited >>=
          mapJobs Trail.root requireScript :=
    normalize_eq Trail.root (.mapping entries)
  rw [spelled, bind_eq_error_iff, inherit_eq_error_iff]
  constructor
  · intro failed
    rcases failed with (⟨entry, stops⟩ | ⟨resolved, references, stops⟩)
      | ⟨_, inherits, completes⟩
    · exact ⟨entry.1, .reference stops⟩
    · rcases stops with ⟨entry, stops⟩ | ⟨listed, lists, entry, stops⟩
      · exact ⟨entry.1, .parents references stops⟩
      · exact ⟨entry.1, .ancestors references lists stops⟩
    · obtain ⟨inherited, rfl, _⟩ := inherit_keys inherits
      rcases bind_eq_error_iff.mp completes with
        fieldFailed | ⟨_, fields, required⟩
      · obtain ⟨_, _, _, _, split, passed, entry, stops⟩ :=
          completeFields_eq_error_iff.mp fieldFailed
        exact ⟨entry.1, .field inherits split passed stops⟩
      · obtain ⟨completed, rfl, _⟩ := completeFields_keys fields
        obtain ⟨entry, stops⟩ := mapJobs_eq_error_iff.mp required
        exact ⟨entry.1, .script inherits fields stops⟩
  · intro stops
    obtain ⟨key, stops⟩ := stops
    cases stops with
    | reference stops => exact .inl (.inl ⟨_, stops⟩)
    | parents references stops =>
        exact .inl (.inr ⟨_, references, .inl ⟨_, stops⟩⟩)
    | ancestors references lists stops =>
        exact .inl (.inr ⟨_, references, .inr ⟨_, lists, _, stops⟩⟩)
    | field inherits split passed stops =>
        obtain ⟨inherited, rfl, _⟩ := inherit_keys inherits
        have failed :=
          completeFields_eq_error_iff.mpr ⟨_, _, _, _, split, passed, _, stops⟩
        exact .inr ⟨_, inherits, bind_eq_error_iff.mpr (.inl failed)⟩
    | script inherits fields stops =>
        have failed := mapJobs_eq_error_iff.mpr ⟨_, stops⟩
        exact .inr ⟨_, inherits,
          bind_eq_error_iff.mpr (.inr ⟨_, fields, failed⟩)⟩

/-- A document fails to resolve exactly when its resolution stops
at an entry. -/
theorem ofDocument_eq_error_iff :
    ofDocument options repository (.mapping entries) = .error failure ↔
      ∃ key, Stops options repository entries failure key := by
  unfold ofDocument
  dsimp only
  rw [bind_eq_error_iff, normalize_eq_error_iff]
  constructor
  · intro failed
    rcases failed with ⟨key, stops⟩ | ⟨normal, normalizes, failed⟩
    · exact ⟨key, .normalize stops⟩
    · rcases bind_eq_error_iff.mp failed with
        stagesFailed | ⟨stages, listed, failed⟩
      · exact ⟨"stages", .stages normalizes stagesFailed⟩
      · rcases bind_eq_error_iff.mp failed with unchecked | ⟨_, checked, failed⟩
        · obtain ⟨entry, stops⟩ := forM_eq_error_iff.mp unchecked
          exact ⟨entry.1, .bindings normalizes listed stops⟩
        · obtain ⟨entry, stops⟩ :=
            mapM_eq_error_iff.mp (bind_ok_eq_error_iff.mp failed)
          exact ⟨entry.1, .job normalizes listed checked stops⟩
  · intro stops
    obtain ⟨key, stops⟩ := stops
    cases stops with
    | normalize stops => exact .inl ⟨key, stops⟩
    | stages normalizes failed =>
        exact .inr ⟨_, normalizes, bind_eq_error_iff.mpr (.inl failed)⟩
    | bindings normalizes listed stops =>
        have failed := forM_eq_error_iff.mpr ⟨_, stops⟩
        refine .inr ⟨_, normalizes,
          bind_eq_error_iff.mpr (.inr ⟨_, listed, ?_⟩)⟩
        exact bind_eq_error_iff.mpr (.inl failed)
    | job normalizes listed checked stops =>
        have failed := mapM_eq_error_iff.mpr ⟨_, stops⟩
        refine .inr ⟨_, normalizes,
          bind_eq_error_iff.mpr (.inr ⟨_, listed, ?_⟩)⟩
        refine bind_eq_error_iff.mpr (.inr ⟨(), checked, ?_⟩)
        exact bind_ok_eq_error_iff.mpr failed

/-! ## The place of a failure -/

/-- A failure at a place whose path starts with a key: with the key by itself,
or with the key and the pointer of the reference under it. -/
inductive PlacedAt (key : String) : Failure → Prop where
  | plain (problem : Problem) (labels : List String) :
      PlacedAt key
        (.located problem (pathSeparator.intercalate (key :: labels)))
  | reference (problem : Problem) (pointer labels : List String) :
      PlacedAt key (.located problem (pathSeparator.intercalate
        (s!"[reference] {key} ⟵ {pathSeparator.intercalate pointer}" ::
          labels)))

private theorem PlacedAt.of_descend {Value : Type} {step : Except Failure Value}
    (below : (Trail.root.descend key).FailsBelow step)
    (failed : step = .error failure) :
    PlacedAt key failure := by
  obtain ⟨problem, labels, located⟩ := (below failure failed).located rfl
  rw [located]
  exact .plain problem labels

private theorem PlacedAt.of_entered {Value : Type} {step : Except Failure Value}
    {value : Node}
    (below : (References.entered Trail.root key value).FailsBelow step)
    (failed : step = .error failure) : PlacedAt key failure := by
  cases value with
  | reference pointer =>
      obtain ⟨problem, labels, located⟩ := (below failure failed).located rfl
      rw [located]
      exact .reference problem (pointer.map References.segmentText) labels
  | _ => exact .of_descend below failed

private theorem fieldPasses_failsBelow :
    ∀ pass ∈ fieldPasses, ∀ fallback, (pass.2 fallback).FailsBelow := by
  simp only [fieldPasses, List.forall_mem_cons]
  refine ⟨?_, ?_, ?_, ?_, ?_, ?_, List.forall_mem_nil _⟩
  · exact inheriting_failsBelow
  · exact normalizing_failsBelow normalizeImage_failsBelow "image"
  · exact normalizing_failsBelow normalizeServices_failsBelow "services"
  · exact joining_failsBelow "before_script"
  · exact joining_failsBelow "after_script"
  · exact joining_failsBelow "script"

private theorem NormalizeStops.placedAt
    (stops : NormalizeStops entries failure key) :
    PlacedAt key failure := by
  cases stops with
  | reference stops =>
      exact .of_entered (References.resolveOne_failsBelow _ _ _) stops.failed
  | parents _ stops =>
      exact .of_descend (Inheritance.normalizeEntry_failsBelow _ _) stops.failed
  | ancestors _ _ stops =>
      exact .of_descend (Inheritance.inheritEntry_failsBelow _ _ _) stops.failed
  | @field _ _ _ pass _ _ _ _ split _ stops =>
      have member : pass ∈ fieldPasses := by simp [split]
      apply PlacedAt.of_descend _ stops.failed
      apply changeEntry_failsBelow
      exact write_failsBelow (fieldPasses_failsBelow pass member _) pass.1
  | script _ _ stops =>
      exact .of_descend (changeEntry_failsBelow requireScript_failsBelow _ _)
        stops.failed

private theorem Stops.placedAt
    (stops : Stops options repository entries failure key) :
    PlacedAt key failure := by
  cases stops with
  | normalize stops => exact stops.placedAt
  | stages _ failed => exact .of_descend (readStages_failsBelow _ _) failed
  | bindings _ _ stops =>
      exact .of_descend (checkVariables_failsBelow _ _) stops.failed
  | job _ _ _ stops =>
      exact .of_descend (readJob_failsBelow _ _ _ _) stops.failed

private theorem mem_keys_of_stopsAt {Result : Type}
    {step : String × Node → Except Failure Result} {value : Node}
    (stops : StopsAt step failure (key, value) entries) : key ∈ entries.keys :=
  List.mem_map_of_mem stops.mem

private theorem NormalizeStops.mem_keys
    (stops : NormalizeStops entries failure key) :
    key ∈ entries.keys := by
  cases stops with
  | reference stops => exact mem_keys_of_stopsAt stops
  | parents references stops =>
      obtain ⟨resolved, equal, keys⟩ := References.resolve_keys references
      cases equal
      rw [← keys]
      exact mem_keys_of_stopsAt stops
  | ancestors references lists stops =>
      obtain ⟨resolved, equal, keys⟩ := References.resolve_keys references
      cases equal
      rw [← keys, ← (Inheritance.normalized_related lists).keys]
      exact mem_keys_of_stopsAt stops
  | field inherits _ passed stops =>
      obtain ⟨inherited, rfl, keys⟩ := inherit_keys inherits
      obtain ⟨current, equal, currentKeys⟩ := completeFields_keys passed
      cases equal
      rw [← keys, ← currentKeys]
      exact mem_keys_of_stopsAt stops
  | script inherits fields stops =>
      obtain ⟨inherited, rfl, keys⟩ := inherit_keys inherits
      obtain ⟨completed, equal, completedKeys⟩ := completeFields_keys fields
      cases equal
      rw [← keys, ← completedKeys]
      exact mem_keys_of_stopsAt stops

private theorem mem_keys_of_definitions {normal definition : Node}
    {stages : List String}
    (normalizes : normalize Trail.root (.mapping entries) = .ok normal)
    (member : (key, definition) ∈ definitions (withStages normal stages)) :
    key ∈ entries.keys := by
  obtain ⟨settled, rfl, keys, _⟩ := normalize_settled normalizes
  rw [definitions_withStages] at member
  rw [← keys]
  exact List.mem_map_of_mem (List.mem_filter.mp member).1

private theorem Stops.mem_keys
    (stops : Stops options repository entries failure key) :
    key ∈ entries.keys ∨ key = "stages" := by
  cases stops with
  | normalize stops => exact .inl stops.mem_keys
  | stages => exact .inr rfl
  | bindings normalizes _ stops =>
      exact .inl (mem_keys_of_definitions normalizes stops.mem)
  | job normalizes _ _ stops =>
      exact .inl (mem_keys_of_definitions normalizes stops.mem)

/-- A document that fails to resolve stops at one of its entries, or
at its stages, and the failure is located: its path starts with the
key of that entry. -/
theorem ofDocument_placedAt
    (failed : ofDocument options repository (.mapping entries) =
      .error failure) :
    ∃ key, Stops options repository entries failure key ∧
      (key ∈ entries.keys ∨ key = "stages") ∧ PlacedAt key failure := by
  obtain ⟨key, stops⟩ := ofDocument_eq_error_iff.mp failed
  exact ⟨key, stops, stops.mem_keys, stops.placedAt⟩

/-- A document with a job whose rules are no list. -/
def ruledDocument : Entries :=
  [("stages", .sequence [.text "test"]),
    ("check", .mapping [("script", .sequence [.text "make"]),
      ("rules", .boolean true)])]

/-- Rules are read without a place of their own, and get the one at
which they stand. -/
theorem ofDocument_placedAt_ruled :
    ∃ failure, failure = .located (.other ("JSON serialization error: " ++
        "data did not match any variant of untagged enum RuleSet"))
        "check ⋯ rules" ∧
      ofDocument {} {} (.mapping ruledDocument) = .error failure ∧
      ∃ key ∈ ["stages", "check"], Stops {} {} ruledDocument failure key ∧
        PlacedAt key failure := by
  have failed : ofDocument {} {} (.mapping ruledDocument) =
      .error (.located (.other ("JSON serialization error: " ++
        "data did not match any variant of untagged enum RuleSet"))
        "check ⋯ rules") :=
          rfl
  obtain ⟨key, stops, keys, placed⟩ := ofDocument_placedAt failed
  refine ⟨_, rfl, failed, key, ?_, stops, placed⟩
  rcases keys with listed | rfl
  · exact listed
  · exact List.mem_cons_self

end CiPipeline.Pipeline
