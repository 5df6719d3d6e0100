import CiPipeline.Proofs.Document.Inheritance

/-!
# When jobs inherit

An entry extends the entries that it names as its parents.  Inheritance succeeds
exactly when all jobs are mappings, parents are properly written, and what the
jobs extend is there and not too far above them.
-/

namespace CiPipeline.Inheritance

open CiPipeline.Sequencing

/-! ## Parents as they are written -/

/-- The proper values of `extends`: none, a single name, or a list of names. -/
inductive ProperParents : Option Node → Prop where
  | absent : ProperParents none
  | null : ProperParents (some .null)
  | single (parent : String) : ProperParents (some (.text parent))
  | listed (parents : List String) :
      ProperParents (some (.sequence (parents.map .text)))

/-- A proper entry: a job is a mapping, and the parents of a job or a template
are properly written. -/
structure ProperEntry (name : String) (definition : Node) : Prop where
  job : JobName.isReal name = true → definition.isMapping = true
  parents : JobName.isReserved name = false → ∀ fields,
    definition = .mapping fields →
    ProperParents (fields.lookup "extends")

theorem checkParents_eq_ok_iff {trail : Trail} {parents : List Node} :
    checkParents trail parents = .ok () ↔
      ∃ names : List String, parents = names.map .text := by
  induction parents with
  | nil => exact iff_of_true rfl ⟨[], rfl⟩
  | cons parent rest induction =>
      cases parent with
      | text name =>
          rw [checkParents, induction]
          constructor
          · rintro ⟨names, rfl⟩
            exact ⟨name :: names, rfl⟩
          · rintro ⟨names, spelled⟩
            cases names with
            | nil => cases spelled
            | cons first others =>
                cases spelled
                exact ⟨others, rfl⟩
      | _ =>
          refine iff_of_false (by rintro ⟨⟩) ?_
          rintro ⟨names, spelled⟩
          cases names <;> cases spelled

theorem normalizeParents_isOk_iff {trail : Trail} {value : Option Node} :
    (∃ parents, normalizeParents trail value = .ok parents) ↔
      ProperParents value := by
  constructor
  · rintro ⟨parents, success⟩
    unfold normalizeParents at success
    split at success
    · exact .absent
    · exact .null
    · exact .single _
    · obtain ⟨_, checked, _⟩ := bind_eq_ok_iff.mp success
      obtain ⟨names, rfl⟩ := checkParents_eq_ok_iff.mp checked
      exact .listed names
    · cases success
  · intro proper
    cases proper with
    | absent => exact ⟨_, rfl⟩
    | null => exact ⟨_, rfl⟩
    | single parent => exact ⟨_, rfl⟩
    | listed names =>
        have checked : checkParents trail (names.map .text) = .ok () :=
          checkParents_eq_ok_iff.mpr ⟨names, rfl⟩
        exact ⟨names.map .text, by rw [normalizeParents, checked]; rfl⟩

theorem normalizeEntry_isOk_iff (trail : Trail) {name : String}
    {definition : Node} :
    (∃ normal, normalizeEntry trail (name, definition) = .ok normal) ↔
      ProperEntry name definition := by
  constructor
  · rintro ⟨normal, success⟩
    rcases normalizeEntry_eq_ok_iff.mp success with
      ⟨reserved | ⟨noMapping, notReal⟩, _⟩
        | ⟨_, fields, parents, rfl, normalized, _⟩
    · constructor
      · intro real
        cases reserved.symm.trans (JobName.isReserved_of_isReal real)
      · intro unlisted
        cases reserved.symm.trans unlisted
    · constructor
      · intro real
        cases notReal.symm.trans real
      · rintro _ fields rfl
        cases noMapping
    · refine ⟨fun _ => rfl, ?_⟩
      rintro _ _ ⟨rfl⟩
      exact normalizeParents_isOk_iff.mp ⟨parents, normalized⟩
  · intro proper
    simp only [normalizeEntry_eq_ok_iff]
    cases listed : JobName.isReserved name with
    | true => exact ⟨_, .inl ⟨.inl rfl, rfl⟩⟩
    | false =>
        cases definition with
        | mapping fields =>
            obtain ⟨parents, normalized⟩ :=
              normalizeParents_isOk_iff.mpr (proper.parents listed fields rfl)
            exact ⟨_, .inr ⟨rfl, fields, parents, rfl, normalized, rfl⟩⟩
        | _ =>
            have notReal : JobName.isReal name = false := by
              refine Bool.eq_false_iff.mpr fun real => ?_
              cases proper.job real
            exact ⟨_, .inl ⟨.inr ⟨rfl, notReal⟩, rfl⟩⟩

/-! ## Ancestors -/

/-- Whether one entry names another one, as it stands in the document,
as a parent. -/
def Extends (entries : Entries) (heir parent : String × Node) : Prop :=
  parent.1 ∈ declaredParents heir.1 heir.2 ∧
    entries.value? parent.1 = some parent.2

/-- Whether an entry and everything above it name parents that are there, and
chains of parents have less than a number of links. -/
structure Supported (entries : Entries) (limit : Nat)
    (start : String × Node) : Prop where
  named : ∀ heir, Relation.ReflTransGen (Extends entries) start heir →
    ∀ parent ∈ declaredParents heir.1 heir.2,
      ∃ definition, entries.value? parent = some definition
  bounded : ∀ chain, (start :: chain).IsChain (Extends entries) →
    chain.length < limit

variable {entries normal : Entries}

private theorem not_supported_zero {start : String × Node} :
    ¬ Supported entries 0 start := by
  intro supported
  cases supported.bounded [] (.singleton start)

/-- An entry is supported when each of its parents is there and supported with
one link less. -/
theorem supported_succ_iff {limit : Nat} {start : String × Node} :
    Supported entries (limit + 1) start ↔
      ∀ parent ∈ declaredParents start.1 start.2, ∃ definition,
        entries.value? parent = some definition ∧
          Supported entries limit (parent, definition) := by
  constructor
  · intro supported parent declared
    obtain ⟨definition, found⟩ := supported.named start .refl parent declared
    have link : Extends entries start (parent, definition) := ⟨declared, found⟩
    refine ⟨definition, found, ?_, ?_⟩
    · intro heir path
      exact supported.named heir (.head link path)
    · intro chain above
      have longer := supported.bounded ((parent, definition) :: chain)
        (.cons_cons link above)
      simpa using longer
  · intro above
    constructor
    · intro heir path
      rcases Relation.ReflTransGen.cases_head path with
        rfl | ⟨next, ⟨declared, found⟩, rest⟩
      · intro parent declared
        obtain ⟨definition, found, _⟩ := above parent declared
        exact ⟨definition, found⟩
      · obtain ⟨definition, foundAgain, supported⟩ := above next.1 declared
        cases found.symm.trans foundAgain
        exact supported.named heir rest
    · intro chain links
      cases chain with
      | nil => exact Nat.succ_pos limit
      | cons next rest =>
          obtain ⟨⟨declared, found⟩, further⟩ := List.isChain_cons_cons.mp links
          obtain ⟨definition, foundAgain, supported⟩ := above next.1 declared
          cases found.symm.trans foundAgain
          exact Nat.succ_lt_succ (supported.bounded rest further)

private theorem Normalized.eq_null {name : String} {original : Node}
    (normalized : Normalized name original .null) : original = .null := by
  have others := normalized.others
  cases original with
  | null => rfl
  | _ => cases others

/-- A parent that is found as it was written is found among the
normalized entries. -/
theorem exists_normalized (related : Entries.Related Normalized entries normal)
    {parent : String} {original : Node}
    (found : entries.value? parent = some original) :
    ∃ definition, normal.value? parent = some definition ∧
      Normalized parent original definition := by
  have written : entries.lookup parent = some original ∧ original ≠ .null := by
    unfold Entries.value? at found
    split at found
    · cases found
    · rename_i present
      refine ⟨found, ?_⟩
      rintro rfl
      exact present found
  obtain ⟨definition, standing, normalized⟩ := related.lookup written.1
  refine ⟨definition, Entries.value?_of_lookup standing ?_, normalized⟩
  rintro rfl
  exact written.2 normalized.eq_null

/-- The ancestors of an entry are found exactly when it is supported. -/
theorem ancestors_isOk_iff (related : Entries.Related Normalized entries normal)
    (depth : Nat) {trail : Trail} {name : String} {original definition : Node}
    (normalized : Normalized name original definition) :
    (∃ lines, ancestors normal depth trail name definition = .ok lines) ↔
      Supported entries depth (name, original) := by
  induction depth generalizing trail name original definition with
  | zero => exact iff_of_false (by rintro ⟨_, ⟨⟩⟩) not_supported_zero
  | succ depth induction =>
      rw [supported_succ_iff]
      simp only [ancestors_succ_eq_ok_iff]
      constructor
      · rintro ⟨_, lists, collected, _⟩ parent declared
        rw [← normalized.parents] at declared
        obtain ⟨_, _, step⟩ := exists_result_of_mapM collected declared
        obtain ⟨found, above, standing, aboveFound, _⟩ :=
          parentLine_eq_ok_iff.mp step
        obtain ⟨written, writtenFound, parentNormalized⟩ :=
          value?_of_normalized related standing
        exact ⟨written, writtenFound,
          (induction parentNormalized).mp ⟨above, aboveFound⟩⟩
      · intro above
        have each : ∀ parent ∈ parentNames definition,
            ∃ line, parentLine normal depth trail name parent = .ok line := by
          intro parent declared
          rw [normalized.parents] at declared
          obtain ⟨written, writtenFound, supported⟩ := above parent declared
          obtain ⟨found, standing, parentNormalized⟩ :=
            exists_normalized related writtenFound
          obtain ⟨lines, aboveFound⟩ :=
            (induction parentNormalized).mpr supported
          exact ⟨_, parentLine_eq_ok_iff.mpr ⟨found, lines, standing,
            aboveFound, rfl⟩⟩
        obtain ⟨lists, collected⟩ := exists_mapM_eq_ok_iff.mpr each
        exact ⟨_, lists, collected, rfl⟩

/-! ## Whole documents -/

/-- A document whose jobs can inherit. -/
structure Inheritable (entries : Entries) : Prop where
  jobs : ∀ name definition,
    (name, definition) ∈ entries → JobName.isReal name = true →
    definition.isMapping = true
  parents : ∀ name fields,
    (name, .mapping fields) ∈ entries → JobName.isReserved name = false →
    ProperParents (fields.lookup "extends")
  named : ∀ job ∈ entries, JobName.isReal job.1 = true →
    ∀ heir, Relation.ReflTransGen (Extends entries) job heir →
      ∀ parent ∈ declaredParents heir.1 heir.2,
        ∃ definition, entries.value? parent = some definition
  bounded : ∀ job ∈ entries, JobName.isReal job.1 = true →
    ∀ chain, (job :: chain).IsChain (Extends entries) → chain.length ≤ 10

theorem inheritable_iff :
    Inheritable entries ↔ (∀ entry ∈ entries, ProperEntry entry.1 entry.2) ∧
      ∀ job ∈ entries,
        JobName.isReal job.1 = true → Supported entries depthLimit job := by
  constructor
  · intro inheritable
    constructor
    · rintro ⟨name, definition⟩ member
      refine ⟨inheritable.jobs name definition member, ?_⟩
      rintro unlisted fields rfl
      exact inheritable.parents name fields member unlisted
    · intro job member real
      refine ⟨inheritable.named job member real, ?_⟩
      intro chain links
      exact Nat.lt_succ_of_le (inheritable.bounded job member real chain links)
  · rintro ⟨proper, supported⟩
    constructor
    · intro name definition member
      exact (proper _ member).job
    · intro name fields member unlisted
      exact (proper _ member).parents unlisted fields rfl
    · intro job member real
      exact (supported job member real).named
    · intro job member real chain links
      exact Nat.le_of_lt_succ ((supported job member real).bounded chain links)

theorem inheritEntry_isOk_iff {trail : Trail} {name : String}
    {definition : Node} :
    (∃ entry, inheritEntry trail normal (name, definition) = .ok entry) ↔
      (JobName.isReal name = true →
        ∃ lines, ancestors normal depthLimit (trail.descend name) name
          definition = .ok lines) := by
  simp only [inheritEntry_eq_ok_iff]
  cases JobName.isReal name with
  | false => exact iff_of_true ⟨_, .inl ⟨rfl, rfl⟩⟩ (by simp)
  | true =>
      constructor
      · rintro ⟨_, ⟨⟨⟩, _⟩ | ⟨_, lines, collected, _⟩⟩ _
        exact ⟨lines, collected⟩
      · intro found
        obtain ⟨lines, collected⟩ := found rfl
        exact ⟨_, .inr ⟨rfl, lines, collected, rfl⟩⟩

theorem inherits_iff (trail : Trail)
    (related : Entries.Related Normalized entries normal) :
    (∃ inherited, normal.mapM (inheritEntry trail normal) = .ok inherited) ↔
      ∀ job ∈ entries,
        JobName.isReal job.1 = true → Supported entries depthLimit job := by
  rw [exists_mapM_eq_ok_iff]
  constructor
  · rintro each ⟨name, original⟩ member real
    obtain ⟨definition, standing, normalized⟩ := related.symm.mem_right member
    exact (ancestors_isOk_iff related depthLimit normalized).mp
      (inheritEntry_isOk_iff.mp (each _ standing) real)
  · rintro supported ⟨name, definition⟩ standing
    obtain ⟨original, member, normalized⟩ := related.mem_right standing
    refine inheritEntry_isOk_iff.mpr fun real => ?_
    exact (ancestors_isOk_iff related depthLimit normalized).mpr
      (supported _ member real)

/-- Inheritance succeeds exactly on the documents whose jobs can inherit.  In
particular, it fails when a job is below a cycle. -/
theorem resolve_isOk_iff (trail : Trail) (entries : Entries) :
    ((∃ result, resolve trail (.mapping entries) = .ok result) ↔
      Inheritable entries) ∧
      ((∃ job ∈ entries, JobName.isReal job.1 = true ∧ ∃ other,
          Relation.ReflTransGen (Extends entries) job other ∧
          Relation.TransGen (Extends entries) other other) →
        ∃ failure, resolve trail (.mapping entries) = .error failure) := by
  have succeeds : (∃ result, resolve trail (.mapping entries) = .ok result) ↔
      Inheritable entries := by
    rw [inheritable_iff]
    simp only [resolve_eq_ok_iff]
    constructor
    · rintro ⟨_, normal, inherited, normalizedAll, inheritedAll, _⟩
      have proper := exists_mapM_eq_ok_iff.mp ⟨normal, normalizedAll⟩
      refine ⟨fun entry member =>
        (normalizeEntry_isOk_iff trail).mp (proper entry member), ?_⟩
      exact (inherits_iff trail (normalized_related normalizedAll)).mp
        ⟨inherited, inheritedAll⟩
    · rintro ⟨proper, supported⟩
      obtain ⟨normal, normalizedAll⟩ :=
        exists_mapM_eq_ok_iff.mpr fun entry member =>
        (normalizeEntry_isOk_iff trail).mpr (proper entry member)
      obtain ⟨inherited, inheritedAll⟩ :=
        (inherits_iff trail (normalized_related normalizedAll)).mpr supported
      exact ⟨_, normal, inherited, normalizedAll, inheritedAll, rfl⟩
  refine ⟨succeeds, ?_⟩
  rintro ⟨job, member, real, other, path, cycle⟩
  cases outcome : resolve trail (.mapping entries) with
  | error failure => exact ⟨failure, rfl⟩
  | ok result =>
      obtain ⟨chain, counted, links⟩ := Chains.exists_isChain path cycle 11
      have bounded :=
        (succeeds.mp ⟨result, outcome⟩).bounded job member real chain links
      omega

/-- Jobs of which each but the last one extends the next. -/
def ladder (links : Nat) : Entries :=
  (List.range links).map (fun index =>
    (toString index, .mapping [("extends", .text (toString (index + 1)))])) ++
    [(toString links, .empty)]

/-- Ten links are not too many, eleven are. -/
theorem resolve_isOk_iff_ladder :
    Inheritable (ladder 10) ∧ ¬ Inheritable (ladder 11) := by
  obtain ⟨succeeds, _⟩ := resolve_isOk_iff Trail.root (ladder 10)
  obtain ⟨failsOtherwise, _⟩ := resolve_isOk_iff Trail.root (ladder 11)
  refine ⟨succeeds.mp ⟨_, rfl⟩, ?_⟩
  intro inheritable
  obtain ⟨result, resolved⟩ := failsOtherwise.mpr inheritable
  have failed : (resolve Trail.root (.mapping (ladder 11))).isOk = false := rfl
  rw [resolved] at failed
  cases failed

end CiPipeline.Inheritance
