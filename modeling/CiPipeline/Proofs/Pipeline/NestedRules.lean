import CiPipeline.Proofs.Pipeline.Scheduling

/-!
# Nested rules

Where collections of rules may be nested, a rule set settles on what the flat
list of its rules settles on.  The first rule that applies ends the
evaluation, at whatever depth it stands, and so does the first one whose
condition cannot be evaluated.
-/

namespace CiPipeline

namespace RuleSet

mutual

/-- The rules of a rule set from left to right, at any depth. -/
def leaves : RuleSet → List Rule
  | .single rule => [rule]
  | .many sets => leavesOf sets

@[inherit_doc leaves]
def leavesOf : List RuleSet → List Rule
  | [] => []
  | set :: rest => set.leaves ++ leavesOf rest

end

end RuleSet

/-- The first rule of a list whose condition cannot be evaluated, the conditions
of those before it being false. -/
inductive Rule.FirstFailing (resolve : String → Option String)
    (error : ConditionError) (failing : Rule) : List Rule → Prop where
  | here {rest : List Rule} :
      failing.verdict resolve = .error error →
      FirstFailing resolve error failing (failing :: rest)
  | there {rule : Rule} {rest : List Rule} :
      rule.verdict resolve = .ok false →
      FirstFailing resolve error failing rest →
      FirstFailing resolve error failing (rule :: rest)

theorem Rule.firstFailing_cons_iff {resolve : String → Option String}
    {error : ConditionError} {rule failing : Rule} {rest : List Rule} :
    FirstFailing resolve error failing (rule :: rest) ↔
      rule.verdict resolve = .error error ∧ failing = rule ∨
        rule.verdict resolve = .ok false ∧
          FirstFailing resolve error failing rest := by
  constructor
  · intro first
    cases first with
    | here verdict => exact .inl ⟨verdict, rfl⟩
    | there verdict later => exact .inr ⟨verdict, later⟩
  · rintro (⟨verdict, rfl⟩ | ⟨verdict, later⟩)
    · exact .here verdict
    · exact .there verdict later

namespace Rules

variable {trail : Trail}

/-- A flat list fails with its first rule whose condition cannot be
evaluated. -/
theorem firstMatchOf_eq_error_iff {rules : List Rule} {failure : Failure} :
    firstMatchOf trail (rules.map .single) = .error failure ↔
      ∃ rule error, Rule.FirstFailing trail.resolve error rule rules ∧
        failure = conditionFailure trail rule error := by
  induction rules with
  | nil =>
      constructor
      · intro failed
        cases failed
      · rintro ⟨_, _, first, _⟩
        cases first
  | cons rule rest induction =>
      rw [List.map_cons, firstMatchOf_cons]
      simp only [Rule.firstFailing_cons_iff]
      cases rule.verdict trail.resolve with
      | error error => simp [eq_comm]
      | ok applies =>
          cases applies with
          | true => simp
          | false => simpa using induction

/-- A list in two parts settles on its second part where the first one settles
on nothing. -/
theorem firstMatchOf_append (front back : List RuleSet) :
    firstMatchOf trail (front ++ back) =
      match firstMatchOf trail front with
      | .error failure => .error failure
      | .ok (some outcome) => .ok (some outcome)
      | .ok none => firstMatchOf trail back := by
  induction front with
  | nil => rfl
  | cons set rest induction =>
      rw [List.cons_append, firstMatchOf, firstMatchOf, induction]
      cases firstMatch trail set with
      | error failure => rfl
      | ok found => cases found <;> rfl

mutual

private theorem firstMatch_leaves (set : RuleSet) :
    firstMatch trail set = firstMatchOf trail (set.leaves.map .single) := by
  cases set with
  | single rule =>
      rw [RuleSet.leaves, List.map_singleton, firstMatchOf, firstMatchOf]
      cases firstMatch trail (.single rule) with
      | error failure => rfl
      | ok found => cases found <;> rfl
  | many sets =>
      rw [firstMatch, RuleSet.leaves]
      exact firstMatchOf_leaves sets

private theorem firstMatchOf_leaves (sets : List RuleSet) :
    firstMatchOf trail sets =
      firstMatchOf trail ((RuleSet.leavesOf sets).map .single) := by
  cases sets with
  | nil => rfl
  | cons set rest =>
      have parts := @firstMatchOf_append trail (set.leaves.map .single)
        ((RuleSet.leavesOf rest).map .single)
      rw [firstMatchOf, firstMatch_leaves set, firstMatchOf_leaves rest,
        RuleSet.leavesOf, List.map_append]
      exact parts.symm

end

private theorem nests_of_recent {version : Version}
    (recent : 14 < version.major ∨ version.major = 14 ∧ 2 ≤ version.minor) :
    version.nests = true := by
  unfold Version.nests Version.atLeast Version.nestedRules
  simpa using recent

/-- Where rules may be nested, a rule set comes to what the flat list of its
rules comes to: the first rule whose condition is not false decides,
whatever stands behind it, and only a set all of whose conditions are false
settles on nothing. -/
theorem evaluate_leaves {version : Version}
    (recent : 14 < version.major ∨ version.major = 14 ∧ 2 ≤ version.minor)
    (trail : Trail) (rules : RuleSet) :
    evaluate version trail rules =
      evaluate version trail (.many (rules.leaves.map .single)) ∧
      (∀ outcome, evaluate version trail rules = .ok (some outcome) ↔
        ∃ rule, Rule.FirstApplying trail.resolve rule rules.leaves ∧
          outcome = ⟨true, rule⟩) ∧
      (evaluate version trail rules = .ok none ↔
        Rule.NoneApplies trail.resolve rules.leaves) ∧
      ∀ failure, evaluate version trail rules = .error failure ↔
        ∃ rule error, Rule.FirstFailing trail.resolve error rule rules.leaves ∧
          failure = conditionFailure trail rule error := by
  have nested (set : RuleSet) :
      evaluate version trail set = firstMatch trail set := by
    unfold evaluate
    rw [if_pos (nests_of_recent recent)]
  rw [nested, nested, firstMatch_leaves, firstMatch]
  refine ⟨rfl, ?_, ?_, fun failure => firstMatchOf_eq_error_iff⟩
  · intro outcome
    rw [firstMatchOf_eq_ok_iff]
    simp
  · rw [firstMatchOf_eq_ok_iff]
    simp

/-- Collections without a rule, a rule that does not apply, one that does, and a
text that is no condition. -/
def nestedSet : RuleSet :=
  .many [.many [], .many [.many [.single ⟨some "null", some "manual", none⟩],
    .many []], .many [.many [.single ⟨some "$B", some "delayed", none⟩]],
    .single ⟨some "$A ==", none, none⟩]

/-- The rule that applies is found two collections deep, and what stands behind
it does not count, although it cannot be evaluated by itself. -/
theorem evaluate_leaves_nested :
    let trail := Trail.root.bind [("B", "1")]
    let failing : Rule := ⟨some "$A ==", none, none⟩
    (14 < Version.nestedRules.major ∨
        Version.nestedRules.major = 14 ∧ 2 ≤ Version.nestedRules.minor) ∧
      evaluate Version.nestedRules trail nestedSet =
        .ok (some ⟨true, ⟨some "$B", some "delayed", none⟩⟩) ∧
      evaluate Version.nestedRules trail (.many [.single failing, nestedSet]) =
        .error (conditionFailure trail failing .unexpectedEnd) := by
  intro trail failing
  have recent : 14 < Version.nestedRules.major ∨
      Version.nestedRules.major = 14 ∧ 2 ≤ Version.nestedRules.minor :=
        .inr ⟨rfl, by decide⟩
  have first : Rule.verdict trail.resolve ⟨some "null", some "manual", none⟩ =
      .ok false := by
    decide +kernel
  have second : Rule.verdict trail.resolve ⟨some "$B", some "delayed", none⟩ =
      .ok true := by
    decide +kernel
  have third : Rule.verdict trail.resolve failing = .error .unexpectedEnd := by
    decide +kernel
  refine ⟨recent, ?_, ?_⟩
  · apply ((evaluate_leaves recent trail nestedSet).2.1 _).mpr
    exact ⟨_, .there first (.here second), rfl⟩
  · apply ((evaluate_leaves recent trail
      (.many [.single failing, nestedSet])).2.2.2 _).mpr
    exact ⟨failing, _, .here third, rfl⟩

end Rules

end CiPipeline
