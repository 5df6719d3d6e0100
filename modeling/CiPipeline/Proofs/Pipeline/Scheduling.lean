import CiPipeline.Proofs.Condition.Variables
import CiPipeline.Proofs.Pipeline.JobParts

/-!
# Schedules by flat rules

The first rule of a flat list whose condition holds decides when a job runs and
whether it may fail.  Versions differ in what a list comes to in which no
condition holds, but the job comes out the same.
-/

namespace CiPipeline

open CiPipeline.Sequencing

namespace Rule

/-- What the condition of a rule evaluates to.  A rule without one
always applies. -/
def verdict (resolve : String → Option String) (rule : Rule) :
    Except ConditionError Bool :=
  match rule.condition with
  | none => .ok true
  | some condition => Condition.holds resolve condition

/-- The first rule of a list that applies, the conditions of those before it
being false. -/
inductive FirstApplying (resolve : String → Option String) (chosen : Rule) :
    List Rule → Prop where
  | here {rest : List Rule} :
      chosen.verdict resolve = .ok true →
      FirstApplying resolve chosen (chosen :: rest)
  | there {rule : Rule} {rest : List Rule} :
      rule.verdict resolve = .ok false →
      FirstApplying resolve chosen rest →
      FirstApplying resolve chosen (rule :: rest)

/-- A list of rules none of which applies. -/
def NoneApplies (resolve : String → Option String) (rules : List Rule) : Prop :=
  ∀ rule ∈ rules, rule.verdict resolve = .ok false

variable {resolve : String → Option String} {rule chosen : Rule}
  {rest : List Rule}

theorem firstApplying_cons_iff :
    FirstApplying resolve chosen (rule :: rest) ↔
      rule.verdict resolve = .ok true ∧ chosen = rule ∨
        rule.verdict resolve = .ok false ∧
          FirstApplying resolve chosen rest := by
  constructor
  · intro first
    cases first with
    | here verdict => exact .inl ⟨verdict, rfl⟩
    | there verdict later => exact .inr ⟨verdict, later⟩
  · rintro (⟨verdict, rfl⟩ | ⟨verdict, later⟩)
    · exact .here verdict
    · exact .there verdict later

private theorem not_firstApplying_nil :
    ¬ FirstApplying resolve chosen [] := nofun

private theorem noneApplies_nil : NoneApplies resolve [] := by
  intro rule member
  cases member

theorem noneApplies_cons_iff :
    NoneApplies resolve (rule :: rest) ↔
      rule.verdict resolve = .ok false ∧ NoneApplies resolve rest :=
  List.forall_mem_cons

end Rule

/-! ## Evaluating flat lists -/

namespace Rules

private theorem holds_true (resolve : String → Option String) :
    Condition.holds resolve "true" = .ok true := by
  have named : Condition.names "true" = [] := by decide +kernel
  have closed : ∀ name ∈ Condition.names "true", resolve name = none := by
    simp [named]
  rw [Condition.holds_agree closed]
  decide +kernel

variable {trail : Trail}

private theorem holds_condition (resolve : String → Option String)
    (rule : Rule) :
    Condition.holds resolve (rule.condition.getD "true") =
      rule.verdict resolve := by
  unfold Rule.verdict
  cases rule.condition with
  | none => exact holds_true resolve
  | some condition => rfl

/-- The failure of a condition, which is shown beside its place. -/
def conditionFailure (trail : Trail) (rule : Rule)
    (error : ConditionError) : Failure :=
  (trail.descendValued "if" "rules" (.text (rule.condition.getD "true"))).fail
    (.rule error)

private theorem evaluateRule_eq (rule : Rule) :
    evaluateRule trail rule =
      match rule.verdict trail.resolve with
      | .error error => .error (conditionFailure trail rule error)
      | .ok applies => .ok (if applies then some ⟨true, rule⟩ else none) := by
  unfold evaluateRule evaluateCondition
  dsimp only
  rw [holds_condition]
  cases rule.verdict trail.resolve with
  | error error => rfl
  | ok applies => cases applies <;> rfl

/-- A rule decides a list that starts with it, unless its condition is false. -/
theorem firstMatchOf_cons (rule : Rule) (rest : List RuleSet) :
    firstMatchOf trail (.single rule :: rest) =
      match rule.verdict trail.resolve with
      | .error error => .error (conditionFailure trail rule error)
      | .ok true => .ok (some ⟨true, rule⟩)
      | .ok false => firstMatchOf trail rest := by
  rw [firstMatchOf, firstMatch, evaluateRule_eq]
  cases rule.verdict trail.resolve with
  | error error => rfl
  | ok applies => cases applies <;> rfl

/-- A flat list settles on its first rule that applies, or on nothing. -/
theorem firstMatchOf_eq_ok_iff {rules : List Rule} {outcome : Option Outcome} :
    firstMatchOf trail (rules.map .single) = .ok outcome ↔
      (∃ rule, Rule.FirstApplying trail.resolve rule rules ∧
        outcome = some ⟨true, rule⟩) ∨
        Rule.NoneApplies trail.resolve rules ∧ outcome = none := by
  induction rules with
  | nil =>
      simp [firstMatchOf, Rule.not_firstApplying_nil,
        Rule.noneApplies_nil, eq_comm]
  | cons rule rest induction =>
      rw [List.map_cons, firstMatchOf_cons]
      simp only [Rule.firstApplying_cons_iff, Rule.noneApplies_cons_iff]
      cases rule.verdict trail.resolve with
      | error error => simp
      | ok applies =>
          cases applies with
          | true => simp [eq_comm]
          | false => simpa using induction

/-- Before collections may be nested, a flat list in which no rule
applies settles on its last rule without it holding.  Otherwise it is
evaluated alike. -/
theorem firstMatchFlat_eq (version : Version) (last : Option Outcome)
    (rules : List Rule) :
    firstMatchFlat version trail last (rules.map .single) =
      (firstMatchOf trail (rules.map .single)).map fun outcome =>
        outcome.or ((rules.getLast?.map fun rule =>
          ⟨false, rule⟩).or last) := by
  induction rules generalizing last with
  | nil =>
      cases last <;> rfl
  | cons rule rest induction =>
      rw [List.map_cons, firstMatchFlat, firstMatchOf, firstMatch]
      cases evaluateRule trail rule with
      | error failure => rfl
      | ok result =>
          cases result with
          | some outcome => rfl
          | none =>
              dsimp only
              rw [induction, List.getLast?_cons]
              cases rest.getLast? <;> rfl

end Rules

/-! ## Reading flat lists -/

namespace Rule

private theorem leaf_of_optionalText? {node : Node} {text : Option String}
    (success : optionalText? (some node) = some text) :
    node.isMapping = false := by
  cases node with
  | mapping entries => cases success
  | _ => rfl

private theorem leaf_of_optionalBoolean? {node : Node} {value : Option Bool}
    (success : optionalBoolean? (some node) = some value) :
    node.isMapping = false := by
  cases node with
  | mapping entries => cases success
  | _ => rfl

/-- No field of a rule is a mapping. -/
theorem leaf_of_ofNode?_sequence {items : List Node} {rule : Rule}
    (success : ofNode? (.sequence items) = some rule) :
    ∀ item ∈ items, item.isMapping = false := by
  unfold ofNode? at success
  dsimp only at success
  split at success
  · cases success
  · rename_i short
    obtain ⟨condition, first, success⟩ := Option.bind_eq_some_iff.mp success
    obtain ⟨when_, second, success⟩ := Option.bind_eq_some_iff.mp success
    obtain ⟨allowFailure, third, _⟩ := Option.bind_eq_some_iff.mp success
    intro item member
    obtain ⟨index, bound, equal⟩ := List.mem_iff_getElem.mp member
    have found : items[index]? = some item := by
      rw [List.getElem?_eq_getElem bound, equal]
    have position : index = 0 ∨ index = 1 ∨ index = 2 := by omega
    rcases position with rfl | rfl | rfl
    · rw [found] at first
      exact leaf_of_optionalText? first
    · rw [found] at second
      exact leaf_of_optionalText? second
    · rw [found] at third
      exact leaf_of_optionalBoolean? third

end Rule

private theorem Node.plainItems_eq (items : List Node) :
    plainItems items = items.map plain := by
  induction items with
  | nil => rfl
  | cons item rest induction => rw [plainItems, induction, List.map_cons]

namespace RuleSet

private theorem exists_single_of_mapping {entries : Entries} {set : RuleSet}
    (success : ofNode? (.mapping entries) = some set) :
    ∃ rule, set = .single rule := by
  rw [ofNode?] at success
  obtain ⟨rule, _, equal⟩ := Option.map_eq_some_iff.mp success
  exact ⟨rule, equal.symm⟩

private theorem forall₂_of_ofNodes? {items : List Node} {sets : List RuleSet}
    (success : ofNodes? items = some sets) :
    List.Forall₂ (fun item set => ofNode? item = some set) items sets := by
  induction items generalizing sets with
  | nil =>
      cases success
      exact .nil
  | cons item rest induction =>
      rw [ofNodes?] at success
      split at success
      · rename_i set others first remaining
        cases success
        exact .cons first (induction remaining)
      · cases success

private theorem exists_of_ofNodes?_none {items : List Node}
    (failed : ofNodes? items = none) :
    ∃ item ∈ items, ofNode? item = none := by
  induction items with
  | nil => cases failed
  | cons item rest induction =>
      rw [ofNodes?] at failed
      cases first : ofNode? item with
      | none => exact ⟨item, List.mem_cons_self, first⟩
      | some set =>
          cases remaining : ofNodes? rest with
          | none =>
              obtain ⟨other, member, unread⟩ := induction remaining
              exact ⟨other, List.mem_cons_of_mem _ member, unread⟩
          | some sets =>
              rw [first, remaining] at failed
              cases failed

/-- An item of a flat list: it is written as a mapping, or at least read as a
single rule. -/
def IsFlatItem (item : Node) : Prop :=
  item.isMapping = true ∨ ∃ rule, ofNode? item.plain = some (.single rule)

private theorem IsFlatItem.single {item : Node} (flat : IsFlatItem item)
    {set : RuleSet} (success : ofNode? item.plain = some set) :
    ∃ rule, set = .single rule := by
  rcases flat with isMapping | ⟨rule, reads⟩
  · cases item with
    | mapping entries => exact exists_single_of_mapping success
    | _ => cases isMapping
  · rw [reads] at success
    exact ⟨rule, (Option.some.inj success).symm⟩

private theorem IsFlatItem.rules {items : List Node} {sets : List RuleSet}
    (flat : ∀ item ∈ items, IsFlatItem item)
    (all : List.Forall₂
      (fun item set => ofNode? item.plain = some set) items sets) :
    ∃ rules : List Rule, sets = rules.map .single ∧
      List.Forall₂ (fun item rule => ofNode? item.plain = some (.single rule))
        items rules := by
  induction all with
  | nil => exact ⟨[], rfl, .nil⟩
  | @cons item set rest others first _ induction =>
      obtain ⟨itemFlat, restFlat⟩ := List.forall_mem_cons.mp flat
      obtain ⟨rule, single⟩ := itemFlat.single first
      obtain ⟨rules, equal, each⟩ := induction restFlat
      refine ⟨rule :: rules, ?_, .cons ?_ each⟩
      · rw [single, equal, List.map_cons]
      · rw [first, single]

/-- A flat list is read rule by rule.  It is never taken for a rule in itself,
as no field of a rule is a mapping. -/
theorem read_flat {items : List Node} (flat : ∀ item ∈ items, IsFlatItem item)
    {set : RuleSet} (success : read (.sequence items) = .ok set) :
    ∃ rules : List Rule, set = .many (rules.map .single) ∧
      List.Forall₂ (fun item rule => ofNode? item.plain = some (.single rule))
        items rules := by
  have reads : ofNode? (.sequence (items.map Node.plain)) = some set := by
    unfold read at success
    rw [Node.plain, Node.plainItems_eq] at success
    split at success
    · rename_i found
      rw [found, Except.ok.inj success]
    · cases success
  rw [ofNode?] at reads
  cases members : ofNodes? (items.map Node.plain) with
  | some sets =>
      rw [members] at reads
      obtain ⟨rules, equal, each⟩ := IsFlatItem.rules flat
        (List.forall₂_map_left_iff.mp (forall₂_of_ofNodes? members))
      exact ⟨rules, by rw [← Option.some.inj reads, equal], each⟩
  | none =>
      rw [members] at reads
      obtain ⟨rule, single, _⟩ := Option.map_eq_some_iff.mp reads
      obtain ⟨shown, member, unread⟩ := exists_of_ofNodes?_none members
      obtain ⟨item, listed, rfl⟩ := List.mem_map.mp member
      have leaf := Rule.leaf_of_ofNode?_sequence single item.plain member
      rcases flat item listed with isMapping | ⟨other, known⟩
      · cases item with
        | mapping entries => cases leaf
        | _ => cases isMapping
      · rw [unread] at known
        cases known

end RuleSet

/-! ## Jobs with flat rules -/

namespace Job

/-- A definition whose rules are a flat list. -/
def HasFlatRules (definition : Node) (items : List Node) : Prop :=
  definition.get? "rules" = some (.sequence items) ∧ ∀ item ∈ items,
    RuleSet.IsFlatItem item

/-- When a job runs and whether it may fail, by its rules and by what its
definition says beside them.  The first rule that applies counts before the
definition. -/
inductive Decided (resolve : String → Option String) (rules : List Rule)
    (ownWhen : Option String) (ownFailure : Option Bool) :
    When → Bool → Prop where
  | applying {rule : Rule} {when_ : When} :
      Rule.FirstApplying resolve rule rules →
      (rule.when_.or ownWhen).elim (some .onSuccess) When.read? = some when_ →
      Decided resolve rules ownWhen ownFailure when_
        ((rule.allowFailure.or ownFailure).getD (when_ == .manual))
  | none : Rule.NoneApplies resolve rules →
      Decided resolve rules ownWhen ownFailure .never (ownFailure.getD false)

variable {environment : JobEnvironment} {trail : Trail} {name : String}
  {definition : Node} {items : List Node}

private theorem readRules_flat (flat : HasFlatRules definition items)
    {rules : Option RuleSet}
    (success : readRules trail definition = .ok rules) :
    ∃ list : List Rule, rules = some (.many (list.map .single)) ∧
      List.Forall₂ (fun item rule =>
        RuleSet.ofNode? item.plain = some (.single rule)) items list := by
  unfold readRules at success
  rw [flat.1] at success
  dsimp only at success
  cases read : RuleSet.read (.sequence items) with
  | error failure =>
      rw [read] at success
      cases success
  | ok set =>
      rw [read] at success
      cases success
      obtain ⟨list, equal, each⟩ := RuleSet.read_flat flat.2 read
      exact ⟨list, by rw [equal], each⟩

/-- The schedule by a flat list is the same in all versions. -/
theorem schedule_flat (version : Version) (bindings : Variables)
    (declaredWhen : Option When) (declaredFailure : Option Bool)
    (rules : List Rule) :
    schedule version trail bindings declaredWhen declaredFailure
        (some (.many (rules.map .single))) =
      Rules.firstMatchOf (trail.bind bindings) (rules.map .single) >>=
        scheduleByRule trail declaredWhen declaredFailure := by
  unfold schedule Rules.evaluate
  cases version.nests with
  | true => rfl
  | false =>
      dsimp only
      rw [if_neg (by simp), Rules.firstMatchFlat_eq]
      cases Rules.firstMatchOf (trail.bind bindings) (rules.map .single) with
      | error failure => rfl
      | ok outcome =>
          cases outcome with
          | some settled => rfl
          | none => cases rules.getLast? <;> rfl

/-- When a job runs by its definition alone. -/
theorem getD_of_readWhen {declaredWhen : Option When}
    (success : readWhen trail definition = .ok declaredWhen) :
    ((definition.get? "when").bind Node.text?).elim (some .onSuccess)
      When.read? = some (declaredWhen.getD .onSuccess) := by
  unfold readWhen at success
  cases own : (definition.get? "when").bind Node.text? with
  | none =>
      rw [own] at success
      cases success
      rfl
  | some text =>
      rw [own] at success
      dsimp only at success
      cases read : When.read (trail.descend "when") text with
      | error failure =>
          rw [read] at success
          cases success
      | ok when_ =>
          rw [read] at success
          cases success
          exact Trail.require_eq_ok_iff.mp read

private theorem decided_of_schedule {version : Version} {bindings : Variables}
    {rules : List Rule} {declaredWhen : Option When}
    {ownFailure : Option Bool} {when_ : When} {allowFailure : Bool}
    (declared : readWhen trail definition = .ok declaredWhen)
    (success : Job.schedule version trail bindings declaredWhen ownFailure
      (some (.many (rules.map .single))) = .ok ⟨when_, allowFailure⟩) :
    Decided (trail.bind bindings).resolve rules ((definition.get? "when").bind
        Node.text?) ownFailure when_ allowFailure := by
  rw [schedule_flat] at success
  obtain ⟨outcome, settled, scheduled⟩ := bind_eq_ok_iff.mp success
  rcases Rules.firstMatchOf_eq_ok_iff.mp settled with
    ⟨rule, first, equal⟩ | ⟨none, equal⟩
  · rw [equal, scheduleByRule] at scheduled
    cases given : rule.when_ with
    | some text =>
        rw [given] at scheduled
        obtain ⟨when_, chosen, finished⟩ := bind_eq_ok_iff.mp scheduled
        cases finished
        apply Decided.applying first
        rw [given]
        exact Trail.require_eq_ok_iff.mp chosen
    | none =>
        rw [given] at scheduled
        cases scheduled
        apply Decided.applying first
        rw [given, Option.none_or, getD_of_readWhen declared]
  · rw [equal] at scheduled
    cases scheduled
    exact .none none

/-- A definition with flat rules is read to the same job, or fails alike, in
all versions. -/
theorem ofDefinition_version (flat : HasFlatRules definition items)
    (version : Version) :
    ofDefinition { environment with version } trail name definition =
      ofDefinition environment trail name definition := by
  unfold ofDefinition
  dsimp only
  have bindings (stage : String) :
      allVariables { environment with version } trail name stage definition =
        allVariables environment trail name stage definition := rfl
  rw [bindings]
  congr 1
  funext bindings
  cases read : readRules trail definition with
  | error failure => rfl
  | ok rules =>
      obtain ⟨list, equal, _⟩ := readRules_flat flat read
      rw [ok_bind, ok_bind, equal]
      simp only [schedule_flat]

/-- The schedule of a job with flat rules is decided by the first rule that
applies under the variables of the job, and by its definition beside.  The
version of the rules does not matter, for the job that is built and for what
cannot be built. -/
theorem ofDefinition_flat (flat : HasFlatRules definition items) :
    (∀ job, ofDefinition environment trail name definition = .ok job →
      ∃ rules : List Rule, job.rules = some (.many (rules.map .single)) ∧
        List.Forall₂ (fun item rule =>
          RuleSet.ofNode? item.plain = some (.single rule)) items rules ∧
        Decided (trail.bind job.bindings).resolve rules
          ((definition.get? "when").bind Node.text?)
          ((definition.get? "allow_failure").bind Node.boolean?) job.when_
          job.allowFailure) ∧
    ∀ version, ofDefinition { environment with version } trail name definition =
      ofDefinition environment trail name definition := by
  constructor
  · intro job success
    have composed := ofDefinition_composed success
    obtain ⟨rules, equal, each⟩ := readRules_flat flat composed.rules
    obtain ⟨declaredWhen, declared, scheduled⟩ := composed.scheduled
    rw [equal] at scheduled
    exact ⟨rules, equal, each, decided_of_schedule declared scheduled⟩
  · exact ofDefinition_version flat

/-- A rule whose condition is false, one whose condition is true, and one that
does not count. -/
def modeRules : List Node :=
  [.mapping [("if", .text "$MODE == 'fast'"), ("when", .text "never")],
    .mapping [("if", .text "$OWNER == 'ci'"), ("allow_failure", .boolean true)],
    .mapping [("when", .text "always")]]

/-- A job with those rules that is started by hand. -/
def modeJob : Node :=
  .mapping [("script", .sequence [.text "make"]), ("when", .text "manual"),
    ("rules", .sequence modeRules)]

/-- What that job takes from a pipeline, whose rules are read as
in a version. -/
def modeEnvironment (version : Version) : JobEnvironment where
  document := .empty
  repository := {}
  pipelineNumber := 0
  overrides := [("MODE", "slow"), ("OWNER", "ci")]
  version := version

/-- What the rules are read to. -/
def modeReadRules : List Rule :=
  [⟨some "$MODE == 'fast'", some "never", none⟩,
    ⟨some "$OWNER == 'ci'", none, some true⟩, ⟨none, some "always", none⟩]

/-- What that job is read to under its variables. -/
def modeBuilt (bindings : Variables) : Job where
  name := "lint"
  stage := "test"
  beforeScript := []
  script := ["make"]
  afterScript := []
  image := none
  services := []
  artifacts := none
  needs := none
  trigger := false
  bindings := bindings
  rules := some (.many (modeReadRules.map .single))
  when_ := .manual
  allowFailure := true
  interactive := false
  injectSshAgent := false
  artifactsToSource := true
  description := none

private theorem modeBuilt_scheduled (version : Version) {bindings : Variables}
    (mode : bindings.lookup "MODE" = some "slow")
    (owner : bindings.lookup "OWNER" = some "ci") :
    schedule version Trail.root bindings (some .manual) none
      (modeBuilt bindings).rules = .ok ⟨.manual, true⟩ := by
  have first :
      Condition.holds (Trail.root.bind bindings).resolve "$MODE == 'fast'" =
        .ok false := by
    have single : Condition.names "$MODE == 'fast'" = ["MODE"] := by
      decide +kernel
    have bound : (Trail.root.bind bindings).resolve "MODE" = some "slow" := by
      simp [mode]
    rw [Condition.holds_of_single single bound]
    decide +kernel
  have second :
      Condition.holds (Trail.root.bind bindings).resolve "$OWNER == 'ci'" =
        .ok true := by
    have single : Condition.names "$OWNER == 'ci'" = ["OWNER"] := by
      decide +kernel
    have bound : (Trail.root.bind bindings).resolve "OWNER" = some "ci" := by
      simp [owner]
    rw [Condition.holds_of_single single bound]
    decide +kernel
  have applying : Rule.FirstApplying (Trail.root.bind bindings).resolve
      ⟨some "$OWNER == 'ci'", none, some true⟩ modeReadRules :=
        .there first (.here second)
  rw [modeBuilt, schedule_flat,
    Rules.firstMatchOf_eq_ok_iff.mpr (.inl ⟨_, applying, rfl⟩)]
  rfl

private theorem ofDefinition_mode (version : Version) : ∃ bindings,
    ofDefinition (modeEnvironment version) Trail.root "lint" modeJob =
      .ok (modeBuilt bindings) := by
  have layered : ∃ common : Variables,
    allVariables (modeEnvironment version) Trail.root "lint" "test" modeJob =
      .ok (Variables.put (common.put "MODE" "slow") "OWNER" "ci") := ⟨_, rfl⟩
  obtain ⟨common, bindings⟩ := layered
  have owner :=
    Variables.lookup_put_self (common.put "MODE" "slow") "OWNER" "ci"
  have mode : List.lookup "MODE"
      (Variables.put (common.put "MODE" "slow") "OWNER" "ci") =
      some "slow" := by
    rw [Variables.lookup_put_of_ne _ _ (by decide), Variables.lookup_put_self]
  exact ⟨_, ofDefinition_eq_ok_iff.mpr {
    named := rfl
    stage := rfl
    bindings := bindings
    rules := rfl
    image := rfl
    services := ⟨none, rfl, rfl⟩
    beforeScript := rfl
    script := rfl
    afterScript := rfl
    needs := rfl
    artifacts := rfl
    trigger := rfl
    scheduled := ⟨some .manual, rfl, modeBuilt_scheduled version mode owner⟩
    interactive := rfl
    injectSshAgent := rfl
    artifactsToSource := rfl
    description := rfl }⟩

/-- The second rule applies, so that the job is started by hand and may fail. -/
theorem ofDefinition_flat_mode :
    ∃ bindings rules,
      ofDefinition (modeEnvironment Version.standard) Trail.root "lint"
        modeJob = .ok (modeBuilt bindings) ∧
      (modeBuilt bindings).rules = some (.many (rules.map .single)) ∧
      Decided (Trail.root.bind bindings).resolve rules (some "manual") none
        .manual true ∧
      ofDefinition (modeEnvironment Version.nestedRules) Trail.root "lint"
          modeJob = .ok (modeBuilt bindings) := by
  obtain ⟨bindings, success⟩ := ofDefinition_mode Version.standard
  have flat : HasFlatRules modeJob modeRules := by
    refine ⟨rfl, ?_⟩
    intro item member
    left
    revert item
    simp [modeRules, Node.isMapping]
  obtain ⟨decided, sameInAll⟩ :=
    @ofDefinition_flat (modeEnvironment Version.standard) Trail.root "lint"
      modeJob modeRules flat
  obtain ⟨rules, equal, _, byRules⟩ := decided _ success
  exact ⟨bindings, rules, success, equal, byRules,
    (sameInAll Version.nestedRules).trans success⟩

end Job

end CiPipeline
