import CiPipeline.Inheritance
import CiPipeline.Proofs.Document.Merging
import CiPipeline.Proofs.Sequencing

/-!
# What jobs inherit

The lineage of a job follows the parents that the definitions declare in
the document as it was written.  Every job becomes its definition merged
over its lineage.
-/

namespace CiPipeline

namespace JobName

private theorem isReserved_of_isHidden {name : String}
    (hidden : isHidden name = true) :
    isReserved name = false := by
  have visible : ∀ key ∈ reserved, isHidden key = false := by decide
  cases listed : isReserved name with
  | false => rfl
  | true =>
      have notHidden := visible name (List.contains_iff_mem.mp listed)
      simp [notHidden] at hidden

theorem isReserved_of_isReal {name : String} (real : isReal name = true) :
    isReserved name = false := by
  simp only [isReal, Bool.and_eq_true, Bool.not_eq_true'] at real
  exact real.1

end JobName

namespace Inheritance

open CiPipeline.Sequencing

/-- The parents that an entry declares: the names in a list, or a single name.
The entries that configure the pipeline declare parents by a list only. -/
def declaredParents (name : String) (definition : Node) : List String :=
  match definition.get? "extends" with
  | some (.text parent) => if JobName.isReserved name then [] else [parent]
  | _ => parentNames definition

/-- The definitions above a list of parents, each behind those above itself. -/
inductive Lineage (entries : Entries) : List String → List Node → Prop where
  | nil : Lineage entries [] []
  | cons {parent : String} {definition : Node} {others : List String}
      {above beside : List Node} :
      entries.value? parent = some definition →
      Lineage entries (declaredParents parent definition) above →
      Lineage entries others beside →
      Lineage entries (parent :: others) (above ++ definition :: beside)

/-- There is at most one lineage. -/
theorem Lineage.unique {entries : Entries} {parents : List String}
    {first second : List Node} (left : Lineage entries parents first)
    (right : Lineage entries parents second) :
    first = second := by
  induction left generalizing second with
  | nil =>
      cases right
      rfl
  | cons found _ _ aboveUnique besideUnique =>
      cases right with
      | cons foundAgain above beside =>
          cases found.symm.trans foundAgain
          rw [aboveUnique above, besideUnique beside]

/-! ## The steps of inheriting -/

section

variable {trail : Trail} {name : String} {definition : Node} {entries : Entries}
  {entry : String × Node}

/-- An entry is kept, or its parents are turned into a list. -/
theorem normalizeEntry_eq_ok_iff :
    normalizeEntry trail (name, definition) = .ok entry ↔
      ((JobName.isReserved name = true ∨
          definition.isMapping = false ∧ JobName.isReal name = false) ∧
        entry = (name, definition)) ∨
      (JobName.isReserved name = false ∧
        ∃ (fields : Entries) (parents : List Node),
        definition = .mapping fields ∧
        normalizeParents ((trail.descend name).descend "extends")
          (fields.lookup "extends") = .ok parents ∧
        entry =
            (name, .mapping (fields.put "extends" (.sequence parents)))) := by
  unfold normalizeEntry
  dsimp only
  constructor
  · intro success
    split at success
    · rename_i listed
      cases success
      exact .inl ⟨.inl listed, rfl⟩
    · rename_i unlisted
      split at success
      · rename_i fields
        obtain ⟨parents, normalized, equal⟩ := bind_eq_ok_iff.mp success
        cases equal
        exact .inr ⟨Bool.eq_false_iff.mpr unlisted, fields, parents, rfl,
          normalized, rfl⟩
      · rename_i noMapping
        split at success
        · cases success
        · rename_i notReal
          cases success
          refine .inl ⟨.inr ⟨?_, Bool.eq_false_iff.mpr notReal⟩, rfl⟩
          cases definition with
          | mapping fields => exact (noMapping fields rfl).elim
          | _ => rfl
  · rintro (⟨listed | ⟨noMapping, notReal⟩, rfl⟩ |
      ⟨unlisted, fields, parents, rfl, normalized, rfl⟩)
    · rw [if_pos listed]
    · cases definition with
      | mapping fields => cases noMapping
      | _ => simp [notReal]
    · rw [if_neg (by simp [unlisted])]
      exact bind_eq_ok_iff.mpr ⟨parents, normalized, rfl⟩

/-- A parent behind those above it. -/
def parentLine (entries : Entries) (depth : Nat) (trail : Trail)
    (name parentName : String) : Except Failure (List Node) := do
  let trail := (trail.descend "extends").descend parentName
  let parent ← trail.require (entries.value? parentName)
    (.unknownParent parentName name)
  return (← ancestors entries depth trail parentName parent) ++ [parent]

theorem parentLine_eq_ok_iff {depth : Nat} {parentName : String}
    {line : List Node} :
    parentLine entries depth trail name parentName = .ok line ↔
      ∃ parent above, entries.value? parentName = some parent ∧
        ancestors entries depth ((trail.descend "extends").descend parentName)
          parentName parent = .ok above ∧
        line = above ++ [parent] := by
  simp only [parentLine, bind_eq_ok_iff, Trail.require_eq_ok_iff, pure_eq_ok,
    Except.ok.injEq]
  constructor
  · rintro ⟨parent, found, above, collected, rfl⟩
    exact ⟨parent, above, found, collected, rfl⟩
  · rintro ⟨parent, above, found, collected, rfl⟩
    exact ⟨parent, found, above, collected, rfl⟩

theorem ancestors_succ_eq_ok_iff {depth : Nat} {lines : List Node} :
    ancestors entries (depth + 1) trail name definition = .ok lines ↔
      ∃ lists, (parentNames definition).mapM
        (parentLine entries depth trail name) = .ok lists ∧
        lines = lists.flatten := by
  rw [ancestors]
  refine bind_eq_ok_iff.trans
    (exists_congr fun lists => and_congr_right fun _ => ?_)
  rw [pure_eq_ok, Except.ok.injEq, eq_comm]

/-- A job is merged over its ancestors, and any other entry is kept. -/
theorem inheritEntry_eq_ok_iff :
    inheritEntry trail entries (name, definition) = .ok entry ↔
      (JobName.isReal name = false ∧ entry = (name, definition)) ∨
      (JobName.isReal name = true ∧ ∃ above,
        ancestors entries depthLimit (trail.descend name) name definition =
          .ok above ∧
        entry = (name, Node.mergeAll (above ++ [definition]))) := by
  unfold inheritEntry
  dsimp only
  constructor
  · intro success
    split at success
    · rename_i real
      obtain ⟨above, collected, equal⟩ := bind_eq_ok_iff.mp success
      cases equal
      exact .inr ⟨real, above, collected, rfl⟩
    · rename_i notReal
      cases success
      exact .inl ⟨Bool.eq_false_iff.mpr notReal, rfl⟩
  · rintro (⟨notReal, rfl⟩ | ⟨real, above, collected, rfl⟩)
    · rw [if_neg (by simp [notReal])]
    · rw [if_pos real]
      exact bind_eq_ok_iff.mpr ⟨above, collected, rfl⟩

theorem resolve_eq_ok_iff {result : Node} :
    resolve trail (.mapping entries) = .ok result ↔
      ∃ normal inherited, entries.mapM (normalizeEntry trail) = .ok normal ∧
        normal.mapM (inheritEntry trail normal) = .ok inherited ∧
        result = .mapping (inherited.map forgetParents) := by
  unfold resolve
  constructor
  · intro success
    obtain ⟨normal, normalized, remaining⟩ := bind_eq_ok_iff.mp success
    obtain ⟨inherited, collected, equal⟩ := bind_eq_ok_iff.mp remaining
    cases equal
    exact ⟨normal, inherited, normalized, collected, rfl⟩
  · rintro ⟨normal, inherited, normalized, collected, rfl⟩
    exact bind_eq_ok_iff.mpr
      ⟨normal, normalized, bind_eq_ok_iff.mpr ⟨inherited, collected, rfl⟩⟩

end

/-! ## Normalized entries -/

/-- How an entry relates to the same entry with its parents as a list. -/
structure Normalized (name : String) (original normal : Node) : Prop where
  parents : parentNames normal = declaredParents name original
  others : normal.without "extends" = original.without "extends"
  null : original = .null → normal = .null
  reserved : JobName.isReserved name = true → normal = original

/-- An entry that is left as it is. -/
theorem Normalized.same {name : String} {definition : Node}
    (listed : JobName.isReserved name = true ∨ definition.isMapping = false) :
    Normalized name definition definition := by
  refine ⟨?_, rfl, id, fun _ => rfl⟩
  rcases listed with reserved | scalar
  · unfold declaredParents
    split
    · rename_i parent single
      simp [parentNames, single, reserved]
    · rfl
  · cases definition with
    | mapping entries => simp [Node.isMapping] at scalar
    | _ => rfl

/-- The parents of a list of parents are those it names. -/
theorem parentNames_put (fields : Entries) (parents : List Node) :
    parentNames (.mapping (fields.put "extends" (.sequence parents))) =
      parents.filterMap Node.text? := by
  simp [parentNames, Node.get?, Entries.value?]

private theorem normalizeParents_names {trail : Trail} {name : String}
    {fields : Entries}
    {parents : List Node} (listed : JobName.isReserved name = false)
    (success : normalizeParents trail (fields.lookup "extends") = .ok parents) :
    parents.filterMap Node.text? = declaredParents name (.mapping fields) := by
  cases declared : fields.lookup "extends" with
  | none =>
      rw [declared] at success
      cases success
      simp [declaredParents, parentNames, Node.get?, Entries.value?, declared]
  | some value =>
      rw [declared] at success
      cases value with
      | null =>
          cases success
          simp [declaredParents, parentNames, Node.get?,
            Entries.value?, declared]
      | text parent =>
          cases success
          simp [declaredParents, Node.get?, Entries.value?, declared,
            listed, Node.text?]
      | sequence items =>
          obtain ⟨_, _, equal⟩ := bind_eq_ok_iff.mp success
          cases equal
          simp [declaredParents, parentNames, Node.get?,
            Entries.value?, declared]
      | _ => cases success

theorem normalizeEntry_normalized {trail : Trail} {name : String}
    {definition : Node} {entry : String × Node}
    (success : normalizeEntry trail (name, definition) = .ok entry) :
    entry.1 = name ∧ Normalized name definition entry.2 := by
  rcases normalizeEntry_eq_ok_iff.mp success with
    ⟨kept, rfl⟩ | ⟨listed, fields, parents, rfl, normalized, rfl⟩
  · exact ⟨rfl, .same (kept.imp_right And.left)⟩
  · refine ⟨rfl, ?_, ?_, ?_, ?_⟩
    · rw [parentNames_put]
      exact normalizeParents_names listed normalized
    · simp [Node.without, Entries.without_put_self]
    · simp
    · simp [listed]

theorem normalized_related {trail : Trail} {entries normal : Entries}
    (success : entries.mapM (normalizeEntry trail) = .ok normal) :
    Entries.Related Normalized entries normal :=
  List.Forall₂.imp (fun _ _ step => normalizeEntry_normalized step)
    (mapM_eq_ok_iff.mp success)

/-- A parent that is found among the normalized entries is found as it
was written. -/
theorem value?_of_normalized {entries normal : Entries}
    (related : Entries.Related Normalized entries normal) {parent : String}
    {definition : Node} (found : normal.value? parent = some definition) :
    ∃ original, entries.value? parent = some original ∧
      Normalized parent original definition := by
  have present := Entries.lookup_of_value? found
  obtain ⟨original, written, normalized⟩ := related.symm.lookup present
  refine ⟨original, ?_, normalized⟩
  unfold Entries.value?
  split
  · rename_i absent
    cases written.symm.trans absent
    simp [Entries.value?, present, normalized.null rfl] at found
  · exact written

/-- The lines of single parents make up a lineage. -/
theorem Lineage.of_lines {entries : Entries} {parents : List String}
    {lines : List (List Node)}
    (all : List.Forall₂ (fun parent line => ∃ definition above,
      entries.value? parent = some definition ∧
        Lineage entries (declaredParents parent definition) above ∧
        line.map (·.without "extends") =
          (above ++ [definition]).map (·.without "extends"))
      parents lines) :
    ∃ lineage, Lineage entries parents lineage ∧
      lines.flatten.map (·.without "extends") =
        lineage.map (·.without "extends") := by
  induction all with
  | nil => exact ⟨[], .nil, rfl⟩
  | @cons parent line others rest head _ step =>
      obtain ⟨definition, above, found, aboveLineage, same⟩ := head
      obtain ⟨beside, besideLineage, sameRest⟩ := step
      refine ⟨above ++ definition :: beside,
        .cons found aboveLineage besideLineage, ?_⟩
      rw [List.flatten_cons, List.map_append, same, sameRest]
      simp

/-- The ancestors that are collected are those of the lineage, up to the parents
they name. -/
theorem ancestors_lineage {entries normal : Entries}
    (related : Entries.Related Normalized entries normal)
    (depth : Nat) {trail : Trail} {name : String} {original definition : Node}
    {lines : List Node} (normalized : Normalized name original definition)
    (success : ancestors normal depth trail name definition = .ok lines) :
    ∃ lineage, Lineage entries (declaredParents name original) lineage ∧
      lines.map (·.without "extends") = lineage.map (·.without "extends") := by
  induction depth generalizing trail name original definition lines with
  | zero => cases success
  | succ depth step =>
      obtain ⟨lists, collected, rfl⟩ := ancestors_succ_eq_ok_iff.mp success
      rw [normalized.parents] at collected
      refine Lineage.of_lines
        (List.Forall₂.imp ?_ (mapM_eq_ok_iff.mp collected))
      intro parentName line lineSuccess
      obtain ⟨parent, above, found, aboveSuccess, rfl⟩ :=
        parentLine_eq_ok_iff.mp lineSuccess
      obtain ⟨written, writtenFound, parentNormalized⟩ :=
        value?_of_normalized related found
      obtain ⟨lineage, lineageAbove, same⟩ := step parentNormalized aboveSuccess
      refine ⟨written, lineage, writtenFound, lineageAbove, ?_⟩
      simp [same, parentNormalized.others]

/-- What becomes of an entry: the entries that configure the pipeline are kept,
a template forgets its parents, and a job is merged over its lineage. -/
structure Inherited (entries : Entries) (name : String)
    (before after : Node) : Prop where
  reserved : JobName.isReserved name = true → after = before
  template : JobName.isReserved name = false → JobName.isReal name = false →
    after = before.without "extends"
  job : JobName.isReal name = true → ∃ lineage,
    Lineage entries (declaredParents name before) lineage ∧
      after = (Node.mergeAll (lineage ++ [before])).without "extends"

theorem forgetParents_eq (name : String) (definition : Node) :
    forgetParents (name, definition) =
      (name, if JobName.isReserved name then definition else definition.without
        "extends") := by
  cases definition with
  | mapping fields =>
      cases listed : JobName.isReserved name <;>
        simp [forgetParents, listed, Node.without]
  | _ => simp [forgetParents, Node.without]

theorem inheritEntry_name {trail : Trail} {entries : Entries}
    {before after : String × Node}
    (success : inheritEntry trail entries before = .ok after) :
    after.1 = before.1 := by
  obtain ⟨name, definition⟩ := before
  rcases inheritEntry_eq_ok_iff.mp success with
    ⟨_, rfl⟩ | ⟨_, _, _, rfl⟩ <;> rfl

private theorem inheritEntry_inherited {entries normal : Entries}
    (related : Entries.Related Normalized entries normal) {trail : Trail}
    {name : String} {original definition : Node} {entry : String × Node}
    (normalized : Normalized name original definition)
    (success : inheritEntry trail normal (name, definition) = .ok entry) :
    Inherited entries name original (forgetParents entry).2 := by
  rcases inheritEntry_eq_ok_iff.mp success with
    ⟨notReal, rfl⟩ | ⟨real, above, collected, rfl⟩
  · rw [forgetParents_eq]
    refine ⟨?_, ?_, ?_⟩
    · intro reserved
      simpa [reserved] using normalized.reserved reserved
    · intro listed _
      simpa [listed] using normalized.others
    · simp [notReal]
  · have listed := JobName.isReserved_of_isReal real
    obtain ⟨lineage, lineageAbove, same⟩ :=
      ancestors_lineage related depthLimit normalized collected
    rw [forgetParents_eq]
    refine ⟨?_, ?_, ?_⟩
    · simp [listed]
    · simp [real]
    · intro _
      refine ⟨lineage, lineageAbove, ?_⟩
      simp [listed, Node.mergeAll_without, same, normalized.others]

theorem resolve_inherited {trail : Trail} {entries : Entries} {result : Node}
    (success : resolve trail (.mapping entries) = .ok result) :
    ∃ after, result = .mapping after ∧
      Entries.Related (Inherited entries) entries after := by
  obtain ⟨normal, inherited, normalizedAll, inheritedAll, rfl⟩ :=
    resolve_eq_ok_iff.mp success
  have related := normalized_related normalizedAll
  have finished : Entries.Related
      (fun name definition after => ∃ entry,
        inheritEntry trail normal (name, definition) = .ok entry ∧
          (forgetParents entry).2 = after)
      normal (inherited.map forgetParents) := by
    refine List.forall₂_map_right_iff.mpr
      (List.Forall₂.imp ?_ (mapM_eq_ok_iff.mp inheritedAll))
    intro before after step
    have kept : (forgetParents after).1 = after.1 := by rw [forgetParents_eq]
    exact ⟨kept.trans (inheritEntry_name step), after, step, rfl⟩
  refine ⟨_, rfl, (related.trans finished).mono ?_⟩
  rintro name original after ⟨definition, normalized, entry, step, rfl⟩
  exact inheritEntry_inherited related normalized step

/-- Resolving keeps the keys of a document, the entries that configure the
pipeline, and the templates up to their parents.  Every job has exactly one
lineage, and becomes its definition merged over it. -/
theorem resolve_inherits {trail : Trail} {entries : Entries} {result : Node}
    (success : resolve trail (.mapping entries) = .ok result) :
    ∃ after : Entries, result = .mapping after ∧ after.keys = entries.keys ∧
      ∀ name definition, entries.lookup name = some definition →
        (JobName.isReserved name = true → after.lookup name = some definition) ∧
        (JobName.isHidden name = true →
          after.lookup name = some (definition.without "extends")) ∧
        (JobName.isReal name = true → ∃ lineage,
          Lineage entries (declaredParents name definition) lineage ∧
          (∀ other, Lineage entries (declaredParents name definition) other →
            other = lineage) ∧
          after.lookup name =
            some ((Node.mergeAll (lineage ++ [definition])).without
              "extends")) := by
  obtain ⟨after, equal, inherited⟩ := resolve_inherited success
  refine ⟨after, equal, inherited.keys, ?_⟩
  intro name definition found
  obtain ⟨final, finalFound, becomes⟩ := inherited.lookup found
  refine ⟨?_, ?_, ?_⟩
  · intro reserved
    rw [finalFound, becomes.reserved reserved]
  · intro hidden
    have template : JobName.isReal name = false := by
      simp [JobName.isReal, hidden]
    rw [finalFound,
      becomes.template (JobName.isReserved_of_isHidden hidden) template]
  · intro real
    obtain ⟨lineage, above, merged⟩ := becomes.job real
    refine ⟨lineage, above, fun other also => also.unique above, ?_⟩
    rw [finalFound, merged]

/-- The template at the top of a diamond. -/
def commonTemplate : Node :=
  .mapping [("image", .text "alpine"), ("tags", .sequence [.text "linux"])]

/-- A template that replaces a field of its parent, which it names by a text. -/
def leftTemplate : Node :=
  .mapping [("extends", .text ".common"), ("image", .text "debian")]

/-- A template with the same parent in a list. -/
def rightTemplate : Node :=
  .mapping [("stage", .text "test"), ("extends", .sequence [.text ".common"])]

/-- The job at the bottom of the diamond. -/
def diamondJob : Node :=
  .mapping [("extends", .sequence [.text ".left", .text ".right"]),
    ("script", .sequence [.text "make"])]

/-- A document whose job inherits from one template along two lines. -/
def diamond : Entries :=
  [("stages", .sequence [.text "test"]), (".common", commonTemplate),
    (".left", leftTemplate), (".right", rightTemplate), ("job", diamondJob)]

/-- The document after inheritance.  The common template is merged again after
the left one, so that its image wins. -/
def diamondInherited : Entries :=
  [("stages", .sequence [.text "test"]), (".common", commonTemplate),
    (".left", .mapping [("image", .text "debian")]),
    (".right", .mapping [("stage", .text "test")]),
    ("job",
      .mapping [("image", .text "alpine"), ("tags", .sequence [.text "linux"]),
      ("stage", .text "test"), ("script", .sequence [.text "make"])])]

theorem resolve_inherits_diamond :
    resolve Trail.root (.mapping diamond) = .ok (.mapping diamondInherited) ∧
      Entries.keys diamondInherited = Entries.keys diamond ∧
      diamondInherited.lookup "job" = some ((Node.mergeAll
        [commonTemplate, leftTemplate, commonTemplate, rightTemplate,
          diamondJob]).without "extends") := by
  have resolved : resolve Trail.root (.mapping diamond) =
    .ok (.mapping diamondInherited) := rfl
  obtain ⟨after, equal, keys, becomes⟩ := resolve_inherits resolved
  cases equal
  obtain ⟨_, _, job⟩ := becomes "job" diamondJob rfl
  obtain ⟨lineage, _, unique, merged⟩ := job rfl
  have common : Lineage diamond [".common"] ([] ++ [commonTemplate]) :=
    .cons rfl .nil .nil
  have both : Lineage diamond (declaredParents "job" diamondJob)
      ([commonTemplate] ++
        leftTemplate :: ([commonTemplate] ++ [rightTemplate])) :=
    .cons rfl common (.cons rfl common .nil)
  rw [← unique _ both] at merged
  exact ⟨resolved, keys, merged⟩

end Inheritance

end CiPipeline
