import CiPipeline.Annotations
import Mathlib.Data.Bool.AllAny
import Mathlib.Data.List.Forall2

/-!
# Where annotations land

Annotations set fields of the job that the next line starts which looks like the
start of one.  They stand behind that line, each field once, and every line of
the text is kept.
-/

namespace CiPipeline

open CiPipeline.Text

/-! ## Comments -/

/-- What a comment says about the job behind it. -/
inductive Remark where
  | interactive
  | injectSshAgent
  | keepsArtifacts
  | description (text : List Char)
  deriving DecidableEq, Repr

namespace Remark

/-- How a remark is written behind its marks. -/
inductive Written : Remark → List Char → Prop where
  | interactive {first : Char} (tail : List Char) :
      first = 'I' ∨ first = 'i' →
      Written .interactive (first :: ("nteractive".toList ++ tail))
  | injectSshAgent {first : Char} (tail : List Char) :
      first = 'I' ∨ first = 'i' →
      Written .injectSshAgent (first :: ("njectSSHAgent".toList ++ tail))
  | keepsArtifacts {word : List Char} (tail : List Char) :
      List.Forall₂ (fun expected character =>
        Annotations.sameLetter expected character = true)
        "noartifactstosource".toList word →
      Written .keepsArtifacts (word ++ tail)
  | description {first : Char} (text : List Char) :
      first = 'D' ∨ first = 'd' →
      Written (.description (trimEnd text))
        (first :: ("escription ".toList ++ text))

/-- The text of a description. -/
def description? : Remark → Option String
  | .description text => some (String.ofList text)
  | _ => none

end Remark

/-- What may stand behind a mark: nothing, or one blank. -/
inductive IsGap : List Char → Prop where
  | nothing : IsGap []
  | blank {character : Char} : isBlank character = true → IsGap [character]

/-- A comment on a line of its own that makes one remark. -/
structure Comment where
  remark : Remark
  indentation : List Char
  /-- What stands between the number sign and the at sign. -/
  markGap : List Char
  /-- What stands between the at sign and the remark. -/
  wordGap : List Char
  text : List Char
  indentation_blank : ∀ character ∈ indentation, isBlank character = true
  markGap_isGap : IsGap markGap
  wordGap_isGap : IsGap wordGap
  written : remark.Written text
  /-- No other remark stands behind this one. -/
  unmarked : Annotations.words text = []

/-- The line of a comment. -/
def Comment.line (comment : Comment) : List Char :=
  comment.indentation ++
    '#' :: (comment.markGap ++ '@' :: (comment.wordGap ++ comment.text))

namespace Annotations

variable {pending : Annotations} {line text : List Char}

/-! ## Lines -/

/-- The annotations that are still pending behind some lines. -/
def left (pending : Annotations) : List (List Char) → Annotations
  | [] => pending
  | line :: rest =>
      let pending := pending.observe line
      if pending.isPending && startsJob line then left {} rest
      else left pending rest

private theorem apply_append (pending : Annotations)
    (before behind : List (List Char)) :
    apply pending (before ++ behind) =
        apply pending before ++ apply (left pending before) behind := by
  induction before generalizing pending with
  | nil => rfl
  | cons line rest induction =>
      rw [List.cons_append, apply, apply, left]
      split
      · rw [induction, List.append_assoc]
      · rw [induction, List.cons_append]

/-- Every line is kept. -/
theorem sublist_apply (pending : Annotations) (lines : List (List Char)) :
    lines.Sublist (apply pending lines) := by
  induction lines generalizing pending with
  | nil => exact .slnil
  | cons line rest induction =>
      rw [apply]
      split
      · exact ((induction {}).trans (List.sublist_append_right _ _)).cons_cons
          line
      · exact (induction _).cons_cons line

/-- Lines that do not look like the start of a job take no fields. -/
theorem apply_of_quiet {lines : List (List Char)}
    (quiet : ∀ line ∈ lines, startsJob line = false) (pending : Annotations)
    (behind : List (List Char)) :
    apply pending (lines ++ behind) =
      lines ++ apply (lines.foldl observe pending) behind := by
  induction lines generalizing pending with
  | nil => rfl
  | cons line rest induction =>
      obtain ⟨first, others⟩ := List.forall_mem_cons.mp quiet
      rw [List.cons_append, apply]
      rw [first, Bool.and_false, if_neg Bool.false_ne_true, induction others]
      rfl

/-! ## Marks -/

private theorem words_of_ne {character : Char} (different : character ≠ '#')
    (rest : List Char) :
    words (character :: rest) = words rest := by
  rw [words]
  exact different

private theorem words_append {front : List Char} (absent : '#' ∉ front)
    (rest : List Char) :
    words (front ++ rest) = words rest := by
  induction front with
  | nil => rfl
  | cons character others induction =>
      rw [List.mem_cons, not_or] at absent
      rw [List.cons_append, words_of_ne (Ne.symm absent.1), induction absent.2]

private theorem ne_of_isBlank {character other : Char}
    (blank : isBlank character = true) (visible : isBlank other = false) :
    character ≠ other := by
  rintro rfl
  cases blank.symm.trans visible

private theorem notMem_of_blanks {characters : List Char} {other : Char}
    (blanks : ∀ character ∈ characters, isBlank character = true)
    (visible : isBlank other = false) : other ∉ characters := by
  intro member
  exact ne_of_isBlank (blanks other member) visible rfl

private theorem afterBlank_of_visible {character : Char}
    (visible : isBlank character = false) (rest : List Char) :
    afterBlank (character :: rest) = [character :: rest] := by
  rw [afterBlank, visible]
  rfl

private theorem afterBlank_of_blank {character : Char}
    (blank : isBlank character = true) (rest : List Char) :
    afterBlank (character :: rest) = [rest, character :: rest] := by
  rw [afterBlank, blank]
  rfl

/-- What stands behind the at sign of a mark is found, whether or not a blank
stands before it. -/
theorem filterMap_afterBlank {gap : List Char} (isGap : IsGap gap)
    (rest : List Char) :
    (afterBlank (gap ++ '@' :: rest)).filterMap (after '@') = [rest] := by
  cases isGap with
  | nothing => rfl
  | blank blank =>
      have different := ne_of_isBlank blank (show isBlank '@' = false by decide)
      rw [List.singleton_append, afterBlank_of_blank blank]
      simp [after, different]

private theorem afterBlank_gap {gap : List Char} (isGap : IsGap gap)
    {first : Char} (visible : isBlank first = false) (rest : List Char) :
    afterBlank (gap ++ first :: rest) = [first :: rest] ∨
      ∃ character, isBlank character = true ∧
        afterBlank (gap ++ first :: rest) =
          [first :: rest, character :: first :: rest] := by
  cases isGap with
  | nothing => exact .inl (afterBlank_of_visible visible rest)
  | blank blank => exact .inr ⟨_, blank, afterBlank_of_blank blank _⟩

/-- The words of a comment: the text of its remark, and that text with the blank
before it. -/
theorem words_line (comment : Comment) {first : Char} {rest : List Char}
    (starts : comment.text = first :: rest) (visible : isBlank first = false) :
    words comment.line = [comment.text] ∨
      ∃ character, isBlank character = true ∧
        words comment.line = [comment.text, character :: comment.text] := by
  have indented : '#' ∉ comment.indentation :=
    notMem_of_blanks comment.indentation_blank (by decide)
  have unmarkedGap {gap : List Char} (isGap : IsGap gap) : '#' ∉ gap := by
    cases isGap with
    | nothing => exact List.not_mem_nil
    | blank blank => exact notMem_of_blanks (by simpa using blank) (by decide)
  have behind : words
      (comment.markGap ++ '@' :: (comment.wordGap ++ comment.text)) = [] := by
    rw [words_append (unmarkedGap comment.markGap_isGap),
      words_of_ne (by decide),
      words_append (unmarkedGap comment.wordGap_isGap), comment.unmarked]
  unfold Comment.line
  rw [words_append indented, words, behind,
    filterMap_afterBlank comment.markGap_isGap,
    List.append_nil, List.flatMap_singleton, starts]
  exact afterBlank_gap comment.wordGap_isGap visible rest

/-! ## Remarks -/

/-- The letters that the words of remarks start with. -/
def initials : List Char := ['I', 'i', 'D', 'd', 'N', 'n']

private theorem visible_of_mem_initials {character : Char}
    (member : character ∈ initials) :
    isBlank character = false := by
  have visible : ∀ initial ∈ initials, isBlank initial = false :=
    List.all_iff_forall_prop.mp (by decide)
  exact visible character member

private theorem eq_of_toLower_eq_n {character : Char}
    (lower : character.toLower = 'n') :
    character = 'N' ∨ character = 'n' := by
  unfold Char.toLower at lower
  split at lower
  next upper =>
    left
    apply Char.ext
    apply UInt32.toNat.inj
    have shifted : (character.val + 32).toNat = 110 := congrArg Char.toNat lower
    have bound : character.val.toNat ≤ 90 := UInt32.le_iff_toNat_le.mp upper.2
    rw [UInt32.toNat_add, show (32 : UInt32).toNat = 32 from rfl] at shifted
    rw [show 'N'.val.toNat = 78 from rfl]
    omega
  next => exact .inr lower

private theorem eq_of_sameLetter_n {character : Char}
    (same : sameLetter 'n' character = true) :
    character = 'N' ∨ character = 'n' := by
  have lower : character.toLower = 'n' := by simpa [sameLetter] using same
  exact eq_of_toLower_eq_n lower

/-- A remark starts with one of these letters. -/
theorem written_initial {remark : Remark} (written : remark.Written text) :
    ∃ first rest, text = first :: rest ∧ first ∈ initials := by
  cases written with
  | interactive tail upper =>
      exact ⟨_, _, rfl, by rcases upper with rfl | rfl <;> decide⟩
  | injectSshAgent tail upper =>
      exact ⟨_, _, rfl, by rcases upper with rfl | rfl <;> decide⟩
  | description text upper =>
      exact ⟨_, _, rfl, by rcases upper with rfl | rfl <;> decide⟩
  | keepsArtifacts tail same =>
      cases same with
      | cons head rest =>
          exact ⟨_, _, rfl, by
            obtain rfl | rfl := eq_of_sameLetter_n head <;> decide⟩

/-- The annotations with what a remark says. -/
def note (pending : Annotations) : Remark → Annotations
  | .interactive => { pending with interactive := true }
  | .injectSshAgent => { pending with injectSshAgent := true }
  | .keepsArtifacts => { pending with keepsArtifacts := true }
  | .description text =>
      { pending with
        description := pending.description.or (some (String.ofList text)) }

/-- The annotations with what one word behind a mark says. -/
def hear (pending : Annotations) (word : List Char) : Annotations :=
  { interactive := pending.interactive || startsWith 'I' 'i' "nteractive" word,
    injectSshAgent :=
      pending.injectSshAgent || startsWith 'I' 'i' "njectSSHAgent" word,
    keepsArtifacts :=
      pending.keepsArtifacts ||
        startsWithAnyCase "noartifactstosource".toList word,
    description := pending.description.or (description? word) }

/-- A line is heard word by word. -/
theorem observe_eq_foldl (pending : Annotations) (line : List Char) :
    pending.observe line = (words line).foldl hear pending := by
  have heard (pending : Annotations) (words : List (List Char)) :
      words.foldl hear pending =
        { interactive :=
            pending.interactive || words.any (startsWith 'I' 'i' "nteractive"),
          injectSshAgent :=
            pending.injectSshAgent ||
              words.any (startsWith 'I' 'i' "njectSSHAgent"),
          keepsArtifacts :=
            pending.keepsArtifacts ||
              words.any (startsWithAnyCase "noartifactstosource".toList),
          description :=
            pending.description.or (words.findSome? description?) } := by
    induction words generalizing pending with
    | nil => simp
    | cons word rest induction =>
        rw [List.foldl_cons, induction]
        simp only [hear, List.any_cons, Bool.or_assoc, Option.or_assoc]
        congr 2
        rw [List.findSome?_cons]
        cases description? word <;> rfl
  exact (heard pending (words line)).symm

private theorem observe_of_unmarked (unmarked : words line = [])
    (pending : Annotations) :
    pending.observe line = pending := by
  rw [observe_eq_foldl, unmarked]
  rfl

private theorem startsWithAnyCase_append {letters word : List Char}
    (same : List.Forall₂ (fun expected character =>
      sameLetter expected character = true) letters word) (tail : List Char) :
    startsWithAnyCase letters (word ++ tail) = true := by
  induction same with
  | nil => rfl
  | cons head _ induction =>
      rw [List.cons_append, startsWithAnyCase, head, induction]
      rfl

/-- No word starts with a blank. -/
theorem hear_of_blank {character : Char} (blank : isBlank character = true) :
    pending.hear (character :: text) = pending := by
  have different (other : Char) (visible : isBlank other = false) :
      (character == other) = false :=
    beq_eq_false_iff_ne.mpr (ne_of_isBlank blank visible)
  have notKept : sameLetter 'n' character = false := by
    apply Bool.eq_false_iff.mpr
    intro same
    obtain rfl | rfl := eq_of_sameLetter_n same <;> cases blank
  have unspoken (upper lower : Char) (word : String)
      (first : isBlank upper = false) (second : isBlank lower = false) :
      startsWith upper lower word (character :: text) = false := by
    rw [startsWith, different upper first, different lower second]
    rfl
  unfold hear description?
  rw [unspoken 'I' 'i' _ rfl rfl, unspoken 'I' 'i' _ rfl rfl,
    unspoken 'D' 'd' _ rfl rfl, show "noartifactstosource".toList =
      'n' :: "oartifactstosource".toList from rfl, startsWithAnyCase, notKept]
  simp

private theorem startsWith_append {upper lower first : Char}
    (either : first = upper ∨ first = lower) (word : String)
    (tail : List Char) :
    startsWith upper lower word (first :: (word.toList ++ tail)) = true := by
  have starts : word.toList.isPrefixOf (word.toList ++ tail) = true :=
    List.isPrefixOf_iff_prefix.mpr (List.prefix_append _ _)
  obtain rfl | rfl := either <;> simp [startsWith, starts]

/-- A word that says a remark says nothing else. -/
theorem hear_of_written {remark : Remark} (written : remark.Written text) :
    pending.hear text = pending.note remark := by
  cases written with
  | interactive tail either =>
      have said := startsWith_append either "nteractive" tail
      obtain rfl | rfl := either
      all_goals
        rw [hear, said]
        simp [note, startsWith, startsWithAnyCase, sameLetter, description?]
  | injectSshAgent tail either =>
      have said := startsWith_append either "njectSSHAgent" tail
      obtain rfl | rfl := either
      all_goals
        rw [hear, said]
        simp [note, startsWith, startsWithAnyCase, sameLetter, description?]
  | keepsArtifacts tail same =>
      have said := startsWithAnyCase_append same tail
      rw [hear, said]
      cases same with
      | cons head rest =>
          obtain rfl | rfl := eq_of_sameLetter_n head
          all_goals simp [note, startsWith, description?]
  | description text either =>
      have said : description? _ = some (String.ofList (trimEnd text)) :=
        if_pos (startsWith_append either "escription " text)
      obtain rfl | rfl := either
      all_goals
        rw [hear, said]
        simp [note, startsWith, startsWithAnyCase, sameLetter]

private theorem observe_comment (pending : Annotations) (comment : Comment) :
    pending.observe comment.line = pending.note comment.remark := by
  obtain ⟨first, rest, starts, initial⟩ := written_initial comment.written
  have visible := visible_of_mem_initials initial
  rw [observe_eq_foldl]
  rcases words_line comment starts visible with
    heard | ⟨character, blank, heard⟩
  · rw [heard, List.foldl_cons, List.foldl_nil, hear_of_written comment.written]
  · rw [heard, List.foldl_cons, List.foldl_cons, List.foldl_nil,
      hear_of_written comment.written, hear_of_blank blank]

/-- What a line says about the job behind it: the remark of a
comment, or nothing. -/
inductive Says : List Char → List Remark → Prop where
  | comment (comment : Comment) : Says comment.line [comment.remark]
  | nothing {line : List Char} : words line = [] → Says line []

private theorem foldl_observe {lines : List (List Char)}
    {remarks : List (List Remark)} (said : List.Forall₂ Says lines remarks)
    (pending : Annotations) :
    lines.foldl observe pending = remarks.flatten.foldl note pending := by
  induction said generalizing pending with
  | nil => rfl
  | cons first _ induction =>
      rw [List.foldl_cons, List.flatten_cons, List.foldl_append, induction]
      cases first with
      | comment comment =>
          rw [observe_comment]
          rfl
      | nothing unmarked =>
          rw [observe_of_unmarked unmarked]
          rfl

/-- The annotations with the remarks of a run of comments.  Each flag is set
once, and the first description counts. -/
def withRemarks (pending : Annotations) (remarks : List Remark) : Annotations :=
  { interactive := pending.interactive || decide (.interactive ∈ remarks),
    injectSshAgent :=
      pending.injectSshAgent || decide (.injectSshAgent ∈ remarks),
    keepsArtifacts :=
      pending.keepsArtifacts || decide (.keepsArtifacts ∈ remarks),
    description :=
      pending.description.or (remarks.findSome? Remark.description?) }

private theorem foldl_note (pending : Annotations) (remarks : List Remark) :
    remarks.foldl note pending = pending.withRemarks remarks := by
  induction remarks generalizing pending with
  | nil => simp [withRemarks]
  | cons remark rest induction =>
      rw [List.foldl_cons, induction]
      cases remark <;>
        simp [note, withRemarks, Remark.description?, List.findSome?_cons]

/-! ## Jobs -/

/-- A colon stands behind a character of a word. -/
def HasKey (line : List Char) : Prop :=
  ∃ front last rest,
    line = front ++ last :: ':' :: rest ∧ isWordCharacter last = true

theorem startsJob_iff : startsJob line = true ↔ HasKey line := by
  constructor
  · intro starts
    fun_induction startsJob line with
    | case1 left rest induction =>
        obtain isWord | starts := Bool.or_eq_true_iff.mp starts
        · exact ⟨[], left, rest, rfl, isWord⟩
        · obtain ⟨front, last, others, shape, isWord⟩ := induction starts
          exact ⟨left :: front, last, others,
            congrArg (left :: ·) shape, isWord⟩
    | case2 first rest _ induction =>
        obtain ⟨front, last, others, rfl, isWord⟩ := induction starts
        exact ⟨first :: front, last, others, rfl, isWord⟩
    | case3 => cases starts
  · rintro ⟨front, last, rest, rfl, isWord⟩
    induction front with
    | nil => rw [List.nil_append, startsJob, isWord, Bool.true_or]
    | cons first others induction =>
        rw [List.cons_append]
        unfold startsJob
        split
        next shape =>
          obtain ⟨rfl, behind⟩ := List.cons.inj shape
          rw [behind] at induction
          rw [induction, Bool.or_true]
        next shape =>
          obtain ⟨rfl, rfl⟩ := List.cons.inj shape
          exact induction
        next shape => cases shape

private theorem startsJob_eq_false_of_not_hasKey (quiet : ¬ HasKey line) :
    startsJob line = false :=
  Bool.eq_false_iff.mpr fun starts => quiet (startsJob_iff.mp starts)

theorem fields_of_not_isPending (nothing : pending.isPending = false) :
    pending.fields = [] ∧ pending = {} := by
  obtain ⟨interactive, injectSshAgent, keepsArtifacts, description⟩ := pending
  simp only [isPending, Bool.or_eq_false_iff, Option.isSome_eq_false_iff,
    Option.isNone_iff_eq_none] at nothing
  obtain ⟨⟨⟨rfl, rfl⟩, rfl⟩, rfl⟩ := nothing
  exact ⟨rfl, rfl⟩

/-- The first line with a key takes the annotations before it, whether or not
there are any. -/
theorem apply_of_hasKey {above : List (List Char)} {key : List Char}
    (quiet : ∀ line ∈ above, ¬ HasKey line) (starts : HasKey key)
    (pending : Annotations) (behind : List (List Char)) :
    apply pending (above ++ key :: behind) =
      above ++ key :: ((above ++ [key]).foldl observe pending).fields ++
        apply {} behind := by
  have passed := apply_of_quiet (fun line member =>
    startsJob_eq_false_of_not_hasKey (quiet line member)) pending
      (key :: behind)
  rw [passed, apply, startsJob_iff.mpr starts, Bool.and_true, List.foldl_append,
    List.foldl_cons, List.foldl_nil]
  generalize (above.foldl observe pending).observe key = gathered
  cases isPending : gathered.isPending with
  | true => simp
  | false =>
      obtain ⟨noFields, rfl⟩ := fields_of_not_isPending isPending
      simp [noFields]

end Annotations

/-- Every line is kept in its place, and the annotations of a run of comments
become fields directly below the next line with a colon behind a word.  The
fields are not below a job's line where a comment of the run has such a colon
itself, or where the key ends with another character. -/
theorem annotate_places_fields (text : String) :
    ∃ kept, annotate text = "\n".intercalate (kept.map String.ofList) ∧
      (lines text.toList).Sublist kept ∧
      ∀ (before above : List (List Char)) (key : List Char)
        (behind : List (List Char)) (remarks : List (List Remark)),
        lines text.toList = before ++ above ++ key :: behind →
        List.Forall₂ Annotations.Says (above ++ [key]) remarks →
        (∀ line ∈ above, ¬ Annotations.HasKey line) → Annotations.HasKey key →
        kept = Annotations.apply {} before ++ above ++
          key ::
            ((Annotations.left {} before).withRemarks remarks.flatten).fields ++
          Annotations.apply {} behind := by
  refine ⟨Annotations.apply {} (lines text.toList), rfl,
    Annotations.sublist_apply {} _, ?_⟩
  intro before above key behind remarks shape said quiet starts
  rw [shape, List.append_assoc, Annotations.apply_append,
    Annotations.apply_of_hasKey quiet starts,
    Annotations.foldl_observe said, Annotations.foldl_note]
  simp only [List.append_assoc, List.cons_append]

/-- A comment that makes a job interactive. -/
def interactiveComment : Comment where
  remark := .interactive
  indentation := []
  markGap := []
  wordGap := []
  text := "Interactive".toList
  indentation_blank := by simp
  markGap_isGap := .nothing
  wordGap_isGap := .nothing
  written := .interactive [] (.inl rfl)
  unmarked := rfl

/-- A comment that describes a job in words. -/
def describingComment (words : String)
    (unmarked : Annotations.words words.toList = []) : Comment where
  remark := .description (trimEnd words.toList)
  indentation := []
  markGap := [' ']
  wordGap := []
  text := 'D' :: ("escription ".toList ++ words.toList)
  indentation_blank := by simp
  markGap_isGap := .blank rfl
  wordGap_isGap := .nothing
  written := .description words.toList (.inl rfl)
  unmarked := unmarked

/-- Of two descriptions above a job the first one counts. -/
theorem annotate_places_fields_described :
    ∃ kept, annotate
      "# @Description Builds #1\n#@Interactive\n# @Description Other\nbuild:\n  script: [make]" =
        "\n".intercalate (kept.map String.ofList) ∧
      kept = ["# @Description Builds #1", "#@Interactive",
        "# @Description Other", "build:", "  interactive: true",
        "  description: \"Builds #1\"", "  script: [make]"].map
          String.toList := by
  obtain ⟨kept, printed, -, places⟩ := annotate_places_fields
    "# @Description Builds #1\n#@Interactive\n# @Description Other\nbuild:\n  script: [make]"
  let first := describingComment "Builds #1" rfl
  let second := describingComment "Other" rfl
  have placed := places [] [first.line, interactiveComment.line, second.line]
    "build:".toList ["  script: [make]".toList]
    [[first.remark], [.interactive], [second.remark], []]
    (by decide) (.cons (.comment first) (.cons (.comment interactiveComment)
      (.cons (.comment second) (.cons (.nothing rfl) .nil))))
    (by
      have quiet : ∀ line ∈ [first.line, interactiveComment.line, second.line],
          Annotations.startsJob line = false := by decide +kernel
      intro line member keyed
      cases (quiet line member).symm.trans
        (Annotations.startsJob_iff.mpr keyed))
    ⟨"buil".toList, 'd', [], rfl, rfl⟩
  exact ⟨kept, printed, placed.trans (by decide +kernel)⟩

/-- A description with a colon of its own takes the fields away from the job
below it: they stand above the job's line. -/
theorem annotate_misplaced_fields :
    annotate "# @Description Builds: everything\nbuild:\n  script: [make]" =
        "\n".intercalate ["# @Description Builds: everything",
          "  description: \"Builds: everything\"", "build:",
          "  script: [make]"] ∧
      annotate "# @Description Builds: everything\nbuild:\n  script: [make]" ≠
        "\n".intercalate ["# @Description Builds: everything", "build:",
          "  description: \"Builds: everything\"", "  script: [make]"] := by
  decide +kernel

end CiPipeline
