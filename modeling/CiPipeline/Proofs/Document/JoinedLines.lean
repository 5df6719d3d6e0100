import CiPipeline.Document
import CiPipeline.Proofs.Document.Annotations
import CiPipeline.Proofs.Yaml.TokenRuns

/-!
# Documents without annotations

Annotations are put in between the lines of a text, and the lines are joined
again.  Where there are none, a document is what its text is on its own, unless
the end of its last line belongs to a block scalar or a carriage return was lost
in front of another one's line feed.
-/

namespace CiPipeline

open Text Yaml

/-! ## Lines -/

namespace Text

variable {line rest text : List Char}

private theorem splitLines_line (noFeed : '\n' ∉ line)
    (before rest : List Char) :
    splitLines before (line ++ '\n' :: rest) =
      (before.reverse ++ line) :: splitLines [] rest := by
  induction line generalizing before with
  | nil => simp [splitLines]
  | cons character line induction =>
      obtain ⟨notFeed, noFeed⟩ := not_or.mp (mt List.mem_cons.mpr noFeed)
      rw [List.cons_append, splitLines, if_neg (by simpa using Ne.symm notFeed),
        induction noFeed]
      simp

private theorem splitLines_last (noFeed : '\n' ∉ line) (before : List Char)
    (notEmpty : before ++ line ≠ []) :
    splitLines before line = [before.reverse ++ line] := by
  induction line generalizing before with
  | nil => simpa [splitLines] using notEmpty
  | cons character line induction =>
      obtain ⟨notFeed, noFeed⟩ := not_or.mp (mt List.mem_cons.mpr noFeed)
      rw [splitLines, if_neg (by simpa using Ne.symm notFeed),
        induction noFeed _ (by simp)]
      simp

private theorem splitLines_ne_nil (notEmpty : text ≠ []) :
    splitLines [] text ≠ [] := by
  by_cases feed : '\n' ∈ text
  · obtain ⟨line, rest, rfl, noFeed⟩ := List.eq_append_cons_of_mem feed
    rw [splitLines_line noFeed]
    exact List.cons_ne_nil _ _
  · rw [splitLines_last feed [] notEmpty]
    exact List.cons_ne_nil _ _

private theorem lines_last (noFeed : '\n' ∉ line) (notEmpty : line ≠ []) :
    lines line = [line] := by
  have split := splitLines_last noFeed [] notEmpty
  have ending : line.getLast? ≠ some '\n' :=
    fun last => noFeed (List.mem_of_getLast? last)
  rw [List.getLast?_eq_some_getLast notEmpty, ne_eq, Option.some_inj] at ending
  simp [lines, split, List.getLast?_eq_some_getLast notEmpty, ending]

private theorem lines_line (noFeed : '\n' ∉ line) (rest : List Char) :
    lines (line ++ '\n' :: rest) = dropCarriageReturn line :: lines rest := by
  have split :
      splitLines [] (line ++ '\n' :: rest) = line :: splitLines [] rest :=
    splitLines_line noFeed [] rest
  cases rest with
  | nil => simp [lines, split, splitLines]
  | cons first rest =>
      obtain ⟨ending, last⟩ :
          ∃ ending, (first :: rest).getLast? = some ending :=
        ⟨_, List.getLast?_eq_some_getLast (List.cons_ne_nil _ _)⟩
      have sameEnding :
          (line ++ '\n' :: first :: rest).getLast? = some ending := by
        simpa [List.getLast?_append] using last
      obtain ⟨lastLine, before, shape⟩ :
          ∃ lastLine before,
            (splitLines [] (first :: rest)).reverse = lastLine :: before :=
        List.exists_cons_of_ne_nil
          (mt List.reverse_eq_nil_iff.mp
            (splitLines_ne_nil (List.cons_ne_nil _ _)))
      unfold lines
      simp only [split, sameEnding, last, shape, List.reverse_cons,
        List.cons_append]
      split <;> simp

/-- A line is its text in front of the line feed, without one
carriage return. -/
theorem eq_dropCarriageReturn (line : List Char) :
    line = dropCarriageReturn line ∧ line.getLast? ≠ some '\r' ∨
      line = dropCarriageReturn line ++ ['\r'] := by
  unfold dropCarriageReturn
  split
  · rename_i rest shape
    right
    rw [← line.reverse_reverse, shape, List.reverse_cons]
  · rename_i other
    left
    refine ⟨rfl, fun last => ?_⟩
    rw [List.getLast?_eq_head?_reverse, List.head?_eq_some_iff] at last
    obtain ⟨rest, shape⟩ := last
    exact other rest shape

private theorem lines_ne_nil (notEmpty : text ≠ []) : lines text ≠ [] := by
  by_cases feed : '\n' ∈ text
  · obtain ⟨line, rest, rfl, noFeed⟩ := List.eq_append_cons_of_mem feed
    rw [lines_line noFeed]
    exact List.cons_ne_nil _ _
  · rw [lines_last feed notEmpty]
    exact List.cons_ne_nil _ _

end Text

/-! ## Joining lines again -/

namespace Yaml.Rejoined

variable {line left right : List Char}

/-- Characters in front of the end of a line are the same. -/
theorem append_line (noFeed : '\n' ∉ line)
    (noReturn : line.getLast? ≠ some '\r') (rejoined : Rejoined left right) :
    Rejoined (line ++ left) (line ++ right) := by
  induction line with
  | nil => exact rejoined
  | cons character line induction =>
      obtain ⟨notFeed, noFeed⟩ := not_or.mp (mt List.mem_cons.mpr noFeed)
      cases line with
      | nil =>
          refine .character (Ne.symm notFeed) (fun isReturn => ?_) rejoined
          rw [isReturn] at noReturn
          exact absurd rfl noReturn
      | cons next line =>
          have notNext : some next ≠ some '\n' := by
            intro isFeed
            cases isFeed
            exact noFeed List.mem_cons_self
          exact .character (Ne.symm notFeed) (fun _ => ⟨notNext, notNext⟩)
            (induction noFeed (by simpa using noReturn))

private theorem refl_of_notMem (noFeed : '\n' ∉ line) : Rejoined line line := by
  induction line with
  | nil => exact .nothing
  | cons character line induction =>
      obtain ⟨notFeed, noFeed⟩ := not_or.mp (mt List.mem_cons.mpr noFeed)
      have notNext : line.head? ≠ some '\n' :=
        fun next => noFeed (List.mem_of_head? next)
      exact .character (Ne.symm notFeed)
        (fun _ => ⟨notNext, notNext⟩) (induction noFeed)

end Yaml.Rejoined

/-- The end of a line in a text where no two carriage returns stand in front of
a line feed. -/
theorem lineEnd_of_single {line rest : List Char}
    (single : ¬ ['\r', '\r', '\n'] <:+: line ++ '\n' :: rest) :
    ∃ ending, LineEnd ending ∧
      line ++ ['\n'] = dropCarriageReturn line ++ ending ∧
      (dropCarriageReturn line).getLast? ≠ some '\r' := by
  rcases eq_dropCarriageReturn line with ⟨same, noReturn⟩ | shape
  · rw [← same]
    exact ⟨['\n'], .feed, rfl, noReturn⟩
  · generalize dropCarriageReturn line = front at shape ⊢
    subst shape
    refine ⟨['\r', '\n'], .returnFeed, by simp, fun last => single ?_⟩
    obtain ⟨before, rfl⟩ := List.getLast?_eq_some_iff.mp last
    exact ⟨before, rest, by simp⟩

private theorem rejoined_lines_line {line rest : List Char}
    (noFeed : '\n' ∉ line)
    (single : ¬ ['\r', '\r', '\n'] <:+: line ++ '\n' :: rest)
    (others : Rejoined rest (['\n'].intercalate (lines rest))) :
    Rejoined (line ++ '\n' :: rest)
      (['\n'].intercalate (lines (line ++ '\n' :: rest))) := by
  obtain ⟨ending, isEnd, shape, noReturn⟩ := lineEnd_of_single single
  have whole :
      line ++ '\n' :: rest = dropCarriageReturn line ++ (ending ++ rest) := by
    rw [← List.append_assoc, ← shape, List.append_assoc, List.singleton_append]
  have noFrontFeed : '\n' ∉ dropCarriageReturn line := by
    intro member
    rcases eq_dropCarriageReturn line with ⟨same, _⟩ | same
    · exact noFeed (same ▸ member)
    · exact noFeed (same ▸ List.mem_append_left _ member)
  rw [lines_line noFeed, whole]
  by_cases last : rest = []
  · subst last
    have ended := Rejoined.append_line noFrontFeed noReturn (.lastEnd isEnd)
    rw [List.append_nil] at ended
    rw [show lines [] = [] from rfl, List.intercalate_singleton,
      List.append_nil]
    exact ended
  · rw [List.intercalate_cons_of_ne_nil (lines_ne_nil last), List.append_assoc,
      List.singleton_append]
    exact .append_line noFrontFeed noReturn (.lineEnd isEnd last others)

/-- Joining the lines of a text loses the end of the last one and the carriage
returns in front of line feeds. -/
theorem rejoined_lines (text : List Char)
    (single : ¬ ['\r', '\r', '\n'] <:+: text) :
    Rejoined text (['\n'].intercalate (lines text)) := by
  by_cases feed : '\n' ∈ text
  · obtain ⟨line, rest, shape, noFeed⟩ := List.eq_append_cons_of_mem feed
    have shorter : rest.length < text.length := by
      rw [shape, List.length_append, List.length_cons]
      omega
    subst shape
    have others := rejoined_lines rest fun stands =>
      single (stands.trans ⟨line ++ ['\n'], [], by simp⟩)
    exact rejoined_lines_line noFeed single others
  · by_cases empty : text = []
    · subst empty
      exact .nothing
    · rw [lines_last feed empty, List.intercalate_singleton]
      exact .refl_of_notMem feed
termination_by text.length

/-! ## Documents -/

/-- No line of a text has an annotation. -/
def Unannotated (text : String) : Prop :=
  ∀ line ∈ lines text.toList, (Annotations.observe {} line).isPending = false

instance (text : String) : Decidable (Unannotated text) :=
  inferInstanceAs (Decidable (∀ line ∈ lines text.toList, _))

private theorem Annotations.apply_of_unannotated {lines : List (List Char)}
    (unannotated :
      ∀ line ∈ lines, (Annotations.observe {} line).isPending = false) :
    Annotations.apply {} lines = lines := by
  induction lines with
  | nil => rfl
  | cons line rest induction =>
      obtain ⟨quiet, others⟩ := List.forall_mem_cons.mp unannotated
      rw [Annotations.apply, quiet, Bool.false_and, if_neg Bool.false_ne_true,
        (fields_of_not_isPending quiet).2, induction others]

/-- A document without annotations is the mapping of its text, unless its lines
all look blank, a line ends with two carriage returns, or the text ends with a
block scalar that ends with the end of a line. -/
theorem Document.read_unannotated {text : String}
    {entries : List (String × Node)} (unannotated : Unannotated text)
    (content : (lines text.toList).all Document.isBlankLine = false)
    (single : ¬ ['\r', '\r', '\n'] <:+: text.toList)
    (goesOn : endsInBlockScalar text = false)
    (mapping : Node.ofYaml text = .ok (.mapping entries)) :
    Document.read text = .ok (.mapping entries) := by
  have joined :
      (annotate text).toList = ['\n'].intercalate (lines text.toList) := by
    rw [annotate, Annotations.apply_of_unannotated unannotated,
      String.toList_intercalate, List.map_map]
    simp [Function.comp_def]
  have rejoined : Rejoined text.toList (annotate text).toList := by
    rw [joined]
    exact rejoined_lines text.toList single
  unfold Document.read
  rw [content, if_neg Bool.false_ne_true,
    Node.ofYaml_rejoined rejoined goesOn mapping]

/-- The texts of entries that are all texts. -/
def Entries.texts? : Entries → Option (List (String × String))
  | [] => some []
  | (key, .text value) :: rest => (texts? rest).map ((key, value) :: ·)
  | _ => none

/-- The texts of a mapping whose values are all texts. -/
def Node.texts? : Node → Option (List (String × String))
  | .mapping entries => Entries.texts? entries
  | _ => none

private theorem Entries.eq_of_texts? {entries : Entries}
    {texts : List (String × String)} (shape : texts? entries = some texts) :
    entries = texts.map fun (key, value) => (key, .text value) := by
  induction entries generalizing texts with
  | nil =>
      cases shape
      rfl
  | cons entry rest induction =>
      obtain ⟨key, value⟩ := entry
      cases value with
      | text value =>
          obtain ⟨others, read, rfl⟩ := Option.map_eq_some_iff.mp shape
          rw [induction read, List.map_cons]
      | _ => cases shape

private theorem Node.eq_of_texts? {node : Node} {texts : List (String × String)}
    (shape : node.texts? = some texts) :
    node = .mapping (texts.map fun (key, value) => (key, .text value)) := by
  cases node with
  | mapping entries => exact congrArg Node.mapping (Entries.eq_of_texts? shape)
  | _ => cases shape

private theorem eq_ok_of_texts? {Error : Type} {outcome : Except Error Node}
    (texts : List (String × String))
    (shape : outcome.toOption.bind Node.texts? = some texts) :
    outcome =
      .ok (.mapping (texts.map fun (key, value) => (key, .text value))) := by
  cases outcome with
  | error => cases shape
  | ok node => rw [Node.eq_of_texts? shape]

/-- A text with carriage returns at the ends of its lines and a block scalar in
its middle. -/
def returningText : String := "a: |\r\n  text\r\nb: c\r\n"

theorem Document.read_unannotated_returns :
    Unannotated returningText ∧
      (lines returningText.toList).all Document.isBlankLine = false ∧
      ¬ ['\r', '\r', '\n'] <:+: returningText.toList ∧
      endsInBlockScalar returningText = false ∧
      Node.ofYaml returningText =
        .ok (.mapping [("a", .text "text\n"), ("b", .text "c")]) ∧
      Document.read returningText =
        .ok (.mapping [("a", .text "text\n"), ("b", .text "c")]) := by
  have unannotated : Unannotated returningText := by decide +kernel
  have content : (lines returningText.toList).all Document.isBlankLine =
    false := by decide +kernel
  have single : ¬ ['\r', '\r', '\n'] <:+: returningText.toList := by
    decide +kernel
  have goesOn : endsInBlockScalar returningText = false := by decide +kernel
  have mapping : Node.ofYaml returningText =
      .ok (.mapping [("a", .text "text\n"), ("b", .text "c")]) :=
    eq_ok_of_texts? [("a", "text\n"), ("b", "c")] (by decide +kernel)
  exact ⟨unannotated, content, single, goesOn, mapping,
    Document.read_unannotated unannotated content single goesOn mapping⟩

/-- The end of a text is lost from a block scalar, a carriage return in front
of another one is lost, and so is a mapping behind a carriage return that
ends a comment. -/
theorem Document.read_unannotated_differs :
    (Unannotated "a: |\n  text\n" ∧
      Node.ofYaml "a: |\n  text\n" = .ok (.mapping [("a", .text "text\n")]) ∧
      Document.read "a: |\n  text\n" = .ok (.mapping [("a", .text "text")])) ∧
    (Unannotated "a: 'x\r\r\n  y'" ∧
      Node.ofYaml "a: 'x\r\r\n  y'" = .ok (.mapping [("a", .text "x\ny")]) ∧
      Document.read "a: 'x\r\r\n  y'" = .ok (.mapping [("a", .text "x y")])) ∧
    (Unannotated "#\ra: b" ∧
      Node.ofYaml "#\ra: b" = .ok (.mapping [("a", .text "b")]) ∧
      Document.read "#\ra: b" = .ok (.mapping [])) := by
  refine ⟨⟨by decide +kernel, ?_, ?_⟩, ⟨by decide +kernel, ?_, ?_⟩,
    ⟨by decide +kernel, ?_, ?_⟩⟩
  · exact eq_ok_of_texts? [("a", "text\n")] (by decide +kernel)
  · exact eq_ok_of_texts? [("a", "text")] (by decide +kernel)
  · exact eq_ok_of_texts? [("a", "x\ny")] (by decide +kernel)
  · exact eq_ok_of_texts? [("a", "x y")] (by decide +kernel)
  · exact eq_ok_of_texts? [("a", "b")] (by decide +kernel)
  · exact eq_ok_of_texts? [] (by decide +kernel)

end CiPipeline
