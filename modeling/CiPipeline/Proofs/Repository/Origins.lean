import CiPipeline.Proofs.Workspace
import CiPipeline.Repository.Reading
import Mathlib.Data.Bool.AllAny
import Mathlib.Data.List.Infix
import Mathlib.Data.List.TakeWhile

/-!
# Where a repository is published

The listing of remotes shows the address of a repository, and the listing of
references its main branch.  Both are read back for addresses and names of most
forms, and these laws say which.
-/

namespace CiPipeline

open CiPipeline.Text

/-! ## Addresses -/

/-- How the address of a repository is written. -/
inductive AddressForm where
  /-- `git@host:group/project.git` -/
  | short
  /-- `ssh://git@host:port/group/project.git` -/
  | shell (port : Option (List Char))
  /-- `http://host:port/group/project.git`, or with `https`. -/
  | web (isSecure : Bool) (port : Option (List Char))
  deriving DecidableEq, Repr

/-- The port that an address names. -/
def AddressForm.port? : AddressForm → Option (List Char)
  | .short => none
  | .shell port => port
  | .web _ port => port

/-- The address of a repository. -/
structure Origin where
  form : AddressForm
  host : List Char
  group : List Char
  project : List Char
  host_plain : ∀ character ∈ host, Remote.isHostCharacter character = true
  group_line : '\n' ∉ group
  project_name : '/' ∉ project
  project_plain : ∀ character ∈ project, isBlank character = false
  port_digits : ∀ port, form.port? = some port →
    port ≠ [] ∧ ∀ digit ∈ port, isDecimalDigit digit = true

namespace Origin

/-- The path of a repository at its host. -/
def path (origin : Origin) : List Char :=
  origin.group ++ '/' :: (origin.project ++ ".git".toList)

/-- What stands between a host and a path. -/
def portText : Option (List Char) → List Char
  | none => ['/']
  | some port => ':' :: (port ++ ['/'])

/-- The address as it is written. -/
def text (origin : Origin) : List Char :=
  match origin.form with
  | .short => "git@".toList ++ (origin.host ++ ':' :: origin.path)
  | .shell port =>
      "ssh://git@".toList ++ (origin.host ++ (portText port ++ origin.path))
  | .web isSecure port =>
      (if isSecure then "https://" else "http://").toList ++
        (origin.host ++ (portText port ++ origin.path))

/-- What stands behind the address of the first remote in a listing. -/
def behindPath (others : List Char) : List Char :=
  " (fetch)".toList ++ '\n' :: others

/-- The listing of remotes whose first one has this address. -/
def listing (origin : Origin) (name others : List Char) : List Char :=
  name ++ '\t' :: (origin.text ++ behindPath others)

/-- The place of publication that an address names. -/
def remote (origin : Origin) (branch : List Char) : Remote :=
  { port := String.ofList (origin.form.port?.getD "22".toList),
    host := String.ofList origin.host,
    group := String.ofList origin.group, project :=
      String.ofList origin.project,
    defaultBranch := String.ofList branch }

/-- Whether a group of an address begins with a part that looks like a port. -/
def StartsWithPort (group : List Char) : Prop :=
  ∃ digits deeper, group = digits ++ '/' :: deeper ∧ digits ≠ [] ∧
    ∀ digit ∈ digits, isDecimalDigit digit = true

/-- The addresses that are read back: no address of a secure shell, no short one
whose group begins like a port, and no project with the extension of
repositories inside its name. -/
structure IsReadBack (origin : Origin) : Prop where
  notShell : ∀ port, origin.form ≠ .shell port
  noPort : origin.form = .short → ¬ StartsWithPort origin.group
  noExtension : ¬ ".git".toList <:+: origin.project

end Origin

/-- The listing of references that names a main branch. -/
def references (branch rest : List Char) : List Char :=
  "ref: refs/heads/".toList ++ (branch ++ '\t' :: ("HEAD".toList ++ rest))

namespace Remote

variable {text name rest : List Char}

/-! ## Projects and groups -/

/-- The extension of repositories overlaps with no other
occurrence of itself. -/
theorem extension_isPrefix_of_append
    (isPrefix : ".git".toList <+: name ++ ".git".toList ++ rest)
    (named : name ≠ []) : ".git".toList <+: name := by
  rcases name with _ | ⟨first, _ | ⟨second, _ | ⟨third, _ | ⟨fourth, others⟩⟩⟩⟩
  case nil => exact (named rfl).elim
  case cons.cons.cons.cons => simpa using isPrefix
  all_goals simp at isPrefix

/-- The name of a project is read up to the first extension in it. -/
theorem readProject?_append
    (plain : ∀ character ∈ name, isBlank character = false) (rest : List Char) :
    ∃ read, readProject? (name ++ ".git".toList ++ rest) = some read ∧
      (read = name ↔ ¬ ".git".toList <:+: name) := by
  induction name with
  | nil => exact ⟨[], rfl, by simp⟩
  | cons character name induction =>
      obtain ⟨visible, plain⟩ := List.forall_mem_cons.mp plain
      rw [List.cons_append, List.cons_append, readProject?, visible,
        Bool.false_or]
      by_cases isPrefix : ".git".toList <+:
        character :: (name ++ ".git".toList ++ rest)
      · have within : ".git".toList <+: character :: name :=
          extension_isPrefix_of_append isPrefix (List.cons_ne_nil _ _)
        refine ⟨[], if_pos (List.isPrefixOf_iff_prefix.mpr isPrefix), ?_⟩
        exact iff_of_false (List.cons_ne_nil _ _).symm fun absent =>
          absent within.isInfix
      · obtain ⟨read, success, exactly⟩ := induction plain
        rw [if_neg (mt List.isPrefixOf_iff_prefix.mp isPrefix), success]
        refine ⟨character :: read, rfl, ?_⟩
        have noPrefix : ¬ ".git".toList <+: character :: name := by
          intro within
          have longer :=
            within.trans (List.prefix_append _ (".git".toList ++ rest))
          rw [← List.append_assoc] at longer
          exact isPrefix longer
        rw [List.cons.injEq, List.infix_cons_iff, not_or]
        constructor
        · rintro ⟨-, same⟩
          exact ⟨noPrefix, exactly.mp same⟩
        · rintro ⟨-, absent⟩
          exact ⟨rfl, exactly.mpr absent⟩

/-- A line without slashes names no project. -/
theorem readPath?_eq_none {line : List Char} (plain : '/' ∉ line)
    (before others : List Char) :
    readPath? before (line ++ '\n' :: others) = none := by
  induction line generalizing before with
  | nil => rfl
  | cons character line induction =>
      rw [List.mem_cons, not_or] at plain
      rw [List.cons_append, readPath?, induction plain.2,
        if_neg (mt beq_iff_eq.mp (Ne.symm plain.1))]
      split <;> rfl

/-- The last slash with a project behind it divides group and project. -/
theorem readPath?_append {group read : List Char} (oneLine : '\n' ∉ group)
    (last : ∀ before, readPath? before rest = none)
    (named : readProject? rest = some read) (before : List Char) :
    readPath? before (group ++ '/' :: rest) =
      some (before.reverse ++ group, read) := by
  induction group generalizing before with
  | nil =>
      rw [List.nil_append, readPath?, last, named]
      simp
  | cons character group induction =>
      rw [List.mem_cons, not_or] at oneLine
      rw [List.cons_append, readPath?,
        if_neg (mt beq_iff_eq.mp (Ne.symm oneLine.1)), induction oneLine.2]
      simp

/-! ## Hosts -/

private theorem takeWhile_append {holds : Char → Bool} {front : List Char}
    (all : ∀ character ∈ front, holds character = true) {stop : Char}
    (stops : holds stop = false) (rest : List Char) :
    (front ++ stop :: rest).takeWhile holds = front := by
  rw [List.takeWhile_append_of_pos all,
    List.takeWhile_cons_of_neg (by simp [stops]), List.append_nil]

/-- The place of publication with these parts.  The port may be empty. -/
def ofParts (host port group project : List Char) : Remote :=
  { port := if port.isEmpty then "22" else String.ofList port,
    host := String.ofList host,
    group := String.ofList group, project := String.ofList project }

/-- The place of publication at a host, with a port and the text of a path. -/
def atHost? (host : List Char) (candidate : List Char × List Char) :
    Option Remote :=
  (readPath? [] candidate.2).map fun (group, project) =>
    ofParts host candidate.1 group project

/-- A host ends before a colon or a slash. -/
theorem readAddress?_append {host : List Char}
    (plain : ∀ character ∈ host, isHostCharacter character = true) {stop : Char}
    (stops : isHostCharacter stop = false) (behind : List Char) :
    readAddress? (host ++ stop :: behind) =
      (afterHost (stop :: behind)).findSome? (atHost? host) := by
  unfold readAddress?
  dsimp only
  rw [takeWhile_append plain stops, List.drop_left]
  rfl

private theorem afterHost_port {port : List Char} (nonempty : port ≠ [])
    (digits : ∀ digit ∈ port, isDecimalDigit digit = true) (path : List Char) :
    afterHost (':' :: (port ++ '/' :: path)) =
      [(port, path), ([], port ++ '/' :: path)] := by
  rw [afterHost, takeWhile_append digits (by decide), List.drop_left]
  simp [nonempty]

/-- Behind a colon stands nothing but a path, or a port with a
slash behind it. -/
theorem afterHost_colon (path : List Char) :
    afterHost (':' :: path) = [([], path)] ∨
      ∃ digits deeper, path = digits ++ '/' :: deeper ∧ digits ≠ [] ∧
        ∀ digit ∈ digits, isDecimalDigit digit = true := by
  have parts := List.prefix_iff_eq_append.mp
    (List.takeWhile_prefix (l := path) isDecimalDigit)
  rw [afterHost]
  split
  next deeper shape =>
    by_cases none : path.takeWhile isDecimalDigit = []
    · exact .inl (by simp [none])
    · rw [shape] at parts
      exact .inr ⟨_, deeper, parts.symm, none, fun digit member =>
        List.mem_takeWhile_imp member⟩
  next => exact .inl rfl

end Remote

namespace Origin

open Remote

/-! ## Listings -/

private theorem readPath?_project (origin : Origin)
    (before others : List Char) :
    readPath? before (origin.project ++ ".git".toList ++ behindPath others) =
      none := by
  have plain : '/' ∉ origin.project ++ ".git".toList ++ " (fetch)".toList := by
    rw [List.append_assoc, List.mem_append, not_or]
    exact ⟨origin.project_name, by decide⟩
  have read := readPath?_eq_none plain before others
  rw [List.append_assoc] at read
  exact read

/-- The path of an address is read, with the project up to the first
extension in it. -/
theorem atHost?_path (origin : Origin) (others : List Char) :
    ∃ read, (∀ host port group, '\n' ∉ group →
        atHost? host
            (port, group ++ '/' :: (origin.project ++ ".git".toList ++
              behindPath others)) =
          some (ofParts host port group read)) ∧
      (read = origin.project ↔ ¬ ".git".toList <:+: origin.project) := by
  obtain ⟨read, named, exactly⟩ :=
    readProject?_append origin.project_plain (behindPath others)
  refine ⟨read, ?_, exactly⟩
  intro host port group oneLine
  have last (before : List Char) := origin.readPath?_project before others
  rw [atHost?, readPath?_append oneLine last named []]
  rfl

private theorem path_append (origin : Origin) (behind : List Char) :
    origin.path ++ behind =
      origin.group ++ '/' :: (origin.project ++ ".git".toList ++ behind) := by
  rw [path, List.append_assoc]
  rfl

/-- Behind an optional port the whole group is read. -/
theorem readAddress?_portText (origin : Origin) {host : List Char}
    (plain : ∀ character ∈ host, isHostCharacter character = true)
    (others : List Char) :
    ∃ remote,
      readAddress? (host ++
        (portText origin.form.port? ++ (origin.path ++ behindPath others))) =
        some remote ∧
      ∀ branch, { remote with defaultBranch := String.ofList branch } =
        origin.remote branch ↔
        host = origin.host ∧ ¬ ".git".toList <:+: origin.project := by
  obtain ⟨read, located, exactly⟩ := origin.atHost?_path others
  rw [path_append]
  cases named : origin.form.port? with
  | none =>
      refine ⟨ofParts host [] origin.group read, ?_, ?_⟩
      · rw [portText, List.singleton_append,
          readAddress?_append plain (by decide)]
        rw [afterHost, List.findSome?_cons, located host [] _ origin.group_line]
      · intro branch
        rw [← exactly, Origin.remote, named]
        simp [ofParts, String.ofList_inj]
  | some port =>
      obtain ⟨nonempty, digits⟩ := origin.port_digits port named
      refine ⟨ofParts host port origin.group read, ?_, ?_⟩
      · rw [portText, List.cons_append, List.append_assoc,
          List.singleton_append,
          readAddress?_append plain (by decide), afterHost_port nonempty digits,
          List.findSome?_cons, located host port _ origin.group_line]
      · intro branch
        rw [← exactly, Origin.remote, named]
        simp [ofParts, String.ofList_inj, nonempty]

/-- Digits in front of the last slash are the whole group. -/
theorem eq_of_append_eq {group digits rest deeper : List Char}
    (areDigits : ∀ digit ∈ digits, isDecimalDigit digit = true)
    (nonempty : digits ≠ []) (starts : ¬ StartsWithPort group)
    (same : group ++ '/' :: rest = digits ++ '/' :: deeper) :
    deeper = rest := by
  rcases List.append_eq_append_iff.mp same with
    ⟨more, split, behind⟩ | ⟨more, split, behind⟩
  · cases more with
    | nil => exact (List.cons.inj behind).2.symm
    | cons character more =>
        obtain ⟨rfl, -⟩ := List.cons.inj behind
        have digit :=
          areDigits '/' (split ▸ List.mem_append_right _ List.mem_cons_self)
        cases digit
  · cases more with
    | nil => exact (List.cons.inj behind).2
    | cons character more =>
        obtain ⟨rfl, -⟩ := List.cons.inj behind
        exact (starts ⟨digits, more, split, nonempty, areDigits⟩).elim

/-- A group that begins like a port is cut behind that part, unless no path is
left then. -/
theorem readAddress?_short (origin : Origin) (short : origin.form = .short)
    (others : List Char) :
    ∃ remote, readAddress?
      (origin.host ++ ':' :: (origin.path ++ behindPath others)) = some remote ∧
      ∀ branch, { remote with defaultBranch := String.ofList branch } =
        origin.remote branch ↔
        ¬ StartsWithPort origin.group ∧
          ¬ ".git".toList <:+: origin.project := by
  obtain ⟨read, located, exactly⟩ := origin.atHost?_path others
  have noPort : origin.form.port? = none := by rw [short]; rfl
  rw [path_append, readAddress?_append origin.host_plain (by decide)]
  by_cases starts : StartsWithPort origin.group
  · obtain ⟨digits, deeper, shape, nonempty, areDigits⟩ := id starts
    have oneLine : '\n' ∉ deeper := by
      intro member
      exact origin.group_line
        (shape ▸ List.mem_append_right _ (List.mem_cons_of_mem _ member))
    refine ⟨ofParts origin.host digits deeper read, ?_, ?_⟩
    · rw [shape, List.append_assoc, List.cons_append,
        afterHost_port nonempty areDigits,
        List.findSome?_cons, located origin.host digits _ oneLine]
    · intro branch
      have shorter : deeper ≠ origin.group := by
        intro same
        have lengths := congrArg List.length shape
        rw [List.length_append, List.length_cons, ← same] at lengths
        omega
      simp [ofParts, Origin.remote, String.ofList_inj, starts, shorter]
  · refine ⟨ofParts origin.host [] origin.group read, ?_, ?_⟩
    · have whole := located origin.host [] _ origin.group_line
      rcases afterHost_colon (origin.group ++
        '/' :: (origin.project ++ ".git".toList ++ behindPath others)) with
        onlyPath | ⟨digits, deeper, shape, nonempty, areDigits⟩
      · rw [onlyPath, List.findSome?_cons, whole]
      · -- The part that looks like a port leaves the project alone, which is
        -- no path.
        obtain rfl := eq_of_append_eq areDigits nonempty starts shape
        rw [shape] at whole
        rw [shape, afterHost_port nonempty areDigits,
          List.findSome?_cons, atHost?,
          readPath?_project, Option.map_none, List.findSome?_cons, whole]
    · intro branch
      rw [← exactly, Origin.remote, noPort]
      simp [ofParts, String.ofList_inj, starts]

private theorem ofListing?_append {front : List Char}
    (plain : ∀ character ∈ front, character ≠ '@' ∧ character ≠ '/')
    (rest : List Char) :
    ofListing? (front ++ rest) = ofListing? rest := by
  induction front with
  | nil => rfl
  | cons character front induction =>
      obtain ⟨⟨notAt, notSlash⟩, plain⟩ := List.forall_mem_cons.mp plain
      rw [List.cons_append, ofListing?]
      · exact induction plain
      · rintro _ rfl
        exact fun _ => notSlash rfl
      · exact notAt

private theorem ofListing?_at {rest : List Char} {remote : Remote}
    (found : readAddress? rest = some remote) :
    ofListing? ('@' :: rest) = some remote := by
  rw [ofListing?, found, Option.some_or]

private theorem ofListing?_slashes {rest : List Char} {remote : Remote}
    (found : readAddress? rest = some remote) :
    ofListing? ('/' :: '/' :: rest) = some remote := by
  rw [ofListing?, found, Option.some_or]

/-- The first remote of a listing is found, at the host and the path of
its address. -/
theorem ofListing?_listing (origin : Origin) {name : List Char}
    (named : ∀ character ∈ name, character ≠ '@' ∧ character ≠ '/')
    (others : List Char) :
    ∃ remote, ofListing? (origin.listing name others) = some remote ∧
      ∀ branch, { remote with defaultBranch := String.ofList branch } =
        origin.remote branch ↔
        origin.IsReadBack := by
  have plain (word : String)
      (plain : word.toList.all fun character =>
        character ≠ '@' ∧ character ≠ '/') :
      ∀ character ∈ name ++ word.toList, character ≠ '@' ∧ character ≠ '/' := by
    rw [List.forall_mem_append]
    exact ⟨named, List.all_iff_forall_prop.mp plain⟩
  have isReadBack_iff (notShell : ∀ port, origin.form ≠ .shell port) :
      origin.IsReadBack ↔
        (origin.form = .short → ¬ StartsWithPort origin.group) ∧
        ¬ ".git".toList <:+: origin.project :=
    ⟨fun isReadBack => ⟨isReadBack.noPort, isReadBack.noExtension⟩,
      fun ⟨noPort, noExtension⟩ => ⟨notShell, noPort, noExtension⟩⟩
  unfold listing text
  cases shape : origin.form with
  | short =>
      obtain ⟨remote, found, same⟩ := origin.readAddress?_short shape others
      have listed := (ofListing?_append (plain "\tgit" (by decide)) _).trans
        (ofListing?_at found)
      refine ⟨remote, by simpa using listed, ?_⟩
      intro branch
      rw [same branch, isReadBack_iff (by simp [shape])]
      simp [shape]
  | shell port =>
      have hostPlain : ∀ character ∈ "git@".toList ++ origin.host,
          isHostCharacter character = true := by
        rw [List.forall_mem_append]
        exact ⟨List.all_eq_true.mp (by decide), origin.host_plain⟩
      obtain ⟨remote, found, same⟩ :=
        origin.readAddress?_portText hostPlain others
      have listed :=
        (ofListing?_append (plain "\tssh:" (by decide)) _).trans
          (ofListing?_slashes found)
      refine ⟨remote, by simpa [shape, AddressForm.port?] using listed, ?_⟩
      intro branch
      have longer : "git@".toList ++ origin.host ≠ origin.host :=
        mt List.append_left_eq_self.mp (by decide)
      rw [same branch]
      exact iff_of_false (fun both => longer both.1) fun isReadBack =>
        isReadBack.notShell _ shape
  | web isSecure port =>
      obtain ⟨remote, found, same⟩ :=
        origin.readAddress?_portText origin.host_plain others
      have listed (scheme : String) (plainScheme) :=
        (ofListing?_append (plain scheme plainScheme) _).trans
          (ofListing?_slashes found)
      rw [shape, AddressForm.port?] at listed
      refine ⟨remote, ?_, ?_⟩
      · cases isSecure with
        | false => simpa using listed "\thttp:" (by decide)
        | true => simpa using listed "\thttps:" (by decide)
      · intro branch
        rw [same branch, isReadBack_iff (by simp [shape])]
        simp [shape]

end Origin

/-! ## The main branch -/

namespace Remote

variable {text rest : List Char} {branch : String}

/-- Whether a text is one word. -/
def IsWord (text : List Char) : Prop :=
  text ≠ [] ∧ ∀ character ∈ text, isWordCharacter character = true

private theorem isWord_of_readBranch?
    (success : readBranch? text = some branch) :
    IsWord branch.toList := by
  unfold readBranch? at success
  dsimp only at success
  split at success
  next found =>
    obtain rfl := Option.some.inj success
    simp only [Bool.and_eq_true, Bool.not_eq_true', List.isEmpty_eq_false_iff]
      at found
    rw [String.toList_ofList]
    exact ⟨found.1.1, fun character member => List.mem_takeWhile_imp member⟩
  next => cases success

private theorem isWord_of_branchBehindSlash?
    (success : branchBehindSlash? text = some branch) :
    IsWord branch.toList := by
  induction text with
  | nil => cases success
  | cons character rest induction =>
      rw [branchBehindSlash?] at success
      split at success
      · cases success
      · split at success
        · rcases Option.or_eq_some_iff.mp success with read | ⟨-, read⟩
          · exact isWord_of_readBranch? read
          · exact induction read
        · exact induction success

/-- A main branch is one word. -/
theorem isWord_of_mainBranch? (success : mainBranch? text = some branch) :
    IsWord branch.toList := by
  induction text with
  | nil => cases success
  | cons character rest induction =>
      rw [mainBranch?] at success
      rcases Option.or_eq_some_iff.mp success with read | ⟨-, read⟩
      · split at read
        · exact isWord_of_branchBehindSlash? read
        · cases read
      · exact induction read

private theorem readBranch?_append {branch : List Char} (isWord : IsWord branch)
    (rest : List Char) :
    readBranch? (branch ++ '\t' :: ("HEAD".toList ++ rest)) =
      some (String.ofList branch) := by
  obtain ⟨nonempty, word⟩ := isWord
  have target : ('\t' :: ("HEAD".toList ++ rest)).dropWhile isBlank =
    "HEAD".toList ++ rest := rfl
  unfold readBranch?
  dsimp only
  rw [takeWhile_append word (by decide), List.drop_left, target]
  simp [nonempty]

private theorem branchBehindSlash?_append (front : List Char)
    (plain : ∀ character ∈ front, character ≠ '\n' ∧ character ≠ '/')
    (found : readBranch? rest = some branch) :
    branchBehindSlash? (front ++ '/' :: rest) = some branch := by
  induction front with
  | nil =>
      rw [List.nil_append, branchBehindSlash?, found]
      rfl
  | cons character front induction =>
      obtain ⟨⟨notFeed, notSlash⟩, plain⟩ := List.forall_mem_cons.mp plain
      rw [List.cons_append, branchBehindSlash?,
        if_neg (mt beq_iff_eq.mp notFeed),
        if_neg (mt beq_iff_eq.mp notSlash), induction plain]

private theorem mainBranch?_of_isPrefix (starts : referenceMark.toList <+: text)
    (found : branchBehindSlash? (text.drop referenceMark.length) =
      some branch) :
    mainBranch? text = some branch := by
  cases text with
  | nil => cases found
  | cons character rest =>
      rw [mainBranch?, if_pos (List.isPrefixOf_iff_prefix.mpr starts), found,
        Option.some_or]

/-- A main branch that is one word is read from the listing that names it. -/
theorem mainBranch?_references {branch : List Char} (isWord : IsWord branch)
    (rest : List Char) :
    mainBranch? (references branch rest) = some (String.ofList branch) :=
  mainBranch?_of_isPrefix (List.prefix_append referenceMark.toList _)
    (branchBehindSlash?_append "heads".toList (List.all_iff_forall_prop.mp (by
      decide)) (readBranch?_append isWord rest))

end Remote

namespace Remote

/-- The place of publication that two listings show, which counts only together
with its main branch. -/
def ofListings (listing references : List Char) : Remote :=
  match ofListing? listing, mainBranch? references with
  | some remote, some branch => { remote with defaultBranch := branch }
  | _, _ => {}

end Remote

theorem Origin.ofListings_eq_remote_iff (origin : Origin) (branch : List Char)
    {name : List Char}
    (named : ∀ character ∈ name, character ≠ '@' ∧ character ≠ '/')
    (others rest : List Char) :
    Remote.ofListings (origin.listing name others) (references branch rest) =
        origin.remote branch ↔
      origin.IsReadBack ∧ Remote.IsWord branch := by
  obtain ⟨remote, found, same⟩ := origin.ofListing?_listing named others
  rw [Remote.ofListings, found]
  by_cases isWord : Remote.IsWord branch
  · rw [Remote.mainBranch?_references isWord]
    simp [same branch, isWord]
  · -- The branch that is seen is a word, be it the usual one.
    refine iff_of_false ?_ fun both => isWord both.2
    intro equal
    have seen := congrArg Remote.defaultBranch equal
    rw [show (origin.remote branch).defaultBranch =
      String.ofList branch from rfl] at seen
    have usual : Remote.IsWord "main".toList :=
      ⟨by decide, List.all_eq_true.mp (by decide)⟩
    apply isWord
    rw [← String.toList_ofList (l := branch), ← seen]
    cases read : Remote.mainBranch? (references branch rest) with
    | none => exact usual
    | some other => exact Remote.isWord_of_mainBranch? read

/-! ## Loading -/

namespace Repository

variable {surroundings : Surroundings} {folder program : String}
  {arguments : List String}

variable (surroundings) in
/-- A question gets an answer or none, and never fails. -/
theorem perform_ask (workspace : Workspace) :
    ∃ answer after,
      Action.perform surroundings (ask folder program arguments) workspace =
        (.ok answer, after) := by
  unfold ask
  rw [Action.perform_tryCatch]
  rcases Action.perform surroundings _ workspace with ⟨failure | answer, after⟩
  · exact ⟨none, after, rfl⟩
  · exact ⟨answer, after, rfl⟩

/-- What a command writes in every state of the files is the answer to
the question. -/
theorem perform_ask_of_answer {text : String}
    (answered : ∀ files,
      (surroundings.run { folder, program, arguments } files).1 =
      .ok { text, code := 0 }) (workspace : Workspace) :
    ∃ after,
      Action.perform surroundings (ask folder program arguments) workspace =
        (.ok (some text), after) := by
  unfold ask Action.executeChecked
  rw [Action.perform_tryCatch, map_eq_pure_bind, Action.perform_bind,
    Action.perform_bind, Action.perform_execute, answered]
  exact ⟨_, rfl⟩

variable (surroundings) in
private theorem perform_askFact (workspace : Workspace) :
    ∃ answer after,
      Action.perform surroundings (askFact folder program arguments) workspace =
        (.ok answer, after) := by
  obtain ⟨answer, after, asked⟩ := perform_ask surroundings workspace
  unfold askFact
  rw [Action.perform_bind, asked]
  exact ⟨_, after, rfl⟩

variable (surroundings) in
private theorem perform_readCommit (workspace : Workspace) :
    ∃ commit after,
      Action.perform surroundings (readCommit folder) workspace =
        (.ok commit, after) := by
  unfold readCommit
  obtain ⟨refName, named, asked⟩ := perform_askFact surroundings workspace
  rw [Action.perform_bind, asked]
  dsimp only
  obtain ⟨sha, found, asked⟩ := perform_askFact surroundings named
  rw [Action.perform_bind, asked]
  dsimp only
  obtain ⟨shortSha, after, asked⟩ := perform_askFact surroundings found
  rw [Action.perform_bind, asked]
  dsimp only
  split <;> exact ⟨_, after, rfl⟩

variable (surroundings) in
private theorem perform_readUser (workspace : Workspace) :
    ∃ user after,
      Action.perform surroundings (readUser folder) workspace =
        (.ok user, after) := by
  unfold readUser
  obtain ⟨name, named, asked⟩ := perform_askFact surroundings workspace
  rw [Action.perform_bind, asked]
  dsimp only
  obtain ⟨email, addressed, asked⟩ := perform_askFact surroundings named
  rw [Action.perform_bind, asked]
  dsimp only
  obtain ⟨id, after, asked⟩ := perform_askFact surroundings addressed
  rw [Action.perform_bind, asked]
  exact ⟨_, after, rfl⟩

private theorem perform_readRemote {listing references : List Char}
    (listed : ∀ files,
      (surroundings.run ⟨folder, "git", ["remote", "-v"]⟩ files).1 =
      .ok { text := String.ofList listing, code := 0 })
    (referred : ∀ files,
      (surroundings.run ⟨folder, "git",
        ["ls-remote", "--symref", "origin", "HEAD"]⟩ files).1 =
        .ok { text := String.ofList references, code := 0 })
    (workspace : Workspace) :
    ∃ after,
      Action.perform surroundings (readRemote folder) workspace =
        (.ok (Remote.ofListings listing references), after) := by
  unfold readRemote Remote.ofListings
  obtain ⟨between, asked⟩ := perform_ask_of_answer listed workspace
  rw [Action.perform_bind, asked]
  dsimp only [Option.bind_some]
  rw [String.toList_ofList]
  cases Remote.ofListing? listing with
  | none => exact ⟨between, rfl⟩
  | some remote =>
      obtain ⟨after, asked⟩ := perform_ask_of_answer referred between
      dsimp only
      rw [Action.perform_bind, asked]
      dsimp only [Option.bind_some]
      rw [String.toList_ofList]
      cases Remote.mainBranch? references <;> exact ⟨after, rfl⟩

/-- The facts about a repository are always found, and those about its place
of publication are the parts of the address and the main branch that were
listed exactly when the address is one that is read back and the main branch
is one word. -/
theorem load_remote_iff (origin : Origin) (branch name others rest : List Char)
    (named : ∀ character ∈ name, character ≠ '@' ∧ character ≠ '/')
    (listed : ∀ files,
      (surroundings.run ⟨folder, "git", ["remote", "-v"]⟩ files).1 =
      .ok { text := String.ofList (origin.listing name others), code := 0 })
    (referred : ∀ files,
      (surroundings.run ⟨folder, "git",
        ["ls-remote", "--symref", "origin", "HEAD"]⟩ files).1 =
        .ok { text := String.ofList (references branch rest), code := 0 })
    (workspace : Workspace) :
    ∃ repository after,
      Action.perform surroundings (load folder) workspace =
        (.ok repository, after) ∧
        (repository.remote = origin.remote branch ↔
          origin.IsReadBack ∧ Remote.IsWord branch) := by
  obtain ⟨commit, committed, first⟩ :=
    perform_readCommit surroundings workspace
  obtain ⟨published, second⟩ := perform_readRemote listed referred committed
  obtain ⟨user, after, third⟩ :=
    perform_readUser surroundings published
  have loaded : Action.perform surroundings (load folder) workspace =
      (.ok { user, commit,
             remote := Remote.ofListings (origin.listing name others)
               (references branch rest) }, after) := by
    unfold load
    rw [Action.perform_bind, first]
    dsimp only
    rw [Action.perform_bind, second]
    dsimp only
    rw [Action.perform_bind, third]
    rfl
  exact ⟨_, after, loaded,
    origin.ofListings_eq_remote_iff branch named others rest⟩

/-- Surroundings in which `git` shows these listings. -/
def listingSurroundings (listing references : List Char) : Surroundings where
  run command files :=
    let text :=
      if command.arguments = ["remote", "-v"] then listing
      else if command.arguments =
        ["ls-remote", "--symref", "origin", "HEAD"] then references
      else []
    (.ok { text := String.ofList text, code := 0 }, files)
  request _ _ := .unreachable

/-- The address `https://gitlab.example.com:8443/group/sub/my-app.git`. -/
def webOrigin : Origin where
  form := .web true (some "8443".toList)
  host := "gitlab.example.com".toList
  group := "group/sub".toList
  project := "my-app".toList
  host_plain := List.all_eq_true.mp (by decide)
  group_line := by decide
  project_name := by decide
  project_plain := List.all_iff_forall_prop.mp (by decide)
  port_digits := by
    rintro port ⟨⟩
    exact ⟨by decide, List.all_eq_true.mp (by decide)⟩

theorem load_remote_iff_web :
    webOrigin.listing "origin".toList [] =
        "origin\thttps://gitlab.example.com:8443/group/sub/my-app.git (fetch)\n".toList ∧
      ∃ repository after,
        Action.perform (listingSurroundings (webOrigin.listing "origin".toList
          []) (references "develop".toList [])) (load "/work") {} =
          (.ok repository, after) ∧
          repository.remote =
            { port :=
                "8443", host := "gitlab.example.com", group := "group/sub",
              project := "my-app", defaultBranch := "develop" } := by
  have listed (files : Files) :
      ((listingSurroundings (webOrigin.listing "origin".toList [])
          (references "develop".toList [])).run
          ⟨"/work", "git", ["remote", "-v"]⟩ files).1 =
        .ok { text := String.ofList (webOrigin.listing "origin".toList []),
              code := 0 } := rfl
  obtain ⟨repository, after, loaded, iff⟩ :=
    load_remote_iff webOrigin "develop".toList "origin".toList [] []
      (List.all_iff_forall_prop.mp (by decide)) listed (fun _ => rfl) {}
  refine ⟨rfl, repository, after, loaded,
    iff.mpr ⟨⟨?_, ?_, by decide⟩, by decide, List.all_eq_true.mp (by decide)⟩⟩
  · rintro port ⟨⟩
  · rintro ⟨⟩

/-- The address of a secure shell names a user in front of its host, which is
taken for a part of the host. -/
theorem load_remote_of_shell :
    ∃ repository after,
      Action.perform (listingSurroundings
          "origin\tssh://git@host:2222/a/b.git (fetch)\n".toList
          "ref: refs/heads/main\tHEAD\n".toList) (load "/work") {} =
          (.ok repository, after) ∧
        repository.remote =
          { port := "2222", host := "git@host", group := "a", project := "b" } ∧
        repository.remote.host ≠ "host" :=
  ⟨_, _, rfl, by decide +kernel, by decide +kernel⟩

end Repository

end CiPipeline
