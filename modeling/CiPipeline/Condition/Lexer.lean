import CiPipeline.Condition.Token
import CiPipeline.Text.Characters

/-!
# The lexer of conditions

Each token is read from the front of the text, and the rest is shorter than
what was there, so reading ends.  A slash always opens a pattern: the language
has no division.
-/

namespace CiPipeline.Condition

open CiPipeline.Text

/-- Reads up to a closing character.  A backslash and the character behind it
are read as what the escape makes of that character. -/
def readClosed (closing : Char) (escape : Char → List Char) :
    List Char → Option (List Char × List Char)
  | [] => none
  | ['\\'] => none
  | '\\' :: escaped :: rest =>
      (readClosed closing escape rest).map fun (text, rest) =>
        (escape escaped ++ text, rest)
  | character :: rest =>
      if character = closing then some ([], rest)
      else (readClosed closing escape rest).map fun (text, rest) =>
        (character :: text, rest)

/-- Reads a quoted text up to its closing quote.  A backslash stands for the
character behind it. -/
def readQuoted (quote : Char) : List Char → Option (List Char × List Char) :=
  readClosed quote fun escaped => [escaped]

/-- Reads a pattern up to its closing slash.  An escaped slash is a slash, any
other escape is left to the pattern. -/
def readSource : List Char → Option (List Char × List Char) :=
  readClosed '/' fun escaped =>
    if escaped = '/' then ['/'] else ['\\', escaped]

/-- The flags that a pattern may carry. -/
def knownFlags : List Char := ['i', 'g', 'm', 's', 'u', 'y']

/-- Reads the flags behind a pattern. -/
def readFlags (offset : Nat) :
    List Char → Except ConditionError (List Char × List Char)
  | [] => .ok ([], [])
  | character :: rest =>
      if character.isAlpha then
        if knownFlags.contains character then
          match readFlags (offset + 1) rest with
          | .ok (flags, rest) => .ok (character :: flags, rest)
          | .error error => .error error
        else .error (.unknownFlag character offset)
      else .ok ([], character :: rest)

/-- Whether a character may stand in a name. -/
def isNameCharacter (character : Char) : Bool :=
  isAlphanumeric character || character == '_'

/-- Splits a name off the front of a text. -/
def readName (text : List Char) : List Char × List Char :=
  (text.takeWhile isNameCharacter, text.dropWhile isNameCharacter)

/-- Reads a variable behind its dollar sign. -/
def readVariable (offset : Nat) (text : List Char) :
    Except ConditionError (Token × List Char) :=
  match text with
  | '\x7b' :: inner =>
      match readName inner with
      | (name, '\x7d' :: rest) =>
          if name.isEmpty then .error (.unexpectedCharacter '$' offset)
          else .ok (.variable (String.ofList name), rest)
      | _ => .error (.unterminatedVariable offset)
  | _ =>
      let (name, rest) := readName text
      if name.isEmpty then .error (.unexpectedCharacter '$' offset)
      else .ok (.variable (String.ofList name), rest)

/-- The constant of a word. -/
def constant? : String → Option Token
  | "null" => some .null
  | "true" => some .true
  | "false" => some .false
  | _ => none

/-- The number of bytes that a text takes when encoded. -/
def byteLength (text : List Char) : Nat :=
  text.foldl (fun total character => total + character.utf8Size) 0

/-- Reads the token that starts with a character, followed by the rest
of the text. -/
def readToken (offset : Nat) (character : Char) (rest : List Char) :
    Except ConditionError (Token × List Char) :=
  match character with
  | '(' => .ok (.openParenthesis, rest)
  | ')' => .ok (.closeParenthesis, rest)
  | '&' =>
      match rest with
      | '&' :: rest => .ok (.and, rest)
      | _ => .error (.unexpectedCharacter '&' offset)
  | '|' =>
      match rest with
      | '|' :: rest => .ok (.or, rest)
      | _ => .error (.unexpectedCharacter '|' offset)
  | '=' =>
      match rest with
      | '=' :: rest => .ok (.equal, rest)
      | '~' :: rest => .ok (.isMatch, rest)
      | _ => .error (.unexpectedCharacter '=' offset)
  | '!' =>
      match rest with
      | '=' :: rest => .ok (.unequal, rest)
      | '~' :: rest => .ok (.isNoMatch, rest)
      | _ => .ok (.not, rest)
  | '/' =>
      match readSource rest with
      | none => .error (.unterminatedPattern offset)
      | some (source, behind) =>
          let start := offset + 1 + (byteLength rest - byteLength behind)
          match readFlags start behind with
          | .error error => .error error
          | .ok (flags, behind) =>
              .ok (.pattern (String.ofList source)
                (String.ofList flags), behind)
  | '$' => readVariable offset rest
  | _ =>
      if character = '\'' ∨ character = '"' then
        match readQuoted character rest with
        | none => .error (.unterminatedText offset)
        | some (text, behind) => .ok (.text (String.ofList text), behind)
      else if character.isAlpha then
        let (name, behind) := readName rest
        let word := String.ofList (character :: name)
        match constant? word with
        | some token => .ok (token, behind)
        | none => .error (.unknownWord word offset)
      else .error (.unexpectedCharacter character offset)

private theorem ne_backslash {character : Char} {rest : List Char}
    (alone : character = '\\' → rest = [] → False)
    (escaping : ∀ escaped behind,
      character = '\\' → rest = escaped :: behind → False) :
    character ≠ '\\' := by
  intro backslash
  cases rest with
  | nil => exact alone backslash rfl
  | cons escaped behind => exact escaping escaped behind backslash rfl

private theorem readClosed_of_ne (closing : Char) (escape : Char → List Char)
    {character : Char} (rest : List Char) (plain : character ≠ '\\') :
    readClosed closing escape (character :: rest) =
      if character = closing then some ([], rest)
      else (readClosed closing escape rest).map fun (text, rest) =>
        (character :: text, rest) :=
  readClosed.eq_4 closing escape character rest (fun equal _ => plain equal)
    (fun _ _ equal _ => plain equal)

/-- A text is read up to a closing character, whatever stands behind that. -/
theorem readClosed_front {closing : Char} {escape : Char → List Char}
    {text value rest : List Char}
    (read : readClosed closing escape text = some (value, rest)) :
    ∃ body, text = body ++ closing :: rest ∧
      ∀ behind, readClosed closing escape (body ++ closing :: behind) =
        some (value, behind) := by
  fun_induction readClosed closing escape text generalizing value with
  | case1 => simp at read
  | case2 => simp at read
  | case3 escaped more step =>
      obtain ⟨⟨inner, left⟩, found, equal⟩ := Option.map_eq_some_iff.mp read
      simp only [Prod.mk.injEq] at equal
      obtain ⟨rfl, rfl⟩ := equal
      obtain ⟨body, rfl, same⟩ := step found
      exact ⟨'\\' :: escaped :: body, rfl,
        fun behind => by simp [readClosed, same]⟩
  | case4 more alone escaping =>
      simp only [Option.some.injEq, Prod.mk.injEq] at read
      obtain ⟨rfl, rfl⟩ := read
      refine ⟨[], rfl, fun behind => ?_⟩
      rw [List.nil_append,
        readClosed_of_ne _ _ _ (ne_backslash alone escaping), if_pos rfl]
  | case5 character more alone escaping different step =>
      obtain ⟨⟨inner, left⟩, found, equal⟩ := Option.map_eq_some_iff.mp read
      simp only [Prod.mk.injEq] at equal
      obtain ⟨rfl, rfl⟩ := equal
      obtain ⟨body, rfl, same⟩ := step found
      refine ⟨character :: body, rfl, fun behind => ?_⟩
      rw [List.cons_append,
        readClosed_of_ne _ _ _ (ne_backslash alone escaping),
        if_neg different, same]
      rfl

private theorem length_of_readClosed {closing : Char}
    {escape : Char → List Char} {text value rest : List Char}
    (read : readClosed closing escape text = some (value, rest)) :
    rest.length < text.length := by
  obtain ⟨body, rfl, _⟩ := readClosed_front read
  simp only [List.length_append, List.length_cons]
  omega

private theorem readFlags_stop (offset : Nat) {behind : List Char}
    (stops : ∀ next ∈ behind.head?, next.isAlpha = false) :
    readFlags offset behind = .ok ([], behind) := by
  cases behind with
  | nil => rfl
  | cons next more =>
      rw [readFlags, if_neg (Bool.eq_false_iff.mp (stops next rfl))]

/-- Flags are read up to the first character that is no letter,
at any offset. -/
theorem readFlags_front {offset : Nat} {text flags rest : List Char}
    (read : readFlags offset text = .ok (flags, rest)) :
    text = flags ++ rest ∧ (∀ flag ∈ flags, flag.isAlpha = true) ∧
      (∀ next ∈ rest.head?, next.isAlpha = false) ∧
      ∀ other behind, (∀ next ∈ behind.head?, next.isAlpha = false) →
        readFlags other (flags ++ behind) = .ok (flags, behind) := by
  fun_induction readFlags offset text generalizing flags with
  | case1 =>
      cases read
      exact ⟨rfl, by simp, by simp, fun other _ => readFlags_stop other⟩
  | case2 _ character more flag known inner behind found step =>
      cases read
      obtain ⟨rfl, letters, stops, same⟩ := step found
      refine ⟨rfl, List.forall_mem_cons.mpr ⟨flag, letters⟩, stops,
        fun other behind ends => ?_⟩
      rw [List.cons_append, readFlags, if_pos flag, if_pos known,
        same _ behind ends]
  | case3 => simp at read
  | case4 => simp at read
  | case5 _ character more noFlag =>
      cases read
      exact ⟨rfl, by simp, by
        simpa using noFlag, fun other _ => readFlags_stop other⟩

private theorem length_of_readFlags {offset : Nat} {text flags rest : List Char}
    (read : readFlags offset text = .ok (flags, rest)) :
    rest.length ≤ text.length := by
  obtain ⟨rfl, _⟩ := readFlags_front read
  simp

private theorem length_of_readName {text name rest : List Char}
    (read : readName text = (name, rest)) :
    rest.length ≤ text.length := by
  cases read
  exact (List.dropWhile_sublist _).length_le

/-! ## What is read as a token -/

/-- A name behind a dollar sign, with or without braces around it. -/
inductive NamesVariable : List Char → List Char → List Char → Prop where
  | braced {inner name rest : List Char} :
      readName inner = (name, '\x7d' :: rest) → name ≠ [] →
      NamesVariable ('\x7b' :: inner) name rest
  | plain {text name rest : List Char} :
      readName text = (name, rest) → name ≠ [] → NamesVariable text name rest

/-- The tokens of two symbols. -/
inductive Doubled : Char → Char → Token → Prop where
  | and : Doubled '&' '&' .and
  | or : Doubled '|' '|' .or
  | equal : Doubled '=' '=' .equal
  | isMatch : Doubled '=' '~' .isMatch
  | unequal : Doubled '!' '=' .unequal
  | isNoMatch : Doubled '!' '~' .isNoMatch

/-- What is read as a token from a character and the text behind it, and
what is left. -/
inductive Reads : Char → List Char → Token → List Char → Prop where
  | openParenthesis {rest : List Char} : Reads '(' rest .openParenthesis rest
  | closeParenthesis {rest : List Char} : Reads ')' rest .closeParenthesis rest
  | not {rest : List Char} :
      (∀ behind, rest ≠ '=' :: behind) → (∀ behind, rest ≠ '~' :: behind) →
      Reads '!' rest .not rest
  | doubled {first second : Char} {token : Token} {rest : List Char} :
      Doubled first second token → Reads first (second :: rest) token rest
  | pattern {start : Nat} {text source behind flags rest : List Char} :
      readSource text = some (source, behind) →
        readFlags start behind = .ok (flags, rest) →
      Reads '/' text
        (.pattern (String.ofList source) (String.ofList flags)) rest
  | dollar {text name rest : List Char} :
      NamesVariable text name rest →
        Reads '$' text (.variable (String.ofList name)) rest
  | text {quote : Char} {text value rest : List Char} :
      quote = '\'' ∨ quote = '"' → readQuoted quote text = some (value, rest) →
      Reads quote text (.text (String.ofList value)) rest
  | word {first : Char} {text name rest : List Char} {token : Token} :
      first.isAlpha = true → readName text = (name, rest) →
      constant? (String.ofList (first :: name)) = some token →
      Reads first text token rest

private theorem reads_of_readVariable {offset : Nat} {text rest : List Char}
    {token : Token} (read : readVariable offset text = .ok (token, rest)) :
    Reads '$' text token rest := by
  unfold readVariable at read
  split at read
  · rename_i inner
    split at read
    · rename_i name behind found
      split at read
      · cases read
      · rename_i named
        cases read
        exact .dollar (.braced found (by simpa using named))
    · cases read
  · dsimp only at read
    split at read
    · cases read
    · rename_i named
      cases read
      exact .dollar (.plain rfl (by simpa using named))

theorem reads_of_readToken {offset : Nat} {character : Char}
    {text rest : List Char} {token : Token}
    (read : readToken offset character text = .ok (token, rest)) :
    Reads character text token rest := by
  unfold readToken at read
  split at read
  case h_1 =>
    cases read
    exact .openParenthesis
  case h_2 =>
    cases read
    exact .closeParenthesis
  case h_3 =>
    split at read <;> cases read
    exact .doubled .and
  case h_4 =>
    split at read <;> cases read
    exact .doubled .or
  case h_5 =>
    split at read <;> cases read
    · exact .doubled .equal
    · exact .doubled .isMatch
  case h_6 =>
    split at read
    · cases read
      exact .doubled .unequal
    · cases read
      exact .doubled .isNoMatch
    · rename_i notUnequal notNoMatch
      cases read
      exact .not notUnequal notNoMatch
  case h_7 =>
    split at read
    · cases read
    · rename_i source behind found
      dsimp only at read
      split at read
      · cases read
      · rename_i flags further flagged
        cases read
        exact .pattern found flagged
  case h_8 => exact reads_of_readVariable read
  case h_9 =>
    split at read
    · rename_i quote
      split at read
      · cases read
      · rename_i value behind found
        cases read
        exact .text quote found
    · split at read
      · rename_i letter
        dsimp only at read
        split at read
        · rename_i known
          cases read
          exact .word letter rfl known
        · cases read
      · cases read

private theorem Reads.length_le {character : Char} {text rest : List Char}
    {token : Token} (reads : Reads character text token rest) :
    rest.length ≤ text.length := by
  cases reads with
  | openParenthesis => exact Nat.le_refl _
  | closeParenthesis => exact Nat.le_refl _
  | not => exact Nat.le_refl _
  | doubled => exact Nat.le_succ _
  | pattern source flagged =>
      exact Nat.le_trans (length_of_readFlags flagged)
        (Nat.le_of_lt (length_of_readClosed source))
  | dollar names =>
      cases names with
      | braced found =>
          have bound := length_of_readName found
          rw [List.length_cons] at bound ⊢
          omega
      | plain found => exact length_of_readName found
  | text _ read => exact Nat.le_of_lt (length_of_readClosed read)
  | word _ name => exact length_of_readName name

/-- Reading a token never adds to the rest of the text. -/
theorem length_of_readToken {offset : Nat} {character : Char}
    {text rest : List Char} {token : Token}
    (read : readToken offset character text = .ok (token, rest)) :
    rest.length ≤ text.length :=
  (reads_of_readToken read).length_le

/-- Splits a text into tokens; blanks between them have no meaning. -/
def tokensFrom (offset : Nat) : List Char → Except ConditionError (List Token)
  | [] => .ok []
  | character :: rest =>
      if isBlank character then tokensFrom (offset + character.utf8Size) rest
      else
        match found : readToken offset character rest with
        | .error error => .error error
        | .ok (token, behind) =>
            have := length_of_readToken found
            let consumed := byteLength (character :: rest) - byteLength behind
            match tokensFrom (offset + consumed) behind with
            | .error error => .error error
            | .ok tokens => .ok (token :: tokens)
  termination_by text => text.length

/-- Splits the text of a condition into tokens. -/
def tokenize (text : String) : Except ConditionError (List Token) :=
  tokensFrom 0 text.toList

end CiPipeline.Condition
