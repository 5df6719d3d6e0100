/-!
# Reading UTF-8

Bytes as a text.  The longest run of bytes that starts a character and
does not complete it is read as the replacement character, and so is a
byte that starts none.
-/

namespace CiPipeline.Text

/-- What stands for bytes that are no character. -/
def replacement : Char := Char.ofNat 0xFFFD

/-- The bytes that may follow the first byte of a character, one
after the other. -/
def continuations (first : UInt8) : List (UInt8 × UInt8) :=
  let any : UInt8 × UInt8 := (0x80, 0xBF)
  if 0xC2 ≤ first && first ≤ 0xDF then [any]
  else if first == 0xE0 then [(0xA0, 0xBF), any]
  else if first == 0xED then [(0x80, 0x9F), any]
  else if 0xE1 ≤ first && first ≤ 0xEF then [any, any]
  else if first == 0xF0 then [(0x90, 0xBF), any, any]
  else if 0xF1 ≤ first && first ≤ 0xF3 then [any, any, any]
  else if first == 0xF4 then [(0x80, 0x8F), any, any]
  else []

/-- The bits of a first byte that belong to its character, if a number of
bytes follow. -/
def leadingBits (first : UInt8) : Nat → Nat
  | 0 => first.toNat
  | 1 => first.toNat % 32
  | 2 => first.toNat % 16
  | _ => first.toNat % 8

/-- Reads the rest of a character. -/
def readContinuation (point : Nat) :
    List (UInt8 × UInt8) → List UInt8 → Char × List UInt8
  | [], bytes => (Char.ofNat point, bytes)
  | _ :: _, [] => (replacement, [])
  | (least, greatest) :: expected, byte :: bytes =>
      if least ≤ byte && byte ≤ greatest then
        readContinuation (point * 64 + byte.toNat % 64) expected bytes
      else (replacement, byte :: bytes)

private theorem length_readContinuation (point : Nat)
    (expected : List (UInt8 × UInt8)) (bytes : List UInt8) :
    (readContinuation point expected bytes).2.length ≤ bytes.length := by
  induction expected generalizing point bytes with
  | nil => simp [readContinuation]
  | cons range expected step =>
      cases bytes with
      | nil => simp [readContinuation]
      | cons byte bytes =>
          unfold readContinuation
          split
          · exact Nat.le_succ_of_le (step _ bytes)
          · simp

def readUtf8 (bytes : List UInt8) : List Char :=
  match bytes with
  | [] => []
  | first :: rest =>
      if first < 0x80 then Char.ofNat first.toNat :: readUtf8 rest
      else
        let expected := continuations first
        if expected.isEmpty then replacement :: readUtf8 rest
        else
          let next :=
            readContinuation (leadingBits first expected.length) expected rest
          next.1 :: readUtf8 next.2
termination_by bytes.length
decreasing_by
  · simp
  · simp
  · exact Nat.lt_succ_of_le (length_readContinuation _ _ _)

end CiPipeline.Text
