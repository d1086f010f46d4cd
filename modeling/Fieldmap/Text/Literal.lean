import Fieldmap.Text.Position

/-!
# String literals

A string literal stands between double quotes and escapes characters with a
backslash, as JSON does. Reading one gives the text it denotes, or the first fault
together with the number of bytes read up to it.

Characters beyond the first plane are escaped as two surrogate halves, each by its
own four hexadecimal digits.
-/

namespace Fieldmap.Text.Literal

/-- What can be wrong with a string literal. -/
inductive Fault where
  | invalidEscape
  | unfinished
  | controlCharacter
  | loneSurrogate
  | unfinishedPair
  | trailingCharacters
  deriving DecidableEq, Repr

/-- The wording of a fault. -/
def Fault.describe : Fault → String
  | invalidEscape => "invalid escape"
  | unfinished => "EOF while parsing a string"
  | controlCharacter => "control character (\\u0000-\\u001F) found while parsing a string"
  | loneSurrogate => "lone leading surrogate in hex escape"
  | unfinishedPair => "unexpected end of hex escape"
  | trailingCharacters => "trailing characters"

/-- A fault, and the number of bytes read when it showed. -/
structure Error where
  fault : Fault
  column : Nat
  deriving DecidableEq, Repr

/-- The wording of an error. A literal never spans lines, so its line is one. -/
def Error.message (error : Error) : String :=
  s!"{error.fault.describe} at line 1 column {error.column}"

/-- The value of a hexadecimal digit. -/
def hexValue? (c : Char) : Option Nat :=
  if '0' ≤ c ∧ c ≤ '9' then some (c.toNat - '0'.toNat)
  else if 'a' ≤ c ∧ c ≤ 'f' then some (c.toNat - 'a'.toNat + 10)
  else if 'A' ≤ c ∧ c ≤ 'F' then some (c.toNat - 'A'.toNat + 10)
  else none

/-- The number written by four hexadecimal digits at the head of a text. -/
def fourHex? : List Char → Option (Nat × List Char)
  | a :: b :: c :: d :: rest => do
      let a ← hexValue? a
      let b ← hexValue? b
      let c ← hexValue? c
      let d ← hexValue? d
      some (((a * 16 + b) * 16 + c) * 16 + d, rest)
  | _ => none

theorem fourHex?_length {text rest : List Char} {unit : Nat}
    (read : fourHex? text = some (unit, rest)) : rest.length < text.length := by
  match text with
  | a :: b :: c :: d :: tail =>
      simp only [fourHex?, Option.bind_eq_bind, Option.bind_eq_some_iff, Option.some.injEq,
        Prod.mk.injEq] at read
      obtain ⟨_, _, _, _, _, _, _, _, _, rfl⟩ := read
      simp only [List.length_cons]
      omega
  | [] | [_] | [_, _] | [_, _, _] => simp [fourHex?] at read

/-- The code unit of a `\u` escape, read `offset` bytes into the literal. Four bytes
are taken whatever they hold, unless the literal ends before. -/
def codeUnit (offset : Nat) (text : List Char) : Except Error (Nat × List Char) :=
  match fourHex? text with
  | some unit => .ok unit
  | none =>
      if byteLength text < 4 then .error ⟨.unfinished, offset + byteLength text⟩
      else .error ⟨.invalidEscape, offset + 4⟩

theorem codeUnit_length {offset unit : Nat} {text rest : List Char}
    (read : codeUnit offset text = .ok (unit, rest)) : rest.length < text.length := by
  unfold codeUnit at read
  split at read
  · rename_i found
    cases read
    exact fourHex?_length found
  · split at read <;> cases read

/-- The first half of a surrogate pair. -/
def isHighSurrogate (unit : Nat) : Bool :=
  decide (0xD800 ≤ unit) && decide (unit ≤ 0xDBFF)

/-- The second half of a surrogate pair. -/
def isLowSurrogate (unit : Nat) : Bool :=
  decide (0xDC00 ≤ unit) && decide (unit ≤ 0xDFFF)

/-- The character that a surrogate pair stands for. -/
def pairChar (high low : Nat) : Char :=
  Char.ofNat (0x10000 + (high - 0xD800) * 0x400 + (low - 0xDC00))

/-- A character read from a literal, the offset behind it, and the text that follows. -/
structure Step where
  char : Char
  offset : Nat
  rest : List Char
  deriving DecidableEq, Repr

/-- The character of a surrogate pair whose first half was just read. -/
def lowHalf (offset high : Nat) : List Char → Except Error Step
  | '\\' :: 'u' :: rest => do
      let (low, rest) ← codeUnit (offset + 2) rest
      if isLowSurrogate low then .ok ⟨pairChar high low, offset + 6, rest⟩
      else .error ⟨.loneSurrogate, offset + 6⟩
  | '\\' :: [] => .error ⟨.unfinished, offset + 1⟩
  | '\\' :: _ => .error ⟨.unfinishedPair, offset + 2⟩
  | [] => .error ⟨.unfinished, offset⟩
  | _ => .error ⟨.unfinishedPair, offset + 1⟩

/-- The character of a `\u` escape whose letter was just read. -/
def unicodeEscape (offset : Nat) (text : List Char) : Except Error Step := do
  let (unit, rest) ← codeUnit offset text
  if isLowSurrogate unit then .error ⟨.loneSurrogate, offset + 4⟩
  else if isHighSurrogate unit then lowHalf (offset + 4) unit rest
  else .ok ⟨Char.ofNat unit, offset + 4, rest⟩

/-- The character of an escape whose backslash was just read. -/
def escaped (offset : Nat) : List Char → Except Error Step
  | [] => .error ⟨.unfinished, offset⟩
  | '"' :: rest => .ok ⟨'"', offset + 1, rest⟩
  | '\\' :: rest => .ok ⟨'\\', offset + 1, rest⟩
  | '/' :: rest => .ok ⟨'/', offset + 1, rest⟩
  | 'b' :: rest => .ok ⟨'\x08', offset + 1, rest⟩
  | 'f' :: rest => .ok ⟨'\x0c', offset + 1, rest⟩
  | 'n' :: rest => .ok ⟨'\n', offset + 1, rest⟩
  | 'r' :: rest => .ok ⟨'\r', offset + 1, rest⟩
  | 't' :: rest => .ok ⟨'\t', offset + 1, rest⟩
  | 'u' :: rest => unicodeEscape (offset + 1) rest
  | _ => .error ⟨.invalidEscape, offset + 1⟩

theorem lowHalf_length {offset high : Nat} {text : List Char} {step : Step}
    (read : lowHalf offset high text = .ok step) : step.rest.length < text.length := by
  unfold lowHalf at read
  split at read
  case h_2 | h_3 | h_4 | h_5 => cases read
  rename_i tail
  match unit : codeUnit (offset + 2) tail with
  | .error error => simp [unit, bind, Except.bind] at read
  | .ok (low, rest) =>
      simp only [unit, bind, Except.bind] at read
      have shorter := codeUnit_length unit
      split at read
      · injection read with stepEq
        subst stepEq
        simp only [List.length_cons]
        omega
      · cases read

theorem unicodeEscape_length {offset : Nat} {text : List Char} {step : Step}
    (read : unicodeEscape offset text = .ok step) : step.rest.length < text.length := by
  unfold unicodeEscape at read
  match unit : codeUnit offset text with
  | .error error => simp [unit, bind, Except.bind] at read
  | .ok (first, rest) =>
      simp only [unit, bind, Except.bind] at read
      have shorter := codeUnit_length unit
      split at read
      · cases read
      · split at read
        · exact Nat.lt_trans (lowHalf_length read) shorter
        · cases read
          exact shorter

theorem escaped_length {offset : Nat} {text : List Char} {step : Step}
    (read : escaped offset text = .ok step) : step.rest.length < text.length := by
  unfold escaped at read
  split at read
  case h_10 => exact Nat.lt_succ_of_lt (unicodeEscape_length read)
  all_goals cases read
  all_goals simp

/-- The text between the quotes, the offset behind the closing quote, and what
follows it. `offset` counts the bytes read before `text`. -/
def body (offset : Nat) (text : List Char) : Except Error (List Char × Nat × List Char) :=
  match text with
  | [] => .error ⟨.unfinished, offset⟩
  | c :: rest =>
      if c = '"' then .ok ([], offset + 1, rest)
      else if c = '\\' then
        match _escaping : escaped (offset + 1) rest with
        | .error error => .error error
        | .ok step => do
            let (chars, offset, rest) ← body step.offset step.rest
            .ok (step.char :: chars, offset, rest)
      else if c.toNat < 0x20 then .error ⟨.controlCharacter, offset + 1⟩
      else do
        let (chars, offset, rest) ← body (offset + c.utf8Size) rest
        .ok (c :: chars, offset, rest)
  termination_by text.length
  decreasing_by
    · have shorter := escaped_length _escaping
      simp only [List.length_cons]
      omega
    · simp

/-- A blank that may follow a literal. -/
def isLayout (c : Char) : Bool :=
  c == ' ' || c == '\n' || c == '\t' || c == '\r'

/-- The text that a literal denotes. The first character is its opening quote. -/
def read (literal : String) : Except Error String := do
  let (chars, offset, rest) ← body 1 (literal.toList.drop 1)
  match rest.dropWhile isLayout with
  | [] => .ok (String.ofList chars)
  | _ :: _ =>
      .error ⟨.trailingCharacters, offset + (rest.takeWhile isLayout).length + 1⟩

end Fieldmap.Text.Literal
