/-!
# Positions in a text

A position is a line and a column. Lines are counted from one and end at a line
feed alone; columns are counted from one in bytes of the UTF-8 form.
-/

namespace Fieldmap.Text

/-- The number of bytes of a list of characters in UTF-8. -/
def byteLength : List Char → Nat
  | [] => 0
  | c :: rest => c.utf8Size + byteLength rest

@[simp] theorem byteLength_nil : byteLength [] = 0 := rfl

@[simp] theorem byteLength_cons (c : Char) (text : List Char) :
    byteLength (c :: text) = c.utf8Size + byteLength text := rfl

@[simp] theorem byteLength_append (left right : List Char) :
    byteLength (left ++ right) = byteLength left + byteLength right := by
  induction left with
  | nil => simp
  | cons c rest ih => simp [ih, Nat.add_assoc]

theorem utf8ByteSize_ofList (text : List Char) :
    (String.ofList text).utf8ByteSize = byteLength text := by
  induction text with
  | nil => rfl
  | cons c rest ih =>
      have parts : String.ofList (c :: rest) = String.singleton c ++ String.ofList rest := by
        rw [String.singleton_eq_ofList, ← String.ofList_append, List.singleton_append]
      rw [parts, String.utf8ByteSize_append, String.utf8ByteSize_singleton, ih, byteLength_cons]

/-- The bytes of a text are the bytes of its characters. -/
@[simp] theorem byteLength_toList (text : String) :
    byteLength text.toList = text.utf8ByteSize := by
  rw [← utf8ByteSize_ofList, String.ofList_toList]

/-- A line and a column. -/
structure Position where
  line : Nat
  column : Nat
  deriving DecidableEq, Repr

namespace Position

/-- The position of the first character of a text. -/
def start : Position := ⟨1, 1⟩

/-- The position given to what stands in no text. -/
def nowhere : Position := ⟨0, 0⟩

/-- The position behind one character. -/
def advance (position : Position) (c : Char) : Position :=
  if c = '\n' then ⟨position.line + 1, 1⟩
  else ⟨position.line, position.column + c.utf8Size⟩

/-- The position behind a stretch of text. -/
def after (position : Position) (text : List Char) : Position :=
  text.foldl advance position

@[simp] theorem after_nil (position : Position) : position.after [] = position := rfl

@[simp] theorem after_cons (position : Position) (c : Char) (text : List Char) :
    position.after (c :: text) = (position.advance c).after text := rfl

@[simp] theorem after_append (position : Position) (left right : List Char) :
    position.after (left ++ right) = (position.after left).after right := by
  simp [after]

end Position

end Fieldmap.Text
