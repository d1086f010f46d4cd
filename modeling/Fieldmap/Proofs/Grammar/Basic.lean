import Fieldmap.Spec.Reader

/-!
# The grammar of specifications

The reader of specifications goes from phase to phase. This module says, without
phases, which lists of tokens are specifications and which records they describe:

    file   = record* END
    record = "record" IDENT "{" item* "}"
    item   = "header" STRING ";"
           | "struct" (STRING | IDENT) ";"
           | "buffered" "(" [IDENT ("," IDENT)* [","]] ")" ";"
           | "fieldmap" "(" entry* ")"
    entry  = "(" IDENT "," TYPE "," (IDENT | NUMBER | STRING) ")" [","]

A keyword is an identifier like any other where an identifier may stand. Each kind
of item stands at most once in a record, in any order, and the structure and the
fieldmap are required.
-/

namespace Fieldmap.Spec

/-- A list of tokens cut into stretches, each of which derives one value. -/
inductive Sequence {α : Type} (derives : List Token → α → Prop) :
    List Token → List α → Prop where
  | nil : Sequence derives [] []
  | cons {first rest : List Token} {value : α} {values : List α} :
      derives first value → Sequence derives rest values →
      Sequence derives (first ++ rest) (value :: values)

namespace Sequence

variable {α : Type} {derives : List Token → α → Prop}

theorem append {left right : List Token} {leftValues rightValues : List α}
    (leftDerived : Sequence derives left leftValues)
    (rightDerived : Sequence derives right rightValues) :
    Sequence derives (left ++ right) (leftValues ++ rightValues) := by
  induction leftDerived with
  | nil => exact rightDerived
  | cons first _ ih =>
      rw [List.append_assoc]
      exact .cons first ih

/-- A sequence goes on with one more stretch. -/
theorem concat {tokens last : List Token} {values : List α} {value : α}
    (derived : Sequence derives tokens values) (lastDerived : derives last value) :
    Sequence derives (tokens ++ last) (values ++ [value]) := by
  have single : Sequence derives (last ++ []) [value] := .cons lastDerived .nil
  rw [List.append_nil] at single
  exact derived.append single

/-- Every value of a sequence is derived from some stretch of it. -/
theorem exists_sublist_of_mem {tokens : List Token} {values : List α} {value : α}
    (derived : Sequence derives tokens values) (member : value ∈ values) :
    ∃ stretch, derives stretch value ∧ stretch.Sublist tokens := by
  induction derived with
  | nil => cases member
  | @cons first rest _ _ firstDerived _ ih =>
      rcases List.mem_cons.mp member with rfl | member
      · exact ⟨first, firstDerived, List.sublist_append_left first rest⟩
      · obtain ⟨stretch, stretchDerived, within⟩ := ih member
        exact ⟨stretch, stretchDerived, within.trans (List.sublist_append_right first rest)⟩

theorem derives_of_mem {tokens : List Token} {values : List α} {value : α}
    (derived : Sequence derives tokens values) (member : value ∈ values) :
    ∃ stretch, derives stretch value := by
  obtain ⟨stretch, stretchDerived, _⟩ := derived.exists_sublist_of_mem member
  exact ⟨stretch, stretchDerived⟩

/-- What is found in order in each stretch is found in order in the whole sequence. -/
theorem flatMap_sublist {tokens : List Token} {values : List α} {parts : α → List Token}
    (derived : Sequence derives tokens values)
    (each : ∀ {stretch value}, derives stretch value → (parts value).Sublist stretch) :
    (values.flatMap parts).Sublist tokens := by
  induction derived with
  | nil => exact .slnil
  | cons firstDerived _ ih =>
      rw [List.flatMap_cons]
      exact (each firstDerived).append ih

end Sequence

/-- Nothing, or one mark. -/
inductive OptionalMark (mark : Mark) : List Token → Prop where
  | absent : OptionalMark mark []
  | present {token : Token} : token.is (.mark mark) → OptionalMark mark [token]

/-- A quoted token and the text that it is read as. -/
def Denotes (token : Token) (text : String) : Prop :=
  token.is .quoted ∧ Text.Literal.read token.text = .ok text

/-- A structure is named by a literal or by an identifier. -/
inductive DerivesStructName : Token → String → Prop where
  | quoted {token : Token} {name : String} : Denotes token name → DerivesStructName token name
  | bare {token : Token} : token.is .identifier → DerivesStructName token token.text

/-- The bare word `None` is no default. Any other bare default stands for itself and
a literal for its text, whatever that is. -/
inductive DerivesDefault : Token → Option String → Prop where
  | absent {token : Token} : token.isWord absentDefault → DerivesDefault token none
  | identifier {token : Token} : token.is .identifier → ¬ token.isWord absentDefault →
      DerivesDefault token (some token.text)
  | number {token : Token} : token.is .number → DerivesDefault token (some token.text)
  | quoted {token : Token} {text : String} : Denotes token text → DerivesDefault token (some text)

/-- An entry of a fieldmap up to its closing parenthesis. A field stands where its
name stands. -/
inductive DerivesClosedEntry : List Token → Field → Prop where
  | intro {opening name firstComma typeName secondComma value closing : Token}
      {type : FieldType} {default : Option String} :
      opening.is (.mark .leftParen) → name.is .identifier → firstComma.is (.mark .comma) →
      typeName.isWord type.name → secondComma.is (.mark .comma) → DerivesDefault value default →
      closing.is (.mark .rightParen) →
      DerivesClosedEntry [opening, name, firstComma, typeName, secondComma, value, closing]
        ⟨name.text, name.position, type, default⟩

/-- An entry of a fieldmap, behind which a comma may stand. -/
inductive DerivesEntry : List Token → Field → Prop where
  | intro {entry trailing : List Token} {field : Field} :
      DerivesClosedEntry entry field → OptionalMark .comma trailing →
      DerivesEntry (entry ++ trailing) field

/-- A further buffered name, behind a comma. -/
inductive DerivesNextName : List Token → String → Prop where
  | intro {comma name : Token} : comma.is (.mark .comma) → name.is .identifier →
      DerivesNextName [comma, name] name.text

/-- The names between the parentheses of a buffered list. -/
inductive DerivesNames : List Token → List String → Prop where
  | empty : DerivesNames [] []
  | listed {first : Token} {more trailing : List Token} {names : List String} :
      first.is .identifier → Sequence DerivesNextName more names →
      OptionalMark .comma trailing →
      DerivesNames (first :: more ++ trailing) (first.text :: names)

/-- What an item says. -/
inductive ItemContent where
  | header (text : String)
  | struct (name : String)
  | buffered (names : List String)
  | fieldmap (fields : List Field)
  deriving DecidableEq, Repr

/-- The kind of an item. -/
def ItemContent.item : ItemContent → Item
  | header _ => .header
  | struct _ => .struct
  | buffered _ => .buffered
  | fieldmap _ => .fieldmap

/-- One item of a record. -/
inductive DerivesItem : List Token → ItemContent → Prop where
  | header {keyword value semicolon : Token} {text : String} :
      keyword.isWord Item.header.keyword → Denotes value text →
      semicolon.is (.mark .semicolon) →
      DerivesItem [keyword, value, semicolon] (.header text)
  | struct {keyword value semicolon : Token} {name : String} :
      keyword.isWord Item.struct.keyword → DerivesStructName value name →
      semicolon.is (.mark .semicolon) →
      DerivesItem [keyword, value, semicolon] (.struct name)
  | buffered {keyword opening closing semicolon : Token} {inner : List Token}
      {names : List String} :
      keyword.isWord Item.buffered.keyword → opening.is (.mark .leftParen) →
      DerivesNames inner names → closing.is (.mark .rightParen) →
      semicolon.is (.mark .semicolon) →
      DerivesItem ([keyword, opening] ++ inner ++ [closing, semicolon]) (.buffered names)
  | fieldmap {keyword opening closing : Token} {inner : List Token} {fields : List Field} :
      keyword.isWord Item.fieldmap.keyword → opening.is (.mark .leftParen) →
      Sequence DerivesEntry inner fields → closing.is (.mark .rightParen) →
      DerivesItem ([keyword, opening] ++ inner ++ [closing]) (.fieldmap fields)

/-- A record gathers what its items say. -/
structure Gathers (record : Record) (items : List ItemContent) : Prop where
  header : ∀ text, record.header = some text ↔ .header text ∈ items
  struct : .struct record.structName ∈ items
  fieldmap : .fieldmap record.fields ∈ items
  buffered : ∀ name, name ∈ record.buffered ↔ ∃ names, .buffered names ∈ items ∧ name ∈ names

/-- One record. It stands where its keyword stands. -/
inductive DerivesRecord : List Token → Record → Prop where
  | intro {keyword name opening closing : Token} {body : List Token}
      {items : List ItemContent} {record : Record} :
      keyword.isWord "record" → name.is .identifier → opening.is (.mark .leftBrace) →
      Sequence DerivesItem body items → closing.is (.mark .rightBrace) →
      (items.map ItemContent.item).Nodup → Gathers record items →
      record.name = name.text → record.position = keyword.position →
      DerivesRecord ([keyword, name, opening] ++ body ++ [closing]) record

/-- A whole specification. -/
inductive DerivesFile : List Token → List Record → Prop where
  | intro {body : List Token} {last : Token} {records : List Record} :
      Sequence DerivesRecord body records → last.is .endOfText →
      DerivesFile (body ++ [last]) records

end Fieldmap.Spec
