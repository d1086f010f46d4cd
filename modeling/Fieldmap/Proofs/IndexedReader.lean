import Fieldmap.Spec.Reader

/-!
# The reader as nested loops over a place

Records are also read by loops within loops that move one place through the tokens. Here a
token is asked for by its place, the place may stand behind the last token, and every loop
has a number of rounds that it may not exceed. A place that has no token and a loop that
does not end are therefore results of their own, besides the refusals.
-/

namespace Fieldmap.Spec

/-- Why a walk over tokens stops short. -/
inductive Stop where
  /-- The tokens are refused. -/
  | refused (error : Error)
  /-- A token is asked for at a place that has none. -/
  | outside
  /-- A loop has no round left. -/
  | endless
  deriving DecidableEq, Repr

/-- A walk over tokens, which moves one place through them. -/
abbrev Walk (α : Type) : Type := ReaderT (List Token) (StateT Nat (Except Stop)) α

namespace Walk

/-! ## Places -/

/-- A token that is there. -/
def found : Option Token → Walk Token
  | some token => return token
  | none => throw .outside

/-- The token at a place. Behind the last token the last one is shown. -/
def tokenAt (index : Nat) : Walk Token := do
  let tokens ← MonadReader.read
  found tokens[min index (tokens.length - 1)]?

def current : Walk Token := do
  tokenAt (← get)

/-- The token in front of the place. -/
def previous : Walk Token := do
  match ← get with
  | 0 => throw .outside
  | index + 1 => tokenAt index

/-- Move behind the current token if it passes a test. -/
def eat (test : Token → Bool) : Walk Bool := do
  let tokens ← MonadReader.read
  let index ← get
  if index < tokens.length then do
    if test (← current) then do
      set (index + 1)
      return true
    else return false
  else return false

def refuse {α : Type} (token : Token) (fault : Fault) : Walk α :=
  throw (.refused ⟨token.position, fault⟩)

/-- Refuse the current token, which stands between records or items. -/
def unexpected {α : Type} : Walk α := do
  let token ← current
  refuse token (.unexpected token.text)

/-- Refuse the keyword that was just moved behind. -/
def duplicate {α : Type} : Walk α := do
  let token ← previous
  refuse token (.duplicateItem token.text)

/-- Move behind a token that must pass a test. -/
def expect (test : Token → Bool) (what : Expectation) : Walk Unit := do
  if ← eat test then return ()
  else do
    let token ← current
    refuse token (.expected what token.text)

def expectMark (mark : Mark) : Walk Unit :=
  expect (·.is (.mark mark)) (.mark mark)

/-- The current token, which must pass a test. -/
def take (test : Token → Bool) (what : Expectation) : Walk Token := do
  let token ← current
  expect test what
  return token

/-- The result of a check, where a failure refuses the tokens. -/
def check {α : Type} : Except Error α → Walk α
  | .ok value => return value
  | .error error => throw (.refused error)

/-- The text that the current token denotes, which must be quoted. -/
def takeLiteral (what : Expectation) : Walk String := do
  let token ← take (·.is .quoted) what
  check (literal token)

/-- Go round until a token passes a test, or until a round says that it was the last. -/
def untilEaten {σ : Type} (test : Token → Bool) (round : σ → Walk (ForInStep σ)) :
    Nat → σ → Walk σ
  | 0, _ => throw .endless
  | rounds + 1, state => do
      if ← eat test then return state
      else do
        match ← round state with
        | .done last => return last
        | .yield next => untilEaten test round rounds next

/-! ## Entries -/

/-- A default that is not quoted. -/
def bareDefault (token : Token) : Option String :=
  if token.isWord absentDefault then none else some token.text

def default : Walk (Option String) := do
  let token ← current
  if ← eat (·.is .identifier) then return bareDefault token
  else do
    if ← eat (·.is .number) then return bareDefault token
    else do
      if ← eat (·.is .quoted) then return some (← check (literal token))
      else refuse token (.expected .defaultValue token.text)

def fieldType : Walk FieldType := do
  let token ← take (·.is .identifier) .fieldType
  match FieldType.ofName? token.text with
  | some type => return type
  | none => refuse token (.unknownType token.text)

/-- An entry behind its opening parenthesis, with the comma behind it if there is one. -/
def entryParts : Walk Field := do
  let name ← take (·.is .identifier) .fieldName
  expectMark .comma
  let type ← fieldType
  expectMark .comma
  let default ← default
  expectMark .rightParen
  let _ ← eat (·.is (.mark .comma))
  return ⟨name.text, name.position, type, default⟩

def entry : Walk Field := do
  expectMark .leftParen
  entryParts

/-! ## Items -/

def header (draft : Draft) : Walk Draft := do
  let text ← takeLiteral .string
  expectMark .semicolon
  return { draft with header := some text }

def structName : Walk String := do
  let token ← current
  if ← eat (·.is .quoted) then check (literal token)
  else do
    expect (·.is .identifier) .structName
    return token.text

def struct (draft : Draft) : Walk Draft := do
  let name ← structName
  expectMark .semicolon
  return { draft with structName := some name }

/-- One buffered name. Without a comma behind it the list must end. -/
def bufferedName (names : NameSet) : Walk (ForInStep NameSet) := do
  let name ← take (·.is .identifier) .fieldName
  if ← eat (·.is (.mark .comma)) then return .yield (names.insert name.text)
  else do
    expectMark .rightParen
    return .done (names.insert name.text)

def buffered (rounds : Nat) (draft : Draft) : Walk Draft := do
  expectMark .leftParen
  let names ← untilEaten (·.is (.mark .rightParen)) bufferedName rounds .empty
  expectMark .semicolon
  return { draft with buffered := some names }

def fieldmap (rounds : Nat) (draft : Draft) : Walk Draft := do
  expectMark .leftParen
  let fields ← untilEaten (·.is (.mark .rightParen))
    (fun fields => do return .yield (fields ++ [← entry])) rounds []
  return { draft with fields := some fields }

/-- An item behind its keyword. A record has at most one of each kind. -/
def behindKeyword (rounds : Nat) (draft : Draft) (item : Item) : Walk Draft :=
  if draft.has item then duplicate
  else
    match item with
    | .header => header draft
    | .struct => struct draft
    | .buffered => buffered rounds draft
    | .fieldmap => fieldmap rounds draft

/-- An item of one of some kinds, which are tried in their order. -/
def itemOf (rounds : Nat) (draft : Draft) : List Item → Walk Draft
  | [] => unexpected
  | item :: others => do
      if ← eat (·.isWord item.keyword) then behindKeyword rounds draft item
      else itemOf rounds draft others

/-! ## Records -/

/-- The body of a record behind its opening brace. -/
def body (rounds : Nat) (draft : Draft) : Walk Record := do
  let draft ← untilEaten (·.is (.mark .rightBrace))
    (fun draft => do return .yield (← itemOf rounds draft Item.all)) rounds draft
  check draft.finish

def record (rounds : Nat) (records : List Record) : Walk (ForInStep (List Record)) := do
  let keyword ← current
  if ← eat (·.isWord "record") then do
    let name ← take (·.is .identifier) .identifier
    expectMark .leftBrace
    let record ← body rounds (.empty keyword.position name)
    return .yield (records ++ [record])
  else unexpected

def records (rounds : Nat) : Walk (List Record) := do
  if (← MonadReader.read).isEmpty then return []
  else untilEaten (·.is .endOfText) (record rounds) rounds []

end Walk

/-- The records of a list of tokens, read by loops that may go round so many times. -/
def recordsWithin (rounds : Nat) (tokens : List Token) : Except Stop (List Record) :=
  (((Walk.records rounds).run tokens).run 0).map Prod.fst

end Fieldmap.Spec
