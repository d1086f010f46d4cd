import Fieldmap.Proofs.Grammar.ItemOrder
import Fieldmap.Proofs.ReadBack
import Mathlib.Logic.Relation

/-!
# Other spellings of a specification

The items of a record may stand in any order, some commas may be left out, a set of names may
be listed in many ways, and a bare word may be quoted. Such changes are rewrites of tokens,
each at some place of a specification. None of them changes what is read but for positions,
so no sequence of them does.
-/

namespace Fieldmap.Spec

/-! ## Rewrites -/

/-- A bare default that stands for itself. -/
inductive KeptDefault (token : Token) : Prop where
  | identifier : token.is .identifier → ¬ token.isWord absentDefault → KeptDefault token
  | number : token.is .number → KeptDefault token

/-- An entry of a fieldmap spelled in another way. -/
inductive RespellsEntry : List Token → List Token → Prop where
  /-- A comma is put behind an entry. -/
  | comma {entry : List Token} {field : Field} {comma : Token} :
      DerivesClosedEntry entry field → comma.is (.mark .comma) →
      RespellsEntry entry (entry ++ [comma])
  /-- A default is quoted. -/
  | default {opening name firstComma typeName secondComma bare quoted closing : Token}
      {trailing : List Token} {field : Field} :
      DerivesClosedEntry [opening, name, firstComma, typeName, secondComma, bare, closing] field →
      KeptDefault bare → Denotes quoted bare.text → OptionalMark .comma trailing →
      RespellsEntry ([opening, name, firstComma, typeName, secondComma, bare, closing] ++ trailing)
        ([opening, name, firstComma, typeName, secondComma, quoted, closing] ++ trailing)

/-- An item of a record spelled in another way. -/
inductive RespellsItem : List Token → List Token → Prop where
  /-- One entry of a fieldmap is spelled in another way. -/
  | entry {keyword opening closing : Token} {front left right back : List Token}
      {frontFields backFields : List Field} :
      keyword.isWord Item.fieldmap.keyword → opening.is (.mark .leftParen) →
      Sequence DerivesEntry front frontFields → RespellsEntry left right →
      Sequence DerivesEntry back backFields → closing.is (.mark .rightParen) →
      RespellsItem ([keyword, opening] ++ (front ++ (left ++ back)) ++ [closing])
        ([keyword, opening] ++ (front ++ (right ++ back)) ++ [closing])
  /-- A comma is put behind the last of some buffered names. -/
  | trailingComma {keyword opening first comma closing semicolon : Token} {more : List Token}
      {names : List String} :
      keyword.isWord Item.buffered.keyword → opening.is (.mark .leftParen) →
      first.is .identifier → Sequence DerivesNextName more names → comma.is (.mark .comma) →
      closing.is (.mark .rightParen) → semicolon.is (.mark .semicolon) →
      RespellsItem ([keyword, opening] ++ (first :: more) ++ [closing, semicolon])
        ([keyword, opening] ++ (first :: more ++ [comma]) ++ [closing, semicolon])
  /-- The same buffered names are listed in another order, or another number of times. -/
  | names {keyword opening closing semicolon : Token} {left right : List Token}
      {leftNames rightNames : List String} :
      keyword.isWord Item.buffered.keyword → opening.is (.mark .leftParen) →
      DerivesNames left leftNames → DerivesNames right rightNames →
      (∀ name, name ∈ leftNames ↔ name ∈ rightNames) →
      closing.is (.mark .rightParen) → semicolon.is (.mark .semicolon) →
      RespellsItem ([keyword, opening] ++ left ++ [closing, semicolon])
        ([keyword, opening] ++ right ++ [closing, semicolon])
  /-- The name of a structure is quoted. -/
  | struct {keyword bare quoted semicolon : Token} :
      keyword.isWord Item.struct.keyword → bare.is .identifier → Denotes quoted bare.text →
      semicolon.is (.mark .semicolon) →
      RespellsItem [keyword, bare, semicolon] [keyword, quoted, semicolon]

/-- One rewrite at some place of a list of tokens. -/
inductive Respells : List Token → List Token → Prop where
  | item {before left right after : List Token} : RespellsItem left right →
      Respells (before ++ left ++ after) (before ++ right ++ after)
  /-- Items that follow each other are put into another order. -/
  | permuted {before after : List Token} {left right : List (List Token)} :
      (∀ item ∈ left, IsItem item) → left.Perm right →
      Respells (before ++ left.flatten ++ after) (before ++ right.flatten ++ after)
  /-- The same words stand at other positions. -/
  | moved {left right : List Token} : left.map Token.text = right.map Token.text →
      Respells left right

/-! ## Rewritten items -/

theorem KeptDefault.eq_some {bare : Token} {default : Option String} (kept : KeptDefault bare)
    (derived : DerivesDefault bare default) : default = some bare.text := by
  cases derived with
  | absent word =>
      have identifier := Token.is_identifier_of_isWord isIdentifier_absentDefault word
      cases kept with
      | identifier _ present => exact absurd word present
      | number number =>
          rw [Token.is_eq_false identifier .number (by decide)] at number
          cases number
  | identifier _ _ => rfl
  | number _ => rfl
  | quoted denotes =>
      cases kept with
      | identifier identifier _ =>
          rw [Token.is_eq_false denotes.1 .identifier (by decide)] at identifier
          cases identifier
      | number number =>
          rw [Token.is_eq_false denotes.1 .number (by decide)] at number
          cases number

/-- Both spellings of an entry derive one field. -/
theorem RespellsEntry.derives {left right : List Token} (respells : RespellsEntry left right) :
    ∃ field, DerivesEntry left field ∧ DerivesEntry right field := by
  cases respells with
  | comma closed parted =>
      have unparted := DerivesEntry.intro closed .absent
      rw [List.append_nil] at unparted
      exact ⟨_, unparted, .intro closed (.present parted)⟩
  | default closed kept denotes trailing =>
      refine ⟨_, .intro closed trailing, ?_⟩
      cases closed with
      | intro opens named parted typed partedAgain defaulted closes =>
          rw [kept.eq_some defaulted]
          have quotedClosed := DerivesClosedEntry.intro opens named parted typed partedAgain
            (.quoted denotes) closes
          exact .intro quotedClosed trailing

/-- Lists with the same names make one set. -/
theorem ItemContent.sameEffect_buffered {left right : List String}
    (same : ∀ name, name ∈ left ↔ name ∈ right) :
    (ItemContent.buffered left).SameEffect (.buffered right) := by
  have sets : NameSet.ofList left = NameSet.ofList right := by
    apply NameSet.ext
    intro name
    rw [NameSet.mem_ofList, NameSet.mem_ofList]
    exact same name
  refine ⟨rfl, fun draft => ?_⟩
  rw [Draft.add, Draft.add, sets]

/-- Both spellings of an item have one effect. -/
theorem RespellsItem.derives {left right : List Token} (respells : RespellsItem left right) :
    ∃ leftContent rightContent, DerivesItem left leftContent ∧ DerivesItem right rightContent ∧
      leftContent.SameEffect rightContent := by
  cases respells with
  | entry word opens front respelled back closes =>
      rcases respelled.derives with ⟨field, leftEntry, rightEntry⟩
      exact ⟨_, _, .fieldmap word opens (front.append (.cons leftEntry back)) closes,
        .fieldmap word opens (front.append (.cons rightEntry back)) closes, .refl _⟩
  | trailingComma word opens named more parted closes ends =>
      have listed := DerivesNames.listed named more .absent
      rw [List.append_nil] at listed
      exact ⟨_, _, .buffered word opens listed closes ends,
        .buffered word opens (.listed named more (.present parted)) closes ends, .refl _⟩
  | names word opens leftNamed rightNamed same closes ends =>
      exact ⟨_, _, .buffered word opens leftNamed closes ends,
        .buffered word opens rightNamed closes ends, ItemContent.sameEffect_buffered same⟩
  | struct word identifier denotes ends =>
      exact ⟨_, _, .struct word (.bare identifier) ends, .struct word (.quoted denotes) ends,
        .refl _⟩

theorem RespellsItem.isItem_left {left right : List Token} (respells : RespellsItem left right) :
    IsItem left := by
  rcases respells.derives with ⟨content, _, derived, _, _⟩
  exact ⟨content, derived⟩

theorem RespellsItem.readAlike {left right : List Token} (respells : RespellsItem left right) :
    ReadAlike left right := by
  rcases respells.derives with ⟨_, _, leftDerived, rightDerived, same⟩
  exact readAlike_of_sameEffect leftDerived rightDerived same

/-! ## Rewritten specifications -/

/-- The records that some tokens are read as, without their positions. -/
def unplacedRecords (tokens : List Token) : Option (List Record) :=
  (recordsOf tokens).toOption.map (List.map Record.unplaced)

theorem unplacedRecords_eq_some_iff {tokens : List Token} {unplaced : List Record} :
    unplacedRecords tokens = some unplaced ↔
      ∃ records, recordsOf tokens = .ok records ∧ records.map Record.unplaced = unplaced := by
  unfold unplacedRecords
  cases recordsOf tokens <;> simp [Except.toOption]

/-- Only the words matter. -/
theorem unplacedRecords_eq_bare (tokens : List Token) :
    unplacedRecords tokens = (recordsOf ((tokens.map Token.text).map Token.bare)).toOption := by
  have moved := recordsOf_relocate (fun _ => .nowhere) tokens
  rw [Token.map_relocate_nowhere] at moved
  rw [moved, unplacedRecords]
  cases recordsOf tokens <;> rfl

theorem ReadAlike.unplacedRecords_eq {left right : List Token} (alike : ReadAlike left right)
    (leftFilled : left ≠ []) (rightFilled : right ≠ []) :
    unplacedRecords left = unplacedRecords right := by
  apply Option.ext
  intro unplaced
  rw [unplacedRecords_eq_some_iff, unplacedRecords_eq_some_iff]
  refine exists_congr fun records => and_congr_left fun _ => ?_
  rw [recordsOf_eq_ok_iff_run leftFilled, recordsOf_eq_ok_iff_run rightFilled]
  exact alike .initial _

/-- One rewrite keeps what is read. -/
theorem Respells.unplacedRecords_eq {left right : List Token} (respells : Respells left right) :
    unplacedRecords left = unplacedRecords right := by
  cases respells with
  | @item before left right after respells =>
      rcases respells.derives with ⟨_, _, leftDerived, rightDerived, _⟩
      have leftFilled : left ≠ [] := leftDerived.ne_nil
      have rightFilled : right ≠ [] := rightDerived.ne_nil
      exact (respells.readAlike.inside before after).unplacedRecords_eq (by simp [leftFilled])
        (by simp [rightFilled])
  | @permuted before after left right items perm =>
      have alike := (readAlike_flatten_of_perm perm items).inside before after
      have whole : (before ++ left.flatten ++ after).Perm (before ++ right.flatten ++ after) :=
        (perm.flatten.append_left before).append_right after
      -- Of no tokens nothing is read, without a run.
      by_cases leftEmpty : before ++ left.flatten ++ after = []
      · rw [leftEmpty] at whole ⊢
        rw [whole.symm.eq_nil]
      · refine alike.unplacedRecords_eq leftEmpty fun rightEmpty => ?_
        rw [rightEmpty] at whole
        exact leftEmpty whole.eq_nil
  | moved sameWords => rw [unplacedRecords_eq_bare, unplacedRecords_eq_bare, sameWords]

/-- Rewrites keep what is read, however many there are. -/
theorem unplacedRecords_eq_of_eqvGen {tokens others : List Token}
    (respelled : Relation.EqvGen Respells tokens others) :
    unplacedRecords tokens = unplacedRecords others := by
  induction respelled with
  | rel _ _ respells => exact respells.unplacedRecords_eq
  | refl _ => rfl
  | symm _ _ _ ih => exact ih.symm
  | trans _ _ _ _ _ first second => exact first.trans second

/-- Another spelling of a specification is read as the same records, up to positions. -/
theorem recordsOf_respelled {tokens others : List Token} {records : List Record}
    (accepted : recordsOf tokens = .ok records)
    (respelled : Relation.EqvGen Respells tokens others) :
    ∃ same, recordsOf others = .ok same ∧
      same.map Record.unplaced = records.map Record.unplaced := by
  rw [← unplacedRecords_eq_some_iff, ← unplacedRecords_eq_of_eqvGen respelled,
    unplacedRecords_eq_some_iff]
  exact ⟨records, accepted, rfl⟩

/-- A specification of one record with some items. -/
def inRecord (items : List (List Token)) : List Token :=
  ["record", "r", "\x7b"].map Token.bare ++ items.flatten ++ ["\x7d", ""].map Token.bare

theorem RespellsItem.respells_inRecord {left right : List Token}
    (respells : RespellsItem left right) (front back : List (List Token)) :
    Respells (inRecord (front ++ left :: back)) (inRecord (front ++ right :: back)) := by
  have whole := @Respells.item (["record", "r", "\x7b"].map Token.bare ++ front.flatten) _ _
    (back.flatten ++ ["\x7d", ""].map Token.bare) respells
  simpa [inRecord] using whole

/-- An item that names the structure. -/
def structTokens (name : String) : List Token :=
  ["struct", name, ";"].map Token.bare

/-- An item with some buffered names and commas. -/
def bufferedTokens (names : List String) : List Token :=
  (["buffered", "("] ++ names ++ [")", ";"]).map Token.bare

/-- A fieldmap of one entry, and what stands behind it. -/
def fieldmapTokens (value : String) (trailing : List String) : List Token :=
  (["fieldmap", "(", "(", "x", ",", "integer", ",", value, ")"] ++ trailing ++ [")"]).map Token.bare

/-- Without commas and quotes, as far as that goes. -/
def plainSpelling : List Token :=
  inRecord [fieldmapTokens "-1" [], bufferedTokens ["y", ",", "z"], structTokens "s"]

/-- The same in another order, with commas and quotes, and with a name listed twice. -/
def quotedSpelling : List Token :=
  inRecord [structTokens "\"s\"", bufferedTokens ["z", ",", "y", ",", "z", ","],
    fieldmapTokens "\"-1\"" [","]]

/-- The record that both spell. -/
def plainRecord : Record :=
  ⟨"r", .nowhere, none, "s", [⟨"x", .nowhere, .integer, some "-1"⟩], .ofList ["y", "z"]⟩

theorem eqvGen_plainSpelling : Relation.EqvGen Respells plainSpelling quotedSpelling := by
  have closed : DerivesClosedEntry (["(", "x", ",", "integer", ",", "-1", ")"].map Token.bare)
      ⟨"x", .nowhere, .integer, some "-1"⟩ :=
    .intro (by decide) (by decide) (by decide) (by decide) (by decide) (.number (by decide))
      (by decide)
  have parted : RespellsItem (fieldmapTokens "-1" []) (fieldmapTokens "-1" [","]) :=
    .entry (by decide) (by decide) .nil (.comma closed (by decide)) .nil (by decide)
  have minusOne : Denotes (Token.bare "\"-1\"") "-1" := ⟨by decide, by decide +kernel⟩
  have quotedDefault : RespellsItem (fieldmapTokens "-1" [","]) (fieldmapTokens "\"-1\"" [","]) :=
    .entry (by decide) (by decide) .nil (.default closed (.number (by decide)) minusOne
      (.present (by decide))) .nil (by decide)
  have quotedStruct : RespellsItem (structTokens "s") (structTokens "\"s\"") :=
    .struct (by decide) (by decide) ⟨by decide, by decide +kernel⟩ (by decide)
  have plainNames : DerivesNames (["y", ",", "z"].map Token.bare) ["y", "z"] :=
    .listed (by decide) (.cons (.intro (by decide) (by decide)) .nil) .absent
  have longNames : DerivesNames (["z", ",", "y", ",", "z", ","].map Token.bare) ["z", "y", "z"] :=
    .listed (by decide) (.cons (.intro (by decide) (by decide))
      (.cons (.intro (by decide) (by decide)) .nil)) (.present (by decide))
  have listed : RespellsItem (bufferedTokens ["y", ",", "z"])
      (bufferedTokens ["z", ",", "y", ",", "z", ","]) :=
    .names (by decide) (by decide) plainNames longNames (by simp [or_comm]) (by decide) (by decide)
  have reversed : Respells plainSpelling
      (inRecord [structTokens "s", bufferedTokens ["y", ",", "z"], fieldmapTokens "-1" []]) := by
    refine .permuted ?_ (List.reverse_perm _).symm
    simp only [List.forall_mem_cons]
    exact ⟨parted.isItem_left, listed.isItem_left, quotedStruct.isItem_left, nofun⟩
  exact .trans _ _ _ (.rel _ _ reversed) <|
    .trans _ _ _ (.rel _ _ (quotedStruct.respells_inRecord [] _)) <|
    .trans _ _ _ (.rel _ _ (listed.respells_inRecord [_] _)) <|
    .trans _ _ _ (.rel _ _ (parted.respells_inRecord [_, _] []))
      (.rel _ _ (quotedDefault.respells_inRecord [_, _] []))

theorem recordsOf_quotedSpelling :
    recordsOf plainSpelling = .ok [plainRecord] ∧
    Relation.EqvGen Respells plainSpelling quotedSpelling ∧
    ∃ same, recordsOf quotedSpelling = .ok same ∧
      same.map Record.unplaced = [plainRecord].map Record.unplaced := by
  have accepted : recordsOf plainSpelling = .ok [plainRecord] := by decide +kernel
  exact ⟨accepted, eqvGen_plainSpelling, recordsOf_respelled accepted eqvGen_plainSpelling⟩

end Fieldmap.Spec
