import Fieldmap.Proofs.QuotedLiteral
import Fieldmap.Record.Dump

/-!
# Dumps lose nothing

A written JSON value can be told from the text that it begins: its first character tells
what it is, a quoted text ends at the first bare quote, digits end where no digit
follows, and behind an item either a comma or a new line says whether another one comes.
So a text begins with the written form of one value only, whatever text and however many
items the value holds. Records are dumped with everything that they hold, and are known
from their dump.
-/

namespace Fieldmap

open Text

/-- Quoted texts are known from what they begin. -/
theorem Text.quoteChars_append_inj {left right leftRest rightRest : List Char}
    (same : quoteChars left ++ leftRest = quoteChars right ++ rightRest) :
    left = right ∧ leftRest = rightRest := by
  simp only [quoteChars, List.cons_append, List.append_assoc, List.nil_append, List.cons.injEq,
    true_and] at same
  obtain ⟨leftNext, leftRead⟩ := Literal.body_escape left leftRest 1
  obtain ⟨rightNext, rightRead⟩ := Literal.body_escape right rightRest 1
  rw [same, rightRead] at leftRead
  cases leftRead
  exact ⟨rfl, rfl⟩

namespace Json

/-! ## First characters -/

/-- The characters that a value of each kind may begin with. -/
inductive Opens : Json → Char → Prop where
  | null : Opens null 'n'
  | number {value : Nat} {digit : Char} : digit.isDigit = true → Opens (number value) digit
  | text {value : String} : Opens (text value) '"'
  | list {items : List Json} : Opens (list items) '['
  | object {members : List (String × Json)} : Opens (object members) '\x7b'

theorem exists_opens (depth : Nat) (value : Json) :
    ∃ c rest, chars depth value = c :: rest ∧ value.Opens c := by
  cases value with
  | null => exact ⟨_, _, rfl, .null⟩
  | number value =>
      cases digits : Nat.toDigits 10 value with
      | nil => exact absurd digits Nat.toDigits_ne_nil
      | cons digit rest =>
          have member : digit ∈ Nat.toDigits 10 value := by
            rw [digits]
            exact List.mem_cons_self
          refine ⟨digit, rest, by rw [chars, digits], ?_⟩
          exact .number (Nat.isDigit_of_mem_toDigits (by decide) (by decide) member)
  | text value => exact ⟨_, _, by rw [chars, quoteChars, List.cons_append], .text⟩
  | list items =>
      cases items with
      | nil => exact ⟨_, _, by rw [chars], .list⟩
      | cons => exact ⟨_, _, by rw [chars]; rfl, .list⟩
  | object members =>
      rcases members with _ | ⟨⟨key, first⟩, rest⟩
      · exact ⟨_, _, by rw [chars], .object⟩
      · exact ⟨_, _, by rw [chars]; rfl, .object⟩

/-- Two values of one kind. -/
inductive Alike : Json → Json → Prop where
  | null : Alike null null
  | number (left right : Nat) : Alike (number left) (number right)
  | text (left right : String) : Alike (text left) (text right)
  | list (left right : List Json) : Alike (list left) (list right)
  | object (left right : List (String × Json)) : Alike (object left) (object right)

/-- No two kinds begin with the same character. -/
theorem Opens.alike {left right : Json} {c : Char} (leftOpens : left.Opens c)
    (rightOpens : right.Opens c) : left.Alike right := by
  cases leftOpens with
  | null =>
      cases rightOpens with
      | null => exact .null
      | number digit => exact absurd digit (by decide)
  | number digit =>
      cases rightOpens with
      | number => exact .number _ _
      | _ => exact absurd digit (by decide)
  | text =>
      cases rightOpens with
      | text => exact .text _ _
      | number digit => exact absurd digit (by decide)
  | list =>
      cases rightOpens with
      | list => exact .list _ _
      | number digit => exact absurd digit (by decide)
  | object =>
      cases rightOpens with
      | object => exact .object _ _
      | number digit => exact absurd digit (by decide)

theorem alike_of_chars {depth : Nat} {left right : Json} {leftRest rightRest : List Char}
    (same : chars depth left ++ leftRest = chars depth right ++ rightRest) :
    left.Alike right := by
  obtain ⟨c, leftInner, leftChars, leftOpens⟩ := exists_opens depth left
  obtain ⟨d, rightInner, rightChars, rightOpens⟩ := exists_opens depth right
  rw [leftChars, rightChars, List.cons_append, List.cons_append, List.cons.injEq] at same
  rw [← same.1] at rightOpens
  exact leftOpens.alike rightOpens

/-! ## Whole values -/

/-- A text that goes on with no part of a value: it is at its end, or goes on with a comma
or a new line. -/
def Ends (rest : List Char) : Prop :=
  rest.head?.all (fun c => c == ',' || c == '\n') = true

theorem ends_nil : Ends [] := rfl

theorem ends_itemsChars (depth : Nat) (items : List Json) (rest : List Char) :
    Ends (itemsChars depth items ++ '\n' :: rest) := by
  cases items <;> rfl

theorem ends_membersChars (depth : Nat) (members : List (String × Json)) (rest : List Char) :
    Ends (membersChars depth members ++ '\n' :: rest) := by
  rcases members with _ | ⟨⟨key, value⟩, members⟩ <;> rfl

theorem Ends.not_isDigit {rest : List Char} (ends : Ends rest) :
    rest.head?.any Char.isDigit = false := by
  cases rest with
  | nil => rfl
  | cons c rest =>
      simp only [Ends, List.head?_cons, Option.all_some, Bool.or_eq_true, beq_iff_eq] at ends
      rcases ends with rfl | rfl <;> rfl

/-- Numbers are known from what they begin. -/
theorem toDigits_append_inj {left right : Nat} {leftRest rightRest : List Char}
    (leftEnds : Ends leftRest) (rightEnds : Ends rightRest)
    (same : Nat.toDigits 10 left ++ leftRest = Nat.toDigits 10 right ++ rightRest) :
    left = right ∧ leftRest = rightRest := by
  have upToDigits (value : Nat) {rest : List Char} (ends : Ends rest) :
      (Nat.toDigits 10 value ++ rest).takeWhile Char.isDigit = Nat.toDigits 10 value :=
    takeWhile_append_stop
      (fun _ member => Nat.isDigit_of_mem_toDigits (by decide) (by decide) member)
      ends.not_isDigit
  have sameDigits : Nat.toDigits 10 left = Nat.toDigits 10 right := by
    rw [← upToDigits left leftEnds, same, upToDigits right rightEnds]
  have sameValue := congrArg (fun digits => Nat.ofDigitChars 10 digits 0) sameDigits
  simp only [Nat.ofDigitChars_ten_toDigits] at sameValue
  subst sameValue
  exact ⟨rfl, List.append_cancel_left same⟩

/-- Behind its bracket, a list is written as items are behind a comma. -/
theorem tail_chars_list (depth : Nat) (first : Json) (rest : List Json) (behind : List Char) :
    ',' :: (chars depth (list (first :: rest)) ++ behind).tail =
      itemsChars (depth + 1) (first :: rest) ++
        '\n' :: (List.replicate (2 * depth) ' ' ++ ']' :: behind) := by
  simp [chars, itemsChars, newLine]

theorem tail_chars_object (depth : Nat) (first : String × Json) (rest : List (String × Json))
    (behind : List Char) :
    ',' :: (chars depth (object (first :: rest)) ++ behind).tail =
      membersChars (depth + 1) (first :: rest) ++
        '\n' :: (List.replicate (2 * depth) ' ' ++ '\x7d' :: behind) := by
  simp [chars, membersChars, newLine]

mutual

/-- A text begins with the written form of one value only. -/
theorem chars_append_inj : (left : Json) → ∀ {right : Json} {depth : Nat}
    {leftRest rightRest : List Char}, Ends leftRest → Ends rightRest →
    chars depth left ++ leftRest = chars depth right ++ rightRest →
    left = right ∧ leftRest = rightRest
  | .null, _, _, _, _, _, _, same => by
      cases alike_of_chars same
      exact ⟨rfl, List.append_cancel_left same⟩
  | .number _, _, _, _, _, leftEnds, rightEnds, same => by
      cases alike_of_chars same
      simp only [chars] at same
      obtain ⟨rfl, sameRest⟩ := toDigits_append_inj leftEnds rightEnds same
      exact ⟨rfl, sameRest⟩
  | .text _, _, _, _, _, _, _, same => by
      cases alike_of_chars same
      simp only [chars] at same
      obtain ⟨sameText, sameRest⟩ := quoteChars_append_inj same
      rw [String.toList_inj.mp sameText]
      exact ⟨rfl, sameRest⟩
  | .list left, _, _, _, _, _, _, same => by
      cases alike_of_chars same with
      | list _ right =>
          cases left with
          | nil =>
              cases right with
              | nil => exact ⟨rfl, List.append_cancel_left same⟩
              | cons => simp [chars, newLine] at same
          | cons first rest =>
              cases right with
              | nil => simp [chars, newLine] at same
              | cons second others =>
                  have inside := congrArg (fun text => ',' :: text.tail) same
                  simp only [tail_chars_list] at inside
                  obtain ⟨sameItems, behind⟩ := itemsChars_append_inj (first :: rest) inside
                  rw [sameItems]
                  exact ⟨rfl, (List.cons.inj (List.append_cancel_left behind)).2⟩
  | .object left, _, _, _, _, _, _, same => by
      cases alike_of_chars same with
      | object _ right =>
          cases left with
          | nil =>
              cases right with
              | nil => exact ⟨rfl, List.append_cancel_left same⟩
              | cons => simp [chars, newLine] at same
          | cons first rest =>
              cases right with
              | nil => simp [chars, newLine] at same
              | cons second others =>
                  have inside := congrArg (fun text => ',' :: text.tail) same
                  simp only [tail_chars_object] at inside
                  obtain ⟨sameMembers, behind⟩ := membersChars_append_inj (first :: rest) inside
                  rw [sameMembers]
                  exact ⟨rfl, (List.cons.inj (List.append_cancel_left behind)).2⟩

/-- Items end where a new line follows without a comma. -/
theorem itemsChars_append_inj : (left : List Json) → ∀ {right : List Json} {depth : Nat}
    {leftRest rightRest : List Char},
    itemsChars depth left ++ '\n' :: leftRest = itemsChars depth right ++ '\n' :: rightRest →
    left = right ∧ leftRest = rightRest
  | [], right, _, _, _, same => by
      cases right with
      | nil => exact ⟨rfl, (List.cons.inj same).2⟩
      | cons => simp [itemsChars] at same
  | first :: rest, right, _, _, _, same => by
      cases right with
      | nil => simp [itemsChars] at same
      | cons second others =>
          simp only [itemsChars, List.cons_append, List.append_assoc, List.cons.injEq, true_and,
            List.append_cancel_left_eq] at same
          obtain ⟨sameFirst, behind⟩ := chars_append_inj first (ends_itemsChars _ rest _)
            (ends_itemsChars _ others _) same
          obtain ⟨sameRest, behind⟩ := itemsChars_append_inj rest behind
          rw [sameFirst, sameRest]
          exact ⟨rfl, behind⟩

/-- Members end where items do. -/
theorem membersChars_append_inj : (left : List (String × Json)) →
    ∀ {right : List (String × Json)} {depth : Nat} {leftRest rightRest : List Char},
    membersChars depth left ++ '\n' :: leftRest =
      membersChars depth right ++ '\n' :: rightRest →
    left = right ∧ leftRest = rightRest
  | [], right, _, _, _, same => by
      rcases right with _ | ⟨⟨key, second⟩, others⟩
      · exact ⟨rfl, (List.cons.inj same).2⟩
      · simp [membersChars] at same
  | (_, first) :: rest, right, _, _, _, same => by
      rcases right with _ | ⟨⟨key, second⟩, others⟩
      · simp [membersChars] at same
      · simp only [membersChars, List.cons_append, List.append_assoc, List.nil_append,
          List.cons.injEq, true_and, List.append_cancel_left_eq] at same
        obtain ⟨sameKey, behind⟩ := quoteChars_append_inj same
        simp only [List.cons.injEq, true_and] at behind
        obtain ⟨sameFirst, behind⟩ := chars_append_inj first (ends_membersChars _ rest _)
          (ends_membersChars _ others _) behind
        obtain ⟨sameRest, behind⟩ := membersChars_append_inj rest behind
        rw [String.toList_inj.mp sameKey, sameFirst, sameRest]
        exact ⟨rfl, behind⟩

end

/-- Values are known from their written form. -/
theorem render_injective : Function.Injective render := by
  intro left right same
  have sameChars := String.ofList_inj.mp same
  rw [← List.append_nil (chars 0 left), ← List.append_nil (chars 0 right)] at sameChars
  exact (chars_append_inj left ends_nil ends_nil sameChars).1

/-- A text is told from the absence of one, even the text `null`. -/
theorem ofOption_injective : Function.Injective ofOption := by
  intro left right same
  cases left <;> cases right <;> cases same <;> rfl

end Json

/-! ## Records -/

theorem Field.toJson_injective : Function.Injective Field.toJson := by
  rintro ⟨name, ⟨line, column⟩, type, default⟩ ⟨otherName, ⟨otherLine, otherColumn⟩, otherType,
    otherDefault⟩ same
  simp only [toJson, Json.object.injEq, List.cons.injEq, Prod.mk.injEq, Json.text.injEq,
    Json.number.injEq, true_and, and_true] at same
  obtain ⟨rfl, rfl, rfl, sameType, sameDefault⟩ := same
  rw [FieldType.name_inj sameType, Json.ofOption_injective sameDefault]

theorem Record.toJson_injective : Function.Injective Record.toJson := by
  rintro ⟨name, ⟨line, column⟩, header, structName, fields, buffered⟩ ⟨otherName,
    ⟨otherLine, otherColumn⟩, otherHeader, otherStruct, otherFields, otherBuffered⟩ same
  simp only [toJson, Json.object.injEq, List.cons.injEq, Prod.mk.injEq, Json.text.injEq,
    Json.number.injEq, Json.list.injEq, true_and, and_true] at same
  obtain ⟨rfl, rfl, rfl, sameHeader, rfl, sameFields, sameNames⟩ := same
  have sameBuffered : buffered = otherBuffered := by
    rcases buffered with ⟨names, _⟩
    rcases otherBuffered with ⟨otherNames, _⟩
    congr
    exact (List.map_inj_right fun _ _ => Json.text.inj).mp sameNames
  have fieldsEq := (List.map_inj_right fun _ _ => Field.toJson_injective.eq_iff.mp).mp sameFields
  rw [Json.ofOption_injective sameHeader, sameBuffered, fieldsEq]

/-- Records are known from their dump, with everything that they hold. -/
theorem dumpRecords_inj {left right : List Record} :
    dumpRecords left = dumpRecords right ↔ left = right := by
  constructor
  · intro same
    have sameValues := Json.render_injective same
    rw [Json.list.injEq] at sameValues
    exact (List.map_inj_right fun _ _ => Record.toJson_injective.eq_iff.mp).mp sameValues
  · rintro rfl
    rfl

end Fieldmap
