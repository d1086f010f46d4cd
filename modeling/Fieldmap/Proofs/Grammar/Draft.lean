import Fieldmap.Proofs.Grammar.Basic

/-!
# Drafts and the items they hold

A draft keeps one slot for each kind of item. It holds a list of items when every
slot shows what the item of its kind says. A draft is finished exactly when the
items it holds are gathered by a record.
-/

namespace Fieldmap

/-- A further name of a list joins the set of the names before it. -/
theorem NameSet.ofList_concat (names : List String) (name : String) :
    NameSet.ofList (names ++ [name]) = (NameSet.ofList names).insert name := by
  simp [NameSet.ofList]

namespace Spec

theorem Item.mem_all (item : Item) : item ∈ Item.all := by
  cases item <;> decide

/-- Only an item's own keyword opens it. -/
theorem Item.find?_keyword {token : Token} {item : Item} (word : token.isWord item.keyword) :
    (Item.all.find? fun other => token.isWord other.keyword) = some item := by
  have text : token.text = item.keyword := by simpa [Token.isWord] using word
  simp only [Token.isWord, text]
  cases item <;> decide

theorem Item.isWord_of_find? {token : Token} {item : Item}
    (found : (Item.all.find? fun other => token.isWord other.keyword) = some item) :
    token.isWord item.keyword := by
  simpa using List.find?_some found

namespace Draft

/-- The draft with one more item. -/
def add (draft : Draft) : ItemContent → Draft
  | .header text => { draft with header := some text }
  | .struct name => { draft with structName := some name }
  | .buffered names => { draft with buffered := some (.ofList names) }
  | .fieldmap fields => { draft with fields := some fields }

@[simp] theorem add_position (draft : Draft) (content : ItemContent) :
    (draft.add content).position = draft.position := by
  cases content <;> rfl

@[simp] theorem add_name (draft : Draft) (content : ItemContent) :
    (draft.add content).name = draft.name := by
  cases content <;> rfl

/-- Each slot of a draft shows the item of its kind. -/
structure Holds (draft : Draft) (items : List ItemContent) : Prop where
  header : ∀ text, draft.header = some text ↔ .header text ∈ items
  struct : ∀ name, draft.structName = some name ↔ .struct name ∈ items
  buffered : ∀ set, draft.buffered = some set ↔
    ∃ names, .buffered names ∈ items ∧ set = .ofList names
  fieldmap : ∀ fields, draft.fields = some fields ↔ .fieldmap fields ∈ items

theorem holds_empty (position : Text.Position) (name : Token) :
    (empty position name).Holds [] := by
  constructor <;> simp [empty]

/-- Items of one kind are those made by one constructor. -/
theorem mem_map_item_iff {α : Type} {make : α → ItemContent} {item : Item}
    (made : ∀ content : ItemContent, content.item = item ↔ ∃ value, content = make value)
    (items : List ItemContent) :
    item ∈ items.map ItemContent.item ↔ ∃ value, make value ∈ items := by
  rw [List.mem_map]
  constructor
  · intro taken
    rcases taken with ⟨content, member, kind⟩
    rcases (made content).mp kind with ⟨value, contentEq⟩
    subst contentEq
    exact ⟨value, member⟩
  · intro present
    rcases present with ⟨value, member⟩
    exact ⟨make value, member, (made (make value)).mpr ⟨value, rfl⟩⟩

/-- A slot is taken exactly by an item of its kind. -/
theorem Holds.has_iff {draft : Draft} {items : List ItemContent} (holds : draft.Holds items)
    (item : Item) : draft.has item = true ↔ item ∈ items.map ItemContent.item := by
  cases item with
  | header =>
      have made (content : ItemContent) :
          content.item = .header ↔ ∃ text, content = .header text := by
        cases content <;> simp [ItemContent.item]
      rw [mem_map_item_iff made, has, Option.isSome_iff_exists]
      exact exists_congr holds.header
  | struct =>
      have made (content : ItemContent) :
          content.item = .struct ↔ ∃ name, content = .struct name := by
        cases content <;> simp [ItemContent.item]
      rw [mem_map_item_iff made, has, Option.isSome_iff_exists]
      exact exists_congr holds.struct
  | buffered =>
      have made (content : ItemContent) :
          content.item = .buffered ↔ ∃ names, content = .buffered names := by
        cases content <;> simp [ItemContent.item]
      rw [mem_map_item_iff made, has, Option.isSome_iff_exists]
      simp only [holds.buffered]
      constructor
      · intro taken
        rcases taken with ⟨_, names, member, _⟩
        exact ⟨names, member⟩
      · intro present
        rcases present with ⟨names, member⟩
        exact ⟨.ofList names, names, member, rfl⟩
  | fieldmap =>
      have made (content : ItemContent) :
          content.item = .fieldmap ↔ ∃ fields, content = .fieldmap fields := by
        cases content <;> simp [ItemContent.item]
      rw [mem_map_item_iff made, has, Option.isSome_iff_exists]
      exact exists_congr holds.fieldmap

theorem Holds.has_eq_false_iff {draft : Draft} {items : List ItemContent}
    (holds : draft.Holds items) (item : Item) :
    draft.has item = false ↔ item ∉ items.map ItemContent.item := by
  rw [← holds.has_iff, Bool.not_eq_true]

/-- A free slot is filled by one more item, made by the slot's own constructor. -/
theorem shown_add {α : Type} {make : α → ItemContent} {slot : Option α}
    {items : List ItemContent} (injective : ∀ value other, make value = make other → value = other)
    (shown : ∀ value, slot = some value ↔ make value ∈ items) (free : slot = none)
    (value other : α) : some value = some other ↔ make other ∈ items ++ [make value] := by
  have absent := shown other
  simp only [free, reduceCtorEq, false_iff] at absent
  rw [List.mem_append, List.mem_singleton, Option.some.injEq]
  constructor
  · intro same
    exact .inr (congrArg make same.symm)
  · intro present
    rcases present with member | same
    · exact absurd member absent
    · exact injective value other same.symm

/-- An item of a new kind fills a free slot and leaves the others alone. -/
theorem Holds.add {draft : Draft} {items : List ItemContent} {content : ItemContent}
    (holds : draft.Holds items) (free : draft.has content.item = false) :
    (draft.add content).Holds (items ++ [content]) := by
  cases content with
  | header text =>
      constructor
      · intro other
        apply shown_add (fun _ _ => ItemContent.header.inj) holds.header
        simpa [has, ItemContent.item] using free
      · simpa [Draft.add] using holds.struct
      · simpa [Draft.add] using holds.buffered
      · simpa [Draft.add] using holds.fieldmap
  | struct name =>
      constructor
      · simpa [Draft.add] using holds.header
      · intro other
        apply shown_add (fun _ _ => ItemContent.struct.inj) holds.struct
        simpa [has, ItemContent.item] using free
      · simpa [Draft.add] using holds.buffered
      · simpa [Draft.add] using holds.fieldmap
  | buffered names =>
      have none : draft.buffered = none := by simpa [has, ItemContent.item] using free
      constructor
      · simpa [Draft.add] using holds.header
      · simpa [Draft.add] using holds.struct
      · intro set
        have absent : ∀ other, .buffered other ∉ items := by
          intro other member
          have taken := (holds.buffered (.ofList other)).mpr ⟨other, member, rfl⟩
          simp [none] at taken
        simp [Draft.add, absent, eq_comm]
      · simpa [Draft.add] using holds.fieldmap
  | fieldmap fields =>
      constructor
      · simpa [Draft.add] using holds.header
      · simpa [Draft.add] using holds.struct
      · simpa [Draft.add] using holds.buffered
      · intro other
        apply shown_add (fun _ _ => ItemContent.fieldmap.inj) holds.fieldmap
        simpa [has, ItemContent.item] using free

/-- The set of buffered names that a draft ends with. -/
theorem Holds.mem_buffered {draft : Draft} {items : List ItemContent} (holds : draft.Holds items)
    (name : String) :
    name ∈ draft.buffered.getD .empty ↔
      ∃ names, .buffered names ∈ items ∧ name ∈ names := by
  cases slot : draft.buffered with
  | none =>
      have absent : ∀ names, .buffered names ∉ items := by
        intro names member
        have taken := (holds.buffered (.ofList names)).mpr ⟨names, member, rfl⟩
        simp [slot] at taken
      simp [absent]
  | some set =>
      obtain ⟨names, member, rfl⟩ := (holds.buffered set).mp slot
      simp only [Option.getD_some, NameSet.mem_ofList]
      constructor
      · intro named
        exact ⟨names, member, named⟩
      · intro listed
        rcases listed with ⟨others, otherMember, named⟩
        have same := (holds.buffered (.ofList others)).mpr ⟨others, otherMember, rfl⟩
        rw [slot, Option.some.injEq] at same
        rw [← NameSet.mem_ofList, same, NameSet.mem_ofList]
        exact named

/-- A draft becomes the record that gathers its items, if there is one. -/
theorem Holds.finish_eq_ok_iff {draft : Draft} {items : List ItemContent}
    (holds : draft.Holds items) (record : Record) :
    draft.finish = .ok record ↔
      Gathers record items ∧ record.name = draft.name.text ∧
        record.position = draft.position := by
  constructor
  · intro finished
    unfold finish at finished
    split at finished
    · cases finished
    · cases finished
    · rename_i structName fields structSlot fieldsSlot
      injection finished with recordEq
      subst recordEq
      exact ⟨⟨holds.header, (holds.struct _).mp structSlot, (holds.fieldmap _).mp fieldsSlot,
        holds.mem_buffered⟩, rfl, rfl⟩
  · intro described
    rcases described with ⟨gathers, name, position⟩
    have structSlot := (holds.struct _).mpr gathers.struct
    have fieldsSlot := (holds.fieldmap _).mpr gathers.fieldmap
    have headers : draft.header = record.header := by
      apply Option.ext
      intro text
      rw [holds.header, gathers.header]
    have buffered : draft.buffered.getD .empty = record.buffered := by
      apply NameSet.ext
      intro other
      rw [holds.mem_buffered, gathers.buffered]
    simp only [finish, structSlot, fieldsSlot, headers, buffered, ← name, ← position]

end Draft

end Spec

end Fieldmap
