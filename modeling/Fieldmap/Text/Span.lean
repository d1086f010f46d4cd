/-!
# Spans of code points

Character classes beyond ASCII are given as lists of closed code-point ranges.
This module holds the ranges and membership in a list of them.
-/

namespace Fieldmap.Text

/-- A closed range of code points. -/
structure Span where
  first : Nat
  last : Nat
  deriving DecidableEq, Repr

namespace Span

/-- Membership of a code point in one range. -/
def contains (span : Span) (code : Nat) : Bool :=
  decide (span.first ≤ code) && decide (code ≤ span.last)

@[simp] theorem contains_eq_true {span : Span} {code : Nat} :
    span.contains code = true ↔ span.first ≤ code ∧ code ≤ span.last := by
  simp [contains]

/-- Every code point of the left range lies in the right one. -/
def within (inner outer : Span) : Bool :=
  decide (outer.first ≤ inner.first) && decide (inner.last ≤ outer.last)

theorem contains_of_within {inner outer : Span} {code : Nat}
    (within : inner.within outer = true) (member : inner.contains code = true) :
    outer.contains code = true := by
  simp only [Span.within, Bool.and_eq_true, decide_eq_true_eq] at within
  rw [contains_eq_true] at member ⊢
  omega

end Span

/-- Membership of a code point in some range of a table. -/
def covers (table : List Span) (code : Nat) : Bool :=
  table.any fun span => span.contains code

/-- A table whose ranges all lie within ranges of another covers no more. -/
theorem covers_of_within {inner outer : List Span} {code : Nat}
    (within : (inner.all fun span => outer.any span.within) = true)
    (member : covers inner code = true) : covers outer code = true := by
  simp only [covers, List.any_eq_true, List.all_eq_true] at within member ⊢
  obtain ⟨span, spanMem, inSpan⟩ := member
  obtain ⟨wider, widerMem, spanWithin⟩ := within span spanMem
  exact ⟨wider, widerMem, Span.contains_of_within spanWithin inSpan⟩

end Fieldmap.Text
