/-!
# What an option is given

An option that takes a value is given a text.  The mark `--`, attached to the option where the
text should be, blanks the option out: the option counts as given, but it holds no value.
-/

namespace EmbeddedJsx

/-- What an option is given. -/
inductive Given (α : Type) where
  /-- A value. -/
  | value (a : α)
  /-- The mark that blanks the option out. -/
  | blank
deriving DecidableEq, Repr

namespace Given

variable {α β : Type}

/-- The mark that blanks an option out. -/
def blankMark : List Char := ['-', '-']

/-- What a text that is attached to an option gives. -/
def ofAttached (text : List Char) : Given String :=
  if text = blankMark then blank else value (String.ofList text)

/-- Changes the value, if there is one. -/
def map (f : α → β) : Given α → Given β
  | value a => value (f a)
  | blank => blank

/-- The value, if there is one. -/
def toOption : Given α → Option α
  | value a => some a
  | blank => none

@[simp] theorem toOption_map (f : α → β) (g : Given α) :
    (g.map f).toOption = g.toOption.map f := by
  cases g <;> rfl

theorem ofAttached_eq_blank_iff {text : List Char} :
    ofAttached text = blank ↔ text = blankMark := by
  simp [ofAttached]

end Given

end EmbeddedJsx
