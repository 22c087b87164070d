/-!
# Letters without case

Two texts are the same without regard to case when their letters are, one by one.  Only ASCII letters are
told apart by the texts this is used for, so of all letters beyond ASCII two matter: the long s, which is an
`s`, and the sign for kelvin, which is a `k`.
-/

set_option autoImplicit false
namespace TapeMachine.Text

/-- The letter that stands for all letters which differ from it by case alone. -/
def foldChar (c : Char) : Char :=
  if c = '\u017f' then 's' else if c = '\u212a' then 'k' else c.toLower

/-- A text without regard to case. -/
def fold (s : String) : String :=
  s.map foldChar

end TapeMachine.Text
