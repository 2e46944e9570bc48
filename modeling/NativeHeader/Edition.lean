/-!
# Editions

The rules by which patterns and command lines are read come in two editions.  They differ in what
`**` stands for where no directory is, and in what may be attached to an option of a command line.
What is said without an edition holds of both.
-/

namespace NativeHeader

/-- An edition of the rules for patterns and command lines. -/
inductive Edition where
  | older
  | newer
  deriving DecidableEq

end NativeHeader
