/-!
# Lines of a module

The text of a module is made line by line, so that what holds of each line can be said before the
lines are put together.
-/

namespace ContractBindings.Module

/-- Lines of text, without their ends. -/
abbrev Lines := List String

/-- The text of lines that each end in a line feed. -/
def Lines.text (lines : Lines) : String :=
  String.join (lines.map (· ++ "\n"))

end ContractBindings.Module
