/-! What can be wrong with a command line. -/

namespace CompressionSweep

inductive UsageError where
  /-- No command at all. -/
  | noCommand
  /-- Asks for help instead of doing anything. -/
  | help
  | unknownCommand
  | unknownArgument
  /-- A value that is missing, empty where it must not be, or none of the possible ones. -/
  | invalidValue
  /-- A value that is no number of the kind asked for. -/
  | invalidNumber
  /-- An option given twice, or two that exclude each other. -/
  | conflict
  /-- A value for an option that takes none. -/
  | unwantedValue
  deriving DecidableEq, Repr

end CompressionSweep
