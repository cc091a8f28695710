/-
  KernelMemory.Log — the records the kernel writes while it works.

  Operations return every record they write, whatever its level; what is shown of them
  is a filter on the level.
-/

namespace KernelMemory

/-- Severity of a record, the most severe first. -/
inductive LogLevel where
  | error
  | warn
  | info
  | debug
  | trace
  deriving DecidableEq, Repr

namespace LogLevel

/-- The word a level is written with. -/
def name : LogLevel → String
  | error => "ERROR"
  | warn => "WARN"
  | info => "INFO"
  | debug => "DEBUG"
  | trace => "TRACE"

/-- Position in the order of levels, the most severe first. -/
def rank : LogLevel → Nat
  | error => 1
  | warn => 2
  | info => 3
  | debug => 4
  | trace => 5

/-- Whether a record of this level is shown when `most` is the least severe level shown. -/
def isEnabled (level most : LogLevel) : Bool := level.rank ≤ most.rank

end LogLevel

/-- One record. -/
structure LogRecord where
  level : LogLevel
  text : String
  deriving DecidableEq, Repr

/-- The record as one line: its level, a blank, its text. -/
def LogRecord.line (record : LogRecord) : String := s!"{record.level.name} {record.text}"

end KernelMemory
