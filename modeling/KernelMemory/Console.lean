/-
  KernelMemory.Console — the early console, which writes log records to a serial line once
  one is attached.
-/

import KernelMemory.Log

namespace KernelMemory

/-- Where a log record was written. -/
structure LogOrigin where
  file : Option String
  line : Option Nat
  target : String
  deriving DecidableEq, Repr

/-- The console: whether a serial line is attached, and all text sent to it. -/
structure Console where
  attached : Bool := false
  sent : String := ""
  deriving DecidableEq, Repr

namespace Console

/-- Whether anything written is seen. -/
def hasOutput (c : Console) : Bool := c.attached

/-- Attaches the serial line.  May be repeated. -/
def attachSerial (c : Console) : Console := { c with attached := true }

/-- Sends text to the line, if there is one. -/
def send (c : Console) (text : String) : Console :=
  if c.attached then { c with sent := c.sent ++ text } else c

/-- Writes a line past the log. -/
def emergencyWrite (c : Console) (text : String) : Console := c.send s!"{text}\n"

/-- Every record is shown, whatever its level. -/
def isEnabled (_ : Console) (_ : LogLevel) : Bool := true

/-- A record as the console shows it: level, place and target, then the text. -/
def logLine (record : LogRecord) (origin : LogOrigin) : String :=
  let file := origin.file.getD "unknown"
  let line := origin.line.getD 0
  s!"[{record.level.name} {file}:{line} {origin.target}] {record.text}\n"

/-- Shows a record. -/
def log (c : Console) (record : LogRecord) (origin : LogOrigin) : Console :=
  c.send (logLine record origin)

end Console

end KernelMemory
