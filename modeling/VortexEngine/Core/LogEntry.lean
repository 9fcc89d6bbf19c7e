import Mathlib.Data.BitVec

namespace VortexEngine

/-!
# Machine types and log entries

The engine is a 64-bit program.  Its `size_t`, `uint32_t` and `uint64_t`
values are bit vectors, so that every addition, subtraction, shift and cast
wraps exactly where the compiled code wraps.
-/

/-- `size_t` on the 64-bit target. -/
abbrev SizeT := BitVec 64

/-- `uint64_t`. -/
abbrev UInt64T := BitVec 64

/-- `uint32_t`. -/
abbrev UInt32T := BitVec 32

/-- `uint8_t`, and one `char` of a message. -/
abbrev Byte := BitVec 8

namespace Core

/-- The severities of a record, in the order of their underlying values. -/
inductive LogLevel
  | debug
  | info
  | warning
  | error
  | critical
  deriving DecidableEq, Repr

namespace LogLevel

/-- `static_cast<uint8_t>(level)`. -/
def toByte : LogLevel -> Byte
  | debug => 0
  | info => 1
  | warning => 2
  | error => 3
  | critical => 4

/-- `static_cast<Core::LogLevel>(level)`.  The parsers cast only after
`validate_level`, so the last case stands for the value four. -/
def ofSize (level : SizeT) : LogLevel :=
  if level = 0 then debug
  else if level = 1 then info
  else if level = 2 then warning
  else if level = 3 then error
  else critical

end LogLevel

/-- What `push` does with an entry when the queue is full. -/
inductive OverflowProfile
  | block
  | dropAll
  | dropNonCritical
  | passCriticalDropElse
  deriving DecidableEq, Repr

/-- The packed queue entry.  `messageLenght` is the source's spelling. -/
structure LogEntry where
  timestamp : UInt64T
  logId : UInt32T
  messageLenght : UInt32T
  messageOffset : UInt32T
  relativeOffset : UInt64T
  level : LogLevel
  deriving DecidableEq, Repr

namespace LogEntry

/-- `sizeof(LogEntry)` under `#pragma pack(push, 1)`. -/
def size : Nat := 29

/-- The value-initialised entries of `std::make_unique<LogEntry[]>`. -/
instance : Inhabited LogEntry where
  default :=
    { timestamp := 0
      logId := 0
      messageLenght := 0
      messageOffset := 0
      relativeOffset := 0
      level := .debug }

end LogEntry

/-- The queue inspects nothing of an entry except its level.  A tagged entry
carries its origin through the queue without changing what the queue does. -/
class Leveled (Entry : Type) where
  level : Entry -> LogLevel

instance : Leveled LogEntry where
  level := LogEntry.level

end Core
end VortexEngine
