import VortexEngine.Core.LogEntry
import VortexEngine.Foundations.PowerOfTwo

open VortexEngine.Core

namespace VortexEngine

/-!
# Configuration

`GetUserCofig` reads at most five fields of a JSON document and keeps the
default of every field that is missing or of another type.  No value is
rejected for its size.  `ThreadManager` then raises a zero thread count to one
and a small `usable_ram` to sixteen, on its own copy: the network server is
built from the values as they were read.
-/

/-- The number kinds of the JSON library that the configuration distinguishes.
A non-negative literal is stored as `unsigned`, a negative one as `integer`. -/
inductive JsonValue
  | unsigned (value : UInt64T)
  | integer (value : BitVec 64)
  | other

/-- The outcome of opening and parsing the configuration file.  A document
that is no object contains no field. -/
inductive ConfigFile
  | unreadable
  | syntaxError
  | document (field : String -> Option JsonValue)

structure MainConfig where
  usableRam : SizeT := 16
  logSize : SizeT := 1
  profile : OverflowProfile := .dropAll
  threadNum : SizeT := 1
  maxSlabs : SizeT := 10
  slabsSize : SizeT := 1

namespace MainConfig

/-- `j.contains(name) && j[name].is_number_unsigned()`, with its fallback. -/
def unsignedOr (field : String -> Option JsonValue) (name : String) (fallback : SizeT) : SizeT :=
  match field name with
  | some (.unsigned value) => value
  | _ => fallback

/-- `get<int>()` truncates the stored number to 32 bits before the range test. -/
def profileOfInt (value : BitVec 64) (fallback : OverflowProfile) : OverflowProfile :=
  let p := (value.setWidth 32).toInt
  if p = 0 then .block
  else if p = 1 then .dropAll
  else if p = 2 then .dropNonCritical
  else fallback

def profileOr (field : String -> Option JsonValue) (fallback : OverflowProfile) : OverflowProfile :=
  match field "profile" with
  | some (.unsigned value) => profileOfInt value fallback
  | some (.integer value) => profileOfInt value fallback
  | _ => fallback

/-- The source's `GetUserCofig`. -/
def getUserCofig : ConfigFile -> MainConfig
  | .unreadable => {}
  | .syntaxError => {}
  | .document field =>
      let logSize := unsignedOr field "log_size" 1
      { usableRam := unsignedOr field "usable_ram" 16
        logSize := logSize
        threadNum := unsignedOr field "thread_num" 1
        maxSlabs := unsignedOr field "max_slabs" 10
        profile := profileOr field .dropAll
        slabsSize := logSize }

/-- The configuration that `ThreadManager`'s constructor hands to
`start_threads`. -/
def normalize (config : MainConfig) : MainConfig :=
  let threadNum := if config.threadNum = 0 then 1 else config.threadNum
  let usableRam := if config.usableRam < 16 then 16 else config.usableRam
  { config with threadNum := threadNum, usableRam := Foundations.bitFloor usableRam }

/-- At least one queue is started. -/
theorem normalize_threadNum_pos (config : MainConfig) : 0 < config.normalize.threadNum.toNat := by
  change 0 < (if config.threadNum = 0 then (1 : SizeT) else config.threadNum).toNat
  by_cases zero : config.threadNum = 0
  · rw [if_pos zero]
    decide
  · rw [if_neg zero]
    exact Nat.pos_of_ne_zero (fun none => zero (BitVec.eq_of_toNat_eq none))

end MainConfig
end VortexEngine
