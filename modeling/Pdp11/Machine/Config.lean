import Pdp11.Memory.Map
import Pdp11.Octal
import Pdp11.Relocation.Unit

/-!
# Configurations

A configuration fixes the model, the size of memory and where the machine
starts. Not every configuration makes a machine; the first thing wrong with
one is reported.
-/

namespace Pdp11

/-- What a machine is built with. -/
structure Config where
  model : Model
  memoryBytes : Nat
  bootPc : Word
  bootPsw : Word
deriving DecidableEq

/-- What is wrong with a configuration. -/
inductive ConfigError
  | emptyMemory
  | oddMemorySize (bytes : Nat)
  | memoryOverlapsIoPage (bytes : Nat)
  | oddBootPc (pc : Word)
deriving DecidableEq

namespace ConfigError

/-- The error as the operator reads it. -/
def message : ConfigError → String
  | emptyMemory => "memory size must be non-zero"
  | oddMemorySize bytes => s!"memory size {bytes} is not a multiple of two"
  | memoryOverlapsIoPage bytes => s!"memory size {bytes} overlaps the I/O page"
  | oddBootPc pc => "boot pc 0o" ++ octal pc.toNat ++ " is odd"

end ConfigError

namespace Config

/-- The larger model with 256 kilobytes, started at zero with interrupts shut out. -/
def default : Config where
  model := .pdp1170
  memoryBytes := 262144
  bootPc := 0
  bootPsw := 0o340

/-- Check the size of memory first, then where the machine starts. -/
def validate (config : Config) : Except ConfigError Unit :=
  if config.memoryBytes = 0 then
    .error .emptyMemory
  else if config.memoryBytes % 2 ≠ 0 then
    .error (.oddMemorySize config.memoryBytes)
  else if config.memoryBytes > maxRamBytes then
    .error (.memoryOverlapsIoPage config.memoryBytes)
  else if isOdd config.bootPc then
    .error (.oddBootPc config.bootPc)
  else
    .ok ()

end Config

end Pdp11
