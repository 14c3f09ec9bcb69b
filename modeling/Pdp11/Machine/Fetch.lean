import Pdp11.Instruction.Core
import Pdp11.Machine.Access

/-!
# Instruction fetch

The word at the program counter is read and classified, then the extension
words that its operands need. The program counter moves past each word as soon
as it has been read. What goes wrong is left as a pending trap.
-/

namespace Pdp11

universe u

/-- What a fetch comes to. -/
inductive Fetched
  | ready (instruction : Instruction)
  /-- The word is no instruction that can be carried out. -/
  | deferred (kind : TrapClass)
  | aborted (error : AccessError)
deriving DecidableEq

namespace Machine

variable {δ : Type u}

/-- Give up the fetch because an access failed. -/
def abortFetch (machine : Machine δ) (error : AccessError) : Fetched × Machine δ :=
  (.aborted error, machine.raise error.trapClass)

/-- Give up the fetch and leave a trap pending in place of an instruction. -/
def deferFetch (machine : Machine δ) (kind : TrapClass) : Fetched × Machine δ :=
  (.deferred kind, machine.raise kind)

variable [Bus δ]

/-- Read a word of the instruction stream at the program counter and step over
it. -/
def fetchWord (machine : Machine δ) (cycle : MemoryCycle) :
    Except AccessError Word × Machine δ :=
  let pc := machine.pc
  match machine.read machine.psw.mode cycle pc .word with
  | (.error error, machine) => (.error error, machine)
  | (.ok word, machine) => (.ok word, machine.setPc (pc + 2))

/-- Read `count` more words onto the extension of `instruction`. -/
def fetchExtension (machine : Machine δ) (instruction : Instruction) :
    Nat → Fetched × Machine δ
  | 0 => (.ready instruction, machine)
  | count + 1 =>
    match machine.fetchWord .instructionStream with
    | (.error error, machine) => machine.abortFetch error
    | (.ok word, machine) =>
      machine.fetchExtension
        { instruction with extension := instruction.extension ++ [word] } count

/-- Fetch the instruction at the program counter, with its extension words. -/
def fetch (machine : Machine δ) : Fetched × Machine δ :=
  let pc := machine.pc
  match machine.fetchWord .fetch with
  | (.error error, machine) => machine.abortFetch error
  | (.ok word, machine) =>
    match WordClass.of word with
    | .reserved => machine.deferFetch .reserved
    | .illegal _ => machine.deferFetch .illegal
    | .legal opcode =>
      let instruction : Instruction := { pc, word, opcode, extension := [] }
      machine.fetchExtension instruction instruction.extensionLength

end Machine

end Pdp11
