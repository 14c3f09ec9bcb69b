import Pdp11.Word

/-!
# Interrupt request lines

Devices ask for service on fixed lines. Each line has a vector and a priority
level, and is served only above the level of the processor; of several lines
on the highest level, the first in the list is served.
-/

namespace Pdp11

/-- The lines, one for each device that can ask for service. -/
inductive InterruptLine
  | lineClock
  | consoleReceive
  | consoleTransmit
  | rk11
  | rl11
  | rh70
  | tm11
  | paperTapeReader
  | paperTapePunch
  | linePrinter
  | programmableClock
deriving DecidableEq

namespace InterruptLine

/-- The lines in the order of their numbers. -/
def all : List InterruptLine :=
  [lineClock, consoleReceive, consoleTransmit, rk11, rl11, rh70, tm11, paperTapeReader,
    paperTapePunch, linePrinter, programmableClock]

/-- Position of a line in `InterruptLine.all`. -/
def number : InterruptLine → Fin 11
  | lineClock => 0
  | consoleReceive => 1
  | consoleTransmit => 2
  | rk11 => 3
  | rl11 => 4
  | rh70 => 5
  | tm11 => 6
  | paperTapeReader => 7
  | paperTapePunch => 8
  | linePrinter => 9
  | programmableClock => 10

/-- Address of the pair of words that hold the handler's start and status. -/
def vector : InterruptLine → Word
  | lineClock => 0o100
  | consoleReceive => 0o60
  | consoleTransmit => 0o64
  | rk11 => 0o220
  | rl11 => 0o160
  | rh70 => 0o254
  | tm11 => 0o224
  | paperTapeReader => 0o70
  | paperTapePunch => 0o74
  | linePrinter => 0o200
  | programmableClock => 0o104

/-- The priority of a line. -/
def level : InterruptLine → Nat
  | lineClock | programmableClock => 6
  | rk11 | rl11 | rh70 | tm11 => 5
  | consoleReceive | consoleTransmit | paperTapeReader | paperTapePunch | linePrinter => 4

theorem number_inj {first second : InterruptLine} :
    first.number = second.number ↔ first = second := by
  cases first <;> cases second <;> decide

end InterruptLine

/-- The set of lines on which a request stands. -/
structure InterruptRequests where
  /-- One bit per line, at the number of the line. -/
  mask : BitVec 11
deriving DecidableEq

namespace InterruptRequests

/-- No line asks for service. -/
def none : InterruptRequests where
  mask := 0

/-- A request stands on `line`. -/
def contains (requests : InterruptRequests) (line : InterruptLine) : Bool :=
  requests.mask.getLsbD line.number

/-- Put a request on `line`. -/
def insert (requests : InterruptRequests) (line : InterruptLine) : InterruptRequests where
  mask := requests.mask ||| BitVec.twoPow 11 line.number

/-- Drop the request on `line`. -/
def erase (requests : InterruptRequests) (line : InterruptLine) : InterruptRequests where
  mask := requests.mask &&& ~~~BitVec.twoPow 11 line.number

/-- The first line of the highest level among `lines`. -/
def dominant? : List InterruptLine → Option InterruptLine
  | [] => Option.none
  | line :: rest =>
    match dominant? rest with
    | Option.none => some line
    | some other => if line.level ≥ other.level then some line else some other

/-- The request to serve at processor level `level`. -/
def strongestAbove? (requests : InterruptRequests) (level : Nat) : Option InterruptLine :=
  dominant? <| InterruptLine.all.filter fun line =>
    requests.contains line && decide (line.level > level)

@[simp]
theorem contains_insert (requests : InterruptRequests) (raised asked : InterruptLine) :
    (requests.insert raised).contains asked =
      (requests.contains asked || decide (asked = raised)) := by
  have numberBelow := asked.number.isLt
  simp [insert, contains, numberBelow, ← Fin.ext_iff,
    InterruptLine.number_inj]

@[simp]
theorem contains_erase (requests : InterruptRequests) (cleared asked : InterruptLine) :
    (requests.erase cleared).contains asked =
      (requests.contains asked && !decide (asked = cleared)) := by
  have numberBelow := asked.number.isLt
  simp [erase, contains, numberBelow, ← Fin.ext_iff,
    InterruptLine.number_inj]

end InterruptRequests

end Pdp11
