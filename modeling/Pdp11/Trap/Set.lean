import Pdp11.Trap.Class

/-!
# Pending traps

A class is pending or not; raising it twice leaves one request. Beside the
classes stands a note that the stack overflow met the red zone, which calls
for the emergency stack.
-/

namespace Pdp11

/-- The traps that wait for the end of the instruction. -/
structure TrapSet where
  /-- One bit per class, at the rank of the class. -/
  raised : BitVec 12
  redZone : Bool
deriving DecidableEq

namespace TrapSet

/-- Nothing is pending. -/
def none : TrapSet where
  raised := 0
  redZone := false

/-- A trap of the class is pending. -/
def contains (traps : TrapSet) (kind : TrapClass) : Bool :=
  traps.raised.getLsbD kind.rank

/-- Some trap is pending. -/
def any (traps : TrapSet) : Bool :=
  traps.raised != 0

/-- Leave a trap of the class pending. -/
def insert (traps : TrapSet) (kind : TrapClass) : TrapSet :=
  { traps with raised := traps.raised ||| BitVec.twoPow 12 kind.rank }

/-- Leave a stack overflow pending that met the red zone. -/
def insertRedZone (traps : TrapSet) : TrapSet :=
  { traps.insert .stackOverflow with redZone := true }

/-- Take a class off the pending ones. -/
def erase (traps : TrapSet) (kind : TrapClass) : TrapSet :=
  { traps with raised := traps.raised &&& ~~~BitVec.twoPow 12 kind.rank }

/-- The pending class that is served first. -/
def first? (traps : TrapSet) : Option TrapClass :=
  TrapClass.all.find? traps.contains

/-- The class to serve, and the traps that stay pending. -/
def takeFirst? (traps : TrapSet) : Option (TrapClass × TrapSet) :=
  traps.first?.map fun kind => (kind, traps.erase kind)

@[simp]
theorem contains_insert (traps : TrapSet) (raised asked : TrapClass) :
    (traps.insert raised).contains asked = (traps.contains asked || decide (asked = raised)) := by
  have rankBelow := asked.rank.isLt
  simp [insert, contains, rankBelow, ← Fin.ext_iff, TrapClass.rank_inj]

@[simp]
theorem contains_erase (traps : TrapSet) (cleared asked : TrapClass) :
    (traps.erase cleared).contains asked = (traps.contains asked && !decide (asked = cleared)) := by
  have rankBelow := asked.rank.isLt
  simp [erase, contains, rankBelow, ← Fin.ext_iff, TrapClass.rank_inj]

@[simp]
theorem redZone_insert (traps : TrapSet) (kind : TrapClass) :
    (traps.insert kind).redZone = traps.redZone := rfl

@[simp]
theorem redZone_erase (traps : TrapSet) (kind : TrapClass) :
    (traps.erase kind).redZone = traps.redZone := rfl

end TrapSet

end Pdp11
