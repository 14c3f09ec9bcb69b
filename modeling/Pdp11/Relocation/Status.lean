import Pdp11.Relocation.Page

/-!
# Status registers of the relocation unit

MMR0 switches relocation on, collects the causes of an abort and names the
page that met it. MMR1 notes which registers an instruction has stepped, so
that a handler can step them back and run the instruction again.
-/

namespace Pdp11

/-- Why the relocation unit refuses an access. -/
inductive AbortCause
  | nonResident
  | pageLength
  | readOnly
deriving DecidableEq

namespace AbortCause

/-- The causes, the one reported in preference to the others first. -/
def all : List AbortCause :=
  [nonResident, pageLength, readOnly]

/-- The cause as the operator reads it. -/
def message : AbortCause → String
  | nonResident => "page not resident"
  | pageLength => "page length error"
  | readOnly => "write to read-only page"

/-- The bit of MMR0 that records this cause. -/
def mmr0Bit : AbortCause → Word
  | nonResident => 0o100000
  | pageLength => 0o040000
  | readOnly => 0o020000

end AbortCause

/-- The register that controls relocation and tells of an abort. -/
structure Mmr0 where
  nonResident : Bool
  pageLength : Bool
  readOnly : Bool
  /-- An access met a page that asks for a trap. -/
  trapped : Bool
  trapEnabled : Bool
  maintenance : Bool
  /-- The page of the access that aborted. -/
  page : PageId
  enabled : Bool
deriving DecidableEq

namespace Mmr0

/-- Relocation is off, and nothing is recorded. -/
def cleared : Mmr0 where
  nonResident := false
  pageLength := false
  readOnly := false
  trapped := false
  trapEnabled := false
  maintenance := false
  page := { mode := .kernel, space := .instruction, number := 0 }
  enabled := false

/-- The register as software reads it; bits 11, 10 and 7 are always zero. -/
def bits (status : Mmr0) : Word :=
  (BitVec.ofBool status.nonResident ++ BitVec.ofBool status.pageLength ++
    BitVec.ofBool status.readOnly ++ BitVec.ofBool status.trapped ++ 0#2 ++
    BitVec.ofBool status.trapEnabled ++ BitVec.ofBool status.maintenance ++ 0#1 ++
    status.page.mode.code ++ BitVec.ofBool status.page.space.isData ++ status.page.number ++
    BitVec.ofBool status.enabled).setWidth 16

/-- An abort is recorded and not yet cleared by software. -/
def aborted (status : Mmr0) : Bool :=
  status.nonResident || status.pageLength || status.readOnly

/-- The register after software writes `value`; the page field is not
writable. -/
def loaded (status : Mmr0) (value : Word) : Mmr0 where
  nonResident := value.getLsbD 15
  pageLength := value.getLsbD 14
  readOnly := value.getLsbD 13
  trapped := value.getLsbD 12
  trapEnabled := value.getLsbD 9
  maintenance := value.getLsbD 8
  page := status.page
  enabled := value.getLsbD 0

/-- The register after an access to `page` aborts for `causes`. -/
def latched (status : Mmr0) (causes : List AbortCause) (page : PageId) : Mmr0 :=
  { status with
    nonResident := .nonResident ∈ causes
    pageLength := .pageLength ∈ causes
    readOnly := .readOnly ∈ causes
    page := page }

end Mmr0

/-- Two notes of a register and the signed amount it was stepped by. -/
structure Mmr1 where
  first : Byte
  second : Byte
deriving DecidableEq

namespace Mmr1

/-- No register was stepped. -/
def cleared : Mmr1 where
  first := 0
  second := 0

/-- The register as software reads it, with the first note in the low byte. -/
def bits (notes : Mmr1) : Word :=
  wordOfBytes notes.first notes.second

/-- A note holds the amount in its upper five bits. -/
def note (register : BitVec 3) (amount : Word) : Byte :=
  amount.extractLsb' 0 5 ++ register

/-- The first note goes to the first byte, each later one to the second. -/
def record (notes : Mmr1) (register : BitVec 3) (amount : Word) : Mmr1 :=
  if notes.first = 0 then
    { first := note register amount, second := 0 }
  else
    { notes with second := note register amount }

end Mmr1

end Pdp11
