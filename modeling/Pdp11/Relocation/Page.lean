import Pdp11.Memory.Map
import Pdp11.Status.Mode

/-!
# Pages and their registers

Each mode sees eight pages of instructions and eight of data. A page has a
descriptor, which says how long it is and who may use it, and a base. The
descriptor also remembers whether the page was accessed and written since
software last loaded either of its registers.
-/

namespace Pdp11

/-- The two address spaces that a mode can have. -/
inductive Space
  | instruction
  | data
deriving DecidableEq

namespace Space

/-- The space is the one for data. -/
def isData : Space → Bool
  | instruction => false
  | data => true

end Space

/-- A page of a mode, one of eight in either space. -/
structure PageId where
  mode : Mode
  space : Space
  number : BitVec 3
deriving DecidableEq

namespace PageId

/-- Position of a page in the table of all pages. -/
def index (page : PageId) : Fin 64 :=
  ⟨16 * page.mode.code.toNat + 8 * page.space.isData.toNat + page.number.toNat, by
    have := page.mode.code.isLt
    have := page.space.isData.toNat_lt
    have := page.number.isLt
    omega⟩

theorem index_inj {first second : PageId} : first.index = second.index ↔ first = second := by
  constructor
  · intro sameIndex
    have sameValue := congrArg Fin.val sameIndex
    obtain ⟨firstMode, firstSpace, firstNumber⟩ := first
    obtain ⟨secondMode, secondSpace, secondNumber⟩ := second
    have firstBelow := firstNumber.isLt
    have secondBelow := secondNumber.isLt
    simp only [index] at sameValue
    have sameNumber : firstNumber = secondNumber := by
      apply BitVec.eq_of_toNat_eq
      omega
    subst sameNumber
    have sameRest : 2 * firstMode.code.toNat + firstSpace.isData.toNat =
        2 * secondMode.code.toNat + secondSpace.isData.toNat := by omega
    cases firstMode <;> cases firstSpace <;> cases secondMode <;> cases secondSpace <;>
      first | rfl | simp [Mode.code, Space.isData] at sameRest
  · rintro rfl
    rfl

end PageId

/-- The register that says how long a page is, who may use it
and what was done with it. -/
structure PageDescriptor where
  /-- Number of the last block of the page, or of the first if it grows down. -/
  length : BitVec 7
  accessed : Bool
  written : Bool
  expandsDown : Bool
  /-- Access control field. -/
  access : BitVec 3
deriving DecidableEq

namespace PageDescriptor

/-- The descriptor as software reads it. -/
def bits (descriptor : PageDescriptor) : Word :=
  (0#1 ++ descriptor.length ++ BitVec.ofBool descriptor.accessed ++
    BitVec.ofBool descriptor.written ++ 0#2 ++ BitVec.ofBool descriptor.expandsDown ++
    descriptor.access).setWidth 16

/-- The descriptor after software loads `value`, which marks the page as
neither accessed nor written. -/
def loaded (value : Word) : PageDescriptor where
  length := value.extractLsb' 8 7
  accessed := false
  written := false
  expandsDown := value.getLsbD 3
  access := value.extractLsb' 0 3

/-- The descriptor with the marks of earlier accesses taken away. -/
def unmarked (descriptor : PageDescriptor) : PageDescriptor :=
  { descriptor with
    accessed := false
    written := false }

/-- The descriptor after a read, or after a write if `write` is set. -/
def marked (descriptor : PageDescriptor) (write : Bool) : PageDescriptor :=
  { descriptor with
    accessed := true
    written := descriptor.written || write }

end PageDescriptor

/-- The two registers of a page. -/
structure Page where
  descriptor : PageDescriptor
  /-- Physical address of the page in units of one block. -/
  base : Word
deriving DecidableEq

namespace Page

/-- A page that no access may use, at physical address zero. -/
def cleared : Page where
  descriptor := .loaded 0
  base := 0

/-- The page after software stores to its descriptor, which clears the marks. -/
def loadDescriptor (page : Page) (value : Word) : Page :=
  { page with descriptor := .loaded value }

/-- The page after software stores to its base, which clears the marks as well. -/
def loadBase (page : Page) (value : Word) : Page where
  descriptor := page.descriptor.unmarked
  base := value

end Page

/-- The registers of the pages of all modes and spaces. -/
structure PageTable where
  pages : Vector Page 64
deriving DecidableEq

namespace PageTable

/-- The table as it is switched on. -/
def cleared : PageTable where
  pages := Vector.replicate 64 .cleared

/-- The registers of the page `id`. -/
def get (table : PageTable) (id : PageId) : Page :=
  table.pages[id.index]

/-- The table with the registers of the page `id` replaced. -/
def set (table : PageTable) (id : PageId) (page : Page) : PageTable where
  pages := table.pages.set id.index page

@[simp]
theorem get_set (table : PageTable) (written read : PageId) (page : Page) :
    (table.set written page).get read = if written = read then page else table.get read := by
  simp only [get, set, Fin.getElem_fin, Vector.getElem_set, ← PageId.index_inj, Fin.ext_iff]

@[simp]
theorem get_cleared (id : PageId) : cleared.get id = .cleared := by
  simp [get, cleared]

end PageTable

end Pdp11
