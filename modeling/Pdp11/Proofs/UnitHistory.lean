import Pdp11.Proofs.UnitRegisters

/-!
# Histories of the relocation unit

Accesses mark pages, and software loads their registers one at a time. Whatever
the order, the marks of a page never contradict its access control field: what
the field refuses cannot have happened since the field was loaded.
-/

namespace Pdp11

/-! ## Register words -/

theorem PageDescriptor.getLsbD_bits (descriptor : PageDescriptor) (position : Nat) :
    descriptor.bits.getLsbD position =
      if position < 3 then descriptor.access.getLsbD position
      else if position < 4 then descriptor.expandsDown
      else if position < 6 then false
      else if position < 7 then descriptor.written
      else if position < 8 then descriptor.accessed
      else if position < 15 then descriptor.length.getLsbD (position - 8)
      else false := by
  simp only [bits, BitVec.getLsbD_setWidth, BitVec.getLsbD_append, BitVec.getLsbD_ofBool,
    BitVec.getLsbD_zero, Nat.sub_sub]
  grind

/-- The access control field is the low three bits of the register. -/
theorem PageDescriptor.extractLsb'_bits (descriptor : PageDescriptor) :
    descriptor.bits.extractLsb' 0 3 = descriptor.access := by
  apply BitVec.eq_of_getLsbD_eq
  intro position below
  rw [BitVec.getLsbD_extractLsb', getLsbD_bits]
  simp [below]

/-- `word` has no bit outside `mask`. -/
def Within (word mask : Word) : Prop :=
  word &&& ~~~mask = 0

theorem within_of_getLsbD {word mask : Word}
    (clear : ∀ position, position < 16 → mask.getLsbD position = false →
      word.getLsbD position = false) : Within word mask := by
  apply BitVec.eq_of_getLsbD_eq
  intro position below
  rw [BitVec.getLsbD_and, BitVec.getLsbD_not]
  cases masked : mask.getLsbD position with
  | true => simp
  | false => simp [clear position below masked]

theorem PageDescriptor.within_bits (descriptor : PageDescriptor) :
    Within descriptor.bits 0o77717 := by
  apply within_of_getLsbD
  intro position below unmasked
  have outside : position = 4 ∨ position = 5 ∨ position = 15 := by
    revert position
    decide
  rcases outside with rfl | rfl | rfl <;> exact getLsbD_bits descriptor _

theorem Mmr0.within_bits (status : Mmr0) : Within status.bits 0o171577 := by
  apply within_of_getLsbD
  intro position below unmasked
  have outside : position = 7 ∨ position = 10 ∨ position = 11 := by
    revert position
    decide
  rcases outside with rfl | rfl | rfl <;>
    simp only [bits, BitVec.getLsbD_setWidth, BitVec.getLsbD_append, BitVec.getLsbD_ofBool,
      BitVec.getLsbD_zero] <;>
    rfl

/-! ## Marks and access control -/

namespace Model

/-- The access control fields of pages that an access can have written. -/
def writableFields : Model → List (BitVec 3)
  | pdp1134 => [6]
  | pdp1170 => [4, 5, 6]

end Model

namespace PageDescriptor

/-- The access control fields of pages that are not there. -/
def absentFields : List (BitVec 3) :=
  [0, 3, 7]

variable {descriptor : PageDescriptor} {model : Model} {block : BitVec 7} {write : Bool}

/-- The marks tell of accesses that the access control field lets through. -/
structure Consistent (descriptor : PageDescriptor) (model : Model) : Prop where
  accessed : descriptor.written → descriptor.accessed
  resident : descriptor.accessed → descriptor.access ∉ absentFields
  writable : descriptor.written → descriptor.access ∈ model.writableFields

theorem consistent_unmarked (descriptor : PageDescriptor) (model : Model) :
    descriptor.unmarked.Consistent model := by
  constructor <;> simp [unmarked]

theorem consistent_loaded (value : Word) (model : Model) : (loaded value).Consistent model := by
  constructor <;> simp [loaded]

/-- No access control field asks for a page length error. -/
theorem verdict_ne_pageLength : descriptor.verdict model write ≠ .abort .pageLength := by
  simp only [verdict]
  split <;> (try split) <;> (try split) <;> simp

/-- Only the larger model traps. -/
theorem verdict_ne_trap : descriptor.verdict .pdp1134 write ≠ .trap := by
  simp only [verdict]
  split <;> (try split) <;> simp

/-- The smaller model lets nobody write such a page for the first time. -/
theorem verdict_of_unwritten (field : descriptor.access ∈ [4, 5])
    (unwritten : descriptor.written = false) :
    descriptor.verdict .pdp1134 true = .abort .readOnly := by
  simp only [List.mem_cons, List.not_mem_nil, or_false] at field
  rcases field with field | field <;> simp [verdict, field, unwritten]

theorem verdict_ne_abort (allows : descriptor.abortCauses model block write = [])
    (cause : AbortCause) : descriptor.verdict model write ≠ .abort cause := by
  intro refused
  have unlisted := List.filter_eq_nil_iff.mp allows
  cases cause with
  | nonResident => exact unlisted .nonResident (by decide) (by simp [refused])
  | readOnly => exact unlisted .readOnly (by decide) (by simp [refused])
  | pageLength => exact verdict_ne_pageLength refused

theorem not_mem_absentFields (allowed : ∀ cause, descriptor.verdict model write ≠ .abort cause) :
    descriptor.access ∉ absentFields := by
  intro absent
  apply allowed .nonResident
  simp only [absentFields, List.mem_cons, List.not_mem_nil, or_false] at absent
  rcases absent with field | field | field <;> simp [verdict, field]

theorem mem_writableFields (allowed : ∀ cause, descriptor.verdict model true ≠ .abort cause)
    (writable : descriptor.written → descriptor.access ∈ model.writableFields) :
    descriptor.access ∈ model.writableFields := by
  cases written : descriptor.written with
  | true => exact writable written
  | false =>
      have field : ∀ access : BitVec 3, access ∈ [0, 1, 2, 3, 4, 5, 6, 7] := by decide
      have refused := not_mem_absentFields allowed
      have readOnly := allowed .readOnly
      specialize field descriptor.access
      simp only [List.mem_cons, List.not_mem_nil, or_false] at field
      rcases field with field | field | field | field | field | field | field | field <;>
        cases model <;> simp_all [verdict, absentFields, Model.writableFields]

/-- A page that is not there has no marks. -/
theorem Consistent.unmarked_of_absent (consistent : descriptor.Consistent model)
    (absent : descriptor.access ∈ absentFields) :
    descriptor.accessed = false ∧ descriptor.written = false := by
  have unaccessed : descriptor.accessed = false :=
    Bool.eq_false_iff.mpr fun accessed => consistent.resident accessed absent
  refine ⟨unaccessed, Bool.eq_false_iff.mpr fun written => ?_⟩
  rw [consistent.accessed written] at unaccessed
  contradiction

/-- An access marks its page as what it was let through for. -/
theorem Consistent.marked (consistent : descriptor.Consistent model)
    (allows : descriptor.abortCauses model block write = []) :
    (descriptor.marked write).Consistent model := by
  constructor
  · intro
    rfl
  · intro
    change descriptor.access ∉ absentFields
    exact not_mem_absentFields (verdict_ne_abort allows)
  · intro written
    change descriptor.access ∈ model.writableFields
    cases write with
    | true => exact mem_writableFields (verdict_ne_abort allows) consistent.writable
    | false =>
        apply consistent.writable
        simpa [PageDescriptor.marked] using written

end PageDescriptor

/-! ## Operations on the unit -/

/-- Everything that can happen to a relocation unit. -/
inductive MmuOperation
  | translate (mode : Mode) (cycle : MemoryCycle) (address : Word)
  | loadDescriptor (page : PageId) (value : Word)
  | loadBase (page : PageId) (value : Word)
  | writeMmr0 (value : Word)
  | writeMmr3 (value : Word)
  /-- A store to the device registers, which may name no register of the unit. -/
  | write (address : PhysicalAddress) (value : Word)
  | startInstruction
  | recordStep (register : BitVec 3) (amount : Word)
  | reset
deriving DecidableEq

namespace Mmu

/-- The unit after an operation, whether that succeeds or not. -/
def perform (mmu : Mmu) : MmuOperation → Mmu
  | .translate mode cycle address => (mmu.translate mode cycle address).2
  | .loadDescriptor page value => mmu.loadDescriptor page value
  | .loadBase page value => mmu.loadBase page value
  | .writeMmr0 value => mmu.writeMmr0 value
  | .writeMmr3 value => mmu.writeMmr3 value
  | .write address value => (mmu.write? address value).getD mmu
  | .startInstruction => mmu.startInstruction
  | .recordStep register amount => mmu.recordStep register amount
  | .reset => mmu.reset

/-- The unit after some operations, one after the other. -/
def performAll (mmu : Mmu) (operations : List MmuOperation) : Mmu :=
  operations.foldl perform mmu

/-- What links the marks of the pages, their access control fields and MMR3. -/
structure Consistent (mmu : Mmu) (model : Model) : Prop where
  ofModel : mmu.model = model
  pages : ∀ page, (mmu.descriptor page).Consistent model
  mmr3 : model = .pdp1134 → mmu.mmr3 = 0

theorem consistent_new (model : Model) : (new model).Consistent model where
  ofModel := rfl
  pages page := by
    simp only [descriptor, new, PageTable.get_cleared]
    exact PageDescriptor.consistent_loaded 0 model
  mmr3 _ := rfl

namespace Consistent

variable {mmu after : Mmu} {model : Model}

/-- Operations on the status registers alone keep the invariant. -/
theorem of_pages (consistent : mmu.Consistent model) (sameModel : after.model = mmu.model)
    (samePages : after.pages = mmu.pages) (sameMmr3 : after.mmr3 = mmu.mmr3) :
    after.Consistent model where
  ofModel := sameModel.trans consistent.ofModel
  pages page := by
    rw [descriptor, samePages]
    exact consistent.pages page
  mmr3 plain := sameMmr3.trans (consistent.mmr3 plain)

theorem setPage (consistent : mmu.Consistent model) (page : PageId) {entry : Page}
    (entryConsistent : entry.descriptor.Consistent model) :
    Consistent { mmu with pages := mmu.pages.set page entry } model where
  ofModel := consistent.ofModel
  pages asked := by
    simp only [descriptor, PageTable.get_set]
    split
    · exact entryConsistent
    · exact consistent.pages asked
  mmr3 := consistent.mmr3

theorem noteFetch (consistent : mmu.Consistent model) (cycle : MemoryCycle) (address : Word) :
    (mmu.noteFetch cycle address).Consistent model := by
  unfold Mmu.noteFetch
  split
  · exact consistent.of_pages rfl rfl rfl
  · exact consistent

theorem recordAbort (consistent : mmu.Consistent model) (causes : List AbortCause)
    (page : PageId) : (mmu.recordAbort causes page).Consistent model := by
  unfold Mmu.recordAbort
  split
  · exact consistent
  · exact consistent.of_pages rfl rfl rfl

theorem relocate (consistent : mmu.Consistent model) (mode : Mode) (cycle : MemoryCycle)
    (address : Word) : (mmu.relocate mode cycle address).2.Consistent model := by
  unfold Mmu.relocate
  dsimp only
  split
  · exact consistent.recordAbort _ _
  · rename_i allows
    rw [consistent.ofModel] at allows
    have marked := (consistent.pages _).marked allows
    exact (consistent.setPage _ marked).of_pages rfl rfl rfl

theorem translate (consistent : mmu.Consistent model) (mode : Mode) (cycle : MemoryCycle)
    (address : Word) : (mmu.translate mode cycle address).2.Consistent model := by
  have noted := consistent.noteFetch cycle address
  unfold Mmu.translate
  dsimp only
  split
  · exact noted.relocate mode cycle address
  · exact noted

theorem loadDescriptor (consistent : mmu.Consistent model) (page : PageId) (value : Word) :
    (mmu.loadDescriptor page value).Consistent model :=
  consistent.setPage page (PageDescriptor.consistent_loaded value model)

theorem loadBase (consistent : mmu.Consistent model) (page : PageId) (value : Word) :
    (mmu.loadBase page value).Consistent model :=
  consistent.setPage page (PageDescriptor.consistent_unmarked (mmu.descriptor page) model)

theorem writeMmr0 (consistent : mmu.Consistent model) (value : Word) :
    (mmu.writeMmr0 value).Consistent model :=
  consistent.of_pages rfl rfl rfl

theorem writeMmr3 (consistent : mmu.Consistent model) (value : Word) :
    (mmu.writeMmr3 value).Consistent model := by
  unfold Mmu.writeMmr3
  split
  · exact consistent
  · rename_i split
    constructor
    · exact consistent.ofModel
    · exact consistent.pages
    · intro plain
      rw [← consistent.ofModel, split] at plain
      contradiction

theorem writeRegister (consistent : mmu.Consistent model) (register : MmuRegister)
    (value : Word) : (mmu.writeRegister register value).Consistent model := by
  cases register with
  | mmr0 => exact consistent.writeMmr0 value
  | mmr1 => exact consistent
  | mmr2 => exact consistent
  | mmr3 => exact consistent.writeMmr3 value
  | descriptor page => exact consistent.loadDescriptor page value
  | base page => exact consistent.loadBase page value

theorem write (consistent : mmu.Consistent model) (address : PhysicalAddress) (value : Word) :
    ((mmu.write? address value).getD mmu).Consistent model := by
  rw [write?_eq]
  cases mmu.registerAt? address with
  | none => exact consistent
  | some register => exact consistent.writeRegister register value

theorem reset (consistent : mmu.Consistent model) : mmu.reset.Consistent model where
  ofModel := consistent.ofModel
  pages := consistent.pages
  mmr3 _ := rfl

theorem perform (consistent : mmu.Consistent model) (operation : MmuOperation) :
    (mmu.perform operation).Consistent model := by
  cases operation with
  | translate mode cycle address => exact consistent.translate mode cycle address
  | loadDescriptor page value => exact consistent.loadDescriptor page value
  | loadBase page value => exact consistent.loadBase page value
  | writeMmr0 value => exact consistent.writeMmr0 value
  | writeMmr3 value => exact consistent.writeMmr3 value
  | write address value => exact consistent.write address value
  | startInstruction =>
      change mmu.startInstruction.Consistent model
      unfold Mmu.startInstruction
      split
      · exact consistent
      · exact consistent.of_pages rfl rfl rfl
  | recordStep register amount =>
      change (mmu.recordStep register amount).Consistent model
      unfold Mmu.recordStep
      split
      · exact consistent
      · exact consistent.of_pages rfl rfl rfl
  | reset => exact consistent.reset

theorem performAll (consistent : mmu.Consistent model) (operations : List MmuOperation) :
    (mmu.performAll operations).Consistent model := by
  induction operations generalizing mmu with
  | nil => exact consistent
  | cons operation rest ih => exact ih (consistent.perform operation)

end Consistent

/-! ## What software reads -/

/-- The access control field of the word that the register of `page` reads as. -/
def accessField (mmu : Mmu) (page : PageId) : BitVec 3 :=
  (mmu.readRegister (.descriptor page)).extractLsb' 0 3

/-- Bit 7 of the register of `page`. -/
def accessedBit (mmu : Mmu) (page : PageId) : Bool :=
  (mmu.readRegister (.descriptor page)).getLsbD 7

/-- Bit 6 of the register of `page`. -/
def writtenBit (mmu : Mmu) (page : PageId) : Bool :=
  (mmu.readRegister (.descriptor page)).getLsbD 6

/-- What the register words of a unit of `model` can be, and what translations
they allow. -/
structure RegistersAgree (mmu : Mmu) (model : Model) : Prop where
  descriptors : ∀ page, Within (mmu.readRegister (.descriptor page)) 0o77717
  accessed : ∀ page, mmu.writtenBit page → mmu.accessedBit page
  absent : ∀ page, mmu.accessField page ∈ PageDescriptor.absentFields →
    mmu.accessedBit page = false ∧ mmu.writtenBit page = false
  written : ∀ page, mmu.writtenBit page → mmu.accessField page ∈ model.writableFields
  mmr0 : Within (mmu.readRegister .mmr0) 0o171577
  mmr3 : Within (mmu.readRegister .mmr3) 0o77
  noExtension : model = .pdp1134 → mmu.readRegister .mmr3 = 0
  noTrap : model = .pdp1134 → ∀ mode cycle address translation,
    (mmu.translate mode cycle address).1 = .ok translation → translation.trap = false
  writeAborts : model = .pdp1134 → mmu.enabled → ∀ mode address,
    mmu.accessField (mmu.pageOf mode .write address) ∈ [4, 5] →
      ∃ cause, (mmu.translate mode .write address).1 = .error cause

section Words

variable {mmu : Mmu} {page : PageId}

theorem accessField_eq : mmu.accessField page = (mmu.descriptor page).access :=
  (mmu.descriptor page).extractLsb'_bits

theorem accessedBit_eq : mmu.accessedBit page = (mmu.descriptor page).accessed :=
  (mmu.descriptor page).getLsbD_bits 7

theorem writtenBit_eq : mmu.writtenBit page = (mmu.descriptor page).written :=
  (mmu.descriptor page).getLsbD_bits 6

end Words

/-- MMR3 has six bits. -/
theorem within_mmr3 (mmu : Mmu) : Within (mmu.readRegister .mmr3) 0o77 := by
  apply within_of_getLsbD
  intro position below unmasked
  have beyond : 6 ≤ position := by
    revert position
    decide
  simp only [readRegister, BitVec.getLsbD_setWidth]
  rw [BitVec.getLsbD_of_ge _ _ beyond, Bool.and_false]

/-! ## The smaller model -/

theorem trap_of_translate {mmu : Mmu} (plain : mmu.model = .pdp1134) {mode : Mode}
    {cycle : MemoryCycle} {address : Word} {translation : Translation}
    (succeeds : (mmu.translate mode cycle address).1 = .ok translation) :
    translation.trap = false := by
  have noted : (mmu.noteFetch cycle address).model = .pdp1134 :=
    (translated_noteFetch mmu cycle address).model.trans plain
  unfold translate relocate at succeeds
  dsimp only at succeeds
  split at succeeds
  · split at succeeds
    · contradiction
    · cases succeeds
      rw [noted]
      simp [PageDescriptor.verdict_ne_trap]
  · cases succeeds
    rfl

/-- A page that takes no first write takes no write at all. -/
theorem Consistent.write_aborts {mmu : Mmu} (consistent : mmu.Consistent .pdp1134)
    (on : mmu.enabled) {mode : Mode} {address : Word}
    (field : (mmu.descriptor (mmu.pageOf mode .write address)).access ∈ [4, 5]) :
    ∃ cause, (mmu.translate mode .write address).1 = .error cause := by
  have unwritten : (mmu.descriptor (mmu.pageOf mode .write address)).written = false := by
    cases written : (mmu.descriptor (mmu.pageOf mode .write address)).written with
    | false => rfl
    | true =>
        have only := (consistent.pages _).writable written
        rw [List.mem_singleton.mp only] at field
        contradiction
  have refuses := PageDescriptor.verdict_of_unwritten field unwritten
  cases outcome : (mmu.translate mode .write address).1 with
  | error cause => exact ⟨cause, rfl⟩
  | ok translation =>
      have permits := (translate_eq_ok_iff (by decide)).mp ⟨translation.trap, outcome⟩
      have allows := permits.1 on
      rw [consistent.ofModel] at allows
      exact absurd refuses (PageDescriptor.verdict_ne_abort allows .readOnly)

theorem Consistent.registersAgree {mmu : Mmu} {model : Model}
    (consistent : mmu.Consistent model) : mmu.RegistersAgree model where
  descriptors page := (mmu.descriptor page).within_bits
  accessed page := by
    rw [writtenBit_eq, accessedBit_eq]
    exact (consistent.pages page).accessed
  absent page := by
    rw [accessField_eq, accessedBit_eq, writtenBit_eq]
    exact (consistent.pages page).unmarked_of_absent
  written page := by
    rw [writtenBit_eq, accessField_eq]
    exact (consistent.pages page).writable
  mmr0 := mmu.mmr0.within_bits
  mmr3 := mmu.within_mmr3
  noExtension plain := by
    rw [readRegister, consistent.mmr3 plain]
    rfl
  noTrap plain mode cycle address translation :=
    trap_of_translate (consistent.ofModel.trans plain)
  writeAborts plain on mode address := by
    subst plain
    rw [accessField_eq]
    exact consistent.write_aborts on

/-- Whatever happens to a unit, its registers agree with each other. -/
theorem registersAgree_performAll (model : Model) (operations : List MmuOperation) :
    ((new model).performAll operations).RegistersAgree model :=
  ((consistent_new model).performAll operations).registersAgree

/-- A write marks its page until software loads a register of the page. -/
example :
    let page : PageId := { mode := .user, space := .instruction, number := 1 }
    let written := (new .pdp1134).performAll
      [.loadDescriptor page 0o77406, .writeMmr0 1, .translate .user .write 0o20000]
    written.writtenBit page = true ∧ (written.perform (.loadBase page 0)).writtenBit page = false := by
  decide

end Mmu

end Pdp11
