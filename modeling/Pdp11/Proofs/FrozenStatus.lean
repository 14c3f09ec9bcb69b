import Pdp11.Proofs.RegisterWindow

/-!
# Status registers after an abort

A unit that recorded an abort keeps MMR0, MMR1 and MMR2 for the handler. Later
translations may succeed, ask for traps or abort as well, instructions may start
and step registers, and software may load the pages and MMR3: only a new value
of MMR0 or a reset lets the three registers go.
-/

namespace Pdp11

namespace MmuOperation

/-- The operation gives MMR0 a new value whatever it holds. -/
def setsMmr0 : MmuOperation → Bool
  | writeMmr0 _ | reset => true
  | write address _ => address = Mmu.mmr0Address
  | translate .. | loadDescriptor .. | loadBase .. | writeMmr3 _ | startInstruction
  | recordStep .. => false

end MmuOperation

namespace Mmu

/-- The registers that tell a handler of an abort are the same. -/
structure SameStatus (before after : Mmu) : Prop where
  mmr0 : after.mmr0 = before.mmr0
  mmr1 : after.mmr1 = before.mmr1
  mmr2 : after.mmr2 = before.mmr2

namespace SameStatus

variable {first second third : Mmu}

theorem refl (mmu : Mmu) : SameStatus mmu mmu :=
  ⟨rfl, rfl, rfl⟩

theorem trans (head : SameStatus first second) (tail : SameStatus second third) :
    SameStatus first third where
  mmr0 := tail.mmr0.trans head.mmr0
  mmr1 := tail.mmr1.trans head.mmr1
  mmr2 := tail.mmr2.trans head.mmr2

theorem frozen (same : SameStatus first second) : second.frozen = first.frozen :=
  congrArg Mmr0.aborted same.mmr0

end SameStatus

/-! ## Operations on a frozen unit -/

section Frozen

variable {mmu : Mmu} (frozen : mmu.frozen)
include frozen

theorem noteFetch_of_frozen (cycle : MemoryCycle) (address : Word) :
    mmu.noteFetch cycle address = mmu := by
  simp [noteFetch, frozen]

theorem recordAbort_of_frozen (causes : List AbortCause) (page : PageId) :
    mmu.recordAbort causes page = mmu :=
  if_pos frozen

theorem startInstruction_of_frozen : mmu.startInstruction = mmu :=
  if_pos frozen

theorem recordStep_of_frozen (register : BitVec 3) (amount : Word) :
    mmu.recordStep register amount = mmu :=
  if_pos frozen

/-- An access that asks for a trap does not raise the trap flag. -/
theorem sameStatus_markAccess (page : PageId) (write trap : Bool) :
    mmu.SameStatus (mmu.markAccess page write trap) where
  mmr0 := by simp [markAccess, frozen]
  mmr1 := rfl
  mmr2 := rfl

theorem sameStatus_relocate (mode : Mode) (cycle : MemoryCycle) (address : Word) :
    mmu.SameStatus (mmu.relocate mode cycle address).2 := by
  unfold relocate
  dsimp only
  split
  · rw [recordAbort_of_frozen frozen]
    exact .refl mmu
  · exact sameStatus_markAccess frozen _ _ _

theorem sameStatus_translate (mode : Mode) (cycle : MemoryCycle) (address : Word) :
    mmu.SameStatus (mmu.translate mode cycle address).2 := by
  unfold translate
  rw [noteFetch_of_frozen frozen]
  dsimp only
  split
  · exact sameStatus_relocate frozen mode cycle address
  · exact .refl mmu

end Frozen

variable {mmu : Mmu}

theorem sameStatus_writeMmr3 (mmu : Mmu) (value : Word) : mmu.SameStatus (mmu.writeMmr3 value) := by
  unfold writeMmr3
  split <;> exact ⟨rfl, rfl, rfl⟩

/-- Stores reach MMR0 alone of the three registers. -/
theorem sameStatus_writeRegister {register : MmuRegister} (other : register ≠ .mmr0)
    (value : Word) : mmu.SameStatus (mmu.writeRegister register value) := by
  cases register with
  | mmr0 => contradiction
  | mmr1 | mmr2 => exact .refl mmu
  | mmr3 => exact sameStatus_writeMmr3 mmu value
  | descriptor page | base page => exact ⟨rfl, rfl, rfl⟩

theorem sameStatus_write {address : PhysicalAddress} (other : address ≠ Mmu.mmr0Address)
    (value : Word) : mmu.SameStatus ((mmu.write? address value).getD mmu) := by
  rw [write?_eq]
  cases here : mmu.registerAt? address with
  | none => exact .refl mmu
  | some register =>
      refine sameStatus_writeRegister (fun status => other ?_) value
      subst status
      have named := (Option.filter_eq_some_iff.mp here).1
      exact (Option.some.inj (MmuRegister.at?_eq_some_iff.mp named)).symm

theorem sameStatus_perform (frozen : mmu.frozen) {operation : MmuOperation}
    (leaves : operation.setsMmr0 = false) : mmu.SameStatus (mmu.perform operation) := by
  cases operation with
  | translate mode cycle address => exact sameStatus_translate frozen mode cycle address
  | loadDescriptor page value | loadBase page value => exact ⟨rfl, rfl, rfl⟩
  | writeMmr0 value | reset => contradiction
  | writeMmr3 value => exact sameStatus_writeMmr3 mmu value
  | write address value => exact sameStatus_write (of_decide_eq_false leaves) value
  | startInstruction =>
      rw [perform, startInstruction_of_frozen frozen]
      exact .refl mmu
  | recordStep register amount =>
      rw [perform, recordStep_of_frozen frozen]
      exact .refl mmu

/-- The unit stays frozen from one operation to the next, so the registers stay
the same over any number of them. -/
theorem sameStatus_performAll (frozen : mmu.frozen) {operations : List MmuOperation}
    (leave : ∀ operation ∈ operations, operation.setsMmr0 = false) :
    mmu.SameStatus (mmu.performAll operations) := by
  induction operations generalizing mmu with
  | nil => exact .refl mmu
  | cons operation rest ih =>
      have step := sameStatus_perform frozen (leave operation (.head rest))
      have stillFrozen : (mmu.perform operation).frozen := step.frozen.trans frozen
      exact step.trans (ih stillFrozen fun later among => leave later (.tail operation among))

/-- The status registers of a unit that recorded an abort stay as they are, until
MMR0 gets a new value. -/
theorem sameStatus_of_frozen (frozen : mmu.frozen) {operations : List MmuOperation}
    (leave : ∀ operation ∈ operations, operation.setsMmr0 = false) :
    ∀ earlier, earlier <+: operations → mmu.SameStatus (mmu.performAll earlier) := by
  intro earlier isPrefix
  exact sameStatus_performAll frozen fun operation among =>
    leave operation (isPrefix.subset among)

/-- A unit whose first fetch met no page, after a register was stepped. -/
def fetchedNowhere : Mmu :=
  (((new .pdp1170).writeMmr0 0o1001).recordStep 1 2 |>.translate .user .fetch 0o40).2

/-- What a handler may do before it looks at the status registers: it makes a page
that asks for traps, reads from it, writes outside it and steps a register. -/
def handled : List MmuOperation :=
  [.loadDescriptor { mode := .kernel, space := .instruction, number := 0 } 4,
    .write Mmu.mmr3Address 0o20,
    .startInstruction,
    .translate .kernel .fetch 0o10,
    .recordStep 6 2,
    .translate .kernel .write 0o20000]

/-- MMR0 reports the page that was not there, MMR1 the step and MMR2 the fetch,
whatever the handler does. -/
theorem sameStatus_fetchedNowhere :
    fetchedNowhere.frozen ∧ (fetchedNowhere.performAll handled).mmr0.bits = 0o101141 ∧
      (fetchedNowhere.performAll handled).mmr1.bits = 0o21 ∧
      (fetchedNowhere.performAll handled).mmr2 = 0o40 := by
  have frozen : fetchedNowhere.frozen := rfl
  have leave : ∀ operation ∈ handled, operation.setsMmr0 = false := by decide
  have same := sameStatus_of_frozen frozen leave handled (List.prefix_refl handled)
  refine ⟨frozen, ?_, ?_, same.mmr2⟩
  · rw [same.mmr0]
    rfl
  · rw [same.mmr1]
    rfl

end Mmu

end Pdp11
