import Pdp11.Proofs.Isolation.Integrity
import Pdp11.Proofs.RegisterWrites

/-!
# Stores of a run, and pushes in any mode

A run keeps a log of the stores that went through. A push lowers the stack
pointer of the mode it finds, and stores there; a store that lands on the
status word may leave another mode for the next push to find.
-/

namespace Pdp11

universe u

/-! ## The log of stores -/

/-- A store that went through. -/
structure AcceptedStore where
  mode : Mode
  address : Word
  value : Word
  width : Width
deriving DecidableEq

variable {δ : Type u} [Bus δ]

/-- The store that `op` makes, unless it is refused. -/
def MicroOp.accepted (op : MicroOp) (datapath : Datapath δ) : List AcceptedStore :=
  match op with
  | store address src width space =>
    let machine := datapath.machine
    match machine.storeSelected (datapath.reg address) (datapath.reg src) width space with
    | (.ok (), _) =>
      [{ mode := machine.selectedMode space.mode
         address := datapath.reg address
         value := datapath.reg src
         width := width }]
    | (.error _, _) => []
  | _ => []

namespace Datapath

/-- The stores that a run of `ops` makes, the earliest first. -/
def stores (datapath : Datapath δ) : List MicroOp → List AcceptedStore
  | [] => []
  | op :: rest =>
    op.accepted datapath ++
      match (op.effect datapath).disposition with
      | .next => (op.effect datapath).commit.stores rest
      | .flush | .raise _ => []

theorem Step.stores_cons {datapath next : Datapath δ} {op : MicroOp} (step : datapath.Step op next)
    (rest : List MicroOp) :
    datapath.stores (op :: rest) = op.accepted datapath ++ next.stores rest := by
  obtain ⟨goesOn, rfl⟩ := step
  rw [stores, goesOn]

/-- Micro-operations other than stores leave nothing in the log. -/
theorem Steps.stores_append {datapath middle : Datapath δ} {first : List MicroOp}
    (steps : Steps datapath first middle) (noStore : ∀ op ∈ first, op.isStore = false)
    (second : List MicroOp) : datapath.stores (first ++ second) = middle.stores second := by
  induction steps with
  | nil => rfl
  | @cons _ _ _ op rest step _ ih =>
      have none (datapath : Datapath δ) : op.accepted datapath = [] := by
        have notStore := noStore op List.mem_cons_self
        cases op <;> first | rfl | contradiction
      rw [List.cons_append, step.stores_cons, none, List.nil_append]
      exact ih fun later laterMem => noStore later (List.mem_cons_of_mem _ laterMem)

end Datapath

/-! ## Stores to the status word -/

theorem wordAddress_of_even {w : Nat} {address : BitVec w} (even : isOdd address = false) :
    wordAddress address = address := by
  apply BitVec.eq_of_getLsbD_eq
  intro i below
  unfold isOdd at even
  unfold wordAddress
  cases i with
  | zero => simp [even]
  | succ i => simp [below]

theorem isOdd_eq_false_of_toNat {w : Nat} {address : BitVec w} (even : address.toNat % 2 = 0) :
    isOdd address = false := by
  rw [isOdd, BitVec.getLsbD, Nat.testBit_zero, decide_eq_false_iff_not]
  omega

namespace Machine

variable {machine : Machine δ} {mode : Mode} {address value : Word}

/-- A store that a page sends to the status word goes through. -/
theorem write_eq_storePsw (permits : machine.mmu.Permits mode .write address)
    (lands : machine.mmu.destination mode .write address = pswAddress) :
    machine.write mode address value .word =
      (.ok (), (machine.translate mode .write address).2.storePsw value) := by
  have even : isOdd address = false := by
    have inBlock := machine.mmu.toNat_destination_mod mode .write address
    have place : pswAddress.toNat % 64 = 62 := by decide
    rw [lands] at inBlock
    exact isOdd_eq_false_of_toNat (by omega)
  apply write_eq_ok_iff.mpr
  refine ⟨by simp [even], permits, ?_⟩
  rw [lands]
  generalize (machine.translate mode .write address).2 = reached
  have inIoPage : Region.of pswAddress reached.ram.size = .ioPage := by
    rw [Region.of, if_pos (by decide)]
  have whole : wordAddress pswAddress = pswAddress := by decide
  have internal : reached.readInternal? pswAddress = some reached.psw.bits := if_pos rfl
  simp only [writePhysical, inIoPage, writeIo, whole, internal, writeInternal, if_true]

theorem status_writePhysical_of_ne (machine : Machine δ) {physical : PhysicalAddress}
    (elsewhere : wordAddress physical ≠ pswAddress) (value : Word) (width : Width) :
    let after := (machine.writePhysical physical value width).2
    after.psw = machine.psw ∧ after.pswWritten = machine.pswWritten := by
  have internal (stored : Word) :
      let after := machine.writeInternal (wordAddress physical) stored
      after.psw = machine.psw ∧ after.pswWritten = machine.pswWritten := by
    rw [writeInternal, if_neg elsewhere]
    split <;> exact ⟨rfl, rfl⟩
  unfold writePhysical
  split
  · split <;> exact ⟨rfl, rfl⟩
  · unfold writeIo
    split
    · exact internal _
    · exact ⟨rfl, rfl⟩
  · exact ⟨rfl, rfl⟩

/-- Other stores leave the status word alone. -/
theorem status_write_of_ne (machine : Machine δ) {mode : Mode} {address : Word}
    (elsewhere : wordAddress (machine.mmu.destination mode .write address) ≠ pswAddress)
    (value : Word) (width : Width) :
    let after := (machine.write mode address value width).2
    after.psw = machine.psw ∧ after.pswWritten = machine.pswWritten := by
  have accessed := machine.accessed_translate mode .write address
  have translated : (machine.translate mode .write address).2.psw = machine.psw ∧
      (machine.translate mode .write address).2.pswWritten = machine.pswWritten := by
    constructor <;> rw [accessed.rest]
  intro after
  simp only [after, write]
  split
  · exact ⟨rfl, rfl⟩
  · split <;> rename_i outcome <;> rw [outcome] at translated
    · exact translated
    · obtain ⟨-, place⟩ := (translate_eq_ok_iff (by decide)).mp (congrArg Prod.fst outcome)
      rw [← place] at elsewhere
      have kept := (machine.translate mode .write address).2.status_writePhysical_of_ne elsewhere
        value width
      rw [outcome] at kept
      exact ⟨kept.1.trans translated.1, kept.2.trans translated.2⟩

/-- A word is stored at an even address or not at all. -/
theorem psw_write_of_ne (elsewhere : machine.mmu.destination mode .write address ≠ pswAddress) :
    (machine.write mode address value .word).2.psw = machine.psw := by
  cases odd : isOdd address with
  | true =>
      rw [write, if_pos ⟨rfl, odd⟩]
  | false =>
      have even : isOdd (machine.mmu.destination mode .write address) = false := by
        have inBlock := machine.mmu.toNat_destination_mod mode .write address
        have divides := toNat_mod_two_of_even odd
        exact isOdd_eq_false_of_toNat (by omega)
      rw [← wordAddress_of_even even] at elsewhere
      exact (machine.status_write_of_ne elsewhere value .word).1

end Machine

/-! ## Pushes -/

namespace Datapath

/-- The stack pointer of the current mode has been lowered for a push. -/
structure Lowered (before : Datapath δ) (lowered : Machine δ) : Prop where
  psw : lowered.psw = before.machine.psw
  rights : before.machine.mmu.SameRights lowered.mmu
  registers : lowered.registers =
    before.machine.registers.set (.stackPointer before.machine.psw.mode)
      (before.machine.stackPointer before.machine.psw.mode - 2)

/-- A run with a push at its head traps there, or goes on with the word stored
below the stack pointer of the current mode. -/
theorem run_push (before : Datapath δ) {src : Reg} (scratch : src ≠ .sp) (index : Nat)
    (rest : List MicroOp) :
    let ops := [.step .sp (-2), .store .sp src .word .data] ++ rest
    let mode := before.machine.psw.mode
    let address := before.machine.stackPointer mode - 2
    ∃ lowered, before.Lowered lowered ∧
      ((∃ error refused, lowered.write mode address (before.reg src) .word =
            (.error error, refused) ∧
          before.run index ops =
            (.ok (.trapped (index + 1) error.trapClass), refused.raise error.trapClass)) ∨
        ∃ stored, lowered.write mode address (before.reg src) .word = (.ok (), stored) ∧
          before.run index ops = { before with machine := stored }.run (index + 2) rest ∧
          before.stores ops =
            { mode := mode, address := address, value := before.reg src, width := .word } ::
              { before with machine := stored }.stores rest) := by
  intro ops mode address
  let lowered := ((MicroOp.step .sp (-2)).effect before).commit
  have first : before.Step (.step .sp (-2)) lowered := ⟨rfl, rfl⟩
  have registers : lowered.machine.registers =
      before.machine.registers.set (.stackPointer mode) address := by
    change before.machine.registers.set (Reg.sp.cell before.machine.psw)
      (before.machine.reg .sp + -2) = _
    rw [← BitVec.sub_eq_add_neg]
    rfl
  have pointer : lowered.reg .sp = address := by
    change lowered.machine.registers.get (.stackPointer mode) = _
    rw [registers, RegisterFile.get_set, if_pos rfl]
  have value : lowered.reg src = before.reg src := by
    have kept := MicroOp.reg_commit_step .sp src (-2) before
    rw [if_neg scratch.symm] at kept
    exact kept.trans (BitVec.add_zero _)
  have program : ops = .step .sp (-2) :: .store .sp src .word .data :: rest := rfl
  refine ⟨lowered.machine, ⟨rfl, Mmu.sameRights_recordStep _ _ _, registers⟩, ?_⟩
  rw [program, first.run_cons, first.stores_cons]
  cases outcome : lowered.machine.write mode address (before.reg src) .word with
  | mk answer stored =>
      have accesses : lowered.machine.storeSelected (lowered.reg .sp) (lowered.reg src) .word
          .data = (answer, stored) := by
        rw [pointer, value]
        exact outcome
      cases answer with
      | error error =>
          refine .inl ⟨error, stored, rfl, ?_⟩
          rw [run_cons]
          simp only [MicroOp.effect, accesses]
          rfl
      | ok =>
          have second := step_store accesses
          refine .inr ⟨stored, rfl, second.run_cons _ _, ?_⟩
          have logged : (MicroOp.store .sp src .word .data).accepted lowered =
              [{ mode := mode, address := address, value := before.reg src, width := .word }] := by
            simp only [MicroOp.accepted, accesses]
            rw [pointer, value]
            rfl
          rw [second.stores_cons, logged]
          rfl

end Datapath

end Pdp11
