import Pdp11.Proofs.ByteMemory
import Pdp11.Proofs.EffectiveAddress
import Pdp11.Proofs.PreviousSpace

/-!
# Words on a stack in memory

A push stores below the stack pointer of the current mode, through whatever page
that is on. If the word goes to memory it is read there again, as a page that can
be written can be read, and a pop takes it back.
-/

namespace Pdp11

universe u

variable {δ : Type u} [Bus δ]

namespace Machine

variable {machine after : Machine δ} {mode : Mode} {address value : Word} {width : Width}

theorem leadsToRam_of_write (inRam : machine.StoresInRam mode address)
    (stores : machine.write mode address value width = (.ok (), after)) :
    machine.LeadsToRam mode .write address (machine.storePlace mode address) where
  translated := (translate_eq_ok_iff (by decide)).mpr ⟨(write_eq_ok_iff.mp stores).2.1, rfl⟩
  inRam := inRam

/-- A word stored in memory is read there again. -/
theorem readsRam_of_write (inRam : machine.StoresInRam mode address)
    (stores : machine.write mode address value .word = (.ok (), after)) :
    after.ReadsRam mode address .word (machine.storePlace mode address) value := by
  have leads := leadsToRam_of_write inRam stores
  obtain ⟨aligned, permits, -⟩ := write_eq_ok_iff.mp stores
  have wrote := wroteRam_of_write (leads.region (by decide)) stores
  have mapping := wrote.mmu.sameMapping
  have place : machine.storePlace mode address = after.mmu.destination mode .read address := by
    rw [mapping.destination]
    exact (Mmu.destination_of_sharesPages (.inl rfl) address).symm
  apply readsRam_iff.mpr
  refine ⟨⟨?_, ?_⟩, aligned, ?_⟩
  · apply (translate_eq_ok_iff (by decide)).mpr
    exact ⟨mapping.permits rfl (Mmu.permits_read_of_write permits), place⟩
  · rw [Ram.size_of_write? wrote.ram]
    exact inRam
  · rw [Ram.read?_of_write? wrote.ram, and_mask_word]

/-- A read of memory finds the same where memory is the same. -/
theorem ReadsRam.of_sameMapping {place : PhysicalAddress}
    (reads : machine.ReadsRam mode address width place value)
    (mapping : machine.mmu.SameMapping after.mmu) (ram : after.ram = machine.ram) :
    after.ReadsRam mode address width place value := by
  obtain ⟨leads, aligned, present⟩ := readsRam_iff.mp reads
  apply readsRam_iff.mpr
  rw [ram]
  exact ⟨leads.of_sameMapping (by decide) rfl mapping (congrArg Ram.size ram), aligned, present⟩

end Machine

namespace Datapath

variable {before after : Datapath δ} {word : Word}

/-- `word` has been pushed on a stack in memory. -/
structure PushedInRam (before after : Datapath δ) (word : Word) : Prop where
  psw : after.machine.psw = before.machine.psw
  registers (reg : Reg) : after.reg reg = before.reg reg + if .sp = reg then -2 else 0
  ram : before.machine.ram.OverlaidBy
    (storedByte? (before.machine.storePlace before.machine.psw.mode (before.reg .sp - 2)).toNat
      word .word) after.machine.ram
  top : after.machine.ReadsRam before.machine.psw.mode (before.reg .sp - 2) .word
    (before.machine.storePlace before.machine.psw.mode (before.reg .sp - 2)) word

theorem Steps.pushedInRam {src : Reg} (scratch : src.isGeneral = false)
    (steps : Steps before (MicroOp.push src) after)
    (inRam : before.machine.StoresInRam before.machine.psw.mode (before.reg .sp - 2)) :
    PushedInRam before after (before.reg src) := by
  rcases append_iff.mp steps with ⟨lowered, lowers, rest⟩
  rcases cons_iff.mp rest with ⟨_, stores, ⟨⟩⟩
  rcases lowers.answersAlike_stepRegister rfl with ⟨alike, registers⟩
  rcases exists_of_step_store stores with ⟨stored, outcome, rfl⟩
  have pointer : lowered.reg .sp = before.reg .sp - 2 := by
    rw [registers, if_pos rfl, ← BitVec.sub_eq_add_neg]
  have value : lowered.reg src = before.reg src := by
    rw [registers, if_neg (Reg.ne_of_scratch scratch rfl).symm]
    exact BitVec.add_zero _
  have psw : lowered.machine.psw = before.machine.psw := alike.psw
  have mapping : before.machine.mmu.SameMapping lowered.machine.mmu := by
    rw [alike.mmu]
    exact Mmu.sameMapping_recordStep _ _ _
  have place (mode : Mode) (address : Word) :
      lowered.machine.storePlace mode address = before.machine.storePlace mode address :=
    mapping.destination mode .write address
  have same : before.machine.SamePrevious lowered.machine :=
    ⟨alike.ram, congrArg Psw.previousMode psw, mapping⟩
  have lands := inRam.of_samePrevious same
  change lowered.machine.write lowered.machine.psw.mode (lowered.reg .sp) (lowered.reg src) .word =
    (.ok (), stored) at outcome
  rw [psw, pointer, value] at outcome
  have leads := Machine.leadsToRam_of_write lands outcome
  have kept := (Machine.wroteRam_of_write (leads.region (by decide)) outcome).rest
  constructor
  · rw [← psw, kept]
  · intro reg
    rw [← registers]
    change stored.reg reg = lowered.machine.reg reg
    rw [kept]
    rfl
  · have laid := Machine.overlaidBy_of_write leads outcome
    rwa [place, same.ram] at laid
  · rw [← place]
    exact Machine.readsRam_of_write lands outcome

/-- A word that can be read on the stack is popped. -/
theorem exists_steps_pop {place : PhysicalAddress} (dst : Reg)
    (top : before.machine.ReadsRam before.machine.psw.mode (before.reg .sp) .word place word) :
    ∃ after, Steps before (MicroOp.pop dst) after ∧ after.machine.psw = before.machine.psw ∧
      after.machine.ram = before.machine.ram ∧
      ∀ reg, after.reg reg =
        (if dst = reg then word else before.reg reg) + if .sp = reg then 2 else 0 := by
  have accessed := before.machine.accessed_read before.machine.psw.mode .read (before.reg .sp) .word
  have loads : before.machine.loadSelected (before.reg .sp) .word .data =
      (.ok word, (before.machine.read before.machine.psw.mode .read (before.reg .sp) .word).2) :=
    Prod.ext top.succeeds rfl
  let reached := (before.machine.read before.machine.psw.mode .read (before.reg .sp) .word).2
  let loaded : Datapath δ := { before with machine := reached.setReg dst word }
  let raised := ((MicroOp.step .sp 2).effect loaded).commit
  have first : before.Step (.load dst .sp .word .data) loaded := step_load loads
  have second : loaded.Step (.step .sp 2) raised := ⟨rfl, rfl⟩
  refine ⟨raised, .cons first (.single second), accessed.psw, accessed.ram, ?_⟩
  intro reg
  have kept : reached.reg reg = before.reg reg := by
    change reached.registers.get (reg.cell reached.psw) = _
    rw [accessed.registers, accessed.psw]
    rfl
  have moved := MicroOp.reg_commit_step .sp reg 2 loaded
  have copied : loaded.machine.reg reg = if dst = reg then word else before.reg reg := by
    rw [← kept]
    exact reached.reg_setReg dst reg word
  rw [copied] at moved
  exact moved

end Datapath

end Pdp11
