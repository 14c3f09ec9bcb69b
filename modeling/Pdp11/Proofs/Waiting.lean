import Pdp11.Proofs.ExceptionChoice
import Pdp11.Proofs.Restart

/-!
# What ends a wait

A machine that waits goes on when the handler of an interrupt is entered. The
handler of a trap is entered without an end to the wait, so the machine stands
at the handler and polls its devices until one asks for service again.
-/

namespace Pdp11

universe u

variable {δ : Type u} [Bus δ]

namespace Machine

variable {machine after : Machine δ} {vector : Word}

/-- The run state after an exception is served, when `machine` was waiting. -/
theorem runState_of_service_of_waiting (waiting : machine.runState = .waiting)
    (served : machine.service = (.ok (some vector), after)) :
    after.runState = if machine.traps.any then .waiting else .running := by
  cases first : machine.traps.first? with
  | some kind =>
      have pending : machine.traps.any = true := by
        apply Bool.of_not_eq_false
        intro empty
        rw [TrapSet.first?_eq_none_iff.mpr empty] at first
        contradiction
      rcases acknowledge?_of_first? first with ⟨acknowledged, chosen, -, -, control⟩
      rcases entered_of_service chosen served with ⟨-, -, entered⟩
      rw [if_pos pending, (control.trans entered).runState, waiting]
  | none =>
      have empty := TrapSet.first?_eq_none_iff.mp first
      cases strongest : machine.requests.strongestAbove? machine.psw.priority.toNat with
      | some line =>
          rcases acknowledge?_of_strongestAbove? first strongest with
            ⟨acknowledged, chosen, -, -, -, woken⟩
          rcases entered_of_service chosen served with ⟨-, -, entered⟩
          rw [entered.runState, woken, if_pos waiting, empty]
          rfl
      | none =>
          rw [service, acknowledge?_eq_none_iff.mpr ⟨first, strongest⟩] at served
          simp at served

/-- With no request above the priority a machine that waits only polls. -/
theorem step_of_masked (waiting : machine.runState = .waiting)
    (masked : ∀ line, machine.poll.requests.contains line →
      line.level ≤ machine.psw.priority.toNat) :
    machine.step = (.ok .waiting, machine.poll) := by
  have unasked : machine.poll.requests.strongestAbove? machine.poll.psw.priority.toNat = none :=
    InterruptRequests.strongestAbove?_eq_none_iff.mpr masked
  rw [step, waiting]
  dsimp only
  rw [await, unasked]
  rfl

/-- A handler that is entered from a wait runs if and only if no trap was
pending. Otherwise the machine goes on waiting, and while the devices ask for
nothing above the priority of the handler, its first instruction is not
fetched. -/
theorem running_iff_of_service_of_waiting (waiting : machine.runState = .waiting)
    (served : machine.service = (.ok (some vector), after)) :
    (after.runState = .running ↔ machine.traps.any = false) ∧
    (machine.traps.any = false → after.step = after.cycle) ∧
    (machine.traps.any →
      after.runState = .waiting ∧ after.step = after.await ∧
        ((∀ line, after.poll.requests.contains line → line.level ≤ after.psw.priority.toNat) →
          after.step = (.ok .waiting, after.poll))) := by
  have runState := runState_of_service_of_waiting waiting served
  cases pending : machine.traps.any with
  | false =>
      rw [pending] at runState
      have running : after.runState = .running := runState
      constructor
      · exact iff_of_true running rfl
      constructor
      · intro
        rw [step, running]
      · intro trapped
        contradiction
  | true =>
      rw [pending] at runState
      have still : after.runState = .waiting := runState
      constructor
      · rw [still]
        simp
      constructor
      · intro untrapped
        contradiction
      · intro
        constructor
        · exact still
        constructor
        · rw [step, still]
        · exact step_of_masked still

/-- A traced `WAIT`, with the handler of the trace trap at 20. -/
def tracedWait : Machine NoDevices :=
  { ofConfig Config.default .none with
    registers := RegisterFile.cleared.set (.stackPointer .kernel) 24
    psw := .ofBits 0o20
    ram :=
      { bytes := #[1, 0, 0, 0, 0, 0, 0, 0, 0, 0, 0, 0, 0o20, 0, 0o340, 0, 0, 0, 0, 0, 0, 0, 0,
          0] } }

/-- The handler of the trace trap is entered, and the machine waits in front of
it. -/
theorem waiting_tracedWait :
    ∃ after, tracedWait.step = (.ok (.trapped 0o14), after) ∧ after.pc = 0o20 ∧
      after.runState = .waiting ∧ after.step = (.ok .waiting, after.poll) := by
  have waiting : tracedWait.beforeService.runState = .waiting := rfl
  have served : tracedWait.beforeService.service =
      (.ok (some 0o14), tracedWait.beforeService.service.2) := Prod.ext rfl rfl
  rcases running_iff_of_service_of_waiting waiting served with ⟨-, -, stays⟩
  rcases stays rfl with ⟨still, -, onlyPolls⟩
  refine ⟨tracedWait.beforeService.service.2, rfl, rfl, still, onlyPolls ?_⟩
  intro line asks
  have quiet : tracedWait.beforeService.service.2.poll.requests = .none := rfl
  rw [quiet] at asks
  simp [InterruptRequests.contains, InterruptRequests.none] at asks

end Machine

end Pdp11
