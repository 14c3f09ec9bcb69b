import Mathlib.Data.List.Induction
import Pdp11.BranchPredictor

/-!
# Predictions from the history of branches

A slot holds the last branch that was resolved in it, so a predictor that started fresh
answers from the history of branches alone. It has foreseen a branch that went the way
of the one before it in the same slot.
-/

namespace Pdp11.BranchPredictor

/-- Branches share a slot if their addresses agree in bits 10 to 1. -/
def sharesSlot (first second : Word) : Bool :=
  first.extractLsb' 1 10 == second.extractLsb' 1 10

/-- The last branch of a history in the slot of `asked`; before the first one it counts
as not taken and goes nowhere. -/
def lastIn (history : List Entry) (asked : Word) : Entry :=
  (history.filter fun branch => sharesSlot branch.pc asked).getLast?.getD .empty

/-- The last branch in the slot of `branch` went the same way. -/
def foresees (history : List Entry) (branch : Entry) : Bool :=
  branch.taken == (lastIn history branch.pc).taken

/-- How many branches of a history were foreseen from what came before them. -/
def foreseen (history : List Entry) : Nat :=
  history.zipIdx.countP fun (branch, place) => foresees (history.take place) branch

/-- Learn the branches of a history, the oldest first. -/
def learnAll (predictor : BranchPredictor) (history : List Entry) : BranchPredictor :=
  history.foldl (fun predictor branch => predictor.learn branch.taken branch.pc branch.target)
    predictor

theorem slot_eq_iff {first second : Word} :
    slot first = slot second ↔ sharesSlot first second := by
  have slot_toNat (pc : Word) : (pc.extractLsb' 1 10).toNat = (slot pc).val := by
    rw [BitVec.extractLsb'_toNat, Nat.shiftRight_eq_div_pow]
    rfl
  rw [sharesSlot, beq_iff_eq, ← BitVec.toNat_inj, slot_toNat, slot_toNat, Fin.ext_iff]

/-! ## One more branch -/

section Learn

variable (predictor : BranchPredictor) (taken : Bool) (pc target : Word)

theorem hits_learn :
    (predictor.learn taken pc target).hits =
      predictor.hits + (taken == (predictor.entry pc).taken).toNat := by
  change (if (predictor.entry pc).taken = taken then predictor.hits + 1 else predictor.hits) = _
  split
  · rename_i same
    rw [same, beq_self_eq_true, Bool.toNat_true]
  · rename_i different
    rw [beq_eq_false_iff_ne.mpr (Ne.symm different), Bool.toNat_false, Nat.add_zero]

theorem hits_add_misses_learn :
    (predictor.learn taken pc target).hits + (predictor.learn taken pc target).misses =
      predictor.hits + predictor.misses + 1 := by
  change (if (predictor.entry pc).taken = taken then predictor.hits + 1 else predictor.hits) +
    (if (predictor.entry pc).taken = taken then predictor.misses else predictor.misses + 1) = _
  split <;> omega

end Learn

section Step

variable (history : List Entry) (branch : Entry)

theorem lastIn_append (asked : Word) :
    lastIn (history ++ [branch]) asked =
      if sharesSlot branch.pc asked then branch else lastIn history asked := by
  unfold lastIn
  rw [List.filter_append]
  by_cases shares : sharesSlot branch.pc asked
  · have kept : [branch].filter (fun branch => sharesSlot branch.pc asked) = [branch] :=
      List.filter_cons_of_pos shares
    rw [if_pos shares, kept, List.getLast?_concat]
    rfl
  · have dropped : [branch].filter (fun branch => sharesSlot branch.pc asked) = [] :=
      List.filter_cons_of_neg shares
    rw [if_neg shares, dropped, List.append_nil]

theorem foreseen_append :
    foreseen (history ++ [branch]) = foreseen history + (foresees history branch).toNat := by
  -- What came before an earlier branch is the same with one more branch behind it.
  have earlier : (history.zipIdx.countP fun (past, place) =>
      foresees ((history ++ [branch]).take place) past) = foreseen history := by
    apply List.countP_congr
    rintro ⟨past, place⟩ inside
    have before : place ≤ history.length := Nat.le_of_lt (List.snd_lt_of_mem_zipIdx inside)
    dsimp only
    rw [List.take_append_of_le_length before]
  have last : ([(branch, history.length)].countP fun (past, place) =>
      foresees ((history ++ [branch]).take place) past) = (foresees history branch).toNat := by
    rw [List.countP_singleton]
    simp only [List.take_left]
    cases foresees history branch <;> rfl
  rw [foreseen, List.zipIdx_append, List.countP_append, earlier, Nat.zero_add,
    List.zipIdx_singleton, last]

theorem learnAll_append (predictor : BranchPredictor) :
    predictor.learnAll (history ++ [branch]) =
      (predictor.learnAll history).learn branch.taken branch.pc branch.target := by
  rw [learnAll, List.foldl_append]
  rfl

end Step

/-! ## The whole history -/

theorem entry_learnAll (history : List Entry) (asked : Word) :
    (fresh.learnAll history).entry asked = lastIn history asked := by
  induction history using List.reverseRecOn with
  | nil => exact Vector.getElem_replicate _
  | append_singleton history branch ih =>
      rw [learnAll_append, entry_learn, lastIn_append, ih]
      simp only [slot_eq_iff]

theorem hits_learnAll (history : List Entry) :
    (fresh.learnAll history).hits = foreseen history := by
  induction history using List.reverseRecOn with
  | nil => rfl
  | append_singleton history branch ih =>
      rw [learnAll_append, hits_learn, entry_learnAll, foreseen_append, ih]
      rfl

theorem hits_add_misses_learnAll (history : List Entry) :
    (fresh.learnAll history).hits + (fresh.learnAll history).misses = history.length := by
  induction history using List.reverseRecOn with
  | nil => rfl
  | append_singleton history branch ih =>
      rw [learnAll_append, hits_add_misses_learn, ih, List.length_append, List.length_singleton]

/-- After any history of branches a fresh predictor holds in every slot the last branch
there, and has counted as hits those that went the way of the last one before them. -/
theorem predicts_from_history (history : List Entry) :
    let predictor := fresh.learnAll history
    (∀ asked, predictor.entry asked = lastIn history asked) ∧
      predictor.hits + predictor.misses = history.length ∧
      predictor.hits = foreseen history :=
  ⟨entry_learnAll history, hits_add_misses_learnAll history, hits_learnAll history⟩

end Pdp11.BranchPredictor
