import Pdp11.Word

/-!
# Branch prediction

The predictor remembers, for each of 1024 slots, the last branch resolved
there and whether it was taken. Branches whose addresses agree in bits 10 to 1
share a slot. Nothing in the processor acts on a prediction; only the counts
of right and wrong ones depend on it.
-/

namespace Pdp11

namespace BranchPredictor

/-- How many branches are remembered at most. -/
def slots : Nat := 1024

/-- The branch that a slot last saw. -/
structure Entry where
  pc : Word
  target : Word
  taken : Bool
deriving DecidableEq

/-- What a slot holds before it has seen a branch: one to zero, not taken. -/
def Entry.empty : Entry where
  pc := 0
  target := 0
  taken := false

end BranchPredictor

/-- The slots, and how often they foretold a branch rightly and wrongly. -/
structure BranchPredictor where
  entries : Vector BranchPredictor.Entry BranchPredictor.slots
  hits : Nat
  misses : Nat
deriving DecidableEq

namespace BranchPredictor

/-- A predictor that has seen no branch. -/
def fresh : BranchPredictor where
  entries := Vector.replicate slots .empty
  hits := 0
  misses := 0

/-- The slot of the branch at `pc`; the lowest bit of the address plays no part. -/
def slot (pc : Word) : Fin slots :=
  ⟨pc.toNat / 2 % slots, Nat.mod_lt _ (by decide)⟩

/-- What the predictor remembers of the branch at `pc`, or of
one that shares its slot. -/
def entry (predictor : BranchPredictor) (pc : Word) : Entry :=
  predictor.entries[slot pc]

/-- Learn that the branch at `pc` to `target` was taken or not, and count
whether its slot had predicted so. -/
def learn (predictor : BranchPredictor) (taken : Bool) (pc target : Word) : BranchPredictor :=
  let foreseen := (predictor.entry pc).taken = taken
  { entries := predictor.entries.set (slot pc) { pc, target, taken }
    hits := if foreseen then predictor.hits + 1 else predictor.hits
    misses := if foreseen then predictor.misses else predictor.misses + 1 }

/-- The share of right predictions, zero before the first branch. -/
def accuracy (predictor : BranchPredictor) : Float :=
  if predictor.hits + predictor.misses = 0 then
    0.0
  else
    Float.ofNat predictor.hits / Float.ofNat (predictor.hits + predictor.misses)

@[simp]
theorem entry_learn (predictor : BranchPredictor) (taken : Bool) (pc target asked : Word) :
    (predictor.learn taken pc target).entry asked =
      if slot pc = slot asked then { pc, target, taken } else predictor.entry asked := by
  simp only [entry, learn, Fin.getElem_fin, Vector.getElem_set, Fin.ext_iff]

end BranchPredictor

end Pdp11
