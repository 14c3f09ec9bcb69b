import Pdp11.Register.Core

/-!
# The register file

A register file holds one word for every cell. Reading a cell after writing
one gives the written word exactly when the two cells are the same.
-/

namespace Pdp11

/-- The contents of all cells. -/
structure RegisterFile where
  words : Vector Word 25
deriving DecidableEq

namespace RegisterFile

/-- Every cell holds zero. -/
def cleared : RegisterFile where
  words := Vector.replicate 25 0

/-- The word in `cell`. -/
def get (file : RegisterFile) (cell : Cell) : Word :=
  file.words[cell.index]

/-- The file after `value` is put into `cell`. -/
def set (file : RegisterFile) (cell : Cell) (value : Word) : RegisterFile where
  words := file.words.set cell.index value

@[simp]
theorem get_set (file : RegisterFile) (written read : Cell) (value : Word) :
    (file.set written value).get read = if written = read then value else file.get read := by
  simp only [get, set, Fin.getElem_fin, Vector.getElem_set, ← Cell.index_inj, Fin.ext_iff]

@[simp]
theorem get_cleared (cell : Cell) : cleared.get cell = 0 := by
  simp [get, cleared]

end RegisterFile

end Pdp11
