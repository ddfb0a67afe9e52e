import Configurator.Request.Selection

/-!
# Reducing selections

The last selection of a list has the highest priority.  Reduction drops the
selections that a kept one of higher priority makes redundant.  A removal
that made an earlier selection redundant and has nothing left before it
cancels out as well, unless it is protected.
-/

namespace Configurator.Request

/--
A selection that was kept, and whether it made an earlier one redundant.
-/
structure Kept where
  selection : Selection
  shadows : Bool
  deriving DecidableEq

/--
Note that a candidate was dropped, if the kept selection makes it redundant.
-/
def Kept.shadow (kept : Kept) (candidate : Selection) : Kept :=
  if kept.selection.makesRedundant candidate then
    { kept with shadows := true }
  else kept

/-- Keep a candidate of lower priority than the kept ones, or drop it. -/
def consider (candidate : Selection) (kept : List Kept) : List Kept :=
  if kept.any fun entry => entry.selection.makesRedundant candidate then
    kept.map fun entry => entry.shadow candidate
  else ⟨candidate, false⟩ :: kept

/--
The selections that no kept one of higher priority makes redundant, in their
order.
-/
def survivors (selections : List Selection) : List Kept :=
  selections.foldr consider []

/-- Whether a removal cancels out when nothing is left before it. -/
def Kept.cancels (isProtected : Selection → Bool) (kept : Kept) : Bool :=
  kept.selection.action == .remove && kept.shadows &&
    !isProtected kept.selection

/--
The selections that have an effect, in their order; protected removals never
cancel out.
-/
def reduceWith
    (isProtected : Selection → Bool)
    (selections : List Selection) :
    List Selection :=
  ((survivors selections).dropWhile (Kept.cancels isProtected)).map
    Kept.selection

/-- The selections that have an effect, in their order. -/
def reduce (selections : List Selection) : List Selection :=
  reduceWith (fun _ => false) selections

end Configurator.Request
