/-!
# Faults

A computation over machine words, matrices and texts can end without any
answer: a number leaves the word range, an index leaves a matrix, a vector
has the wrong length, or a text is cut inside a character.  `Fault` names
these ends.  They are kept apart from `Error`, which describes a request
that was understood and refused.
-/

namespace Configurator

/-- Why a computation ends without an answer. -/
inductive Fault where
  /-- A result lies outside the range of a machine word. -/
  | overflow
  /-- An index points outside the list or matrix it indexes. -/
  | outOfRange
  /-- A vector does not have one entry for each column. -/
  | lengthMismatch
  /--
  A text is shorter than the piece taken from it, or is cut inside a
  character.
  -/
  | brokenText
  deriving DecidableEq, Repr

end Configurator
