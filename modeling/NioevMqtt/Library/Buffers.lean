-- SUMMARY: Buffers that are written to and released, and views of them.
import Mathlib.Logic.Function.Basic

/-!
# Buffers

A view names a part of a buffer and owns nothing: what it shows is what stands there when
it is read.
-/

namespace Buffers

variable {ι α : Type*}

/-- What every buffer contains; `none` is one that has been released. -/
abbrev Memory (ι α : Type*) := ι → Option (List α)

structure BufferView (ι : Type*) where
  buffer : ι
  offset : Nat
  length : Nat
deriving DecidableEq

namespace BufferView

/-- What the view shows of these contents, if they reach as far as it does. -/
def shows (v : BufferView ι) (contents : Option (List α)) : Option (List α) :=
  contents.bind fun bytes =>
    if v.offset + v.length ≤ bytes.length then some ((bytes.drop v.offset).take v.length) else none

def read (v : BufferView ι) (memory : Memory ι α) : Option (List α) := v.shows (memory v.buffer)

variable [DecidableEq ι] {v : BufferView ι} {memory : Memory ι α} {buffer : ι}
  {contents : Option (List α)}

/-- Other buffers are not looked at, nor other parts of this one. -/
theorem read_update (h : v.buffer = buffer → v.shows contents = v.read memory) :
    v.read (Function.update memory buffer contents) = v.read memory := by
  unfold read
  rw [Function.update_apply]
  split
  · next heq => exact h heq
  · rfl

end BufferView

end Buffers
