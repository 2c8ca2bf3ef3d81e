/-!
# Pace

A host runs at a number of frames per second. Each frame has the same share of a second, and what
it does not use is waited out; at a rate of zero there is nothing to wait for.
-/

namespace Stagehand

/-- A number of nanoseconds. -/
abbrev Nanoseconds := Nat

/-- A second. -/
def second : Nanoseconds := 1000000000

/-- A clock that frames are measured with: when it was started, and when the last frame began. -/
structure Pace where
  start : Nanoseconds
  last : Nanoseconds
  budget : Nanoseconds
  delta : Nanoseconds := 0
  deriving DecidableEq, Repr

namespace Pace

/-- The share of a second that a frame has. -/
def budgetOf (rate : Nat) : Nanoseconds := second / rate

/-- A clock started now. -/
def starting (rate : Nat) (now : Nanoseconds) : Pace := ⟨now, now, budgetOf rate, 0⟩

/-- A frame begins. -/
def tick (p : Pace) (now : Nanoseconds) : Pace := { p with delta := now - p.last, last := now }

/-- What is left of the frame's share. -/
def remaining (p : Pace) (now : Nanoseconds) : Nanoseconds := p.budget - (now - p.last)

/-- The time from the start to the beginning of the last frame. -/
def elapsed (p : Pace) : Nanoseconds := p.last - p.start

end Pace
end Stagehand
