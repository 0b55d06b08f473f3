import StateProtocol.Clib.Process
import Mathlib.Data.Stream.Init

/-!
# A socket that is to be bound

`Startup` is a process with an open socket and no address yet: which of its coming
`bind` calls will succeed, and which ports it has asked for. `htons` is seen from
both ends, so it is only the conversion to 16 bits; `htons_ofNat` is where that
loses nothing.
-/

namespace StateProtocol.Clib

structure Startup where
  /-- which of the coming `bind` calls succeed -/
  outcomes : Stream' Bool
  /-- whether `listen` will -/
  listens : Bool
  /-- the ports that have been asked for -/
  tried : List UInt16
  /-- the one that has been got -/
  bound : Option UInt16
  /-- lines on the standard error stream -/
  errors : List String

/-- The process when its socket has been opened. -/
def Startup.opened (outcomes : Stream' Bool) (listens : Bool) : Startup :=
  ⟨outcomes, listens, [], none, []⟩

/-- The port number in `htons(p)`. -/
def htons (p : Int32) : UInt16 := p.toUInt32.toUInt16

/-- `bind(sockfd, …) == 0`, for an address with the given port. -/
def bindPort (port : UInt16) : C Startup Bool := fun l =>
  .ok l.outcomes.head { l with
    outcomes := l.outcomes.tail
    tried := l.tried ++ [port]
    bound := if l.outcomes.head then some port else l.bound }

/-- `listen(sockfd, backlog)` -/
def listen : C Startup Bool := fun l => .ok l.listens l

/-- A line on the standard error stream. -/
def complain (line : String) : C Startup Unit := fun l =>
  .ok () { l with errors := l.errors ++ [line] }

theorem htons_ofNat {n : Nat} (h : n < 2 ^ 16) : (htons (Int32.ofNat n)).toNat = n := by
  rw [htons, Int32.toUInt32_ofNat', UInt32.toNat_toUInt16, UInt32.toNat_ofNat']
  omega

theorem bindPort_fails {port : UInt16} {l : Startup} (h : l.outcomes.head = false) :
    bindPort port l = .ok false
      { l with outcomes := l.outcomes.tail, tried := l.tried ++ [port] } := by
  rw [bindPort, h]
  rfl

theorem bindPort_succeeds {port : UInt16} {l : Startup} (h : l.outcomes.head = true) :
    bindPort port l = .ok true
      { l with outcomes := l.outcomes.tail, tried := l.tried ++ [port], bound := some port } := by
  rw [bindPort, h]
  rfl

end StateProtocol.Clib
