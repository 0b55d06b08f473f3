import StateProtocol.Clib.Process

/-!
# A process that accepts connections

The descriptors of a process that listens, and what the system will answer to
it: for every connection that comes in, whether `accept` gets a descriptor for
it, and if so, whether `fork` makes a child. The state is that of the parent, to
which `fork` returns -1 or the positive pid of the child. A process whose
arrivals are used up is `blocked` in `accept`, so its state then is what it has
open each time it gets back there.
-/

namespace StateProtocol.Clib

/-- The pid of a child. -/
abbrev Pid := { pid : Nat // 0 < pid }

/-- What the system makes of one connection: `child` is what `fork` comes to. -/
inductive Arrival
  | refused
  | connected (fd : Nat) (child : Option Pid)

/-- The connection gets a descriptor but no child. -/
def Arrival.Orphan : Arrival → Prop
  | .refused => False
  | .connected _ child => child = none

structure Listener where
  /-- open descriptors -/
  fds : List Nat
  coming : List Arrival
  /-- what the next `fork` comes to -/
  child : Option Pid

/-- `accept(sockfd, …)`: the new descriptor, or nothing for -1. -/
def accept : C Listener (Option Nat) := fun s =>
  match s.coming with
  | [] => .error .blocked s
  | .refused :: coming => .ok none { s with coming := coming }
  | .connected fd child :: coming =>
    .ok (some fd) ⟨fd :: s.fds, coming, child⟩

/-- `fork()` -/
def fork : C Listener Int := fun s =>
  .ok (s.child.elim (-1) fun pid => (pid.val : Int)) s

/-- `close(fd)` -/
def close (fd : Nat) : C Listener Unit := fun s =>
  .ok () { s with fds := s.fds.erase fd }

theorem accept_refused (fds : List Nat) (coming : List Arrival) (child : Option Pid) :
    accept ⟨fds, .refused :: coming, child⟩ = .ok none ⟨fds, coming, child⟩ := rfl

theorem accept_connected (fds : List Nat) (fd : Nat) (coming : List Arrival)
    (child next : Option Pid) :
    accept ⟨fds, .connected fd next :: coming, child⟩
      = .ok (some fd) ⟨fd :: fds, coming, next⟩ := rfl

theorem fork_failed (fds : List Nat) (coming : List Arrival) :
    fork ⟨fds, coming, none⟩ = .ok (-1) ⟨fds, coming, none⟩ := rfl

theorem fork_parent (fds : List Nat) (coming : List Arrival) (pid : Pid) :
    fork ⟨fds, coming, some pid⟩ = .ok (pid.val : Int) ⟨fds, coming, some pid⟩ := rfl

/-- A descriptor that has just been opened is closed again. -/
theorem close_first (fds : List Nat) (fd : Nat) (coming : List Arrival) (child : Option Pid) :
    close fd ⟨fd :: fds, coming, child⟩ = .ok () ⟨fds, coming, child⟩ := by
  rw [close, List.erase_cons_head]

end StateProtocol.Clib
