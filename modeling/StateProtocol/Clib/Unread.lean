import StateProtocol.Clib.Transmit

/-!
# Computations that do not read

`Unread x` says that `x` leaves what the peer has sent alone and does not depend on
it: with other bytes waiting it does the same, and they wait afterwards. Writing
is of this kind, so what the peer sees of it (`observed`) is the same for all
bytes that have not been read.
-/

namespace StateProtocol.Clib

variable {α β : Type}

/-- What the peer sees of a run: how it ended, if it did not return, and what is on
the connection. -/
def observed : EStateM.Result Halt Proc α → Option Halt × Bytes
  | .ok _ q => (none, q.sent)
  | .error e q => (some e, q.sent)

/-- The run, with other bytes waiting at its end. -/
def leaving (input : Bytes) : EStateM.Result Halt Proc α → EStateM.Result Halt Proc α
  | .ok a q => .ok a { q with input := input }
  | .error e q => .error e { q with input := input }

@[simp] theorem observed_leaving (input : Bytes) (r : EStateM.Result Halt Proc α) :
    observed (leaving input r) = observed r := by cases r <;> rfl

def Unread (x : C Proc α) : Prop :=
  ∀ (p : Proc) (input : Bytes), x { p with input := input } = leaving input (x p)

theorem Unread.observed_eq {x : C Proc α} (h : Unread x) (p : Proc) (input input' : Bytes) :
    observed (x { p with input := input }) = observed (x { p with input := input' }) := by
  rw [h p input, h p input', observed_leaving, observed_leaving]

namespace Unread

protected theorem pure (a : α) : Unread (pure a : C Proc α) := fun _ _ => rfl

protected theorem throw (e : Halt) : Unread (throw e : C Proc α) := fun _ _ => rfl

protected theorem bind {x : C Proc α} {f : α → C Proc β} (hx : Unread x)
    (hf : ∀ a, Unread (f a)) : Unread (x >>= f) := by
  intro p input
  rw [bind_run, bind_run, hx]
  cases x p with
  | ok a q => exact hf a q input
  | error e q => rfl

theorem write (buf : Bytes) : Unread (Clib.write buf) := by
  rintro ⟨fds, waiting, broken, sent, offers⟩ input
  cases offers with
  | nil => rfl
  | cons o os => cases o <;> rfl

theorem restartLoop (buf : Bytes) : ∀ calls n : Nat, Unread (Clib.restartLoop buf calls n)
  | 0, _ => Unread.throw _
  | calls + 1, n => by
    refine (write buf).bind fun k => ?_
    cases k with
    | none => exact Unread.pure _
    | some k =>
      dsimp only
      split
      · exact Unread.pure _
      · exact restartLoop buf calls (n + k)

theorem sendBlock (b : Bytes) : Unread (Clib.sendBlock b) :=
  Unread.bind (fun p input => restartLoop b (p.offers.length + 1) 0 p input) fun _ => Unread.pure _

theorem sendBlocks : ∀ bs : List Bytes, Unread (Clib.sendBlocks bs)
  | [] => Unread.pure _
  | b :: bs => (sendBlock b).bind fun _ => sendBlocks bs

end Unread

end StateProtocol.Clib
