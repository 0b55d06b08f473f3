import StateProtocol.Clib.Transmit

/-!
# Computations that stay inside their objects

A computation is `Faultless` when no run of it ends in a fault, whatever the
state it starts in and whatever else may end it. The rules follow the way a
program is put together; a loop is an induction with the bound of its index as
the invariant, as `copyLoop` shows.
-/

namespace StateProtocol.Clib

/-- No run of `x` ends in a fault. -/
def Faultless {σ α : Type} (x : C σ α) : Prop := ∀ s t, x s ≠ .error .fault t

namespace Faultless

variable {σ α β : Type} {n : Nat}

theorem of_ok {x : C σ α} (h : ∀ s, ∃ a t, x s = .ok a t) : Faultless x := by
  intro s t hfault
  obtain ⟨a, u, hok⟩ := h s
  rw [hok] at hfault
  cases hfault

theorem pure (a : α) : Faultless (pure a : C σ α) := of_ok fun s => ⟨a, s, rfl⟩

theorem throw {e : Halt} (h : e ≠ .fault) : Faultless (throw e : C σ α) := by
  intro s t hfault
  cases hfault
  exact h rfl

/-- What follows need only be safe for the values that the first part returns. -/
theorem bind_of_returns {x : C σ α} {f : α → C σ β} (hx : Faultless x)
    (hf : ∀ {s a t}, x s = .ok a t → Faultless (f a)) : Faultless (x >>= f) := by
  intro s t hfault
  rw [bind_run] at hfault
  cases hrun : x s with
  | ok a u =>
    rw [hrun] at hfault
    exact hf hrun u t hfault
  | error e u =>
    rw [hrun] at hfault
    cases hfault
    exact hx s t hrun

theorem bind {x : C σ α} {f : α → C σ β} (hx : Faultless x) (hf : ∀ a, Faultless (f a)) :
    Faultless (x >>= f) :=
  hx.bind_of_returns fun {_ a _} _ => hf a

/-! ## Arrays -/

theorem load (v : List.Vector α n) {i : Nat} (h : i < n) : Faultless (Clib.load v i : C σ α) := by
  rw [Clib.load, dif_pos h]
  exact pure _

theorem store (v : List.Vector α n) {i : Nat} (h : i < n) (a : α) :
    Faultless (Clib.store v i a : C σ _) := by
  rw [Clib.store, dif_pos h]
  exact pure _

theorem copyLoop {src : Bytes} {count i : Nat} {dst : List.Vector UInt8 n}
    (hsrc : i + count ≤ src.length) (hn : i + count ≤ n) :
    Faultless (Clib.copyLoop src count i dst : C σ _) := by
  refine of_ok fun s => ?_
  obtain ⟨v, hv, -⟩ := copyLoop_run src count i dst s hsrc hn
  exact ⟨v, s, hv⟩

/-! ## System calls -/

theorem sendto {image : Bytes} {size : Nat} (h : size ≤ image.length) :
    Faultless (Clib.sendto image size : C σ Bytes) := by
  rw [Clib.sendto, if_pos h]
  exact pure _

theorem recvByte : Faultless Clib.recvByte := by
  intro p t hfault
  unfold Clib.recvByte at hfault
  split at hfault
  · cases hfault
  · cases hfault

theorem recvInto (buff : List.Vector UInt8 n) {i : Nat} (h : i < n) :
    Faultless (Clib.recvInto buff i) := by
  refine recvByte.bind fun received => ?_
  cases received with
  | error => exact throw (by decide)
  | closed => exact pure none
  | byte b => exact (store buff h b).bind fun buff => pure (some buff)

theorem write (buf : Bytes) : Faultless (Clib.write buf) := by
  intro p t hfault
  unfold Clib.write at hfault
  split at hfault
  · cases hfault
  · cases hfault
  · cases hfault

theorem restartLoop (buf : Bytes) (calls moved : Nat) :
    Faultless (Clib.restartLoop buf calls moved) := by
  induction calls generalizing moved with
  | zero => exact throw (by decide)
  | succ calls ih =>
    refine (write buf).bind fun k => ?_
    cases k with
    | none => exact pure false
    | some k =>
      dsimp only
      split
      · exact pure true
      · exact ih (moved + k)

theorem writeFromStart (buf : Bytes) : Faultless (Clib.writeFromStart buf) :=
  fun p t => restartLoop buf (p.offers.length + 1) 0 p t

theorem sendBlocks (bs : List Bytes) : Faultless (Clib.sendBlocks bs) := by
  induction bs with
  | nil => exact pure ()
  | cons b bs ih =>
    have hblock : Faultless (sendBlock b) := (writeFromStart b).bind fun _ => pure ()
    exact hblock.bind fun _ => ih

end Faultless

end StateProtocol.Clib
