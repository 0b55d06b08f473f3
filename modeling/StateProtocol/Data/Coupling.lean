import StateProtocol.Clib.Coupled
import StateProtocol.Data.Fields

/-!
# Two processes that use the data library

`Couples lib R` says that the calls of `lib` do not tell related processes apart.
The relation has a budget: `R n` is for processes with `n` text lookups ahead of
them, and each takes one off. The library on the files does so for processes that
differ in their descriptors, as long as neither runs out of them
(`onDisk_spare`), and for processes that differ in their input (`onDisk_apart`).
-/

namespace StateProtocol.Data

open StateProtocol.Clib

structure Couples (lib : DataUtils Proc) (R : Nat → Proc → Proc → Prop) : Prop where
  unseen : ∀ n, Unseen (R n)
  less : ∀ n p q, R (n + 1) p q → R n p q
  findData : ∀ n char1 char2 index,
    Coupled (R (n + 1)) (R n) (R 0) (lib.findData char1 char2 index)
  loadGif : ∀ n char1 char2, Coupled (R (n + 1)) (R (n + 1)) (R 0) (lib.loadGif char1 char2)
  saveGif : ∀ n char1 char2 buffer,
    Coupled (R (n + 1)) (R (n + 1)) (R 0) (lib.saveGif char1 char2 buffer)

theorem Couples.mono {lib : DataUtils Proc} {R : Nat → Proc → Proc → Prop} (h : Couples lib R)
    {m n : Nat} (hle : m ≤ n) : ∀ p q, R n p q → R m p q := by
  induction hle with
  | refl => exact fun _ _ hr => hr
  | step _ ih => exact fun p q hr => ih p q (h.less _ p q hr)

/-- It is the opcode and the string that decide what is cut off. -/
theorem cutLast_coupled {P E : Proc → Proc → Prop} (hE : ∀ p q, P p q → E p q) (opcode : UInt8)
    (data : CString) : Coupled P P E (cutLast opcode data) := by
  unfold cutLast
  split
  · split
    · exact Coupled.throw _ hE
    · exact Coupled.pure _
  · exact Coupled.pure _

/-! ## Different descriptors -/

section Spare

variable {host : Host}

theorem findData_spare (n : Nat) (char1 char2 : UInt8) (index : Nat) :
    Coupled (Spare host.maxFds (n + 1)) (Spare host.maxFds n) (Spare host.maxFds 0)
      (findData host char1 char2 index) := by
  intro p q h
  have hp : p.fds < host.maxFds := by have := h.left; omega
  have hq : q.fds < host.maxFds := by have := h.right; omega
  have hopened : Spare host.maxFds n { p with fds := p.fds + 1 } { q with fds := q.fds + 1 } := by
    refine ⟨by rw [h.same], ?_, ?_⟩
    · exact (Nat.add_right_comm _ _ _).trans_le h.left
    · exact (Nat.add_right_comm _ _ _).trans_le h.right
  cases hdb : host.statedb with
  | none =>
    rw [findData_missing hdb, findData_missing hdb]
    exact Alike.error _ (h.mono (Nat.zero_le _))
  | some db =>
    rw [findData_run hdb hp, findData_run hdb hq]
    cases findIn db char1 char2 index with
    | error halt => exact Alike.error halt (hopened.mono (Nat.zero_le n))
    | ok data => exact Alike.ok data hopened

theorem loadGif_spare (n : Nat) (char1 char2 : UInt8) :
    Coupled (Spare host.maxFds (n + 1)) (Spare host.maxFds (n + 1)) (Spare host.maxFds 0)
      (loadGif host char1 char2) := by
  intro p q h
  rw [loadGif_run (Nat.lt_of_lt_of_le (by omega) h.left),
    loadGif_run (Nat.lt_of_lt_of_le (by omega) h.right)]
  exact Alike.ok _ h

theorem saveGif_run {p : Proc} (h : p.fds < host.maxFds) : saveGif host p = .ok () p := by
  rw [saveGif, bind_of_ok (fopen_run h)]
  rfl

theorem saveGif_spare (n : Nat) :
    Coupled (Spare host.maxFds (n + 1)) (Spare host.maxFds (n + 1)) (Spare host.maxFds 0)
      (saveGif host) := by
  intro p q h
  rw [saveGif_run (Nat.lt_of_lt_of_le (by omega) h.left),
    saveGif_run (Nat.lt_of_lt_of_le (by omega) h.right)]
  exact Alike.ok _ h

/-- **Descriptors do not matter** to a process that has enough of them. -/
theorem onDisk_spare (host : Host) : Couples (onDisk host) (Spare host.maxFds) where
  unseen := Spare.unseen host.maxFds
  less _ _ _ h := h.mono (Nat.le_succ _)
  findData := findData_spare
  loadGif := loadGif_spare
  saveGif n _ _ _ := saveGif_spare n

end Spare

/-! ## Different input -/

section Apart

variable {host : Host}

theorem fopen_apart (file : Option Bytes) : Coupled Apart Apart Apart (fopen host file) := by
  intro p q h
  have hfds : q.fds = p.fds := by rw [show q = _ from h]
  unfold fopen
  rw [hfds]
  split
  · cases file with
    | none => exact Alike.ok _ h
    | some data => exact Alike.ok _ (by rw [Apart, show q = _ from h])
  · exact Alike.ok _ h

theorem fclose_apart : Coupled Apart Apart Apart fclose := by
  intro p q h
  exact Alike.ok _ (by rw [Apart, show q = _ from h])

/-- **What the peer has still to say does not matter**: the library does not read
it. -/
theorem onDisk_apart (host : Host) : Couples (onDisk host) (fun _ => Apart) where
  unseen _ := Apart.unseen
  less _ _ _ h := h
  findData _ char1 char2 index := by
    refine (fopen_apart host.statedb).bind fun file => ?_
    cases file with
    | none => exact Coupled.throw _ fun _ _ h => h
    | some db =>
      dsimp only
      cases findIn db char1 char2 index with
      | error halt => exact Coupled.throw _ fun _ _ h => h
      | ok data => exact Coupled.pure _
  loadGif _ char1 char2 := by
    refine (fopen_apart _).bind fun file => ?_
    cases file with
    | none => exact Coupled.pure _
    | some data => exact fclose_apart.bind fun _ => Coupled.pure _
  saveGif _ _ _ _ := by
    refine (fopen_apart _).bind fun file => ?_
    cases file with
    | none => exact Coupled.throw _ fun _ _ h => h
    | some _ => exact fclose_apart

end Apart

end StateProtocol.Data
