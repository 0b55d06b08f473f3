import StateProtocol.Clib.Disk
import StateProtocol.Clib.Socket

/-!
# A client process

A client has a connection, files and a standard output. Unlike the servers it
asks for many bytes at a time, so the kernel chooses how many of them a call of
`recv` hands out: `chunks` is that choice, one number for every call, of which
any split of the stream into positive counts is a case.

`received` is how much has arrived after so many calls that ask for the same
number of bytes each. `storeFrom` is what a call does to the memory behind a
pointer, and faults where that is not inside the object.
-/

namespace StateProtocol.Clib

structure Client where
  proc : Proc
  /-- the kernel's choice at each coming `recv` -/
  chunks : Stream' Nat
  disk : Disk
  /-- the standard output -/
  printed : Bytes

/-- A client that has connected to a peer which will send `input`. -/
def Client.started (input : Bytes) (offers : List Offer) (chunks : Stream' Nat) (disk : Disk) :
    Client where
  proc := ⟨4, input, false, [], offers⟩
  chunks := chunks
  disk := disk
  printed := []

variable {σ α : Type}

/-! ## Calls that touch one part of a client -/

def onConnection (x : C Proc α) : C Client α := fun c =>
  match x c.proc with
  | .ok a p => .ok a { c with proc := p }
  | .error e p => .error e { c with proc := p }

def onFiles (x : C Disk α) : C Client α := fun c =>
  match x c.disk with
  | .ok a d => .ok a { c with disk := d }
  | .error e d => .error e { c with disk := d }

/-- Text on the standard output. -/
def print (text : Bytes) : C Client Unit := fun c =>
  .ok () { c with printed := c.printed ++ text }

theorem print_run (text : Bytes) (c : Client) :
    print text c = .ok () { c with printed := c.printed ++ text } := rfl

theorem onConnection_of_ok {x : C Proc α} {c : Client} {a : α} {p : Proc}
    (h : x c.proc = .ok a p) : onConnection x c = .ok a { c with proc := p } := by
  rw [onConnection, h]

/-- The connection is all that such a call can change. -/
theorem onConnection_eq_ok {x : C Proc α} {c d : Client} {a : α}
    (h : onConnection x c = .ok a d) : ∃ p, x c.proc = .ok a p ∧ d = { c with proc := p } := by
  unfold onConnection at h
  split at h
  next b p hx =>
    cases h
    exact ⟨p, hx, rfl⟩
  next => cases h

theorem onFiles_of_ok {x : C Disk α} {c : Client} {a : α} {d : Disk}
    (h : x c.disk = .ok a d) : onFiles x c = .ok a { c with disk := d } := by
  rw [onFiles, h]

/-! ## Receiving -/

/-- The client when a call has handed out `k` bytes. -/
def Client.take (c : Client) (k : Nat) : Client :=
  { c with proc := { c.proc with input := c.proc.input.drop k }, chunks := c.chunks.tail }

/-- The client when `input` is left of the stream. -/
def Client.withInput (c : Client) (input : Bytes) : Client :=
  { c with proc := { c.proc with input := input } }

/-- The client when everything has been handed out. -/
def Client.drained (c : Client) (chunks : Stream' Nat) : Client :=
  { c with proc := { c.proc with input := [] }, chunks := chunks }

theorem Client.take_eq_drained {c : Client} {k : Nat} (h : c.proc.input.drop k = []) :
    c.take k = c.drained c.chunks.tail := by
  rw [take, drained, h]

/-- `recv(fd, …, count, 0)`: the bytes that are handed out, none at the end of the
stream, or nothing for -1. -/
def recv (count : Nat) : C Client (Option Bytes) := fun c =>
  if c.proc.input = [] ∧ c.proc.broken = true then .ok none c
  else
    let k := min (c.chunks.head + 1) count
    .ok (some (c.proc.input.take k)) (c.take k)

theorem recv_run {c : Client} (count : Nat) (h : ¬(c.proc.input = [] ∧ c.proc.broken = true)) :
    recv count c = .ok (some (c.proc.input.take (min (c.chunks.head + 1) count)))
      (c.take (min (c.chunks.head + 1) count)) := if_neg h

theorem recv_broken {c : Client} (count : Nat) (h : c.proc.input = [] ∧ c.proc.broken = true) :
    recv count c = .ok none c := if_pos h

/-- How many of `avail` bytes have arrived after a number of calls for `count`
bytes. -/
def received (count avail : Nat) (chunks : Stream' Nat) : (calls : Nat) → Nat
  | 0 => 0
  | calls + 1 =>
    received count avail chunks calls
      + min (min (chunks.get calls + 1) count) (avail - received count avail chunks calls)

section

variable (count avail : Nat) (chunks : Stream' Nat)

theorem received_le_succ (j : Nat) :
    received count avail chunks j ≤ received count avail chunks (j + 1) := Nat.le_add_right _ _

theorem received_mono : Monotone (received count avail chunks) :=
  monotone_nat_of_le_succ (received_le_succ count avail chunks)

theorem received_le (j : Nat) : received count avail chunks j ≤ avail := by
  induction j with
  | zero => exact Nat.zero_le avail
  | succ j ih =>
    rw [received]
    omega

/-- No call hands out more than it is asked for. -/
theorem received_succ_le (j : Nat) :
    received count avail chunks (j + 1) ≤ received count avail chunks j + count := by
  rw [received]
  omega

variable {count avail chunks} in
/-- A call that hands out nothing is at the end of the stream, unless it was not
asked for anything. -/
theorem received_stop {j k : Nat} (hcount : 0 < count) (hjk : j ≤ k)
    (h : received count avail chunks (j + 1) = received count avail chunks j) :
    received count avail chunks (k + 1) = received count avail chunks k := by
  have hend : received count avail chunks j = avail := by
    have hle := received_le count avail chunks j
    rw [received] at h
    omega
  have hk := received_mono count avail chunks hjk
  have hk' := received_le count avail chunks (k + 1)
  have hstep := received_le_succ count avail chunks k
  omega

end

/-! ## Memory behind a pointer -/

/-- The string in a buffer, as `printf("%s")` reads it. -/
def loadString {n : Nat} (buff : List.Vector UInt8 n) : C σ CString :=
  if 0 ∈ buff.toList then pure (cstr buff.toList) else throw .fault

/-- `bs` put at `buff + i`, for any `int` i. -/
def storeFrom {n : Nat} (buff : List.Vector UInt8 n) (i : Int) :
    Bytes → C σ (List.Vector UInt8 n)
  | [] => pure buff
  | b :: bs => do
    if i < 0 then throw .fault
    else
      let buff ← store buff i.toNat b
      storeFrom buff (i + 1) bs

/-- Bytes that fit go to the first free place of a cleared buffer. -/
theorem storeFrom_run {n : Nat} (bs : Bytes) : ∀ (pre : Bytes) (s : σ), pre.length + bs.length ≤ n →
    storeFrom (zeroPad n pre) pre.length bs s = .ok (zeroPad n (pre ++ bs)) s := by
  induction bs with
  | nil =>
    intro pre s _
    rw [List.append_nil]
    rfl
  | cons b bs ih =>
    intro pre s h
    rw [List.length_cons] at h
    have hset : (store (zeroPad n pre) pre.length b : C σ _) s
        = .ok (zeroPad n (pre ++ [b])) s := by
      rw [store_of_lt _ (by omega) b s]
      exact congrArg (fun v => EStateM.Result.ok v s) (padTo_set (by omega) b)
    have hrest := ih (pre ++ [b]) s (by simp; omega)
    rw [List.length_append, List.length_singleton, Int.natCast_add] at hrest
    rw [storeFrom, if_neg (by omega), Int.toNat_natCast, bind_of_ok hset,
      List.append_cons pre b bs]
    exact hrest

/-- Others do not. -/
theorem storeFrom_fault {n : Nat} (bs : Bytes) : ∀ (buff : List.Vector UInt8 n) (i : Int) (s : σ),
    bs ≠ [] → (i < 0 ∨ n < i + bs.length) → storeFrom buff i bs s = .error .fault s := by
  induction bs with
  | nil =>
    intro buff i s h _
    exact absurd rfl h
  | cons b bs ih =>
    intro buff i s _ h
    rw [List.length_cons, Int.natCast_add] at h
    rw [storeFrom]
    by_cases hneg : i < 0
    · rw [if_pos hneg]
      rfl
    · rw [if_neg hneg]
      by_cases hin : i.toNat < n
      · have hne : bs ≠ [] := by
          rintro rfl
          rw [List.length_nil] at h
          omega
        rw [bind_of_ok (store_of_lt buff hin b s)]
        exact ih _ (i + 1) s hne (by omega)
      · exact bind_of_error (store_of_ge buff (Nat.not_lt.mp hin) b s)

/-- There is no third way. -/
theorem storeFrom_ends {n : Nat} (bs : Bytes) : ∀ (buff : List.Vector UInt8 n) (i : Int) (s : σ),
    (∃ v, storeFrom buff i bs s = .ok v s) ∨ storeFrom buff i bs s = .error .fault s := by
  induction bs with
  | nil =>
    intro buff i s
    exact Or.inl ⟨buff, rfl⟩
  | cons b bs ih =>
    intro buff i s
    rw [storeFrom]
    by_cases hneg : i < 0
    · rw [if_pos hneg]
      exact Or.inr rfl
    · rw [if_neg hneg]
      by_cases hin : i.toNat < n
      · rw [bind_of_ok (store_of_lt buff hin b s)]
        exact ih _ (i + 1) s
      · exact Or.inr (bind_of_error (store_of_ge buff (Nat.not_lt.mp hin) b s))

end StateProtocol.Clib
