import StateProtocol.Clib.Process
import Mathlib.Data.Stream.Init

/-!
# A server process and its connection

`Proc` is what the operating system keeps for a process that serves one stream
connection: how many descriptors are open, what the peer has sent and not been
read, what has been put on the connection, and what the kernel will do with the
coming `write` calls.

An `Offer` is the kernel's answer to one call. `room k` takes as much of the
requested bytes as fits into `k + 1`, so every count from 1 to the requested one
is the answer to some offer; `fail` is the return value -1. A process that has
used up its offers is `blocked` in `write`: running against a longer and longer
prefix of a schedule shows what is on the connection at every moment.

`writeFromStart` is the retry loop as the servers have it: each call passes the
start of the buffer and its full size, whatever has been moved before.

One datagram is read by one call, which copies what fits into the buffer, drops
the rest and returns the number copied; one datagram is sent by one call, and
what gets sent gets sent.
-/

namespace StateProtocol.Clib

/-- The kernel's answer to one `write` call. -/
inductive Offer
  | room (k : Nat)
  | fail
deriving DecidableEq, Repr

/-- The call moves everything it is asked to. -/
def Offer.Whole (count : Nat) (o : Offer) : Prop := ∃ k, o = .room k ∧ count ≤ k + 1

structure Proc where
  /-- open descriptors -/
  fds : Nat
  /-- bytes of the peer that wait to be received, before its end of stream -/
  input : Bytes
  /-- the end of the stream is a receive error -/
  broken : Bool
  /-- bytes put on the connection -/
  sent : Bytes
  /-- what the kernel answers to the coming `write` calls -/
  offers : List Offer
deriving DecidableEq, Repr

/-- A server process that has just been started: the standard streams and its
socket are open. -/
def Proc.fresh : Proc := ⟨4, [], false, [], []⟩

/-! ## Receiving -/

inductive Received
  | byte (b : UInt8)
  | closed
  | error
deriving DecidableEq, Repr

/-- `recv(fd, &b, 1, 0)` -/
def recvByte : C Proc Received := fun p =>
  match p.input with
  | b :: bs => .ok (.byte b) { p with input := bs }
  | [] => .ok (if p.broken then .error else .closed) p

theorem recvByte_cons {p : Proc} {b : UInt8} {bs : Bytes} (h : p.input = b :: bs) :
    recvByte p = .ok (.byte b) { p with input := bs } := by simp [recvByte, h]

theorem recvByte_nil {p : Proc} (h : p.input = []) (hb : p.broken = false) :
    recvByte p = .ok .closed p := by simp [recvByte, h, hb]

/-- `n = recv(fd, &buff[i], 1, 0)` where an error ends the process: the buffer
with the byte, or nothing at the end of the stream. -/
def recvInto {n : Nat} (buff : List.Vector UInt8 n) (i : Nat) :
    C Proc (Option (List.Vector UInt8 n)) := do
  match ← recvByte with
  | .error => throw (.exit 1)
  | .closed => return none
  | .byte b =>
    let buff ← store buff i b
    return some buff

/-- A byte goes to the first free place of a cleared buffer. -/
theorem recvInto_cons {n : Nat} {pre bs : Bytes} {b : UInt8} {p : Proc} (h : p.input = b :: bs)
    (hn : pre.length < n) :
    recvInto (zeroPad n pre) pre.length p
      = .ok (some (zeroPad n (pre ++ [b]))) { p with input := bs } := by
  rw [recvInto, bind_of_ok (recvByte_cons h)]
  dsimp only
  rw [bind_of_ok (store_of_lt _ hn b _)]
  exact congrArg (fun v => EStateM.Result.ok (some v) _) (padTo_set hn b)

theorem recvInto_nil {n : Nat} {buff : List.Vector UInt8 n} {i : Nat} {p : Proc}
    (h : p.input = []) (hb : p.broken = false) : recvInto buff i p = .ok none p := by
  rw [recvInto, bind_of_ok (recvByte_nil h hb)]
  rfl

theorem recvInto_broken {n : Nat} {buff : List.Vector UInt8 n} {i : Nat} {p : Proc}
    (h : p.input = []) (hb : p.broken = true) : recvInto buff i p = .error (.exit 1) p := by
  rw [recvInto, bind_run, recvByte, h, hb]
  rfl

/-! ## Writing -/

/-- `write(fd, buf, |buf|)`: the number of bytes moved, or nothing for -1. -/
def write (buf : Bytes) : C Proc (Option Nat) := fun p =>
  match p.offers with
  | [] => .error .blocked p
  | .fail :: os => .ok none { p with offers := os }
  | .room k :: os =>
    .ok (some (min (k + 1) buf.length))
      { p with sent := p.sent ++ buf.take (k + 1), offers := os }

/-- `for (;;) { k = write(fd, buf, |buf|); if (k < 0) break; n += k; if (n == |buf|) break; }`
with `false` for the first exit. The `int` `n` is a number without a bound here; in C it
overflows, which is undefined, when the calls have moved 2³¹ bytes. -/
def restartLoop (buf : Bytes) : (calls n : Nat) → C Proc Bool
  | 0, _ => throw .blocked
  | calls + 1, n => do
    match ← write buf with
    | none => return false
    | some k =>
      -- the count can pass the length, and the loop then goes on
      if n + k = buf.length then return true
      else restartLoop buf calls (n + k)

/-- The loop with `n` bytes counted. Each call uses up an offer, so their
number bounds the calls. -/
def resumeAt (buf : Bytes) (n : Nat) : C Proc Bool := fun p =>
  restartLoop buf (p.offers.length + 1) n p

def writeFromStart (buf : Bytes) : C Proc Bool := resumeAt buf 0

theorem resumeAt_blocked {buf : Bytes} {n : Nat} {p : Proc} (h : p.offers = []) :
    resumeAt buf n p = .error .blocked p := by
  rw [resumeAt, restartLoop, bind_run, write, h]

theorem resumeAt_fail {buf : Bytes} {n : Nat} {p : Proc} {os : List Offer}
    (h : p.offers = .fail :: os) : resumeAt buf n p = .ok false { p with offers := os } := by
  rw [resumeAt, restartLoop, bind_run, write, h]
  rfl

theorem resumeAt_room {buf : Bytes} {n k : Nat} {p : Proc} {os : List Offer}
    (h : p.offers = .room k :: os) :
    resumeAt buf n p =
      if n + min (k + 1) buf.length = buf.length then
        .ok true { p with sent := p.sent ++ buf.take (k + 1), offers := os }
      else resumeAt buf (n + min (k + 1) buf.length)
        { p with sent := p.sent ++ buf.take (k + 1), offers := os } := by
  rw [resumeAt, restartLoop, bind_run, write, h]
  dsimp only
  split
  · rfl
  · rfl

/-- A buffer that the kernel takes whole is sent by one call. -/
theorem writeFromStart_whole {buf : Bytes} {p : Proc} {o : Offer} {os : List Offer}
    (h : p.offers = o :: os) (ho : o.Whole buf.length) :
    writeFromStart buf p = .ok true { p with sent := p.sent ++ buf, offers := os } := by
  obtain ⟨k, rfl, hk⟩ := ho
  rw [writeFromStart, resumeAt_room h, Nat.min_eq_right hk, if_pos (Nat.zero_add _),
    List.take_of_length_le hk]

/-! ## A kernel that takes every write whole -/

/-- At least `calls` answers, each with room for `size` bytes. -/
structure FullOffers (size calls : Nat) where
  offers : List Offer
  enough : calls ≤ offers.length
  whole : ∀ o ∈ offers, o.Whole size

namespace FullOffers

variable {size calls : Nat}

/-- What is left after one call. -/
def tail (os : FullOffers size (calls + 1)) : FullOffers size calls where
  offers := os.offers.tail
  enough := by
    rw [List.length_tail]
    have := os.enough
    omega
  whole o ho := os.whole o (List.mem_of_mem_tail ho)

theorem write {buf : Bytes} {p : Proc} (os : FullOffers size (calls + 1))
    (h : p.offers = os.offers) (hb : buf.length ≤ size) :
    Clib.write buf p
      = .ok (some buf.length) { p with sent := p.sent ++ buf, offers := os.tail.offers } := by
  have henough := os.enough
  obtain ⟨o, rest, hcons⟩ : ∃ o rest, os.offers = o :: rest := by
    apply List.exists_cons_of_length_pos
    omega
  obtain ⟨k, rfl, hk⟩ := os.whole o (hcons ▸ List.mem_cons_self ..)
  rw [Clib.write, h, hcons]
  dsimp only
  rw [Nat.min_eq_right (by omega), List.take_of_length_le (by omega)]
  simp [tail, hcons]

theorem writeFromStart {buf : Bytes} {p : Proc} (os : FullOffers size (calls + 1))
    (h : p.offers = os.offers) (hb : buf.length ≤ size) :
    Clib.writeFromStart buf p
      = .ok true { p with sent := p.sent ++ buf, offers := os.tail.offers } := by
  have henough := os.enough
  obtain ⟨o, rest, hcons⟩ : ∃ o rest, os.offers = o :: rest := by
    apply List.exists_cons_of_length_pos
    omega
  obtain ⟨k, rfl, hk⟩ := os.whole o (hcons ▸ List.mem_cons_self ..)
  rw [writeFromStart_whole (h.trans hcons) ⟨k, rfl, by omega⟩]
  simp [tail, hcons]

/-- The smallest such kernel. -/
def replicate (size calls : Nat) : FullOffers (size + 1) calls where
  offers := List.replicate calls (.room size)
  enough := by simp
  whole o ho := ⟨size, List.eq_of_mem_replicate ho, Nat.le_refl _⟩

end FullOffers

/-! ## Datagrams -/

/-- `n = recvfrom(fd, &buff, size, …)` into a cleared buffer: the buffer and
`n`. -/
def recvfrom (size : Nat) (datagram : Bytes) : List.Vector UInt8 size × Nat :=
  (zeroPad size datagram, min datagram.length size)

/-- `sendto(fd, &object, size, …)` for an object with the given memory image:
the datagram that leaves. -/
def sendto {σ : Type} (image : Bytes) (size : Nat) : C σ Bytes :=
  if size ≤ image.length then pure (image.take size) else throw .fault

theorem sendto_run {σ : Type} {image message : Bytes} (h : message <+: image) (s : σ) :
    sendto image message.length s = .ok message s := by
  rw [sendto, if_pos h.length_le, ← List.prefix_iff_eq_take.mp h]
  rfl

end StateProtocol.Clib
