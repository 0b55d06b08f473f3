import StateProtocol.Data.Saving
import StateProtocol.V2.Grammar
import StateProtocol.V2.Served
import Mathlib.Algebra.GroupWithZero.Nat

/-!
# The copy that comes before the flag

The TCP server logs a response before it writes it, and for a response with a flag
that means a copy under the name of `tt.gif`. Whether the client gets anything
then hangs on that file (`flag_copied`): if it cannot be created the process exits,
and if `fwrite` does not take as many bytes as the flag has the loop goes on with
it. The copy itself may be spoilt. Responses without a flag do not depend on the
disk.
-/

namespace StateProtocol.V2

open StateProtocol.Clib StateProtocol.Data

/-- `save_gif` in a server process, on a disk that decides about its calls. -/
def saveOn (host : Host) (d : Disk) (char1 char2 : UInt8) (buffer : Bytes) : C Proc Unit := do
  let filename := Local.constructLocalGifFilename char1 char2
  match ← fopen host (if d.writable filename then some [] else none) with
  | none => throw (.exit 1)
  | some _ =>
    match Local.saveLoop filename buffer (Int32.ofNat buffer.length) (d.counts.length + 1) 0
      (d.put filename []) with
    | .ok _ _ => fclose
    | .error halt _ => throw halt

/-- The data library of a server on that disk. -/
def copying (host : Host) (d : Disk) : DataUtils Proc :=
  { onDisk host with saveGif := saveOn host d }

/-! ## The loop -/

/-- What the calls take in all. -/
def taken (size : Nat) (counts : List Nat) : Nat := (counts.map (min · size)).sum

/-- The loop returns when the counts add up to the length, and otherwise it goes on. -/
theorem loop_taken (pic : Local.Picture) (name : Bytes) (hint : 2 * pic.len < 2 ^ 31) :
    ∀ (counts : List Nat) (total : Nat) (d : Disk), d.counts = counts → total < pic.len →
      if pic.len ≤ total + taken pic.len counts then
        ∃ q, pic.loop name (Int32.ofNat total) d = .ok () q
      else ∃ q, pic.loop name (Int32.ofNat total) d = .error .blocked q := by
  intro counts
  induction counts with
  | nil =>
    intro total d hd hlt
    have hnil : ¬pic.len ≤ total + taken pic.len [] := Nat.not_le.mpr hlt
    rw [if_neg hnil]
    exact ⟨d, Local.loop_blocked pic hd⟩
  | cons k ks ih =>
    intro total d hd hlt
    have hfull : Int32.ofNat total + Int32.ofNat (min k pic.len) ≥ Int32.ofNat pic.len ↔
        pic.len ≤ total + min k pic.len := by
      rw [← Int32.ofNat_add, ge_iff_le, Int32.le_iff_toInt_le, Int32.toInt_ofNat_of_lt (by omega),
        Int32.toInt_ofNat_of_lt (by omega)]
      omega
    have hsum : total + taken pic.len (k :: ks)
        = total + min k pic.len + taken pic.len ks := by
      rw [taken, List.map_cons, List.sum_cons, Nat.add_assoc]
      rfl
    rw [Local.loop_step pic hd, hsum]
    by_cases hdone : pic.len ≤ total + min k pic.len
    · rw [if_pos (hfull.mpr hdone), if_pos (by omega)]
      exact ⟨_, rfl⟩
    · rw [if_neg (mt hfull.mp hdone), ← Int32.ofNat_add]
      exact ih _ _ rfl (by omega)

section

variable {host : Host} {d : Disk} {p : Proc} {char1 char2 : UInt8} {buffer : Bytes}

theorem saveOn_unwritable
    (h : d.writable (Local.constructLocalGifFilename char1 char2) = false) :
    saveOn host d char1 char2 buffer p = .error (.exit 1) p := by
  rw [saveOn, h]
  exact bind_of_ok (fopen_missing host p)

/-- With a descriptor and a file, the counts decide. -/
theorem saveOn_writable (h : d.writable (Local.constructLocalGifFilename char1 char2) = true)
    (hfds : p.fds < host.maxFds) (hpos : 0 < buffer.length) (hint : 2 * buffer.length < 2 ^ 31) :
    saveOn host d char1 char2 buffer p =
      if buffer.length ≤ taken buffer.length d.counts then .ok () p
      else .error .blocked { p with fds := p.fds + 1 } := by
  have hloop := loop_taken ⟨buffer, buffer.length, Nat.le_refl _, by omega⟩
    (Local.constructLocalGifFilename char1 char2) hint d.counts 0
    (d.put (Local.constructLocalGifFilename char1 char2) []) rfl hpos
  rw [saveOn, h, if_pos rfl, bind_of_ok (fopen_run hfds)]
  dsimp only
  rw [Nat.zero_add] at hloop
  split at hloop
  next hall =>
    obtain ⟨q, hq⟩ := hloop
    have hrun : Local.saveLoop _ buffer (Int32.ofNat buffer.length) (d.counts.length + 1) 0 _ = _ :=
      hq
    rw [if_pos hall, hrun]
    rfl
  next hless =>
    obtain ⟨q, hq⟩ := hloop
    have hrun : Local.saveLoop _ buffer (Int32.ofNat buffer.length) (d.counts.length + 1) 0 _ = _ :=
      hq
    rw [if_neg hless, hrun]
    rfl

end

/-! ## The server -/

theorem executeLoop_copying (host : Host) (d : Disk) (req : Request) (left i : Nat)
    (st : Progress) :
    executeLoop (copying host d) req left i st = executeLoop (onDisk host) req left i st := by
  induction left generalizing i st with
  | zero => rfl
  | succ left ih =>
    rw [executeLoop, executeLoop]
    simp only [ih]
    rfl

/-- The executor saves nothing. -/
theorem executeQuery_copying (host : Host) (d : Disk) (req : Option Request) :
    executeQuery (copying host d) req = executeQuery (onDisk host) req := by
  cases req with
  | none => rfl
  | some req =>
    rw [executeQuery, executeQuery]
    simp only [executeLoop_copying]

/-- The disk is good enough for a flag. -/
def CanCopy (d : Disk) : Prop :=
  d.writable (ascii "tt.gif") = true ∧ maxGifLen ≤ taken maxGifLen d.counts

/-- How a process ends whose copy does not come off, or that it does not. -/
def failure (d : Disk) : Halt := if d.writable (ascii "tt.gif") then .blocked else .exit 1

section

variable {host : Host} {rs : List Record}

/-- The log goes through, or the process goes no further. -/
theorem printResponse_copying (d : Disk) (res : Response) (p : Proc)
    (hfds : p.fds < host.maxFds) :
    (res.gif.len < 1 ∨ CanCopy d → printResponse (copying host d) res p = .ok () p) ∧
    (¬(res.gif.len < 1 ∨ CanCopy d) → ∃ q,
      printResponse (copying host d) res p = .error (failure d) q ∧ q.sent = p.sent) := by
  have hname : Local.constructLocalGifFilename 116 116 = ascii "tt.gif" := rfl
  have hlen : res.gif.payload.toList.length = maxGifLen := List.Vector.toList_length _
  have hmax : maxGifLen = 19000 := rfl
  unfold printResponse failure
  by_cases hgif : res.gif.len < 1
  · rw [if_pos hgif]
    exact ⟨fun _ => rfl, fun hnot => absurd (Or.inl hgif) hnot⟩
  · rw [if_neg hgif]
    show (_ → saveOn host d 116 116 res.gif.payload.toList p = _) ∧
      (_ → ∃ q, saveOn host d 116 116 res.gif.payload.toList p = _ ∧ _)
    by_cases hfile : d.writable (ascii "tt.gif") = true
    · have hpos : 0 < res.gif.payload.toList.length := by omega
      have hint : 2 * res.gif.payload.toList.length < 2 ^ 31 := by omega
      have hrun := saveOn_writable (hname ▸ hfile) hfds hpos hint
      rw [hlen] at hrun
      rw [hrun, if_pos hfile]
      by_cases hall : maxGifLen ≤ taken maxGifLen d.counts
      · rw [if_pos hall]
        exact ⟨fun _ => rfl, fun hnot => absurd (Or.inr ⟨hfile, hall⟩) hnot⟩
      · rw [if_neg hall]
        refine ⟨fun hok => ?_, fun _ => ⟨_, rfl, rfl⟩⟩
        exact absurd (hok.resolve_left hgif).2 hall
    · have hfalse : d.writable (Local.constructLocalGifFilename 116 116) = false :=
        Bool.eq_false_iff.mpr hfile
      rw [saveOn_unwritable hfalse, if_neg hfile]
      refine ⟨fun hok => ?_, fun _ => ⟨_, rfl, rfl⟩⟩
      exact absurd (hok.resolve_left hgif).1 hfile

/-- **The flag waits for its copy.** -/
theorem flag_copied (rs : List Record) (host : Host) (hdb : host.statedb = some (Record.file rs))
    (d : Disk) {p : Proc} (hfds : p.fds + 5 ≤ host.maxFds) (hb : p.broken = false)
    (os : FullOffers 19004 6) (ho : p.offers = os.offers) {res : Response}
    (hres : tcpReply (tableOf rs host.flags) p.input = some res) :
    (res.gif.len < 1 ∨ CanCopy d → ∃ q, processQuery (copying host d) p = .ok () q ∧
      q.sent = p.sent ++ res.blocks.flatten) ∧
    (¬(res.gif.len < 1 ∨ CanCopy d) → ∃ q,
      processQuery (copying host d) p = .error (failure d) q ∧ q.sent = p.sent) := by
  have hunbroken : p.broken = true → Complete p.input :=
    fun hbroken => by cases hb.symm.trans hbroken
  obtain ⟨rest, hrun⟩ := processQuery_responds
    (fun b _ hq => (congrFun (executeQuery_copying host d _) _).trans (executeQuery_files hdb hq b))
    hfds rfl hunbroken hres
  have hcost := tcpLookups_le (tableOf rs host.flags) p.input
  have hspare : p.fds + tcpLookups (tableOf rs host.flags) p.input < host.maxFds := by omega
  obtain ⟨hok, herror⟩ := printResponse_copying d res
    { p with fds := p.fds + tcpLookups (tableOf rs host.flags) p.input, input := rest } hspare
  constructor
  · intro hcan
    obtain ⟨texts, flag, hpacked⟩ := tcpReply_packed hres
    obtain ⟨q, hq, hsent⟩ := sendBlocks_full res.blocks os
      (p := { p with fds := p.fds + tcpLookups (tableOf rs host.flags) p.input, input := rest })
      hpacked.blocks_length hpacked.blocks_size ho
    rw [← writeOut_eq] at hq
    exact ⟨q, (hrun.trans (bind_of_ok (hok hcan))).trans hq, hsent⟩
  · intro hcannot
    obtain ⟨q, hq, hsent⟩ := herror hcannot
    exact ⟨q, hrun.trans (bind_of_error hq), hsent⟩

end

/-- A system with the flag of New Hampshire. -/
def flagHost : Host := { Host.small with flags := fun _ => some (ascii "GIF") }

/-- In a directory in which no file can be created, the query for that flag gets no
answer. -/
theorem flag_copied_unwritable : ∃ q,
    processQuery (copying flagHost ⟨fun _ => false, fun _ => none, []⟩)
        { Proc.fresh with
          input := [2, 1, 110, 104, 5]
          offers := (FullOffers.replicate 19003 6).offers }
      = .error (.exit 1) q ∧ q.sent = [] := by
  have hparse : parseQuery (queryBuffer [2, 1, 110, 104, 5] 1)
      = some (castRequest ⟨[2, 1, 110, 104, 5, 0, 0, 0, 0], rfl⟩) := by decide
  have hreply : replyTo (tableOf [newHampshire] flagHost.flags)
      (some (castRequest ⟨[2, 1, 110, 104, 5, 0, 0, 0, 0], rfl⟩))
        = okResponse ⟨[], some (ascii "GIF")⟩ := replyTo_of_some rfl
  have hres : tcpReply (tableOf [newHampshire] flagHost.flags) [2, 1, 110, 104, 5]
      = some (okResponse ⟨[], some (ascii "GIF")⟩) := by
    rw [tcpReply_of_le (by decide) (by decide)]
    exact congrArg some ((congrArg _ hparse).trans hreply)
  have hflag : ¬(okResponse ⟨[], some (ascii "GIF")⟩).gif.len < 1 := gifPayload_len _
  have hnot : ¬CanCopy ⟨fun _ => false, fun _ => none, []⟩ := fun h => by cases h.1
  exact (flag_copied [newHampshire] flagHost rfl ⟨fun _ => false, fun _ => none, []⟩ (by decide) rfl
    (FullOffers.replicate 19003 6) rfl hres).2 (not_or.mpr ⟨hflag, hnot⟩)

end StateProtocol.V2
