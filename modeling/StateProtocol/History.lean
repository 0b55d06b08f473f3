import StateProtocol.Clib.Rounds
import StateProtocol.V1.Udp
import StateProtocol.V2.OnDisk
import StateProtocol.V2.Udp

/-!
# What a UDP server carries from datagram to datagram

The UDP servers never restart, so what a round leaves open stays open. A round
that does not get to `find_data` leaves the process as it was; one that does
returns, if it returns, with a descriptor less to spare. So the servers are
history free exactly on the sequences without such a datagram
(`udp_historyFree`), and such a datagram, sent often enough, ends the process
(`V1.Udp.serve_exhausts`, `V2.serve_exhausts`).
-/

namespace StateProtocol

open StateProtocol.Clib StateProtocol.Data

variable {host : Host} {m : Bytes} {p : Proc}

/-! ## Version 1 -/

namespace V1.Udp

/-- Does the datagram get to `find_data`? -/
def LooksUp (m : Bytes) : Prop := Answered m ∧ Searches (queryOf m)

instance (m : Bytes) : Decidable (LooksUp m) := inferInstanceAs (Decidable (_ ∧ _))

theorem serve_still (host : Host) (h : ¬LooksUp m) (p : Proc) :
    ∃ b, serve (onDisk host) m p = .ok b p := by
  by_cases hans : Answered m
  · have hidle : ¬Searches (queryOf m) := fun hs => h ⟨hans, hs⟩
    obtain ⟨status, message, -, hrun⟩ := processQuery_idle (onDisk host) hidle
    rw [serve_answered (onDisk host) hans]
    refine ⟨some (reply maxPackLen status message).encode, (bind_of_ok (hrun p)).trans ?_⟩
    exact bind_of_ok (sendto_run List.prefix_rfl p)
  · exact ⟨none, serve_unanswered hans p⟩

theorem copy_adds {res : Response maxPackLen} (message : Bytes) (len : Nat) :
    Adds Proc.fds 0 (copy res message len) :=
  (Adds.copyLoop message (intCount len) 0 res.payload).bind fun _ => Adds.pure _

theorem cutLast_adds (opcode : UInt8) (data : CString) : Adds Proc.fds 0 (cutLast opcode data) := by
  unfold cutLast
  split
  · split
    · exact Adds.throw 0 _
    · exact Adds.pure _
  · exact Adds.pure _

theorem processQuery_adds (host : Host) {query : Request} (h : Searches query) :
    Adds Proc.fds 1 (processQuery (onDisk host) query) := by
  rw [processQuery_searches _ h]
  refine (findData_adds host _ _ _).bind fun r => ?_
  cases r with
  | none => exact copy_adds _ _
  | some data => exact (cutLast_adds _ _).bind fun _ => copy_adds _ _

/-- A round that gets to `find_data` returns with another descriptor open. -/
theorem serve_adds (host : Host) (h : LooksUp m) : Adds Proc.fds 1 (serve (onDisk host) m) := by
  rw [serve_answered (onDisk host) h.1]
  exact (processQuery_adds host h.2).bind fun _ => (Adds.sendto _ _).bind fun _ => Adds.pure _

/-- **When the version 1 server keeps nothing.** -/
theorem serve_historyFree (host : Host) (ms : List Bytes) :
    HistoryFree (serve (onDisk host)) Proc.fds Proc.fresh ms ↔ ∀ m ∈ ms, ¬LooksUp m := by
  refine historyFree_iff (fun m h => serve_still host h Proc.fresh) ?_ ms
  intro m h b t hrun hkeep
  have hadds := serve_adds host (not_not.mp h) Proc.fresh b t hrun
  omega

/-- **The descriptors run out**: of a datagram whose lookup succeeds, the server
answers as many as it has descriptors to spare, and exits at the next. -/
theorem serve_exhausts {db : Bytes} {r : UInt8 × Bytes} (h : LooksUp m)
    (hdb : host.statedb = some db) (hout : outcome db (queryOf m) = some r) :
    rounds (serve (onDisk host)) (List.replicate (host.maxFds - 4 + 1) m) Proc.fresh
      = .error (.exit 1) { Proc.fresh with fds := host.maxFds } := by
  have hroom := host.room
  have hstart : 4 + (host.maxFds - 4) = host.maxFds := by omega
  refine rounds_exhaust (fun n => { Proc.fresh with fds := n }) ?_ ?_ _ 4 hstart
  · intro n hn
    have hrun := serve_run (p := { Proc.fresh with fds := n }) h.1 hdb hn
    have hafter : after (queryOf m) { Proc.fresh with fds := n }
        = { Proc.fresh with fds := n + 1 } := if_pos h.2
    rw [hout, hafter] at hrun
    exact ⟨_, hrun⟩
  · -- no descriptor is left for `fopen`
    have hfind : (onDisk host).findData (queryOf m).char1 (queryOf m).char2
        (queryOf m).opcode.toNat { Proc.fresh with fds := host.maxFds } = _ :=
      findData_exhausted (Nat.lt_irrefl host.maxFds)
    rw [serve_answered (onDisk host) h.1]
    refine bind_of_error ?_
    rw [processQuery_searches _ h.2]
    exact bind_of_error hfind

end V1.Udp

/-! ## Version 2 -/

namespace V2

/-- Do these opcodes get to `find_data`? A text does; a flag in front of it must
be there, or it is the end. -/
def reachesText (flag : Bool) : List UInt8 → Bool
  | [] => false
  | q :: qs => if q = 5 then flag && reachesText flag qs else true

/-- Does the datagram get to `find_data`? -/
def LooksUp (flags : Bytes → Option Bytes) (m : Bytes) : Prop :=
  4 ≤ m.length ∧ ∃ req, parseQuery (zeroPad queryLen m) = some req ∧
    reachesText (flags (constructGifFilename req.char1 req.char2)).isSome req.executed

/-! ### Datagrams that do not -/

/-- The flags without a database. -/
def flagTable (flags : Bytes → Option Bytes) : Lookup where
  text _ _ _ := none
  gif char1 char2 := flags (constructGifFilename char1 char2)

theorem flagTable_serves (host : Host) (char1 char2 : UInt8) :
    Serves (onDisk host) (flagTable host.flags) char1 char2 (· = .gif) (fun _ p => p)
      fun _ p => p.fds < host.maxFds where
  text _ hasked _ := by cases hasked
  gif _ hready := loadGif_run hready
  still _ _ hready := hready

theorem callsFor_gif {flags : Bytes → Option Bytes} {char1 char2 : UInt8} {qs : List UInt8}
    (h : ¬reachesText (flags (constructGifFilename char1 char2)).isSome qs) :
    ∀ call ∈ callsFor (flagTable flags) char1 char2 qs, call = .gif := by
  induction qs with
  | nil => simp [callsFor]
  | cons q qs ih =>
    unfold reachesText at h
    by_cases h5 : q = 5
    · rw [if_pos h5] at h
      rw [callsFor, List.forall_mem_cons]
      refine ⟨if_pos h5, ?_⟩
      split
      next hfound =>
        rw [Found, if_pos h5] at hfound
        have hflag : (flags (constructGifFilename char1 char2)).isSome = true := hfound
        rw [hflag, Bool.true_and] at h
        exact ih (by rwa [hflag])
      next => simp
    · rw [if_neg h5] at h
      exact absurd rfl h

theorem serve_still (h : ¬LooksUp host.flags m) (hfds : p.fds < host.maxFds) :
    ∃ b, serve (onDisk host) m p = .ok b p := by
  by_cases hm : m.length < 4
  · exact ⟨_, serve_short (onDisk host) hm p⟩
  · obtain ⟨texts, flag, hpacked⟩ := replyTo_packed (flagTable host.flags) (zeroPad queryLen m)
    refine ⟨_, serve_executed hm ?_ hpacked⟩
    cases hparse : parseQuery (zeroPad queryLen m) with
    | none => exact errorResponse_run p
    | some req =>
      obtain ⟨-, hacc⟩ := parseQuery_eq_some.mp hparse
      have hidle : ¬reachesText (host.flags (constructGifFilename req.char1 req.char2)).isSome
          req.executed := fun hreach => h ⟨Nat.not_lt.mp hm, req, hparse, hreach⟩
      rw [executeQuery_serves (flagTable_serves host req.char1 req.char2) hacc hfds
        (callsFor_gif hidle), noteAll, List.foldl_fixed]

/-! ### Datagrams that do -/

theorem messageResponse_adds (status : UInt8) (error : Bytes) :
    Adds Proc.fds 0 (messageResponse status error) :=
  (Adds.copyLoop _ _ _ _).bind fun _ => (Adds.store _ _ _).bind fun _ => Adds.pure _

theorem handleOpp_adds (host : Host) (code char1 char2 : UInt8) :
    Adds Proc.fds 1 (handleOpp (onDisk host) code char1 char2) := by
  refine (findData_adds host char1 char2 _).bind fun r => ?_
  cases r with
  | none => exact Adds.pure _
  | some data => exact (Adds.copyLoop _ _ _ _).bind fun _ => Adds.pure _

theorem handleGifOpp_adds (host : Host) (char1 char2 : UInt8) :
    Adds Proc.fds 0 (handleGifOpp (onDisk host) char1 char2) := by
  refine (loadGif_adds host char1 char2).bind fun r => ?_
  cases r with
  | none => exact Adds.pure _
  | some data => exact (Adds.copyLoop _ _ _ _).bind fun _ => Adds.pure _

theorem printResponse_adds (host : Host) (res : Response) :
    Adds Proc.fds 0 (printResponse (onDisk host) res) := by
  unfold printResponse
  split
  · exact Adds.pure _
  · exact saveGif_adds host

theorem executeLoop_adds (host : Host) (req : Request) (left i : Nat) (st : Progress) :
    Adds Proc.fds 0 (executeLoop (onDisk host) req left i st) := by
  induction left generalizing i st with
  | zero => exact Adds.pure _
  | succ left ih =>
    unfold executeLoop
    refine (Adds.load _ i).bind fun q => ?_
    split
    · refine (handleGifOpp_adds host _ _).bind fun gif => ?_
      split
      · exact Adds.pure _
      · exact ih (i + 1) _
    · refine ((handleOpp_adds host q _ _).mono (Nat.zero_le 1)).bind fun attempt => ?_
      split
      · exact Adds.pure _
      · exact (Adds.store _ _ _).bind fun _ => ih (i + 1) _

/-- A loop that gets to a text opcode returns with another descriptor open: the
flags in front of it have given theirs back. -/
theorem executeLoop_reaches {req : Request} (hfds : p.fds < host.maxFds) :
    ∀ (left i : Nat) (st : Progress), i + left ≤ 5 →
      reachesText (host.flags (constructGifFilename req.char1 req.char2)).isSome
        ((req.opcodes.toList.drop i).take left) →
      ∀ r t, executeLoop (onDisk host) req left i st p = .ok r t → p.fds + 1 ≤ t.fds := by
  intro left
  induction left with
  | zero =>
    intro i st _ hreach
    rw [List.take_zero] at hreach
    cases hreach
  | succ left ih =>
    intro i st hi hreach r t hrun
    have hlen : i < req.opcodes.toList.length := by
      rw [List.Vector.toList_length]
      exact show i < 5 by omega
    rw [List.drop_eq_getElem_cons hlen, List.take_succ_cons, reachesText] at hreach
    rw [executeLoop, bind_of_ok (load_of_lt _ hlen p)] at hrun
    by_cases h5 : req.opcodes.toList[i] = 5
    · -- the flag is there, and the process as it was
      have hload : (onDisk host).loadGif req.char1 req.char2 p = _ := loadGif_run hfds
      rw [if_pos h5] at hreach
      rw [if_pos h5, bind_of_ok (handleGifOpp_run hload)] at hrun
      obtain ⟨hflag, hrest⟩ := (Bool.and_eq_true _ _).mp hreach
      obtain ⟨data, hdata⟩ := Option.isSome_iff_exists.mp hflag
      rw [hdata, gifSlot, if_neg (gifPayload_len data)] at hrun
      exact ih (i + 1) _ (by omega) hrest r t hrun
    · rw [if_neg h5] at hrun
      refine Adds.bind_at hrun (handleOpp_adds host _ _ _ p) fun attempt => ?_
      split
      · exact Adds.pure _
      · exact (Adds.store _ _ _).bind fun _ => executeLoop_adds host req left (i + 1) _

/-- A round that gets to `find_data` returns with another descriptor open. -/
theorem serve_reaches (h : LooksUp host.flags m) (hfds : p.fds < host.maxFds) {b : Bytes}
    {t : Proc} (hrun : serve (onDisk host) m p = .ok b t) : p.fds + 1 ≤ t.fds := by
  obtain ⟨hm, req, hparse, hreach⟩ := h
  obtain ⟨-, hacc⟩ := parseQuery_eq_some.mp hparse
  have hn : ¬min m.length queryLen < headerLen := by
    show ¬min m.length 9 < 4
    omega
  have hcount := hacc.count_le
  unfold serve at hrun
  dsimp only [recvfrom] at hrun
  rw [if_neg hn, hparse, executeQuery] at hrun
  refine Adds.bind_at hrun (fun res q hexec => ?_) fun res => ?_
  · refine Adds.bind_at hexec (executeLoop_reaches hfds _ 0 _ (by omega) hreach) fun r => ?_
    cases r with
    | none => exact messageResponse_adds _ _
    | some st => exact Adds.pure _
  · split
    · exact (messageResponse_adds _ _).bind fun error => (Adds.sendto _ _).bind fun _ =>
        (printResponse_adds host error).bind fun _ => Adds.pure _
    · exact (printResponse_adds host res).bind fun _ => Adds.sendto _ _

/-- **When the version 2 server keeps nothing.** -/
theorem serve_historyFree (host : Host) (ms : List Bytes) :
    HistoryFree (serve (onDisk host)) Proc.fds Proc.fresh ms ↔
      ∀ m ∈ ms, ¬LooksUp host.flags m := by
  refine historyFree_iff (fun m h => serve_still h (fresh_fds host)) ?_ ms
  intro m h b t hrun hkeep
  have hadds := serve_reaches (not_not.mp h) (fresh_fds host) hrun
  omega

/-- **The descriptors run out** here too, and the state need not exist: of a
datagram with one text opcode the server answers as many as it has descriptors
to spare, and exits at the next. -/
theorem serve_exhausts {rs : List Record} {req : Request} {q : UInt8}
    (hdb : host.statedb = some (Record.file rs)) (hm : ¬m.length < 4)
    (hparse : parseQuery (zeroPad queryLen m) = some req) (hq : req.executed = [q])
    (h5 : q ≠ 5) :
    rounds (serve (onDisk host)) (List.replicate (host.maxFds - 4 + 1) m) Proc.fresh
      = .error (.exit 1) { Proc.fresh with fds := host.maxFds } := by
  have hroom := host.room
  have hstart : 4 + (host.maxFds - 4) = host.maxFds := by omega
  obtain ⟨-, hacc⟩ := parseQuery_eq_some.mp hparse
  have hone : req.numQueries.toNat = 1 := by rw [← hacc.executed_length, hq, List.length_singleton]
  refine rounds_exhaust (fun n => { Proc.fresh with fds := n }) ?_ ?_ _ 4 hstart
  · intro n hn
    obtain ⟨texts, flag, hpacked⟩ := replyTo_packed (tableOf rs host.flags) (zeroPad queryLen m)
    have hready : n + req.numQueries.toNat ≤ host.maxFds := by omega
    have hrun := executeQuery_serves (s := { Proc.fresh with fds := n })
      (onDisk_serves hdb hacc.char1 hacc.char2) hacc hready hacc.calls_inRange
    have hcalls : callsFor (tableOf rs host.flags) req.char1 req.char2 [q] = [.text q.toNat] := by
      rw [callsFor, callOf, if_neg h5, callsFor, ite_self]
    rw [hq, hcalls, ← hparse] at hrun
    exact ⟨_, serve_executed hm hrun hpacked⟩
  · have hn : ¬min m.length queryLen < headerLen := by
      show ¬min m.length 9 < 4
      omega
    have hhead : ∃ hlen : 0 < req.opcodes.toList.length, req.opcodes.toList[0] = q := by
      rw [Request.executed, hone] at hq
      cases hops : req.opcodes.toList with
      | nil =>
        rw [hops] at hq
        cases hq
      | cons r rs =>
        rw [hops] at hq
        cases hq
        exact ⟨Nat.zero_lt_succ _, rfl⟩
    obtain ⟨hlen, hfirst⟩ := hhead
    have hfind : (onDisk host).findData req.char1 req.char2 q.toNat
        { Proc.fresh with fds := host.maxFds } = _ :=
      findData_exhausted (Nat.lt_irrefl host.maxFds)
    unfold serve
    dsimp only [recvfrom]
    rw [if_neg hn, hparse, executeQuery, hone]
    refine bind_of_error (bind_of_error ?_)
    rw [executeLoop, bind_of_ok (load_of_lt _ hlen _), hfirst, if_neg h5]
    exact bind_of_error (bind_of_error hfind)

end V2

/-! ## Both -/

/-- **Where the UDP servers are history free**: on the sequences that get to no
`find_data`. -/
theorem udp_historyFree (host : Host) (ms : List Bytes) :
    (HistoryFree (V1.Udp.serve (onDisk host)) Proc.fds Proc.fresh ms ↔
      ∀ m ∈ ms, ¬V1.Udp.LooksUp m) ∧
    (HistoryFree (V2.serve (onDisk host)) Proc.fds Proc.fresh ms ↔
      ∀ m ∈ ms, ¬V2.LooksUp host.flags m) :=
  ⟨V1.Udp.serve_historyFree host ms, V2.serve_historyFree host ms⟩

/-- One query for the name of New Hampshire is enough for each of them. -/
theorem name_keeps_descriptor :
    ¬HistoryFree (V1.Udp.serve (onDisk Host.small)) Proc.fds Proc.fresh [[1, 1, 110, 104]] ∧
    ¬HistoryFree (V2.serve (onDisk Host.small)) Proc.fds Proc.fresh
      [[2, 1, 110, 104, 1, 0, 0, 0, 0]] := by
  constructor
  · intro h
    have hnone := (V1.Udp.serve_historyFree Host.small _).mp h
    exact hnone _ (List.mem_cons_self ..) (by decide)
  · intro h
    have hnone := (V2.serve_historyFree Host.small _).mp h
    refine hnone _ (List.mem_cons_self ..) ⟨by decide, ?_⟩
    exact ⟨V2.castRequest ⟨[2, 1, 110, 104, 1, 0, 0, 0, 0], rfl⟩, by decide, by decide⟩

end StateProtocol
