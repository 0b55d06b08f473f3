import StateProtocol.Clib.Faultless
import StateProtocol.Data.Records
import StateProtocol.V1.Tcp
import StateProtocol.V1.Udp

/-!
# The array accesses of version 1

The copy loops of the version 1 servers go as far as their callers say. The
messages, the texts of the database and everything that the UDP server sends are
shorter than the payloads; a flag is as long as its file. So a query takes the
servers out of their arrays exactly when it asks for a flag that is too long for
the payload (`staysInside_iff`), apart from a database on which the scan itself
faults.
-/

namespace StateProtocol.V1

open StateProtocol.Clib StateProtocol.Data

/-- The buffer of the opcode message. -/
def opcodeMsgSize : Nat := 25 + 3 + 1

/-- The buffer of the state message. -/
def noStateMsgSize : Nat := 28 + 2 + 1

/-- The query is looked up in the database, and the scan follows a null pointer. -/
def ScanFaults (host : Host) (query : Request) : Prop :=
  1 ≤ query.opcode.toNat ∧ query.opcode.toNat ≤ 4 ∧ ∃ db, host.statedb = some db ∧
    findIn db query.char1 query.char2 query.opcode.toNat = .error .fault

/-- Whatever the connection does, no server that is sent the bytes `m` accesses
an array out of its bounds; and the messages that it formats fit, each with its
null. -/
structure StaysInside (host : Host) (m : Bytes) : Prop where
  tcp : ∀ (p t : Proc), processQuery (onDisk host) { p with input := m } = .error .fault t →
    ScanFaults host (queryOf m)
  udp : ∀ (p t : Proc), Udp.serve (onDisk host) m p = .error .fault t →
    ScanFaults host (queryOf m)
  opcode : (ascii "Error - No such opcode - " ++ decimal (queryOf m).opcode).length + 1
    ≤ opcodeMsgSize
  noState : (ascii "Error - No such state code "
    ++ [tolower (queryOf m).char1, tolower (queryOf m).char2]).length + 1 ≤ noStateMsgSize

/-- A query for a flag whose length, as an `int`, is larger than a payload. -/
structure OversizeFlag (host : Host) (m : Bytes) : Prop where
  long : 4 ≤ m.length
  char1 : (queryOf m).char1 ≠ 0
  char2 : (queryOf m).char2 ≠ 0
  opcode : (queryOf m).opcode = 5
  flag : ∃ data, host.flags (constructGifFilename (queryOf m).char1 (queryOf m).char2) = some data ∧
    maxDataLen < intCount data.length

section Lookups

variable {host : Host} {char1 char2 : UInt8} {index : Nat}

theorem findData_faultless
    (h : ∀ db, host.statedb = some db → findIn db char1 char2 index ≠ .error .fault) :
    Faultless (findData host char1 char2 index) := by
  intro p t hfault
  rcases findData_cases host char1 char2 index p with hexit | ⟨db, halt, hdb, hfound, hhalt⟩ |
    ⟨db, data, -, -, -, hok⟩
  · rw [hexit] at hfault
    cases hfault
  · rw [hhalt] at hfault
    cases hfault
    exact h db hdb hfound
  · rw [hok] at hfault
    cases hfault

theorem loadGif_faultless : Faultless (loadGif host char1 char2) := by
  refine .of_ok fun p => ?_
  by_cases hfds : p.fds < host.maxFds
  · exact ⟨_, _, loadGif_run hfds⟩
  · exact ⟨_, _, loadGif_exhausted hfds⟩

theorem cutLast_faultless {σ : Type} {opcode : UInt8} {data : CString} (hne : data.bytes ≠ []) :
    Faultless (cutLast opcode data : C σ CString) :=
  .of_ok fun s => ⟨_, s, cutLast_run hne s⟩

end Lookups

/-! ## The TCP server -/

section Tcp

variable {host : Host} {query : Request} {res : Response maxDataLen}

theorem writeOut_faultless {message : Bytes} {len : Nat} (hlen : len ≤ message.length)
    (hn : intCount len ≤ maxDataLen) : Faultless (writeOut res message len) := by
  have hsrc : 0 + intCount len ≤ message.length :=
    (Nat.zero_add _).trans_le ((intCount_le len).trans hlen)
  refine (Faultless.copyLoop hsrc ((Nat.zero_add _).trans_le hn)).bind fun payload => ?_
  refine (Faultless.writeFromStart _).bind fun whole => ?_
  split
  · exact .pure ()
  · exact .throw (by decide)

/-- A text is copied whole. -/
theorem writeOut_text {message : Bytes} (h : message.length ≤ maxDataLen) :
    Faultless (writeOut res message message.length) :=
  writeOut_faultless (Nat.le_refl _) ((intCount_le _).trans h)

theorem checkVersion_faultless : Faultless (checkVersion query res) := by
  unfold checkVersion
  split
  · exact (writeOut_text (versionMsg_length.trans_le (by decide))).bind fun _ => .pure _
  · exact .pure res

theorem answer_faultless (hscan : ¬ScanFaults host query)
    (hflag : query.opcode = 5 → ∀ data,
      host.flags (constructGifFilename query.char1 query.char2) = some data →
      intCount data.length ≤ maxDataLen) :
    Faultless (answer (onDisk host) query res) := by
  have hnostate : ∀ res : Response maxDataLen, Faultless
      (writeOut res (noStateMsg query.char1 query.char2).bytes
        (noStateMsg query.char1 query.char2).strlen) :=
    fun res => writeOut_text ((noStateMsg_length_le _ _).trans (by decide))
  unfold answer
  by_cases hrange : query.opcode < 1 ∨ query.opcode > 5
  · rw [if_pos hrange]
    exact writeOut_text ((opcodeMsg_length_le _).trans (by decide))
  · rw [if_neg hrange]
    by_cases h5 : query.opcode ≠ 5
    · rw [if_pos h5]
      have hfind : Faultless ((onDisk host).findData query.char1 query.char2 query.opcode.toNat) :=
        findData_faultless fun db hdb hfault =>
          have hop := opcode_text hrange h5
          hscan ⟨hop.1, hop.2, db, hdb, hfault⟩
      refine hfind.bind_of_returns fun {p r t} hrun => ?_
      obtain ⟨db, -, hfound⟩ := findData_returns hrun
      cases r with
      | none => exact hnostate _
      | some data =>
        obtain ⟨hne, hlen⟩ := findIn_spec hfound
        refine (cutLast_faultless hne).bind_of_returns fun {p data' t} hcut => ?_
        rw [cutLast_run hne] at hcut
        cases hcut
        exact writeOut_text ((cutText_strlen_le.trans hlen).trans (show 159 ≤ 19000 by omega))
    · rw [if_neg h5]
      have hload : Faultless ((onDisk host).loadGif query.char1 query.char2) := loadGif_faultless
      refine hload.bind_of_returns fun {p r t} hrun => ?_
      cases r with
      | none => exact hnostate _
      | some bytes =>
        have hfits := hflag (not_not.mp h5) bytes (loadGif_returns hrun)
        exact writeOut_faultless (Nat.le_refl _) hfits

/-- A flag that is too long for the payload is copied until the array ends. -/
theorem writeOut_overrun {message : Bytes} {len : Nat} (h : maxDataLen < intCount len) (p : Proc) :
    writeOut res message len p = .error .fault p := by
  have hcopy : copyLoop message (intCount len) 0 res.payload p = .error .fault p :=
    copyLoop_overrun message (intCount len) 0 res.payload p (Nat.zero_le _) (by omega)
  exact bind_of_error hcopy

/-- A server whose connection takes everything gets that far. -/
theorem processQuery_overrun {m : Bytes} (h : OversizeFlag host m) :
    ∃ p t : Proc, processQuery (onDisk host) { p with input := m } = .error .fault t := by
  obtain ⟨data, hfile, hlarge⟩ := h.flag
  let os := FullOffers.replicate 19005 1
  have hrange : ¬((queryOf m).opcode < 1 ∨ (queryOf m).opcode > 5) := by
    rw [h.opcode]
    decide
  have hrun : ∀ (p : Proc) (res : Response maxDataLen), p.fds < host.maxFds →
      answer (onDisk host) (queryOf m) res p = .error .fault p := by
    intro p res hfds
    have hload : (onDisk host).loadGif (queryOf m).char1 (queryOf m).char2 p = _ :=
      loadGif_run hfds
    rw [answer, if_neg hrange, if_neg (not_not.mpr h.opcode), bind_of_ok hload, hfile]
    exact writeOut_overrun hlarge p
  refine ⟨⟨4, [], false, [], os.offers⟩, ?_⟩
  rw [processQuery_reads rfl h.long, respond, if_neg (not_or.mpr ⟨h.char1, h.char2⟩)]
  unfold checkVersion
  by_cases hv : (queryOf m).version ≠ 1
  · have hlen : versionMsg.length ≤ maxDataLen := versionMsg_length.trans_le (by decide)
    have hfirst : (do
        let res := { Response.init maxDataLen with status := 255 }
        writeOut res versionMsg versionMsg.length
        return res : C Proc (Response maxDataLen)) ⟨4, m.drop 4, false, [], os.offers⟩ = _ :=
      bind_of_ok (writeOut_run os rfl hlen)
    rw [if_pos hv, bind_of_ok hfirst]
    exact ⟨_, hrun _ _ (fresh_fds host)⟩
  · rw [if_neg hv]
    exact ⟨_, hrun _ _ (fresh_fds host)⟩

end Tcp

/-! ## The UDP server -/

namespace Udp

variable {σ : Type} {host : Host} {query : Request}

theorem copy_faultless {res : Response maxPackLen} {message : Bytes}
    (h : message.length ≤ maxPackLen) :
    Faultless (copy res message message.length : C σ (Response maxPackLen)) := by
  have hcount := intCount_le message.length
  refine (Faultless.copyLoop (n := maxPackLen) ?_ ?_).bind fun payload => .pure _
  · omega
  · omega

theorem processQuery_faultless (hscan : ¬ScanFaults host query) :
    Faultless (processQuery (onDisk host) query) := by
  by_cases hsearch : Searches query
  · rw [processQuery_searches _ hsearch]
    have hfind : Faultless ((onDisk host).findData query.char1 query.char2 query.opcode.toNat) :=
      findData_faultless fun db hdb hfault => hscan ⟨hsearch.2.1, hsearch.2.2.1, db, hdb, hfault⟩
    refine hfind.bind_of_returns fun {p r t} hrun => ?_
    obtain ⟨db, -, hfound⟩ := findData_returns hrun
    cases r with
    | none => exact copy_faultless ((noStateMsg_length_le _ _).trans (by decide))
    | some data =>
      obtain ⟨hne, hlen⟩ := findIn_spec hfound
      refine (cutLast_faultless hne).bind_of_returns fun {p data' t} hcut => ?_
      rw [cutLast_run hne] at hcut
      cases hcut
      exact copy_faultless ((cutText_strlen_le.trans hlen).trans (show 159 ≤ 500 by omega))
  · obtain ⟨status, message, -, hrun⟩ := processQuery_idle (onDisk host) hsearch
    exact .of_ok fun p => ⟨_, p, hrun p⟩

theorem serve_faultless {m : Bytes} (hscan : ¬ScanFaults host (queryOf m)) :
    Faultless (serve (onDisk host) m) := by
  by_cases hans : Answered m
  · rw [serve_answered _ hans]
    refine (processQuery_faultless hscan).bind fun res => ?_
    exact (Faultless.sendto (Nat.le_refl _)).bind fun sent => .pure _
  · exact .of_ok fun p => ⟨none, p, serve_unanswered hans p⟩

end Udp

/-! ## Both -/

/-- A query that does not ask for such a flag stays inside in the TCP server. -/
theorem processQuery_faultless {host : Host} {m : Bytes} (hflag : ¬OversizeFlag host m)
    (hscan : ¬ScanFaults host (queryOf m)) (p t : Proc) :
    processQuery (onDisk host) { p with input := m } ≠ .error .fault t := by
  rcases Nat.lt_or_ge m.length 4 with hshort | hlong
  · rw [processQuery_short rfl hshort]
    intro hfault
    cases hfault
  · rw [processQuery_reads rfl hlong, respond]
    split
    · intro hfault
      cases hfault
    next hnull =>
      obtain ⟨h1, h2⟩ := not_or.mp hnull
      refine (checkVersion_faultless.bind fun res => answer_faultless hscan ?_) _ t
      intro h5 data hfile
      by_contra hlarge
      exact hflag ⟨hlong, h1, h2, h5, data, hfile, Nat.not_le.mp hlarge⟩

/-- **When the version 1 servers stay inside their arrays.** -/
theorem staysInside_iff (host : Host) (m : Bytes) :
    StaysInside host m ↔ ¬OversizeFlag host m := by
  constructor
  · intro h hflag
    obtain ⟨p, t, hfault⟩ := processQuery_overrun hflag
    have hscan := (h.tcp p t hfault).2.1
    rw [hflag.opcode] at hscan
    exact absurd hscan (by decide)
  · intro hflag
    refine ⟨?_, ?_, ?_, ?_⟩
    · intro p t hfault
      by_contra hscan
      exact processQuery_faultless hflag hscan p t hfault
    · intro p t hfault
      by_contra hscan
      exact Udp.serve_faultless hscan p t hfault
    · have hdec := decimal_length_le (queryOf m).opcode
      have hlen : (ascii "Error - No such opcode - ").length = 25 := by decide
      rw [List.length_append, hlen]
      exact show _ ≤ 29 by omega
    · have hlen : (ascii "Error - No such state code ").length = 27 := by decide
      rw [List.length_append, hlen]
      exact show 27 + 2 + 1 ≤ 31 by omega

/-- A flag of one byte more than a payload. -/
def longFlagHost : Host :=
  { Host.small with flags := fun _ => some (List.replicate 19001 0) }

/-- Its query. -/
theorem not_staysInside_long : ¬StaysInside longFlagHost [1, 5, 110, 104] := by
  intro h
  have hlarge : maxDataLen < intCount (List.replicate 19001 (0 : UInt8)).length := by
    rw [List.length_replicate, intCount_of_lt (by omega)]
    exact show 19000 < 19001 by omega
  exact (staysInside_iff _ _).mp h
    ⟨by decide, by decide, by decide, by decide, _, rfl, hlarge⟩

end StateProtocol.V1
