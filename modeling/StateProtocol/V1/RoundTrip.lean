import StateProtocol.Data.Records
import StateProtocol.V1.Client

/-!
# The version 1 client against the version 1 TCP server

The server answers with a response structure, and the client takes that apart:
`encode_eq` writes the structure as the client reads it, a header with the
length in network order and a payload of that length. So the client has the
response in its buffer however it arrives (`sendAndRecieve_reply`), and what the
user gets is a matter of the status and the text (`deliver_text`,
`deliver_flag`).

On a well-formed database that is the field of the first record with the state
code, or the flag, or a message (`round_trip`).
-/

namespace StateProtocol.V1

open StateProtocol.Clib StateProtocol.Data

/-- A response on the wire: a header and the payload it announces. -/
theorem encode_eq (status : UInt8) (message : Bytes) :
    (reply maxDataLen status message).encode
      = 1 :: status :: (beBytes 19000 ++ (zeroPad maxDataLen message).toList) := by
  have hlen : (reply maxDataLen status message).len = htonl 19000 := rfl
  rw [Response.encode, hlen, wordBytes_htonl]
  rfl

/-- The payload in the buffer of the client. -/
def payloadOf (message : Bytes) : List.Vector UInt8 (allocated 19000) :=
  zeroPad (allocated 19000) (zeroPad maxDataLen message).toList

section

variable {req : Request} {status : UInt8} {message : Bytes} {c : Client}

theorem payloadOf_toList (message : Bytes) :
    (payloadOf message).toList = (zeroPad maxDataLen message).toList ++ [0] := by
  have hlen : (zeroPad maxDataLen message).toList.length = 19000 := List.Vector.toList_length _
  have hroom : allocated 19000 = 19001 := by decide
  rw [payloadOf, zeroPad_toList _ (zeroPad maxDataLen message).toList, hlen, hroom,
    List.take_of_length_le (by rw [hlen]; omega)]
  rfl

/-- A request that is taken whole is on the connection. -/
theorem sendRequest_run {p : Proc} (os : FullOffers 4 1) (ho : p.offers = os.offers) :
    sendRequest req p
      = .ok () { p with sent := p.sent ++ req.encode, offers := os.tail.offers } := by
  have hlen : req.encode.length = 4 := rfl
  have hcount : (0 : Int) + (some req.encode.length).elim (-1) Nat.cast = req.encode.length :=
    Int.zero_add _
  rw [sendRequest, writeLoop, bind_of_ok (os.write ho hlen.le), if_pos hcount]
  rfl

/-- **The client has the response**, whatever the pieces are in which it comes, and
whatever becomes of the connection then. -/
theorem sendAndRecieve_reply (req : Request) (status : UInt8) (message : Bytes) (broken : Bool)
    (os : FullOffers 4 1) (chunks : Stream' Nat) (disk : Disk) :
    ∃ rest, sendAndRecieve req
        ⟨⟨4, (reply maxDataLen status message).encode, broken, [], os.offers⟩, chunks, disk, []⟩
      = deliver req status 19000 (payloadOf message)
          ⟨⟨4, [], broken, req.encode, os.tail.offers⟩, rest, disk, []⟩ := by
  have hlen : (zeroPad maxDataLen message).toList.length = (19000 : UInt32).toNat :=
    List.Vector.toList_length _
  have hsent : onConnection (sendRequest req)
      ⟨⟨4, (reply maxDataLen status message).encode, broken, [], os.offers⟩, chunks, disk, []⟩ = _ :=
    onConnection_of_ok (sendRequest_run os rfl)
  obtain ⟨rest, hrun⟩ := receivePayload_run 19000
    (c := ⟨⟨4, (zeroPad maxDataLen message).toList, broken, req.encode, os.tail.offers⟩, chunks,
      disk, []⟩) (by decide) hlen.le rfl (Or.inr (by decide))
  rw [if_pos hlen] at hrun
  refine ⟨rest, (sendAndRecieve_header hsent (encode_eq status message)).trans ?_⟩
  exact bind_of_ok hrun

/-! ## What the user gets -/

/-- The string in the buffer is what was sent. -/
theorem loadString_payloadOf {σ : Type} (h0 : 0 ∉ message) (hlen : message.length ≤ maxDataLen)
    (s : σ) : ∃ text : CString, loadString (payloadOf message) s = .ok text s ∧
      text.bytes = message := by
  have hlist : (payloadOf message).toList
      = message ++ 0 :: List.replicate (maxDataLen - message.length) 0 := by
    rw [payloadOf_toList, zeroPad_toList, List.take_of_length_le hlen, List.append_assoc,
      ← List.replicate_succ', List.replicate_succ]
  have hnull : 0 ∈ (payloadOf message).toList := by
    rw [hlist]
    exact List.mem_append_right _ (List.mem_cons_self ..)
  refine ⟨cstr (payloadOf message).toList, ?_, ?_⟩
  · rw [loadString, if_pos hnull]
    rfl
  · rw [hlist, cstr_append_null h0]

/-- A text is printed as it was sent. -/
theorem deliver_text (h0 : 0 ∉ message) (hlen : message.length ≤ maxDataLen)
    (hop : req.opcode ≠ 5) :
    deliver req 1 19000 (payloadOf message) c
      = .ok () { c with printed := c.printed ++ (message ++ [newline]) } := by
  obtain ⟨text, hload, rfl⟩ := loadString_payloadOf h0 hlen c
  rw [deliver, if_neg (by decide), if_neg fun h => hop h.2, if_pos rfl, bind_of_ok hload]
  rfl

/-- So is a message. -/
theorem deliver_error (h0 : 0 ∉ message) (hlen : message.length ≤ maxDataLen) :
    deliver req 255 19000 (payloadOf message) c
      = .ok () { c with
          printed := c.printed ++ (ascii "Recieved error: " ++ message ++ [newline]) } := by
  obtain ⟨text, hload, rfl⟩ := loadString_payloadOf h0 hlen c
  rw [deliver, if_pos rfl, bind_of_ok hload]
  rfl

/-- A flag becomes a file of the size of a payload. -/
theorem deliver_flag (req : Request) (message : Bytes) (c : Client) (roomy : RoomyDisk 19000)
    (hdisk : c.disk = roomy.disk) (hop : req.opcode = 5) :
    ∃ t, deliver req 1 19000 (payloadOf message) c = .ok () t ∧ t.proc = c.proc ∧
      t.printed = c.printed ++ (ascii "Saved state flag locally" ++ [newline]) ∧
      t.disk.files = Function.update c.disk.files
        (Local.constructLocalGifFilename req.char1 req.char2)
        (some (zeroPad maxDataLen message).toList) := by
  have hlen : (zeroPad maxDataLen message).toList.length = 19000 := List.Vector.toList_length _
  have hbuff : 19000 ≤ (payloadOf message).toList.length := by
    rw [List.Vector.toList_length]
    decide
  obtain ⟨t, hsave, hfiles⟩ := Local.saveGif_whole roomy req.char1 req.char2 (by decide) hbuff
  have htake : (payloadOf message).toList.take 19000 = (zeroPad maxDataLen message).toList := by
    rw [payloadOf_toList, List.take_append_of_le_length hlen.ge, List.take_of_length_le hlen.le]
  rw [htake, ← hdisk] at hfiles
  rw [← hdisk] at hsave
  refine ⟨{ c with
      printed := c.printed ++ (ascii "Saved state flag locally" ++ [newline])
      disk := t }, ?_, rfl, rfl, hfiles⟩
  rw [deliver, if_neg (by decide), if_pos ⟨rfl, hop⟩, bind_of_ok (print_run _ c)]
  exact onFiles_of_ok (c := { c with printed := _ }) hsave

end

/-! ## The two programs together -/

/-- What is printed about a state code that there is nothing for. -/
def noStateLine (char1 char2 : UInt8) : Bytes :=
  ascii "Recieved error: "
    ++ (ascii "Error - No such state code " ++ [tolower char1, tolower char2]) ++ [newline]

/-- What the user of a client has at the end, whose files were `files` before. -/
structure Delivered (rs : List Record) (flags files : Bytes → Option Bytes)
    (opcode char1 char2 : UInt8) (t : Client) : Prop where
  text : opcode ≠ 5 → ∀ r, Record.lookup rs char1 char2 = some r →
    t.printed = (r.field opcode.toNat).text ++ [newline] ∧ t.disk.files = files
  noRecord : opcode ≠ 5 → Record.lookup rs char1 char2 = none →
    t.printed = noStateLine char1 char2 ∧ t.disk.files = files
  flag : opcode = 5 → ∀ data, flags (constructGifFilename char1 char2) = some data →
    t.printed = ascii "Saved state flag locally" ++ [newline] ∧
    t.disk.files = Function.update files (Local.constructLocalGifFilename char1 char2)
      (some (data ++ List.replicate (19000 - data.length) 0))
  noFlag : opcode = 5 → flags (constructGifFilename char1 char2) = none →
    t.printed = noStateLine char1 char2 ∧ t.disk.files = files

section

variable {rs : List Record} {host : Host} {opcode char1 char2 : UInt8}

/-- The server's answer to a query for a state code. -/
theorem processQuery_tidy (opcode : UInt8) (hdb : host.statedb = some (Record.file rs))
    (hflags : ∀ name data, host.flags name = some data → data.length ≤ maxDataLen)
    (h1 : char1 ≠ 0) (h2 : char2 ≠ 0) (os : FullOffers 19006 2) :
    ∃ q, processQuery (onDisk host) ⟨4, [1, opcode, char1, char2], false, [], os.offers⟩
        = .ok () q ∧
      q.sent = (reply maxDataLen
        (answerOf (Record.file rs) host.flags ⟨1, opcode, char1, char2⟩).1
        (answerOf (Record.file rs) host.flags ⟨1, opcode, char1, char2⟩).2).encode := by
  have htidy : Request.Tidy ⟨1, opcode, char1, char2⟩ (Record.file rs) :=
    fun _ h4 => Record.records_tidy rs h1 h2 h4
  have hfits : FlagFits host ⟨1, opcode, char1, char2⟩ := fun _ => hflags _
  have hleaves := processQuery_answers hdb hfits os h1 h2
  rw [outcome_eq_answerOf rfl htidy] at hleaves
  exact hleaves

/-- The answers that a well-formed database has for a text opcode. -/
theorem answerOf_text (flags : Bytes → Option Bytes) (hlow : 1 ≤ opcode.toNat)
    (hhigh : opcode.toNat ≤ 5) (h1 : char1 ≠ 0) (h2 : char2 ≠ 0) (h5 : opcode ≠ 5) :
    answerOf (Record.file rs) flags ⟨1, opcode, char1, char2⟩ =
      ((Record.lookup rs char1 char2).map fun r => (1, (r.field opcode.toNat).text)).getD
        (255, (noStateMsg char1 char2).bytes) := by
  have hrange : ¬(opcode < 1 ∨ opcode > 5) := opcode_range.mpr ⟨hlow, hhigh⟩
  rw [answerOf, if_neg (not_not.mpr rfl), if_neg hrange, if_pos h5,
    Record.textField_records rs h1 h2 (opcode_text hrange h5).2]
  cases Record.lookup rs char1 char2 <;> rfl

/-- And for the flag. -/
theorem answerOf_flag (db : Bytes) (flags : Bytes → Option Bytes) (h5 : opcode = 5) :
    answerOf db flags ⟨1, opcode, char1, char2⟩ =
      ((flags (constructGifFilename char1 char2)).map fun data => (1, data)).getD
        (255, (noStateMsg char1 char2).bytes) := by
  have hrange : ¬(opcode < 1 ∨ opcode > 5) := by
    rw [h5]
    decide
  rw [answerOf, if_neg (not_not.mpr rfl), if_neg hrange, if_neg (not_not.mpr h5)]
  cases flags (constructGifFilename char1 char2) <;> rfl

/-- A text is printed, and nothing else happens. -/
theorem sendAndRecieve_text (req : Request) {text : Bytes} (hop : req.opcode ≠ 5) (h0 : 0 ∉ text)
    (hlen : text.length ≤ maxDataLen) (oc : FullOffers 4 1) (chunks : Stream' Nat) (disk : Disk) :
    ∃ t, sendAndRecieve req
        (Client.started (reply maxDataLen 1 text).encode oc.offers chunks disk) = .ok () t ∧
      t.proc.sent = req.encode ∧ t.printed = text ++ [newline] ∧ t.disk = disk := by
  obtain ⟨rest, hrun⟩ := sendAndRecieve_reply req 1 text false oc chunks disk
  rw [deliver_text h0 hlen hop] at hrun
  exact ⟨_, hrun, rfl, rfl, rfl⟩

/-- So is a message about the state code. -/
theorem sendAndRecieve_noState (req : Request) (h1 : char1 ≠ 0) (h2 : char2 ≠ 0)
    (oc : FullOffers 4 1) (chunks : Stream' Nat) (disk : Disk) :
    ∃ t, sendAndRecieve req (Client.started
        (reply maxDataLen 255 (noStateMsg char1 char2).bytes).encode oc.offers chunks disk)
      = .ok () t ∧ t.proc.sent = req.encode ∧ t.printed = noStateLine char1 char2 ∧
        t.disk = disk := by
  have hlen : (noStateMsg char1 char2).bytes.length ≤ maxDataLen :=
    (noStateMsg_length_le char1 char2).trans (show 30 ≤ 19000 by omega)
  obtain ⟨rest, hrun⟩ := sendAndRecieve_reply req 255 (noStateMsg char1 char2).bytes false oc chunks
    disk
  rw [deliver_error (noStateMsg char1 char2).noNull hlen, noStateMsg_bytes h1 h2] at hrun
  rw [noStateMsg_bytes h1 h2]
  exact ⟨_, hrun, rfl, rfl, rfl⟩

/-- A flag is saved, with the zeros of its payload behind it. -/
theorem sendAndRecieve_flag (req : Request) {data : Bytes} (hop : req.opcode = 5)
    (hlen : data.length ≤ maxDataLen) (oc : FullOffers 4 1) (chunks : Stream' Nat)
    (roomy : RoomyDisk 19000) :
    ∃ t, sendAndRecieve req
        (Client.started (reply maxDataLen 1 data).encode oc.offers chunks roomy.disk) = .ok () t ∧
      t.proc.sent = req.encode ∧
      t.printed = ascii "Saved state flag locally" ++ [newline] ∧
      t.disk.files = Function.update roomy.disk.files
        (Local.constructLocalGifFilename req.char1 req.char2)
        (some (data ++ List.replicate (19000 - data.length) 0)) := by
  have hpad : (zeroPad maxDataLen data).toList
      = data ++ List.replicate (19000 - data.length) 0 := by
    rw [zeroPad_toList, List.take_of_length_le hlen]
    rfl
  obtain ⟨rest, hrun⟩ := sendAndRecieve_reply req 1 data false oc chunks roomy.disk
  obtain ⟨t, hdeliver, hproc, hprinted, hfiles⟩ := deliver_flag req data
    ⟨⟨4, [], false, req.encode, oc.tail.offers⟩, rest, roomy.disk, []⟩ roomy rfl hop
  rw [hpad] at hfiles
  exact ⟨t, hrun.trans hdeliver, congrArg Proc.sent hproc, hprinted, hfiles⟩

end

/-- **The round trip** of a valid request, for every well-formed database, every
set of flags and every way the response arrives. -/
theorem round_trip (rs : List Record) (host : Host) (hdb : host.statedb = some (Record.file rs))
    (hflags : ∀ name data, host.flags name = some data → data.length ≤ maxDataLen)
    (opcode char1 char2 : UInt8) (hlow : 1 ≤ opcode.toNat) (hhigh : opcode.toNat ≤ 5)
    (h1 : char1 ≠ 0) (h2 : char2 ≠ 0) (os : FullOffers 19006 2) (oc : FullOffers 4 1)
    (chunks : Stream' Nat) (roomy : RoomyDisk 19000) :
    ∃ q t, processQuery (onDisk host)
        ⟨4, (Request.mk 1 opcode char1 char2).encode, false, [], os.offers⟩ = .ok () q ∧
      sendAndRecieve ⟨1, opcode, char1, char2⟩
        (Client.started q.sent oc.offers chunks roomy.disk) = .ok () t ∧
      t.proc.sent = (Request.mk 1 opcode char1 char2).encode ∧
      Delivered rs host.flags roomy.disk.files opcode char1 char2 t := by
  obtain ⟨q, hq, hsent⟩ := processQuery_tidy opcode hdb hflags h1 h2 os
  refine ⟨q, ?_⟩
  rw [hsent]
  by_cases h5 : opcode = 5
  · rw [answerOf_flag _ _ h5]
    cases hfile : host.flags (constructGifFilename char1 char2) with
    | none =>
      obtain ⟨t, hrun, hreq, hprinted, hdisk⟩ :=
        sendAndRecieve_noState ⟨1, opcode, char1, char2⟩ h1 h2 oc chunks roomy.disk
      refine ⟨t, hq, hrun, hreq, fun hne => absurd h5 hne, fun hne => absurd h5 hne, ?_, ?_⟩
      · intro _ data hdata
        rw [hfile] at hdata
        cases hdata
      · exact fun _ _ => ⟨hprinted, congrArg Disk.files hdisk⟩
    | some data =>
      obtain ⟨t, hrun, hreq, hprinted, hfiles⟩ := sendAndRecieve_flag ⟨1, opcode, char1, char2⟩ h5
        (hflags _ data hfile) oc chunks roomy
      refine ⟨t, hq, hrun, hreq, fun hne => absurd h5 hne, fun hne => absurd h5 hne, ?_, ?_⟩
      · intro _ data' hdata'
        rw [hfile] at hdata'
        cases hdata'
        exact ⟨hprinted, hfiles⟩
      · intro _ hnone
        rw [hfile] at hnone
        cases hnone
  · rw [answerOf_text _ hlow hhigh h1 h2 h5]
    cases hlookup : Record.lookup rs char1 char2 with
    | none =>
      obtain ⟨t, hrun, hreq, hprinted, hdisk⟩ :=
        sendAndRecieve_noState ⟨1, opcode, char1, char2⟩ h1 h2 oc chunks roomy.disk
      refine ⟨t, hq, hrun, hreq, ?_, ?_, fun he => absurd he h5, fun he => absurd he h5⟩
      · intro _ r hr
        rw [hlookup] at hr
        cases hr
      · exact fun _ _ => ⟨hprinted, congrArg Disk.files hdisk⟩
    | some r =>
      have hlen := (r.field_length_le opcode.toNat).trans (show 159 ≤ 19000 by omega)
      obtain ⟨t, hrun, hreq, hprinted, hdisk⟩ := sendAndRecieve_text ⟨1, opcode, char1, char2⟩ h5
        (r.field opcode.toNat).noNull (Nat.le_of_succ_le hlen) oc chunks roomy.disk
      refine ⟨t, hq, hrun, hreq, ?_, ?_, fun he => absurd he h5, fun he => absurd he h5⟩
      · intro _ r' hr'
        rw [hlookup] at hr'
        cases hr'
        exact ⟨hprinted, congrArg Disk.files hdisk⟩
      · intro _ hnone
        rw [hlookup] at hnone
        cases hnone

/-- A request for the name of New Hampshire, answered in pieces of one byte. -/
theorem round_trip_name :
    ∃ q t, processQuery (onDisk Host.small) ⟨4, (Request.mk 1 1 110 104).encode, false, [],
        (FullOffers.replicate 19005 2).offers⟩ = .ok () q ∧
      sendAndRecieve ⟨1, 1, 110, 104⟩ (Client.started q.sent (FullOffers.replicate 3 1).offers
        (fun _ => 0) (RoomyDisk.empty 19000).disk) = .ok () t ∧
      t.proc.sent = (Request.mk 1 1 110 104).encode ∧
      Delivered [newHampshire] Host.small.flags (RoomyDisk.empty 19000).disk.files 1 110 104 t :=
  round_trip [newHampshire] Host.small rfl (fun _ _ h => by cases h) 1 110 104 (by decide)
    (by decide) (by decide) (by decide) (FullOffers.replicate 19005 2) (FullOffers.replicate 3 1)
    (fun _ => 0) (RoomyDisk.empty 19000)

end StateProtocol.V1
