import StateProtocol.Clib.Transmit
import StateProtocol.V2.Wire

/-!
# The version 2 TCP server (`Version2_Server/tcpserv2.c`)

`process_query` reads its query byte by byte into a cleared buffer: a version, a
count, and then as many bytes as the count calls for, or fewer when the client
stops. Each byte that is missing stays null, which the parser rejects. The
answer goes out block by block (`writeOut_eq`).

`tcpReply` is the response as a function of the client's stream, and
`processQuery_run` says that the server sends it. `processQuery_law` puts that
in terms of the stream alone: which queries succeed, and the bytes they get.

`write_out` owes its peer the encoding of the response, whatever the kernel does
with the single calls. Its loops pass the start of the block again after a short
write, and a writer that has failed is followed by the next one. So it delivers
on the schedules where nothing moves after a call that was short or failed
(`writeOut_delivers`), and not in general (`not_delivers_short`): two calls that
take one byte each send the version twice.
-/

namespace StateProtocol.V2

open StateProtocol.Clib StateProtocol.Data

/-! ## Writing -/

/-- `write_header` -/
def writeHeader (res : Response) : C Proc Unit := sendBlock res.header

/-- `write_payload` -/
def writePayload (payload : Payload) : C Proc Unit :=
  if payload.len < 1 then pure () else sendBlock payload.encode

/-- `write_gif` -/
def writeGif (payload : GifPayload) : C Proc Unit :=
  if payload.len < 1 then pure () else sendBlock payload.encode

/-- `for (int i = 0; i < 4; i++) write_payload(client_socket, res.payloads[i]);` -/
def writePayloads : List Payload → C Proc Unit
  | [] => pure ()
  | p :: ps => do
    writePayload p
    writePayloads ps

/-- `write_out` -/
def writeOut (res : Response) : C Proc Unit := do
  writeHeader res
  writePayloads res.payloads.toList
  writeGif res.gif

theorem sendBlocks_single (b : Bytes) : sendBlocks [b] = sendBlock b := bind_pure _

theorem writePayload_eq (p : Payload) : writePayload p = sendBlocks p.blocks := by
  unfold writePayload Payload.blocks
  split
  · rfl
  · exact (sendBlocks_single p.encode).symm

theorem writeGif_eq (g : GifPayload) : writeGif g = sendBlocks g.blocks := by
  unfold writeGif GifPayload.blocks
  split
  · rfl
  · exact (sendBlocks_single g.encode).symm

theorem writePayloads_eq (ps : List Payload) :
    writePayloads ps = sendBlocks (ps.flatMap Payload.blocks) := by
  induction ps with
  | nil => rfl
  | cons p ps ih =>
    rw [writePayloads, writePayload_eq, ih, List.flatMap_cons, sendBlocks_append]

/-- The writers send the blocks of the response. -/
theorem writeOut_eq (res : Response) : writeOut res = sendBlocks res.blocks := by
  rw [writeOut, Response.blocks, sendBlocks, sendBlocks_append, writePayloads_eq, writeGif_eq]
  rfl

/-! ## Reading -/

/-- The loop over positions `i` up to `i + left`, the state code and the
opcodes. -/
def readLoop : (left i : Nat) → List.Vector UInt8 queryLen → C Proc (List.Vector UInt8 queryLen)
  | 0, _, queryBuff => return queryBuff
  | left + 1, i, queryBuff => do
    match ← recvInto queryBuff i with
    -- the end of the stream leaves the rest of the buffer null
    | none => return queryBuff
    | some queryBuff => readLoop left (i + 1) queryBuff

/-- `process_query` -/
def processQuery (lib : DataUtils Proc) : C Proc Unit := do
  let cleared := zeroPad queryLen []
  -- the end of the stream before the version shows at the next byte
  let queryBuff := (← recvInto cleared 0).getD cleared
  match ← recvInto queryBuff 1 with
  | none => return ()
  | some queryBuff =>
    let numQueries ← load queryBuff 1
    if numQueries > 5 then
      let error ← errorResponse
      writeOut error
    else
      let queryBuff ← readLoop (2 + numQueries.toNat) 2 queryBuff
      let res ← executeQuery lib (parseQuery queryBuff)
      printResponse lib res
      writeOut res

/-- The loop stores the next bytes of the stream, as many as there are. It can do with
fewer unless the connection breaks. -/
theorem readLoop_run : ∀ (left : Nat) (pre s : Bytes) {p : Proc}, p.input = s →
    (p.broken = true → left ≤ s.length) → pre.length + left ≤ queryLen →
    readLoop left pre.length (zeroPad queryLen pre) p
      = .ok (zeroPad queryLen (pre ++ s.take left)) { p with input := s.drop left }
  | 0, pre, s, p, hin, _, _ => by
    rw [List.take_zero, List.append_nil, List.drop_zero, ← hin]
    rfl
  | left + 1, pre, [], p, hin, hs, _ => by
    have hb : p.broken = false :=
      Bool.eq_false_iff.mpr fun hb => absurd (hs hb) (Nat.not_succ_le_zero left)
    rw [readLoop, bind_of_ok (recvInto_nil hin hb), List.take_nil, List.append_nil, List.drop_nil,
      ← hin]
    rfl
  | left + 1, pre, b :: s, p, hin, hs, hlen => by
    rw [readLoop, bind_of_ok (recvInto_cons hin (by omega))]
    have hrest := readLoop_run left (pre ++ [b]) s (p := { p with input := s }) rfl
      (fun hb => Nat.le_of_succ_le_succ (hs hb)) (by simp; omega)
    rw [List.length_append, List.length_singleton] at hrest
    rw [List.take_succ_cons, List.drop_succ_cons, List.append_cons pre b (s.take left)]
    exact hrest

/-- A connection that breaks before the loop is done ends the process. -/
theorem readLoop_broken : ∀ (left : Nat) (pre s : Bytes) {p : Proc}, p.input = s →
    p.broken = true → s.length < left → pre.length + left ≤ queryLen →
    readLoop left pre.length (zeroPad queryLen pre) p = .error (.exit 1) { p with input := [] }
  | left + 1, pre, [], p, hin, hb, _, _ => by
    rw [readLoop, bind_of_error (recvInto_broken hin hb), ← hin]
  | left + 1, pre, b :: s, p, hin, hb, hs, hlen => by
    rw [readLoop, bind_of_ok (recvInto_cons hin (by omega))]
    have hrest := readLoop_broken left (pre ++ [b]) s (p := { p with input := s }) rfl hb
      (Nat.lt_of_succ_lt_succ hs) (by simp; omega)
    rw [List.length_append, List.length_singleton] at hrest
    exact hrest

/-- What the server does once it has the version and the count. -/
theorem processQuery_counted (lib : DataUtils Proc) {p : Proc} {version numQueries : UInt8}
    {s : Bytes} (hin : p.input = version :: numQueries :: s) :
    processQuery lib p
      = (if numQueries > 5 then errorResponse >>= writeOut
        else do
          let queryBuff ← readLoop (2 + numQueries.toNat) 2 (zeroPad queryLen [version, numQueries])
          let res ← executeQuery lib (parseQuery queryBuff)
          printResponse lib res
          writeOut res) { p with input := s } := by
  have h0 : recvInto (zeroPad queryLen []) 0 p
      = .ok (some (zeroPad queryLen [version])) { p with input := numQueries :: s } :=
    recvInto_cons hin (by decide)
  have h1 : recvInto (zeroPad queryLen [version]) 1 { p with input := numQueries :: s }
      = .ok (some (zeroPad queryLen [version, numQueries])) { p with input := s } :=
    recvInto_cons rfl (show 1 < 9 by omega)
  have hcount : (load (zeroPad queryLen [version, numQueries]) 1 : C Proc UInt8)
      { p with input := s } = .ok numQueries { p with input := s } := rfl
  rw [processQuery]
  dsimp only
  rw [bind_of_ok h0]
  dsimp only [Option.getD_some]
  rw [bind_of_ok h1]
  exact bind_of_ok hcount

/-! ## The answer to a stream -/

/-- The buffer once the query is read. -/
def queryBuffer (s : Bytes) (numQueries : UInt8) : List.Vector UInt8 queryLen :=
  zeroPad queryLen (s.take (4 + numQueries.toNat))

/-- The response to a client that sends `s` and stops. -/
def tcpReply (db : Lookup) : Bytes → Option Response
  | version :: numQueries :: rest =>
    if numQueries > 5 then some errorReply
    else some (replyTo db (parseQuery (queryBuffer (version :: numQueries :: rest) numQueries)))
  | _ => none

section Run

variable {db : Lookup} {s : Bytes} {p : Proc}

/-- The server reads the query, and what is left to do is to write its answer. -/
theorem processQuery_reply {res : Response} (hin : p.input = s) (hb : p.broken = false)
    (hres : tcpReply db s = some res) :
    ∃ rest, processQuery (ofLookup db) p = writeOut res { p with input := rest } := by
  unfold tcpReply at hres
  split at hres
  next version numQueries rest =>
    rw [processQuery_counted (ofLookup db) hin]
    split at hres
    next hbig =>
      obtain rfl := Option.some.inj hres
      rw [if_pos hbig]
      exact ⟨rest, bind_of_ok (errorResponse_run _)⟩
    next hsmall =>
      obtain rfl := Option.some.inj hres
      have hle : numQueries.toNat ≤ 5 := UInt8.le_iff_toNat_le.mp (UInt8.not_lt.mp hsmall)
      have hunbroken : p.broken = true → 2 + numQueries.toNat ≤ rest.length :=
        fun hbroken => by cases hb.symm.trans hbroken
      have hloop := readLoop_run (2 + numQueries.toNat) [version, numQueries] rest
        (p := { p with input := rest }) rfl hunbroken (show 2 + (2 + numQueries.toNat) ≤ 9 by omega)
      have hbuff : [version, numQueries] ++ rest.take (2 + numQueries.toNat)
          = (version :: numQueries :: rest).take (4 + numQueries.toNat) := by
        rw [show 4 + numQueries.toNat = (2 + numQueries.toNat) + 1 + 1 by omega,
          List.take_succ_cons, List.take_succ_cons]
        rfl
      rw [hbuff] at hloop
      rw [if_neg hsmall]
      refine ⟨rest.drop (2 + numQueries.toNat), ?_⟩
      refine (bind_of_ok hloop).trans ?_
      rw [bind_of_ok (executeQuery_ofLookup db _ _), bind_of_ok (printResponse_ofLookup db _ _)]
      rfl
  next => cases hres

/-- A client that stops before the count gets nothing. -/
theorem processQuery_silent {lib : DataUtils Proc} (hin : p.input = s) (hb : p.broken = false)
    (hres : tcpReply db s = none) :
    ∃ rest, processQuery lib p = .ok () { p with input := rest } := by
  have hend : ∀ (buff : List.Vector UInt8 queryLen) (q : Proc), q.input = [] → q.broken = false →
      recvInto buff 1 q = .ok none q := fun _ _ => recvInto_nil
  match s, hres with
  | [], _ =>
    rw [processQuery]
    dsimp only
    rw [bind_of_ok (recvInto_nil hin hb), bind_of_ok (hend _ p hin hb)]
    exact ⟨[], by rw [← hin]; rfl⟩
  | [version], _ =>
    have h0 : recvInto (zeroPad queryLen []) 0 p
        = .ok (some (zeroPad queryLen [version])) { p with input := [] } :=
      recvInto_cons hin (by decide)
    rw [processQuery]
    dsimp only
    rw [bind_of_ok h0, bind_of_ok (hend _ { p with input := [] } rfl hb)]
    exact ⟨[], rfl⟩
  | version :: numQueries :: rest, h =>
    rw [tcpReply] at h
    split at h <;> cases h

/-- Every answer is packed. -/
theorem tcpReply_packed {res : Response} (h : tcpReply db s = some res) :
    ∃ texts flag, Packed res texts flag := by
  unfold tcpReply at h
  split at h
  next =>
    split at h
    next =>
      obtain rfl := Option.some.inj h
      exact ⟨_, _, messageReply_packed 255 invalidQueryMsg⟩
    next =>
      obtain rfl := Option.some.inj h
      exact replyTo_packed db _
  next => cases h

/-- **What the server sends** when every write goes through. -/
theorem processQuery_run (db : Lookup) (os : FullOffers 19004 6) (hin : p.input = s)
    (hb : p.broken = false) (ho : p.offers = os.offers) :
    ∃ q, processQuery (ofLookup db) p = .ok () q ∧
      q.sent = p.sent ++ (tcpReply db s).elim [] fun res => res.blocks.flatten := by
  cases hres : tcpReply db s with
  | none =>
    obtain ⟨rest, hrun⟩ := processQuery_silent hin hb hres
    exact ⟨_, hrun, (List.append_nil p.sent).symm⟩
  | some res =>
    obtain ⟨rest, hrun⟩ := processQuery_reply hin hb hres
    obtain ⟨texts, flag, hpacked⟩ := tcpReply_packed hres
    obtain ⟨q, hq, hsent⟩ := sendBlocks_full res.blocks os (p := { p with input := rest })
      hpacked.blocks_length hpacked.blocks_size ho
    rw [← writeOut_eq] at hq
    exact ⟨q, hrun.trans hq, hsent⟩

end Run

/-! ## Transmission -/

/-- **Delivery**: on a clean schedule the connection carries a prefix of the
encoding at every moment, all of it once when no call fails, and nothing more
after a failed call. -/
theorem writeOut_delivers (res : Response) (p : Proc) {σ : Stream' Offer}
    (h : Clean res.blocks σ) : Delivers (writeOut res) p res.blocks.flatten σ := by
  rw [writeOut_eq]
  exact sendBlocks_delivers h

/-- A kernel with room for a flag at every call, and one that takes the header, one byte
of what follows, and then fails. -/
theorem writeOut_delivers_cut :
    Delivers (writeOut errorReply) ⟨4, [], false, [], []⟩ errorReply.blocks.flatten
      (Stream'.const (.room 19003)) ∧
    Delivers (writeOut errorReply) ⟨4, [], false, [], []⟩ errorReply.blocks.flatten
      (Stream'.cons (.room 3) (Stream'.cons (.room 0) (Stream'.const .fail))) := by
  have hsize := (messageReply_packed 255 invalidQueryMsg).blocks_size
  refine ⟨writeOut_delivers errorReply _ (Clean.of_whole fun b hb _ => ⟨19003, rfl, hsize b hb⟩),
    writeOut_delivers errorReply _ ?_⟩
  rw [errorReply, (messageReply_packed 255 invalidQueryMsg).blocks]
  exact Or.inl ⟨⟨3, rfl, Nat.le_refl 4⟩, Or.inr fun _ _ => rfl⟩

/-- With room for one byte at every call, the version has been sent twice after
two calls. -/
theorem not_delivers_short :
    ¬Delivers (writeOut errorReply) ⟨4, [], false, [], []⟩ errorReply.blocks.flatten
      (Stream'.const (.room 0)) := by
  intro h
  have hsent : sentAfter (writeOut errorReply) ⟨4, [], false, [], []⟩ (Stream'.const (.room 0)) 2
      = [2, 2] := by
    have htwice : sendBlock errorReply.header ⟨4, [], false, [], [.room 0, .room 0]⟩
        = .error .blocked ⟨4, [], false, [2, 2], []⟩ :=
      sendBlock_resends (b := [2, 255, 1, 0]) (k := 0) (j := 0) rfl (by decide) (by decide)
    rw [sentAfter, writeOut_eq, Response.blocks, sendBlocks]
    exact congrArg Proc.sent (finalState_of_error (bind_of_error htwice))
  have hprefix := h.inOrder 2
  rw [hsent, errorReply, (messageReply_packed 255 invalidQueryMsg).blocks] at hprefix
  simp [messageReply, Response.header] at hprefix

end StateProtocol.V2
