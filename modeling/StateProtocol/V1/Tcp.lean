import StateProtocol.Clib.Socket
import StateProtocol.V1.Outcome

/-!
# The version 1 TCP server (`Version1_Server/tcpserv.c`)

`process_query` reads four bytes, gives up on a null state character, and then
checks the version and the opcode. The version check answers but does not end
the function: its `if` has no `else`, so the opcode is answered as well
(`checkVersion`, `answer`).

`processQuery_leaves` says what is on the connection when the process is done: the
version message if the version is wrong, followed in any case by the answer to
the opcode.
-/

namespace StateProtocol.V1

open StateProtocol.Clib StateProtocol.Data

/-- `write_out`; its parameter `len` is an `int`. -/
def writeOut (res : Response maxDataLen) (message : Bytes) (len : Nat) : C Proc Unit := do
  let payload ← copyLoop message (intCount len) 0 res.payload
  if ← writeFromStart { res with payload := payload }.encode then return ()
  else throw (.exit 1)

/-- The loop that reads positions `i` up to `i + left` of a buffer of fixed size;
a stream that ends before is too short. -/
def readLoop {n : Nat} : (left i : Nat) → List.Vector UInt8 n → C Proc (List.Vector UInt8 n)
  | 0, _, buff => return buff
  | left + 1, i, buff => do
    match ← recvInto buff i with
    | none => throw (.exit 1)
    | some buff => readLoop left (i + 1) buff

/-- The version check of `process_query`; the response keeps the status it was
given. -/
def checkVersion (query : Request) (res : Response maxDataLen) :
    C Proc (Response maxDataLen) :=
  if query.version ≠ 1 then do
    let res := { res with status := 255 }
    writeOut res versionMsg versionMsg.length
    -- the function does not end here: its caller goes on to the opcode
    return res
  else return res

/-- The rest of `process_query`, the chain of the opcodes. -/
def answer (lib : DataUtils Proc) (query : Request) (res : Response maxDataLen) : C Proc Unit :=
  if query.opcode < 1 ∨ query.opcode > 5 then
    let message := opcodeMsg query.opcode
    writeOut { res with status := 255 } message.bytes message.strlen
  else if query.opcode ≠ 5 then do
    match ← lib.findData query.char1 query.char2 query.opcode.toNat with
    | none =>
      let message := noStateMsg query.char1 query.char2
      writeOut { res with status := 255 } message.bytes message.strlen
    | some data =>
      let data ← cutLast query.opcode data
      writeOut { res with status := 1 } data.bytes data.strlen
  else do
    match ← lib.loadGif query.char1 query.char2 with
    | none =>
      let message := noStateMsg query.char1 query.char2
      writeOut { res with status := 255 } message.bytes message.strlen
    | some bytes => writeOut { res with status := 1 } bytes bytes.length

/-- What `process_query` does once the query is read. -/
def respond (lib : DataUtils Proc) (query : Request) : C Proc Unit :=
  if query.char1 = 0 ∨ query.char2 = 0 then throw (.exit 1)
  else do
    let res ← checkVersion query (Response.init maxDataLen)
    answer lib query res

/-- `process_query` -/
def processQuery (lib : DataUtils Proc) : C Proc Unit := do
  let queryBuff ← readLoop queryLength 0 (zeroPad queryLength [])
  respond lib (castRequest queryBuff)

/-! ## Reading -/

theorem readLoop_run {n : Nat} : ∀ (left : Nat) (pre s : Bytes) {p : Proc}, p.input = s →
    left ≤ s.length → pre.length + left ≤ n →
    readLoop left pre.length (zeroPad n pre) p
      = .ok (zeroPad n (pre ++ s.take left)) { p with input := s.drop left }
  | 0, pre, s, p, hin, _, _ => by
    rw [List.take_zero, List.append_nil, List.drop_zero, ← hin]
    rfl
  | left + 1, pre, [], p, _, hs, _ => absurd hs (Nat.not_succ_le_zero left)
  | left + 1, pre, b :: s, p, hin, hs, hlen => by
    rw [readLoop, bind_of_ok (recvInto_cons hin (by omega))]
    have hrest := readLoop_run (n := n) left (pre ++ [b]) s (p := { p with input := s }) rfl
      (Nat.le_of_succ_le_succ hs) (by simp; omega)
    rw [List.length_append, List.length_singleton] at hrest
    rw [List.take_succ_cons, List.drop_succ_cons, List.append_cons pre b (s.take left)]
    exact hrest

/-- A stream that ends too early ends the process, in one way or the other. -/
theorem readLoop_short {n : Nat} : ∀ (left : Nat) (pre s : Bytes) {p : Proc}, p.input = s →
    s.length < left → pre.length + left ≤ n →
    readLoop left pre.length (zeroPad n pre) p
      = .error (.exit 1) { p with input := [] }
  | 0, _, s, _, _, hs, _ => absurd hs (Nat.not_lt_zero s.length)
  | left + 1, pre, [], p, hin, _, _ => by
    have hp : { p with input := [] } = p := by rw [← hin]
    rw [readLoop, hp]
    cases hb : p.broken with
    | true => exact bind_of_error (recvInto_broken hin hb)
    | false =>
      rw [bind_of_ok (recvInto_nil hin hb)]
      rfl
  | left + 1, pre, b :: s, p, hin, hs, hlen => by
    rw [readLoop, bind_of_ok (recvInto_cons hin (by omega))]
    have hrest := readLoop_short (n := n) left (pre ++ [b]) s (p := { p with input := s }) rfl
      (Nat.lt_of_succ_lt_succ hs) (by simp; omega)
    rw [List.length_append, List.length_singleton] at hrest
    exact hrest

section Run

variable {lib : DataUtils Proc} {s : Bytes} {p : Proc}

theorem processQuery_short (hin : p.input = s) (hs : s.length < 4) :
    processQuery lib p = .error (.exit 1) { p with input := [] } :=
  bind_of_error (readLoop_short 4 [] s hin hs (Nat.le_refl 4))

theorem processQuery_reads (hin : p.input = s) (hs : 4 ≤ s.length) :
    processQuery lib p = respond lib (queryOf s) { p with input := s.drop 4 } := by
  have hread := readLoop_run 4 [] s hin hs (Nat.le_refl 4)
  have hquery : castRequest (zeroPad queryLength (s.take 4)) = queryOf s := by
    rw [castRequest_zeroPad, queryOf, getD_take (by omega), getD_take (by omega),
      getD_take (by omega), getD_take (by omega)]
    rfl
  rw [← hquery]
  exact bind_of_ok hread

/-! ## Writing -/

/-- One call of `write_out` puts one response on the connection. -/
theorem writeOut_run {status : UInt8} {message : Bytes} {calls : Nat}
    (os : FullOffers 19006 (calls + 1)) (ho : p.offers = os.offers)
    (hlen : message.length ≤ maxDataLen) :
    writeOut { Response.init maxDataLen with status := status } message message.length p
      = .ok () { p with
          sent := p.sent ++ (reply maxDataLen status message).encode
          offers := os.tail.offers } := by
  have hint : intCount message.length = message.length :=
    intCount_of_lt (hlen.trans_lt (show 19000 < 2 ^ 31 by omega))
  have hcopy : copyLoop message message.length 0 (zeroPad maxDataLen []) p = _ :=
    copyLoop_zeroPad (Nat.le_refl _) hlen p
  rw [List.take_length] at hcopy
  have hsize : (reply maxDataLen status message).encode.length ≤ 19006 :=
    (Response.encode_length _).le
  rw [writeOut, hint]
  refine (bind_of_ok hcopy).trans ?_
  exact bind_of_ok (os.writeFromStart ho hsize)

end Run

/-! ## On the files -/

section Files

variable {host : Host} {db : Bytes} {p : Proc} {calls : Nat}

/-- The end of a run that had sent `before`: the process has sent one more
response and returns, or `find_data` has stopped it. -/
def Leaves (run : EStateM.Result Halt Proc Unit) (before : Bytes) :
    Option (UInt8 × Bytes) → Prop
  | none => ∃ halt q, run = .error halt q ∧ q.sent = before
  | some (status, message) =>
    ∃ q, run = .ok () q ∧ q.sent = before ++ (reply maxDataLen status message).encode

/-- A flag that is asked for is not larger than a payload. -/
def FlagFits (host : Host) (query : Request) : Prop :=
  query.opcode = 5 → ∀ data,
    host.flags (constructGifFilename query.char1 query.char2) = some data →
    data.length ≤ maxDataLen

/-- The answer to the opcode. -/
theorem answer_run (query : Request) (status : UInt8) (hdb : host.statedb = some db)
    (hfds : p.fds < host.maxFds) (hflag : FlagFits host query)
    (os : FullOffers 19006 (calls + 1)) (ho : p.offers = os.offers) :
    Leaves (answer (onDisk host) query { Response.init maxDataLen with status := status } p)
      p.sent (outcome db host.flags query) := by
  have hmsg := (opcodeMsg_length_le query.opcode).trans (show 28 ≤ maxDataLen by decide)
  have hnostate := (noStateMsg_length_le query.char1 query.char2).trans
    (show 30 ≤ maxDataLen by decide)
  unfold outcome answer
  by_cases hrange : query.opcode < 1 ∨ query.opcode > 5
  · rw [if_pos hrange, if_pos hrange]
    exact ⟨_, writeOut_run os ho hmsg, rfl⟩
  · rw [if_neg hrange, if_neg hrange]
    by_cases h5 : query.opcode ≠ 5
    · rw [if_pos h5, if_pos h5]
      have hfind : (onDisk host).findData query.char1 query.char2 query.opcode.toNat p = _ :=
        findData_run hdb hfds
      cases hfound : findIn db query.char1 query.char2 query.opcode.toNat with
      | error halt =>
        rw [hfound] at hfind
        exact ⟨halt, _, bind_of_error hfind, rfl⟩
      | ok r =>
        rw [hfound] at hfind
        rw [bind_of_ok hfind]
        cases r with
        | none => exact ⟨_, writeOut_run os ho hnostate, rfl⟩
        | some data =>
          obtain ⟨hne, hlen⟩ := findIn_spec hfound
          have hcut : (cutText query.opcode data).bytes.length ≤ maxDataLen :=
            (cutText_strlen_le.trans hlen).trans (show 159 ≤ 19000 by omega)
          dsimp only
          rw [bind_of_ok (cutLast_run hne _)]
          exact ⟨_, writeOut_run os ho hcut, rfl⟩
    · rw [if_neg h5, if_neg h5]
      have hload : (onDisk host).loadGif query.char1 query.char2 p = _ := loadGif_run hfds
      rw [bind_of_ok hload]
      cases hfile : host.flags (constructGifFilename query.char1 query.char2) with
      | none => exact ⟨_, writeOut_run os ho hnostate, rfl⟩
      | some data => exact ⟨_, writeOut_run os ho (hflag (not_not.mp h5) data hfile), rfl⟩

/-- What the version check puts on the connection. -/
def versionPart (query : Request) : Bytes :=
  if query.version ≠ 1 then (reply maxDataLen 255 versionMsg).encode else []

/-- **What goes out for a query**: the version check's part and the answer to
the opcode. -/
theorem respond_run (query : Request) (hnull : ¬(query.char1 = 0 ∨ query.char2 = 0))
    (hdb : host.statedb = some db) (hfds : p.fds < host.maxFds) (hflag : FlagFits host query)
    (os : FullOffers 19006 2) (ho : p.offers = os.offers) :
    Leaves (respond (onDisk host) query p) (p.sent ++ versionPart query)
      (outcome db host.flags query) := by
  rw [respond, if_neg hnull]
  unfold checkVersion versionPart
  by_cases hv : query.version ≠ 1
  · have hlen : versionMsg.length ≤ maxDataLen := versionMsg_length.trans_le (by decide)
    have hfirst : (do
        let res := { Response.init maxDataLen with status := 255 }
        writeOut res versionMsg versionMsg.length
        return res : C Proc (Response maxDataLen)) p = _ := bind_of_ok (writeOut_run os ho hlen)
    rw [if_pos hv, if_pos hv, bind_of_ok hfirst]
    exact answer_run query 255 hdb hfds hflag os.tail rfl
  · rw [if_neg hv, if_neg hv, List.append_nil]
    exact answer_run query 0 hdb hfds hflag os ho

/-- What a query leaves on the connection of a process that serves it. -/
theorem processQuery_leaves {s : Bytes} (hdb : host.statedb = some db)
    (hflag : FlagFits host (queryOf s)) (os : FullOffers 19006 2) (broken : Bool)
    (hs : 4 ≤ s.length) (h1 : (queryOf s).char1 ≠ 0) (h2 : (queryOf s).char2 ≠ 0) :
    Leaves (processQuery (onDisk host) ⟨4, s, broken, [], os.offers⟩) (versionPart (queryOf s))
      (outcome db host.flags (queryOf s)) := by
  rw [processQuery_reads rfl hs]
  exact respond_run (p := ⟨4, s.drop 4, broken, [], os.offers⟩) (queryOf s)
    (not_or.mpr ⟨h1, h2⟩) hdb (fresh_fds host) hflag os rfl

/-- For a query of version 1 that is the answer to the opcode alone. -/
theorem processQuery_answers {opcode char1 char2 : UInt8} (hdb : host.statedb = some db)
    (hflag : FlagFits host ⟨1, opcode, char1, char2⟩) (os : FullOffers 19006 2)
    (h1 : char1 ≠ 0) (h2 : char2 ≠ 0) :
    Leaves (processQuery (onDisk host) ⟨4, [1, opcode, char1, char2], false, [], os.offers⟩) []
      (outcome db host.flags ⟨1, opcode, char1, char2⟩) := by
  have hversion : versionPart (queryOf [1, opcode, char1, char2]) = [] :=
    if_neg (not_not.mpr rfl)
  have hleaves := processQuery_leaves (s := [1, opcode, char1, char2]) hdb hflag os false
    (Nat.le_refl 4) h1 h2
  rw [hversion] at hleaves
  exact hleaves

end Files

end StateProtocol.V1
