import StateProtocol.Data.Library

/-!
# Parsing and executing a version 2 query (`lib/v2_utils.c`)

The structures of the packets, the parser and the executor, as the two servers
share them. A query is a buffer of nine bytes, `version, num_queries, char1,
char2` and five opcode positions, with null where the client sent nothing; a
response is a packed structure with four text slots and one flag slot, where a
slot whose length field is null is empty.

`parse_query` counts the opcodes that are not null over all five positions.
`execute_query` runs the first `num_queries` positions, whatever they hold, and
gives up with the error response at the first lookup that fails.
-/

namespace StateProtocol.V2

open StateProtocol.Clib StateProtocol.Data

/-! ## Packets -/

def maxOpcodes : Nat := 5
def maxDataLen : Nat := 120
def maxGifLen : Nat := 19000
def queryLen : Nat := 9
def headerLen : Nat := 4

/-- `struct payload` -/
structure Payload where
  len : UInt32
  payload : List.Vector UInt8 maxDataLen
deriving DecidableEq

/-- `struct gif_payload` -/
structure GifPayload where
  len : UInt32
  payload : List.Vector UInt8 maxGifLen
deriving DecidableEq

/-- `struct request` -/
structure Request where
  version : UInt8
  numQueries : UInt8
  char1 : UInt8
  char2 : UInt8
  opcodes : List.Vector UInt8 maxOpcodes
deriving DecidableEq

/-- `struct response` -/
structure Response where
  version : UInt8
  status : UInt8
  numResponses : UInt8
  reserved : UInt8
  payloads : List.Vector Payload 4
  gif : GifPayload
deriving DecidableEq

/-- A cleared `struct payload`. -/
def Payload.zero : Payload := ⟨0, zeroPad maxDataLen []⟩

/-- A cleared `struct gif_payload`. -/
def GifPayload.zero : GifPayload := ⟨0, zeroPad maxGifLen []⟩

/-- The memory image of a `struct payload`. -/
def Payload.encode (p : Payload) : Bytes := wordBytes p.len ++ p.payload.toList

def GifPayload.encode (g : GifPayload) : Bytes := wordBytes g.len ++ g.payload.toList

def Response.header (res : Response) : Bytes :=
  [res.version, res.status, res.numResponses, res.reserved]

/-- The memory image of a `struct response`. -/
def Response.encode (res : Response) : Bytes :=
  res.header ++ (res.payloads.toList.flatMap Payload.encode ++ res.gif.encode)

@[simp] theorem Response.header_length (res : Response) : res.header.length = 4 := rfl

@[simp] theorem Payload.encode_length (p : Payload) : p.encode.length = 124 := by
  rw [Payload.encode, List.length_append, wordBytes_length, List.Vector.toList_length]
  rfl

@[simp] theorem GifPayload.encode_length (g : GifPayload) : g.encode.length = 19004 := by
  rw [GifPayload.encode, List.length_append, wordBytes_length, List.Vector.toList_length]
  rfl

/-! ## `parse_query` -/

/-- The counting loop over the opcode positions: how many are not null, and how
many of these ask for text; nothing when one is out of range. -/
def countOpcodes : List UInt8 → (actual textField : Nat) → Option (Nat × Nat)
  | [], actual, textField => some (actual, textField)
  | q :: qs, actual, textField =>
    if q ≠ 0 then
      if q < 1 ∨ q > 5 then none
      else if q ≠ 5 then countOpcodes qs (actual + 1) (textField + 1)
      else countOpcodes qs (actual + 1) textField
    else countOpcodes qs actual textField

/-- The buffer seen as a `struct request`. -/
def castRequest (queryBuff : List.Vector UInt8 queryLen) : Request where
  version := queryBuff.get ⟨0, by decide⟩
  numQueries := queryBuff.get ⟨1, by decide⟩
  char1 := queryBuff.get ⟨2, by decide⟩
  char2 := queryBuff.get ⟨3, by decide⟩
  opcodes := queryBuff.drop 4

/-- The request in a message that was put into a cleared buffer. -/
theorem castRequest_zeroPad (m : Bytes) : castRequest (zeroPad queryLen m) =
    ⟨m.getD 0 0, m.getD 1 0, m.getD 2 0, m.getD 3 0, zeroPad maxOpcodes (m.drop 4)⟩ := by
  rw [castRequest, zeroPad_get, zeroPad_get, zeroPad_get, zeroPad_get]
  exact congrArg (Request.mk _ _ _ _) (List.Vector.toList_injective (zeroPad_drop 9 4 m))

/-- `parse_query` -/
def parseQuery (queryBuff : List.Vector UInt8 queryLen) : Option Request :=
  let req := castRequest queryBuff
  if req.version ≠ 2 then none
  else if req.numQueries < 1 ∨ req.numQueries > 5 then none
  else
    match countOpcodes req.opcodes.toList 0 0 with
    | none => none
    | some (actual, textField) =>
      -- how many are not null, not where they stand
      if req.numQueries.toNat ≠ actual then none
      else if actual = 0 then none
      else if textField > 4 then none
      else if req.char1 = 0 ∨ req.char2 = 0 then none
      else some req

/-! ## The two error responses -/

/-- A response with one message: `error_response` and `udp_len_response` differ
in the status and the text. -/
def messageResponse {σ : Type} (status : UInt8) (error : Bytes) : C σ Response := do
  let payload ← copyLoop error error.length 0 (zeroPad maxDataLen [])
  let payloads ← store (List.Vector.replicate 4 Payload.zero) 0 ⟨htonl 120, payload⟩
  return ⟨2, status, 1, 0, payloads, GifPayload.zero⟩

def invalidQueryMsg : Bytes :=
  ascii "Invalid query.  Please review the protocol and valid options and try again."

def tooLargeMsg : Bytes := ascii "Response is too large for UDP - try TCP"

/-- `error_response` -/
def errorResponse {σ : Type} : C σ Response := messageResponse 255 invalidQueryMsg

/-- `udp_len_response` -/
def udpLenResponse {σ : Type} : C σ Response := messageResponse 254 tooLargeMsg

/-! ## `execute_query` -/

/-- `handle_opp`: the string of the database, as far as it fits. -/
def handleOpp {σ : Type} (lib : DataUtils σ) (code char1 char2 : UInt8) : C σ Payload := do
  match ← lib.findData char1 char2 code.toNat with
  | none => return Payload.zero
  | some data =>
    let payload ← copyLoop data.bytes (min maxDataLen data.strlen) 0 (zeroPad maxDataLen [])
    return ⟨htonl 120, payload⟩

/-- `handle_gif_opp`: the flag, as far as it fits. -/
def handleGifOpp {σ : Type} (lib : DataUtils σ) (char1 char2 : UInt8) : C σ GifPayload := do
  match ← lib.loadGif char1 char2 with
  | none => return GifPayload.zero
  | some data =>
    let payload ← copyLoop data (min maxGifLen data.length) 0 (zeroPad maxGifLen [])
    return ⟨htonl 19000, payload⟩

/-- The local variables of the loop. -/
structure Progress where
  payloads : List.Vector Payload 4
  gif : GifPayload
  sentGif : Nat
  currPayload : Nat

def Progress.init : Progress := ⟨List.Vector.replicate 4 Payload.zero, GifPayload.zero, 0, 0⟩

/-- The loop over the first `num_queries` opcode positions; nothing when a
lookup fails. -/
def executeLoop {σ : Type} (lib : DataUtils σ) (req : Request) :
    (left i : Nat) → Progress → C σ (Option Progress)
  | 0, _, st => return some st
  | left + 1, i, st => do
    let opcode ← load req.opcodes i
    -- a null that the parser has skipped is run as a text opcode
    if opcode = 5 then
      let gif ← handleGifOpp lib req.char1 req.char2
      if gif.len < 1 then return none
      else executeLoop lib req left (i + 1) { st with gif := gif, sentGif := 1 }
    else
      let attempt ← handleOpp lib opcode req.char1 req.char2
      if attempt.len < 1 then return none
      else
        let payloads ← store st.payloads st.currPayload attempt
        executeLoop lib req left (i + 1)
          { st with payloads := payloads, currPayload := st.currPayload + 1 }

/-- `execute_query`; the null pointer is a query that was rejected. -/
def executeQuery {σ : Type} (lib : DataUtils σ) : Option Request → C σ Response
  | none => errorResponse
  | some req => do
    match ← executeLoop lib req req.numQueries.toNat 0 Progress.init with
    | none => errorResponse
    | some st =>
      return ⟨2, 1, UInt8.ofNat (st.currPayload + st.sentGif), 0, st.payloads, st.gif⟩

/-- The part of `print_response` that leaves a trace: a flag is saved locally. -/
def printResponse {σ : Type} (lib : DataUtils σ) (res : Response) : C σ Unit :=
  if res.gif.len < 1 then pure () else lib.saveGif 116 116 res.gif.payload.toList

end StateProtocol.V2
