import StateProtocol.Data.Fields

/-!
# The packets of version 1 (`tcpserv.h`, `udpserv.h`)

A version 1 query is four bytes. A response is a version, a status, a length and
a payload of a fixed size, 19000 bytes over TCP and 500 over UDP; so it is one
structure with the size as a parameter.
-/

namespace StateProtocol.V1

open StateProtocol.Clib StateProtocol.Data

def queryLength : Nat := 4
def maxDataLen : Nat := 19000
def maxPackLen : Nat := 500

/-- `struct request` -/
structure Request where
  version : UInt8
  opcode : UInt8
  char1 : UInt8
  char2 : UInt8
deriving DecidableEq

/-- `struct response` with a payload of `n` bytes. -/
structure Response (n : Nat) where
  version : UInt8
  status : UInt8
  len : UInt32
  payload : List.Vector UInt8 n
deriving DecidableEq

/-- The buffer seen as a `struct request`. -/
def castRequest (queryBuff : List.Vector UInt8 queryLength) : Request where
  version := queryBuff.get ⟨0, by decide⟩
  opcode := queryBuff.get ⟨1, by decide⟩
  char1 := queryBuff.get ⟨2, by decide⟩
  char2 := queryBuff.get ⟨3, by decide⟩

/-- The memory image of a `struct response`. -/
def Response.encode {n : Nat} (res : Response n) : Bytes :=
  [res.version, res.status] ++ wordBytes res.len ++ res.payload.toList

/-- A cleared response with its version and length set. -/
def Response.init (n : Nat) : Response n := ⟨1, 0, htonl (UInt32.ofNat n), zeroPad n []⟩

/-- The response that carries `message`. -/
def reply (n : Nat) (status : UInt8) (message : Bytes) : Response n :=
  { Response.init n with status := status, payload := zeroPad n message }

theorem Response.encode_length {n : Nat} (res : Response n) : res.encode.length = 6 + n := by
  rw [Response.encode, List.length_append, List.length_append, wordBytes_length,
    List.Vector.toList_length]
  rfl

/-- A response can be told from its bytes. -/
theorem Response.encode_injective {n : Nat} {res res' : Response n}
    (h : res.encode = res'.encode) : res = res' := by
  obtain ⟨hhead, hpay⟩ := List.append_inj h rfl
  obtain ⟨hfirst, hlen⟩ := List.append_inj hhead rfl
  obtain ⟨hversion, hrest⟩ := List.cons.inj hfirst
  cases res
  cases res'
  congr
  · exact (List.cons.inj hrest).1
  · exact wordBytes_injective hlen
  · exact List.Vector.toList_injective hpay

/-- The text of the payload, up to the first null. -/
def Response.text {n : Nat} (res : Response n) : Bytes := (cstr res.payload.toList).bytes

theorem reply_text {n : Nat} {status : UInt8} {message : Bytes} (h0 : 0 ∉ message)
    (hn : message.length ≤ n) : (reply n status message).text = message := by
  rw [Response.text, reply, cstr_zeroPad h0, List.take_of_length_le hn]

/-- The query at the start of a message. -/
def queryOf (s : Bytes) : Request := ⟨s.getD 0 0, s.getD 1 0, s.getD 2 0, s.getD 3 0⟩

theorem castRequest_zeroPad (s : Bytes) : castRequest (zeroPad queryLength s) = queryOf s := by
  rw [castRequest, zeroPad_get, zeroPad_get, zeroPad_get, zeroPad_get]
  rfl

/-! ## Messages -/

def versionMsg : Bytes := ascii "Error - Recieved incorrect protocol version"

/-- `snprintf(message, 29, "Error - No such opcode - %d", opcode)` -/
def opcodeMsg (opcode : UInt8) : CString :=
  cstr ((ascii "Error - No such opcode - " ++ decimal opcode).take 28)

/-- The message fits into its buffer. -/
theorem opcodeMsg_bytes (opcode : UInt8) :
    (opcodeMsg opcode).bytes = ascii "Error - No such opcode - " ++ decimal opcode := by
  have hlen : (ascii "Error - No such opcode - ").length = 25 := by decide
  have hdec := decimal_length_le opcode
  rw [opcodeMsg, List.take_of_length_le (by rw [List.length_append]; omega), cstr_bytes_of_noNull]
  rw [List.mem_append, not_or]
  exact ⟨by decide, decimal_noNull opcode⟩

theorem versionMsg_length : versionMsg.length = 43 := by decide

theorem opcodeMsg_length_le (opcode : UInt8) : (opcodeMsg opcode).bytes.length ≤ 28 :=
  (List.takeWhile_sublist _).length_le.trans (List.length_take_le _ _)

theorem noStateMsg_length_le (char1 char2 : UInt8) :
    (noStateMsg char1 char2).bytes.length ≤ 30 :=
  (List.takeWhile_sublist _).length_le.trans (List.length_take_le _ _)

end StateProtocol.V1
