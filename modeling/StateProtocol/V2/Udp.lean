import StateProtocol.Clib.Socket
import StateProtocol.V2.Wire

/-!
# The version 2 UDP server (`Version2_Server/udpserv2.c`)

One round of the receive loop takes a datagram, cut to the nine bytes of a
query, and sends one datagram back: the beginning of the response structure,
whose size `calc_packet_size` adds up from the slots that are filled. As a
packed response has its filled slots in front, that beginning is what the TCP
server would send block by block (`Packed.blocks_initial`).

A response that is too large is replaced, so everything that leaves fits into
`MAX_PACK_LEN` (`udpReply_size`).
-/

namespace StateProtocol.V2

open StateProtocol.Clib StateProtocol.Data

def maxPackLen : Nat := 500

/-- The loop of `calc_packet_size` over the text slots. -/
def payloadsSize : List Payload → (size : Nat) → Nat
  | [], size => size
  | p :: ps, size => payloadsSize ps (if p.len < 1 then size else size + 124)

/-- `calc_packet_size` -/
def calcPacketSize (response : Response) : Nat :=
  let size := payloadsSize response.payloads.toList headerLen
  if response.gif.len > 0 then size + 19004 else size

/-- One round of the receive loop: the datagram that is sent back. -/
def serve {σ : Type} (lib : DataUtils σ) (datagram : Bytes) : C σ Bytes :=
  let (queryBuff, n) := recvfrom queryLen datagram
  if n < headerLen then do
    let resp ← errorResponse
    sendto resp.encode (calcPacketSize resp)
  else do
    let res ← executeQuery lib (parseQuery queryBuff)
    let size := calcPacketSize res
    -- a flag never fits
    if size > maxPackLen then
      let error ← udpLenResponse
      let sent ← sendto error.encode (calcPacketSize error)
      printResponse lib error
      return sent
    else
      printResponse lib res
      sendto res.encode size

/-! ## The size and the bytes of a packed response -/

theorem payloadsSize_eq (ps : List Payload) (size : Nat) :
    payloadsSize ps size = size + (ps.flatMap Payload.blocks).flatten.length := by
  induction ps generalizing size with
  | nil => rfl
  | cons p ps ih =>
    rw [payloadsSize, ih, List.flatMap_cons, List.flatten_append,
      List.length_append, Payload.blocks]
    split
    · simp
    · simp
      omega

/-- The computed size is that of the blocks. -/
theorem calcPacketSize_eq (res : Response) :
    calcPacketSize res = res.blocks.flatten.length := by
  rw [calcPacketSize, Response.blocks, List.flatten_cons, List.flatten_append,
    List.length_append, List.length_append, payloadsSize_eq, GifPayload.blocks,
    Response.header_length]
  dsimp only [headerLen]
  by_cases h : res.gif.len < 1
  · have h0 : ¬res.gif.len > 0 := by
      rw [UInt32.lt_iff_toNat_lt] at h
      rw [gt_iff_lt, UInt32.lt_iff_toNat_lt]
      simp at h ⊢
      omega
    rw [if_neg h0, if_pos h]
    simp
  · have h0 : res.gif.len > 0 := by
      rw [UInt32.lt_iff_toNat_lt] at h
      rw [gt_iff_lt, UInt32.lt_iff_toNat_lt]
      simp at h ⊢
      omega
    rw [if_pos h0, if_neg h]
    simp
    omega

namespace Packed

variable {res : Response} {texts : List Bytes} {flag : Option Bytes}

theorem size (h : Packed res texts flag) :
    calcPacketSize res = 4 + 124 * texts.length + 19004 * flag.toList.length := by
  rw [calcPacketSize_eq, h.blocks]
  simp [List.length_flatten, Function.comp_def]
  omega

/-- Without a flag the blocks are the beginning of the structure: nothing
stands between the header and the last filled slot. -/
theorem blocks_initial (h : Packed res texts none) : res.blocks.flatten <+: res.encode := by
  have hroom : (texts.map textPayload).length ≤ 4 := by
    rw [List.length_map]
    exact h.room
  have htexts : (texts.map textBlock).flatten = (texts.map textPayload).flatMap Payload.encode := by
    rw [List.flatMap_map, List.flatMap_def]
    exact congrArg _ (List.map_congr_left fun t _ => (textPayload_encode t).symm)
  rw [h.blocks, List.flatten_cons, Response.encode, h.payloads, slots, padTo_toList,
    List.take_of_length_le hroom, List.flatMap_append, ← htexts]
  refine (List.prefix_append_right_inj _).mpr ?_
  rw [List.append_assoc]
  simp

end Packed

/-! ## The answer to a datagram -/

/-- The response that leaves for a datagram. -/
def udpReply (db : Lookup) (datagram : Bytes) : Response :=
  if datagram.length < 4 then errorReply
  else
    let res := replyTo db (parseQuery (zeroPad queryLen datagram))
    if calcPacketSize res > maxPackLen then tooLargeReply else res

section

variable {db : Lookup} {m : Bytes}

/-- What leaves is packed, has no flag and fits. -/
theorem udpReply_packed (db : Lookup) (m : Bytes) :
    ∃ texts, Packed (udpReply db m) texts none := by
  unfold udpReply
  split
  · exact ⟨_, messageReply_packed 255 invalidQueryMsg⟩
  · dsimp only
    split
    · exact ⟨_, messageReply_packed 254 tooLargeMsg⟩
    next hsize =>
      obtain ⟨texts, flag, h⟩ := replyTo_packed db (zeroPad queryLen m)
      cases flag with
      | none => exact ⟨texts, h⟩
      | some g =>
        rw [h.size] at hsize
        exact absurd (show 500 < _ by simp) hsize

theorem udpReply_size (db : Lookup) (m : Bytes) :
    (udpReply db m).blocks.flatten.length ≤ maxPackLen := by
  obtain ⟨texts, h⟩ := udpReply_packed db m
  have hroom := h.room
  rw [← calcPacketSize_eq, h.size]
  show _ ≤ 500
  simp
  omega

/-- A datagram without a header is answered with the error response. -/
theorem serve_short {σ : Type} (lib : DataUtils σ) (hm : m.length < 4) (s : σ) :
    serve lib m s = .ok errorReply.blocks.flatten s := by
  have hn : min m.length queryLen < headerLen := (Nat.min_le_left _ _).trans_lt hm
  rw [serve]
  dsimp only [recvfrom]
  rw [if_pos hn, bind_of_ok (errorResponse_run s), calcPacketSize_eq]
  exact sendto_run (messageReply_packed 255 invalidQueryMsg).blocks_initial s

/-- What leaves is what the executor returned, if that fits. -/
theorem serve_executed {σ : Type} {lib : DataUtils σ} {res : Response} {texts : List Bytes}
    {flag : Option Bytes} {s t : σ} (hm : ¬m.length < 4)
    (hrun : executeQuery lib (parseQuery (zeroPad queryLen m)) s = .ok res t)
    (hpacked : Packed res texts flag) :
    serve lib m s
      = .ok (if calcPacketSize res > maxPackLen then tooLargeReply else res).blocks.flatten t := by
  have hn : ¬min m.length queryLen < headerLen := by
    show ¬min m.length 9 < 4
    omega
  rw [serve]
  dsimp only [recvfrom]
  rw [if_neg hn, bind_of_ok hrun]
  by_cases hlarge : calcPacketSize res > maxPackLen
  · have hsend := sendto_run (messageReply_packed 254 tooLargeMsg).blocks_initial t
    rw [← calcPacketSize_eq] at hsend
    rw [if_pos hlarge, if_pos hlarge, bind_of_ok (udpLenResponse_run t)]
    refine (bind_of_ok hsend).trans ?_
    exact bind_of_ok (printResponse_text rfl t)
  · -- a flag would not have fitted
    obtain rfl : flag = none := by
      cases flag with
      | none => rfl
      | some g =>
        rw [hpacked.size] at hlarge
        exact absurd (show 500 < _ by simp) hlarge
    rw [if_neg hlarge, if_neg hlarge, bind_of_ok (printResponse_text hpacked.gif t),
      calcPacketSize_eq]
    exact sendto_run hpacked.blocks_initial t

/-- **What the server sends back**: the beginning of the response structure,
which is the blocks of the response. -/
theorem serve_run {σ : Type} (db : Lookup) (m : Bytes) (s : σ) :
    serve (ofLookup db) m s = .ok (udpReply db m).blocks.flatten s := by
  rw [udpReply]
  by_cases hm : m.length < 4
  · rw [if_pos hm]
    exact serve_short (ofLookup db) hm s
  · obtain ⟨texts, flag, hpacked⟩ := replyTo_packed db (zeroPad queryLen m)
    rw [if_neg hm]
    exact serve_executed hm (executeQuery_ofLookup db _ s) hpacked

end

end StateProtocol.V2
