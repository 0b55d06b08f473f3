import StateProtocol.Clib.Frame
import StateProtocol.V2.Tcp
import StateProtocol.V2.Udp

/-!
# Replies decode by their own header

A reader of a version 2 reply knows nothing but the format: four bytes of
header, and as many length-prefixed blocks as the third of them says. For a
packed response the reader ends where the reply ends and has found the filled
slots (`Packed.decodes`). As all replies of the two servers are packed,
`replies_decode` holds of every datagram and every stream.
-/

namespace StateProtocol.V2

open StateProtocol.Clib StateProtocol.Data

/-- The reader: the header, the blocks it announces and what is left. -/
def readReply : Bytes → Option (Bytes × List Bytes × Bytes)
  | version :: status :: numResponses :: reserved :: body =>
    (readBlocks numResponses.toNat body).map fun (blocks, left) =>
      ([version, status, numResponses, reserved], blocks, left)
  | _ => none

def Payload.contents (p : Payload) : List Bytes := if p.len < 1 then [] else [p.payload.toList]

def GifPayload.contents (g : GifPayload) : List Bytes :=
  if g.len < 1 then [] else [g.payload.toList]

/-- The payloads of the slots whose length is not null, the flag last. -/
def Response.contents (res : Response) : List Bytes :=
  res.payloads.toList.flatMap Payload.contents ++ res.gif.contents

/-- The bytes `out` are the response `res`, and say so themselves. -/
structure Decodes (res : Response) (out : Bytes) : Prop where
  reads : readReply out = some (res.header, res.contents, [])
  version : res.version = 2
  reserved : res.reserved = 0
  count_pos : 1 ≤ res.numResponses.toNat
  count_le : res.numResponses.toNat ≤ 5
  message : res.status = 254 ∨ res.status = 255 → res.contents.length = 1

/-! ## Packed responses -/

theorem textPayload_contents (data : Bytes) :
    (textPayload data).contents = [(zeroPad maxDataLen data).toList] :=
  if_neg (textPayload_len data)

theorem gifSlot_contents (flag : Option Bytes) :
    (gifSlot flag).contents = flag.toList.map fun data => (zeroPad maxGifLen data).toList := by
  cases flag with
  | none => rfl
  | some data => exact if_neg (gifPayload_len data)

/-- The blocks are framed payloads. -/
theorem textBlock_eq (data : Bytes) : textBlock data = frame (zeroPad maxDataLen data).toList := by
  rw [frame, List.Vector.toList_length]
  rfl

theorem gifBlock_eq (data : Bytes) : gifBlock data = frame (zeroPad maxGifLen data).toList := by
  rw [frame, List.Vector.toList_length]
  rfl

namespace Packed

variable {res : Response} {texts : List Bytes} {flag : Option Bytes}

theorem contents (h : Packed res texts flag) :
    res.contents = texts.map (fun data => (zeroPad maxDataLen data).toList)
      ++ flag.toList.map fun data => (zeroPad maxGifLen data).toList := by
  rw [Response.contents, h.payloads, h.gif, gifSlot_contents, slots,
    padTo_flatMap rfl (by rw [List.length_map]; exact h.room), List.flatMap_map]
  simp only [textPayload_contents]
  rw [← List.map_eq_flatMap]

theorem contents_length (h : Packed res texts flag) :
    res.contents.length = res.numResponses.toNat := by
  rw [h.contents, h.count]
  simp

/-- After the header come the payloads, framed. -/
theorem blocks_frames (h : Packed res texts flag) :
    res.blocks.flatten = res.header ++ (res.contents.map frame).flatten := by
  rw [h.blocks, h.contents, List.flatten_cons, List.map_append, List.map_map, List.map_map,
    List.map_congr_left fun t _ => textBlock_eq t, List.map_congr_left fun g _ => gifBlock_eq g]
  rfl

/-- **A packed response decodes by its own header.** -/
theorem decodes (h : Packed res texts flag) : Decodes res res.blocks.flatten where
  reads := by
    have hsize : ∀ block ∈ res.contents, block.length < 2 ^ 32 := by
      intro block hb
      rw [h.contents] at hb
      rcases List.mem_append.mp hb with hb | hb
      · obtain ⟨t, -, rfl⟩ := List.mem_map.mp hb
        rw [List.Vector.toList_length]
        decide
      · obtain ⟨g, -, rfl⟩ := List.mem_map.mp hb
        rw [List.Vector.toList_length]
        decide
    have hread := readBlocks_frames res.contents [] hsize
    rw [List.append_nil, h.contents_length] at hread
    rw [h.blocks_frames]
    show (readBlocks res.numResponses.toNat (res.contents.map frame).flatten).map _ = _
    rw [hread]
    rfl
  version := h.version
  reserved := h.reserved
  count_pos := by
    rw [h.count]
    exact h.filled
  count_le := by
    have hflag : flag.toList.length ≤ 1 := Option.length_toList_le
    have hroom := h.room
    rw [h.count]
    omega
  message hs := by
    have hne : res.status ≠ 1 := by
      rcases hs with hs | hs
      · rw [hs]
        decide
      · rw [hs]
        decide
    obtain ⟨error, rfl, rfl⟩ := h.message hne
    rw [h.contents]
    rfl

end Packed

/-- More bytes do not change what has been read. -/
theorem readReply_append {bytes header left : Bytes} {blocks : List Bytes} (more : Bytes)
    (h : readReply bytes = some (header, blocks, left)) :
    readReply (bytes ++ more) = some (header, blocks, left ++ more) := by
  unfold readReply at h
  split at h
  next version status numResponses reserved body =>
    obtain ⟨⟨blocks', left'⟩, hread, heq⟩ := Option.map_eq_some_iff.mp h
    cases heq
    exact Option.map_eq_some_iff.mpr ⟨_, readBlocks_append more _ body hread, rfl⟩
  next => cases h

/-- A reply that is cut off does not decode. -/
theorem Decodes.cut {res : Response} {out bytes : Bytes} (h : Decodes res out)
    (hpre : bytes <+: out) (hshort : bytes ≠ out) : readReply bytes = none := by
  obtain ⟨more, rfl⟩ := hpre
  cases hread : readReply bytes with
  | none => rfl
  | some r =>
    obtain ⟨header, blocks, left⟩ := r
    have hall := readReply_append more hread
    rw [h.reads] at hall
    obtain ⟨-, -, hleft⟩ : res.header = header ∧ res.contents = blocks ∧ [] = left ++ more := by
      simpa using hall
    obtain ⟨-, rfl⟩ := List.append_eq_nil_iff.mp hleft.symm
    exact absurd (List.append_nil bytes).symm hshort

/-- **Every reply decodes by its own header.** A datagram is the beginning of the
response structure to it, which decodes; a stream gets nothing, or the writers are
called with the response to it. -/
theorem replies_decode (db : Lookup) :
    (∀ (m : Bytes) (σ : Type) (s : σ), ∃ u, serve (ofLookup db) m s = .ok u s ∧
      u = (udpReply db m).encode.take (calcPacketSize (udpReply db m)) ∧
      Decodes (udpReply db m) u) ∧
    ∀ (s : Bytes) (fds : Nat) (os : FullOffers 19004 6),
      ∃ q, processQuery (ofLookup db) ⟨fds, s, false, [], os.offers⟩ = .ok () q ∧
        (q.sent ≠ [] → ∃ res rest, tcpReply db s = some res ∧
          processQuery (ofLookup db) ⟨fds, s, false, [], os.offers⟩
            = writeOut res ⟨fds, rest, false, [], os.offers⟩ ∧ Decodes res q.sent) := by
  constructor
  · intro m σ s
    obtain ⟨texts, hpacked⟩ := udpReply_packed db m
    refine ⟨_, serve_run db m s, ?_, hpacked.decodes⟩
    rw [calcPacketSize_eq]
    exact List.prefix_iff_eq_take.mp hpacked.blocks_initial
  · intro s fds os
    obtain ⟨q, hq, hsent⟩ := processQuery_run (s := s) (p := ⟨fds, s, false, [], os.offers⟩) db os
      rfl rfl rfl
    refine ⟨q, hq, fun hne => ?_⟩
    cases hres : tcpReply db s with
    | none =>
      rw [hres] at hsent
      exact absurd hsent hne
    | some res =>
      obtain ⟨rest, hrun⟩ := processQuery_reply (p := ⟨fds, s, false, [], os.offers⟩) rfl rfl hres
      obtain ⟨texts, flag, hpacked⟩ := tcpReply_packed hres
      rw [hres] at hsent
      have hout : q.sent = res.blocks.flatten := hsent
      exact ⟨res, rest, rfl, hrun, hout ▸ hpacked.decodes⟩

end StateProtocol.V2
