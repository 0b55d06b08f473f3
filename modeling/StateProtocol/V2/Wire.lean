import StateProtocol.V2.Execute

/-!
# A version 2 response on the wire

A slot travels as its length in network order and its bytes; an empty slot does
not travel. `Response.blocks` are the pieces that go out, the header first.

Every response of the program is `Packed`: its strings stand in the first slots
without a gap, with the flag behind them, and the header counts them
(`replyTo_packed`). What both transports send, and what a reader makes of it, is
derived from that.
-/

namespace StateProtocol.V2

open StateProtocol.Clib StateProtocol.Data

/-! ## Slots -/

/-- A string of the database on the wire. -/
def textBlock (data : Bytes) : Bytes := beBytes 120 ++ (zeroPad maxDataLen data).toList

/-- A flag on the wire. -/
def gifBlock (data : Bytes) : Bytes := beBytes 19000 ++ (zeroPad maxGifLen data).toList

theorem textPayload_encode (data : Bytes) : (textPayload data).encode = textBlock data :=
  congrArg (· ++ _) (wordBytes_htonl 120)

theorem gifPayload_encode (data : Bytes) : (gifPayload data).encode = gifBlock data :=
  congrArg (· ++ _) (wordBytes_htonl 19000)

@[simp] theorem textBlock_length (data : Bytes) : (textBlock data).length = 124 := by
  rw [← textPayload_encode, Payload.encode_length]

@[simp] theorem gifBlock_length (data : Bytes) : (gifBlock data).length = 19004 := by
  rw [← gifPayload_encode, GifPayload.encode_length]

/-! ## Blocks -/

def Payload.blocks (p : Payload) : List Bytes := if p.len < 1 then [] else [p.encode]

def GifPayload.blocks (g : GifPayload) : List Bytes := if g.len < 1 then [] else [g.encode]

/-- What goes out for a response, piece by piece. -/
def Response.blocks (res : Response) : List Bytes :=
  res.header :: (res.payloads.toList.flatMap Payload.blocks ++ res.gif.blocks)

theorem textPayload_blocks (data : Bytes) : (textPayload data).blocks = [textBlock data] := by
  rw [Payload.blocks, if_neg (textPayload_len data), textPayload_encode]

theorem gifSlot_blocks (flag : Option Bytes) :
    (gifSlot flag).blocks = flag.toList.map gifBlock := by
  cases flag with
  | none => rfl
  | some data =>
    rw [gifSlot, GifPayload.blocks, if_neg (gifPayload_len data), gifPayload_encode]
    rfl

/-! ## The responses of the program -/

/-- The response carries the strings `texts` and the flag, and its header says
so. -/
structure Packed (res : Response) (texts : List Bytes) (flag : Option Bytes) : Prop where
  version : res.version = 2
  reserved : res.reserved = 0
  count : res.numResponses.toNat = texts.length + flag.toList.length
  payloads : res.payloads = slots (texts.map textPayload)
  gif : res.gif = gifSlot flag
  room : texts.length ≤ 4
  filled : 1 ≤ texts.length + flag.toList.length
  /-- a message stands alone -/
  message : res.status ≠ 1 → ∃ error, texts = [error] ∧ flag = none

/-- An error or a size message. -/
theorem messageReply_packed (status : UInt8) (error : Bytes) :
    Packed (messageReply status error) [error] none where
  version := rfl
  reserved := rfl
  count := rfl
  payloads := rfl
  gif := rfl
  room := show 1 ≤ 4 by omega
  filled := Nat.le_refl 1
  message _ := ⟨error, rfl, rfl⟩

section

variable {db : Lookup} {char1 char2 : UInt8} {ops : List UInt8} {a : Answer} {res : Response}
  {texts : List Bytes} {flag : Option Bytes}

/-- Each opcode that was answered has its string or is the flag. -/
theorem collect_filled (h : collect db char1 char2 ops = some a) (hops : ops ≠ []) :
    1 ≤ a.texts.length + a.gif.toList.length := by
  obtain ⟨q, hq⟩ := List.exists_mem_of_ne_nil ops hops
  by_cases h5 : q = 5
  · rw [collect_gif_length h, if_pos (h5 ▸ hq)]
    exact Nat.le_add_left 1 _
  · have hmem : q ∈ textOps ops := List.mem_filter.mpr ⟨hq, by simpa using h5⟩
    have hpos := List.length_pos_of_mem hmem
    rw [collect_texts_length h]
    omega

theorem okResponse_packed (h : collect db char1 char2 ops = some a)
    (htexts : (textOps ops).length ≤ 4) (hops : ops ≠ []) :
    Packed (okResponse a) (a.texts.map CString.bytes) a.gif where
  version := rfl
  reserved := rfl
  count := by
    have hgif : a.gif.toList.length ≤ 1 := Option.length_toList_le
    have hlen := collect_texts_length h
    rw [List.length_map]
    exact UInt8.toNat_ofNat_of_lt' (show _ < 256 by omega)
  payloads := by
    rw [List.map_map]
    rfl
  gif := rfl
  room := by
    rw [List.length_map, collect_texts_length h]
    exact htexts
  filled := by
    rw [List.length_map]
    exact collect_filled h hops
  message hs := absurd rfl hs

/-- **Every response of the executor is packed.** -/
theorem replyTo_packed (db : Lookup) (b : List.Vector UInt8 queryLen) :
    ∃ texts flag, Packed (replyTo db (parseQuery b)) texts flag := by
  cases hparse : parseQuery b with
  | none => exact ⟨_, _, messageReply_packed 255 invalidQueryMsg⟩
  | some req =>
    obtain ⟨_, hacc⟩ := parseQuery_eq_some.mp hparse
    rw [replyTo]
    cases hcollect : collect db req.char1 req.char2 req.executed with
    | none => exact ⟨_, _, messageReply_packed 255 invalidQueryMsg⟩
    | some a =>
      refine ⟨_, _, okResponse_packed hcollect hacc.executed_texts fun hnil => ?_⟩
      have hlen := hacc.executed_length
      have hpos := hacc.count_pos
      rw [hnil, List.length_nil] at hlen
      omega

namespace Packed

/-- The pieces that go out. -/
theorem blocks (h : Packed res texts flag) :
    res.blocks = res.header :: (texts.map textBlock ++ flag.toList.map gifBlock) := by
  rw [Response.blocks, h.payloads, h.gif, gifSlot_blocks, slots,
    padTo_flatMap rfl (by rw [List.length_map]; exact h.room), List.flatMap_map]
  simp only [textPayload_blocks]
  rw [← List.map_eq_flatMap]

/-- There are at most six of them, and none is longer than a flag's. -/
theorem blocks_length (h : Packed res texts flag) : res.blocks.length ≤ 6 := by
  have hflag : flag.toList.length ≤ 1 := Option.length_toList_le
  have hroom := h.room
  rw [h.blocks]
  simp
  omega

theorem blocks_size (h : Packed res texts flag) : ∀ b ∈ res.blocks, b.length ≤ 19004 := by
  intro b hb
  rw [h.blocks] at hb
  rcases List.mem_cons.mp hb with rfl | hb
  · rw [Response.header_length]
    omega
  · rcases List.mem_append.mp hb with hb | hb
    · obtain ⟨t, -, rfl⟩ := List.mem_map.mp hb
      rw [textBlock_length]
      omega
    · obtain ⟨g, -, rfl⟩ := List.mem_map.mp hb
      exact (gifBlock_length g).le

end Packed

end

end StateProtocol.V2
