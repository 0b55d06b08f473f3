import StateProtocol.V2.Tcp

/-!
# The language of the version 2 TCP server

Which client streams are answered, in terms of their bytes. `Succeeds` lists the
conditions on a stream and the tables under which the answer is a success; every
other stream that is answered at all gets the one error frame
(`processQuery_law`).

A missing byte reads as null here as it does in the server's buffer, and a null
never helps: the state characters and the opcodes have to be there
(`succeeds_iff`).
-/

namespace StateProtocol.V2

open StateProtocol.Clib StateProtocol.Data

/-- The number of opcodes that the stream announces. -/
def announced (s : Bytes) : UInt8 := s.getD 1 0

/-- The opcodes that follow, as far as they were sent. -/
def requested (s : Bytes) : List UInt8 := (s.drop 4).take (announced s).toNat

/-- A query that is answered with data. -/
structure Succeeds (db : Lookup) (s : Bytes) : Prop where
  version : s.getD 0 0 = 2
  count_pos : 1 ≤ (announced s).toNat
  count_le : (announced s).toNat ≤ 5
  long : 4 + (announced s).toNat ≤ s.length
  char1 : s.getD 2 0 ≠ 0
  char2 : s.getD 3 0 ≠ 0
  range : ∀ q ∈ requested s, 1 ≤ q.toNat ∧ q.toNat ≤ 5
  texts : (textOps (requested s)).length ≤ 4
  found : ∀ q ∈ requested s, Found db (s.getD 2 0) (s.getD 3 0) q

/-- The bytes of a success: the header, a block for each text opcode in order,
and one for the flag. -/
def successFrame (db : Lookup) (s : Bytes) : Bytes :=
  [2, 1, UInt8.ofNat ((textOps (requested s)).length + if 5 ∈ requested s then 1 else 0), 0]
    ++ ((textOps (requested s)).flatMap fun q =>
      (db.text (s.getD 2 0) (s.getD 3 0) q.toNat).elim [] fun t => textBlock t.bytes)
    ++ if 5 ∈ requested s then (db.gif (s.getD 2 0) (s.getD 3 0)).elim [] gifBlock else []

/-- The bytes of an error. -/
def errorFrame : Bytes := [2, 255, 1, 0] ++ textBlock invalidQueryMsg

theorem errorFrame_length : errorFrame.length = 128 := by
  rw [errorFrame, List.length_append, textBlock_length]
  rfl

/-! ## The buffer -/

section Buffer

variable {db : Lookup} {s : Bytes}

theorem queryBuffer_get {n : UInt8} {i : Nat} (h : i < queryLen) (hi : i < 4 + n.toNat) :
    (queryBuffer s n).get ⟨i, h⟩ = s.getD i 0 := by
  rw [queryBuffer, zeroPad_get, getD_take hi]

/-- What the parser gets to see. -/
def received (s : Bytes) : Request := castRequest (queryBuffer s (announced s))

theorem received_version (s : Bytes) : (received s).version = s.getD 0 0 :=
  queryBuffer_get _ (by omega)

theorem received_numQueries (s : Bytes) : (received s).numQueries = announced s :=
  queryBuffer_get _ (by omega)

theorem received_char1 (s : Bytes) : (received s).char1 = s.getD 2 0 :=
  queryBuffer_get _ (by omega)

theorem received_char2 (s : Bytes) : (received s).char2 = s.getD 3 0 :=
  queryBuffer_get _ (by omega)

theorem requested_length_le (s : Bytes) : (requested s).length ≤ (announced s).toNat :=
  List.length_take_le _ _

/-- The opcode positions are the opcodes that were sent, then nulls. -/
theorem received_opcodes (hle : (announced s).toNat ≤ 5) :
    (received s).opcodes.toList
      = requested s ++ List.replicate (5 - (requested s).length) 0 := by
  have hdrop : (received s).opcodes.toList
      = (zeroPad 5 ((s.take (4 + (announced s).toNat)).drop 4)).toList := zeroPad_drop 9 4 _
  have hlen := requested_length_le s
  rw [requested] at hlen ⊢
  rw [hdrop, List.drop_take, Nat.add_sub_cancel_left, zeroPad_toList,
    List.take_of_length_le (by omega)]

theorem received_asked (hle : (announced s).toNat ≤ 5) :
    (received s).asked = (requested s).filter (· ≠ 0) := by
  rw [Request.asked, received_opcodes hle, List.filter_append]
  simp

/-- An accepted query has all its opcodes. -/
theorem requested_of_accepted (h : Accepted (received s)) :
    (requested s).length = (announced s).toNat ∧ (received s).asked = requested s := by
  have hle := h.count_le
  have hcount := h.count
  rw [received_numQueries] at hle hcount
  rw [received_asked hle] at hcount ⊢
  have hfilter := List.length_filter_le (· ≠ 0) (requested s)
  have hlen := requested_length_le s
  refine ⟨by omega, List.filter_sublist.eq_of_length (by omega)⟩

theorem received_executed (hle : (announced s).toNat ≤ 5)
    (hlen : (requested s).length = (announced s).toNat) :
    (received s).executed = requested s := by
  rw [Request.executed, received_numQueries, received_opcodes hle]
  exact List.take_left' hlen

/-- The conditions on the stream are those of the parser and of the lookups. -/
theorem succeeds_iff :
    Succeeds db s ↔ Accepted (received s) ∧
      ∀ q ∈ (received s).executed, Found db (received s).char1 (received s).char2 q := by
  constructor
  · intro h
    have hlen : (requested s).length = (announced s).toNat := by
      rw [requested, List.length_take, List.length_drop]
      exact Nat.min_eq_left (by have := h.long; omega)
    have hasked : (received s).asked = requested s := by
      rw [received_asked h.count_le]
      refine List.filter_eq_self.mpr fun q hq => ?_
      have hpos := (h.range q hq).1
      simp only [ne_eq, decide_not, Bool.not_eq_eq_eq_not, Bool.not_true, decide_eq_false_iff_not]
      rintro rfl
      exact absurd hpos (by decide)
    refine ⟨?_, ?_⟩
    · refine ⟨(received_version s).trans h.version, ?_, ?_, ?_, ?_, ?_, ?_, ?_⟩
      · rw [received_numQueries]
        exact h.count_le
      · rw [received_numQueries]
        exact h.count_pos
      · intro q hq
        rw [received_opcodes h.count_le] at hq
        rcases List.mem_append.mp hq with hq' | hq'
        · exact UInt8.le_iff_toNat_le.mpr (h.range q hq').2
        · rw [List.eq_of_mem_replicate hq']
          decide
      · rw [received_numQueries, hasked, hlen]
      · rw [hasked]
        exact h.texts
      · rw [received_char1]
        exact h.char1
      · rw [received_char2]
        exact h.char2
    · rw [received_executed h.count_le hlen, received_char1, received_char2]
      exact h.found
  · rintro ⟨h, hfound⟩
    obtain ⟨hlen, hasked⟩ := requested_of_accepted h
    have hle := h.count_le
    have hpos := h.count_pos
    rw [received_numQueries] at hle hpos
    rw [received_executed hle hlen, received_char1, received_char2] at hfound
    refine ⟨(received_version s).symm.trans h.version, hpos, hle, ?_, ?_, ?_, ?_, ?_, hfound⟩
    · rw [requested, List.length_take, List.length_drop] at hlen
      omega
    · rw [← received_char1]
      exact h.char1
    · rw [← received_char2]
      exact h.char2
    · rw [← hasked]
      exact h.asked_range
    · rw [← hasked]
      exact h.texts

theorem requested_ne_nil (h : Succeeds db s) : requested s ≠ [] := by
  intro hnil
  have hlen := (requested_of_accepted (succeeds_iff.mp h).1).1
  have hpos := h.count_pos
  rw [hnil, List.length_nil] at hlen
  omega

end Buffer

/-! ## The answer -/

section Answer

variable {db : Lookup} {s : Bytes}

/-- A stream with a count gets the response to what the parser makes of it. -/
theorem tcpReply_of_le (hs : 2 ≤ s.length) (hle : (announced s).toNat ≤ 5) :
    tcpReply db s = some (replyTo db (parseQuery (queryBuffer s (announced s)))) := by
  match s, hs with
  | version :: numQueries :: rest, _ =>
    have hsmall : ¬numQueries > 5 := UInt8.not_lt.mpr (UInt8.le_iff_toNat_le.mpr hle)
    rw [tcpReply, if_neg hsmall]
    rfl

theorem tcpReply_of_gt (hs : 2 ≤ s.length) (hgt : 5 < (announced s).toNat) :
    tcpReply db s = some errorReply := by
  match s, hs with
  | version :: numQueries :: rest, _ =>
    have hbig : numQueries > 5 := UInt8.lt_iff_toNat_lt.mpr hgt
    rw [tcpReply, if_pos hbig]

/-- A success is the answer to the opcodes of the stream. -/
theorem tcpReply_of_succeeds (h : Succeeds db s) :
    ∃ a, collect db (s.getD 2 0) (s.getD 3 0) (requested s) = some a ∧
      tcpReply db s = some (okResponse a) := by
  obtain ⟨hacc, hfound⟩ := succeeds_iff.mp h
  have hlong := h.long
  have hpos := h.count_pos
  obtain ⟨a, ha, hreply⟩ := replyTo_found rfl hacc hfound
  refine ⟨a, ?_, ?_⟩
  · rw [← received_char1, ← received_char2,
      ← received_executed h.count_le (requested_of_accepted hacc).1]
    exact ha
  · rw [tcpReply_of_le (by omega) h.count_le]
    exact congrArg some hreply

/-- Everything else gets the error response. -/
theorem tcpReply_of_not_succeeds (hs : 2 ≤ s.length) (h : ¬Succeeds db s) :
    tcpReply db s = some errorReply := by
  rcases Nat.lt_or_ge 5 (announced s).toNat with hgt | hle
  · exact tcpReply_of_gt hs hgt
  · rw [tcpReply_of_le hs hle]
    exact congrArg some (replyTo_refused rfl fun hboth => h (succeeds_iff.mpr hboth))

theorem tcpReply_of_short (hs : s.length < 2) : tcpReply db s = none := by
  match s, hs with
  | [], _ => rfl
  | [_], _ => rfl

theorem errorReply_blocks : errorReply.blocks.flatten = errorFrame := by
  rw [errorReply, (messageReply_packed 255 invalidQueryMsg).blocks]
  simp [errorFrame, Response.header, messageReply]

/-- The blocks of a success are its frame. -/
theorem okResponse_blocks {a : Answer} (h : Succeeds db s)
    (ha : collect db (s.getD 2 0) (s.getD 3 0) (requested s) = some a) :
    (okResponse a).blocks.flatten = successFrame db s := by
  have hops := requested_ne_nil h
  have htexts : ((textOps (requested s)).flatMap fun q =>
        (db.text (s.getD 2 0) (s.getD 3 0) q.toNat).elim [] fun t => textBlock t.bytes)
      = a.texts.flatMap fun t => textBlock t.bytes := by
    -- the looked up strings are those of the answer, opcode by opcode
    have hmap := congrArg (List.flatMap fun t => Option.elim t [] fun t => textBlock t.bytes)
      (collect_texts ha)
    rw [List.flatMap_map, List.flatMap_map] at hmap
    exact hmap.symm
  have hgif : (if 5 ∈ requested s then (db.gif (s.getD 2 0) (s.getD 3 0)).elim [] gifBlock else [])
      = (a.gif.toList.map gifBlock).flatten := by
    rw [collect_gif ha]
    split
    · cases db.gif (s.getD 2 0) (s.getD 3 0) <;> simp
    · rfl
  rw [successFrame, htexts, hgif, (okResponse_packed ha h.texts hops).blocks,
    ← collect_gif_length ha, ← collect_texts_length ha, List.flatten_cons, List.flatten_append,
    List.map_map, List.flatMap_def, List.append_assoc]
  rfl

end Answer

/-- **The input/output law of the server.** -/
theorem processQuery_law (db : Lookup) (s : Bytes) (fds : Nat) (os : FullOffers 19004 6) :
    ∃ q, processQuery (ofLookup db) ⟨fds, s, false, [], os.offers⟩ = .ok () q ∧
      (s.length < 2 → q.sent = []) ∧
      (Succeeds db s → q.sent = successFrame db s) ∧
      (2 ≤ s.length → ¬Succeeds db s → q.sent = errorFrame ∧ q.sent.length = 128) := by
  obtain ⟨q, hq, hsent⟩ := processQuery_run (s := s) (p := ⟨fds, s, false, [], os.offers⟩) db os
    rfl rfl rfl
  rw [List.nil_append] at hsent
  refine ⟨q, hq, ?_, ?_, ?_⟩
  · intro hs
    rw [hsent, tcpReply_of_short hs]
    rfl
  · intro h
    obtain ⟨a, ha, hreply⟩ := tcpReply_of_succeeds h
    rw [hsent, hreply]
    exact okResponse_blocks h ha
  · intro hs h
    rw [tcpReply_of_not_succeeds hs h] at hsent
    have hframe : q.sent = errorFrame := hsent.trans errorReply_blocks
    exact ⟨hframe, hframe ▸ errorFrame_length⟩

end StateProtocol.V2
