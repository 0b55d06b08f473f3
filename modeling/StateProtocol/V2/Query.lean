import StateProtocol.V2.Grammar

/-!
# The queries of version 2

A `Query` is what a client can ask for: a state code and one to five opcodes, with
no more than four texts among them. Its encoding has its own length in it, so no
encoding is the beginning of another (`Query.encode_prefix`).

The parser of the TCP server accepts a stream exactly when it begins with the
encoding of a query, and then makes the request of that query (`query_stream`).
In a datagram an opcode may also be missing, as long as one behind it makes up for
it: what the parser accepts there without such a gap are the encodings, padded
with nulls (`query_datagram`).
-/

namespace StateProtocol.V2

open StateProtocol.Clib StateProtocol.Data

structure Query where
  char1 : UInt8
  char2 : UInt8
  opcodes : List UInt8
  char1_ne : char1 ≠ 0
  char2_ne : char2 ≠ 0
  pos : 1 ≤ opcodes.length
  few : opcodes.length ≤ 5
  range : ∀ q ∈ opcodes, 1 ≤ q.toNat ∧ q.toNat ≤ 5
  texts : (textOps opcodes).length ≤ 4

namespace Query

/-- The number of opcodes, as a byte. -/
def count (q : Query) : UInt8 := UInt8.ofNat q.opcodes.length

/-- The bytes that a client sends. -/
def encode (q : Query) : Bytes := 2 :: q.count :: q.char1 :: q.char2 :: q.opcodes

/-- The request that the parser makes of them. -/
def request (q : Query) : Request := ⟨2, q.count, q.char1, q.char2, zeroPad maxOpcodes q.opcodes⟩

@[ext] theorem ext {q r : Query} (h1 : q.char1 = r.char1) (h2 : q.char2 = r.char2)
    (ho : q.opcodes = r.opcodes) : q = r := by
  cases q
  cases r
  cases h1
  cases h2
  cases ho
  rfl

theorem count_toNat (q : Query) : q.count.toNat = q.opcodes.length := by
  have := q.few
  exact UInt8.toNat_ofNat_of_lt' (show q.opcodes.length < 256 by omega)

theorem noNull (q : Query) : 0 ∉ q.opcodes := fun h0 => absurd (q.range 0 h0).1 (by decide)

theorem encode_length (q : Query) : q.encode.length = 4 + q.opcodes.length := by
  rw [encode]
  simp
  omega

theorem castRequest_encode (q : Query) : castRequest (zeroPad queryLen q.encode) = q.request := by
  rw [castRequest_zeroPad]
  rfl

/-! ## The requests of the queries -/

theorem request_opcodes (q : Query) :
    q.request.opcodes.toList = q.opcodes ++ List.replicate (5 - q.opcodes.length) 0 := by
  have hfew : q.opcodes.length ≤ maxOpcodes := q.few
  show (zeroPad maxOpcodes q.opcodes).toList = _
  rw [zeroPad_toList, List.take_of_length_le hfew]
  rfl

theorem request_asked (q : Query) : q.request.asked = q.opcodes := by
  have hall : q.opcodes.filter (· ≠ 0) = q.opcodes := by
    refine List.filter_eq_self.mpr fun op hop => ?_
    have hne : op ≠ 0 := fun h0 => q.noNull (h0 ▸ hop)
    simpa using hne
  rw [Request.asked, request_opcodes, List.filter_append, hall]
  simp

theorem request_executed (q : Query) : q.request.executed = q.opcodes := by
  rw [Request.executed, request_opcodes, show q.request.numQueries.toNat = _ from q.count_toNat]
  exact List.take_left

theorem request_gapless (q : Query) : q.request.Gapless := by
  intro op hop h0
  rw [request_executed] at hop
  exact q.noNull (h0 ▸ hop)

theorem request_accepted (q : Query) : Accepted q.request where
  version := rfl
  count_le := (show q.request.numQueries.toNat = _ from q.count_toNat).trans_le q.few
  count_pos := q.pos.trans_eq q.count_toNat.symm
  range := by
    intro op hop
    rw [request_opcodes] at hop
    rcases List.mem_append.mp hop with hop | hop
    · exact UInt8.le_iff_toNat_le.mpr (q.range op hop).2
    · rw [(List.mem_replicate.mp hop).2]
      decide
  count := by
    rw [request_asked]
    exact q.count_toNat
  texts := by
    rw [request_asked]
    exact q.texts
  char1 := q.char1_ne
  char2 := q.char2_ne

end Query

/-- The opcodes of an accepted request without a gap stand in front. -/
theorem Accepted.opcodes_eq {req : Request} (h : Accepted req) (hgap : req.Gapless) :
    req.opcodes = zeroPad maxOpcodes req.asked := by
  have hlen := h.executed_length
  have hcount := h.count
  have hexec := h.executed_eq_asked hgap
  have hsplit := List.take_append_drop req.numQueries.toNat req.opcodes.toList
  -- what is behind them has no opcode in it
  have hrest : (req.opcodes.toList.drop req.numQueries.toNat).filter (· ≠ 0) = [] := by
    have hfilter : req.asked = req.executed.filter (· ≠ 0)
        ++ (req.opcodes.toList.drop req.numQueries.toNat).filter (· ≠ 0) := by
      rw [Request.asked, ← List.filter_append, Request.executed, hsplit]
    have hfirst : req.executed.filter (· ≠ 0) = req.executed :=
      List.filter_eq_self.mpr fun q hq => by simpa using hgap q hq
    rw [hfirst, hexec] at hfilter
    exact List.append_right_eq_self.mp hfilter.symm
  have hnull : req.opcodes.toList.drop req.numQueries.toNat
      = List.replicate (5 - req.numQueries.toNat) 0 := by
    rw [List.eq_replicate_iff]
    refine ⟨?_, fun op hop => ?_⟩
    · rw [List.length_drop, List.Vector.toList_length]
      rfl
    · simpa using List.filter_eq_nil_iff.mp hrest op hop
  have hle : req.asked.length ≤ maxOpcodes := hcount.symm.trans_le h.count_le
  apply List.Vector.toList_injective
  calc req.opcodes.toList
      = req.executed ++ List.replicate (5 - req.numQueries.toNat) 0 := by
        rw [← hnull]
        exact hsplit.symm
    _ = req.asked ++ List.replicate (5 - req.asked.length) 0 := by rw [hexec, hcount]
    _ = (zeroPad maxOpcodes req.asked).toList := by
      rw [zeroPad_toList, List.take_of_length_le hle]
      rfl

/-- **The accepted requests** without a gap are those of the queries. -/
theorem accepted_iff {req : Request} :
    Accepted req ∧ req.Gapless ↔ ∃ q : Query, q.request = req := by
  constructor
  · rintro ⟨h, hgap⟩
    have hcount := h.count
    have hpos : 1 ≤ req.asked.length := h.count_pos.trans_eq hcount
    have hfew : req.asked.length ≤ 5 := hcount.symm.trans_le h.count_le
    refine ⟨⟨req.char1, req.char2, req.asked, h.char1, h.char2, hpos, hfew, h.asked_range,
      h.texts⟩, ?_⟩
    have hn : UInt8.ofNat req.asked.length = req.numQueries := by
      rw [← hcount, UInt8.ofNat_toNat]
    have hops := h.opcodes_eq hgap
    have hversion := h.version
    cases req
    cases hversion
    exact congr (congrArg (fun n => Request.mk 2 n _ _) hn) hops.symm
  · rintro ⟨q, rfl⟩
    exact ⟨q.request_accepted, q.request_gapless⟩

/-! ## Streams -/

/-- **No encoding is the beginning of another one**, whatever comes behind that. -/
theorem Query.encode_prefix {q r : Query} {more : Bytes} (h : q.encode <+: r.encode ++ more) :
    q = r := by
  obtain ⟨rest, hrest⟩ := h
  obtain ⟨-, hcount, h1, h2, hops⟩ : (2 : UInt8) = 2 ∧ q.count = r.count ∧ q.char1 = r.char1 ∧
      q.char2 = r.char2 ∧ q.opcodes ++ rest = r.opcodes ++ more := by
    simpa [Query.encode] using hrest
  have hlen : q.opcodes.length = r.opcodes.length := by
    rw [← q.count_toNat, ← r.count_toNat, hcount]
  exact Query.ext h1 h2 (List.append_inj_left hops hlen)

/-- What the server reads of a stream that begins with a query. -/
theorem received_encode (q : Query) {s : Bytes} (h : q.encode <+: s) : received s = q.request := by
  obtain ⟨rest, rfl⟩ := h
  have hn : announced (q.encode ++ rest) = q.count := rfl
  rw [received, hn, queryBuffer, q.count_toNat, ← q.encode_length, List.take_left]
  exact q.castRequest_encode

theorem header_append_drop {s : Bytes} (h : 4 ≤ s.length) :
    [s.getD 0 0, s.getD 1 0, s.getD 2 0, s.getD 3 0] ++ s.drop 4 = s := by
  rcases s with _ | ⟨a, _ | ⟨b, _ | ⟨c, _ | ⟨d, s⟩⟩⟩⟩
  · simp at h
  · simp at h
  · simp at h
  · simp at h
  · rfl

/-- A stream that is accepted begins with a query. -/
theorem encode_of_accepted {s : Bytes} (h : Accepted (received s)) :
    ∃ q : Query, q.encode <+: s ∧ q.request = received s := by
  obtain ⟨hlen, hasked⟩ := requested_of_accepted h
  have hle := h.count_le
  have hpos := h.count_pos
  rw [received_numQueries] at hle hpos
  have hgap : (received s).Gapless := by
    intro op hop h0
    rw [received_executed hle hlen, ← hasked] at hop
    have := (List.mem_filter.mp hop).2
    simp [h0] at this
  obtain ⟨q, hq⟩ := accepted_iff.mp ⟨h, hgap⟩
  refine ⟨q, ?_, hq⟩
  have hops : q.opcodes = requested s := by rw [← q.request_asked, hq, hasked]
  have hversion : s.getD 0 0 = 2 := (received_version s).symm.trans h.version
  have hcount : q.count = announced s :=
    (congrArg Request.numQueries hq).trans (received_numQueries s)
  have h1 : q.char1 = s.getD 2 0 := (congrArg Request.char1 hq).trans (received_char1 s)
  have h2 : q.char2 = s.getD 3 0 := (congrArg Request.char2 hq).trans (received_char2 s)
  rw [requested, List.length_take, List.length_drop] at hlen
  have hs := header_append_drop (s := s) (by omega)
  rw [hversion] at hs
  rw [Query.encode, hops, hcount, h1, h2, requested, announced]
  exact hs ▸ (List.prefix_append_right_inj [2, s.getD 1 0, s.getD 2 0, s.getD 3 0]).mpr
    (List.take_prefix _ (s.drop 4))

/-- **The language of the TCP server.** For a count over five the buffer is not what the
server has read, which stops at the count then; the parser does not accept it. -/
theorem query_stream (s : Bytes) (req : Request) :
    (parseQuery (queryBuffer s (announced s)) = some req ↔
      ∃ q : Query, (q.encode <+: s ∧ q.request = req) ∧
        ∀ r : Query, r.encode <+: s → r = q) ∧
    ∀ (q r : Query) (more : Bytes), q.encode <+: r.encode ++ more → q = r := by
  refine ⟨⟨fun h => ?_, ?_⟩, fun _ _ _ => Query.encode_prefix⟩
  · obtain ⟨rfl, hacc⟩ := parseQuery_eq_some.mp h
    obtain ⟨q, hq, hreq⟩ := encode_of_accepted hacc
    refine ⟨q, ⟨hq, hreq⟩, fun r hr => ?_⟩
    obtain ⟨more, rfl⟩ := hq
    exact Query.encode_prefix hr
  · rintro ⟨q, ⟨hq, rfl⟩, -⟩
    exact parseQuery_eq_some.mpr ⟨received_encode q hq, q.request_accepted⟩

/-- The cast loses nothing. -/
theorem castRequest_injective : Function.Injective castRequest := by
  intro u v heq
  obtain ⟨h0, h1, h2, h3, hops⟩ := Request.mk.inj heq
  have hdrop : u.toList.drop 4 = v.toList.drop 4 := congrArg List.Vector.toList hops
  have hget (w : List.Vector UInt8 queryLen) : w.toList = w.get ⟨0, by decide⟩ ::
      w.get ⟨1, by decide⟩ :: w.get ⟨2, by decide⟩ :: w.get ⟨3, by decide⟩ :: w.toList.drop 4 := by
    match w with
    | ⟨[_, _, _, _, _, _, _, _, _], _⟩ => rfl
  apply List.Vector.toList_injective
  rw [hget u, hget v, h0, h1, h2, h3, hdrop]

/-- **The language of the UDP server**, but for the gaps: the first nine bytes of the
datagram are the encoding of a query and nulls. -/
theorem query_datagram (m : Bytes) (req : Request) :
    parseQuery (zeroPad queryLen m) = some req ∧ req.Gapless ↔
      ∃ q : Query, zeroPad queryLen m = zeroPad queryLen q.encode ∧ q.request = req := by
  constructor
  · rintro ⟨h, hgap⟩
    obtain ⟨hcast, hacc⟩ := parseQuery_eq_some.mp h
    obtain ⟨q, rfl⟩ := accepted_iff.mp ⟨hacc, hgap⟩
    exact ⟨q, castRequest_injective (hcast.trans q.castRequest_encode.symm), rfl⟩
  · rintro ⟨q, hm, rfl⟩
    rw [hm]
    exact ⟨parseQuery_eq_some.mpr ⟨q.castRequest_encode, q.request_accepted⟩, q.request_gapless⟩

end StateProtocol.V2
