import StateProtocol.V2.Grammar
import StateProtocol.V2.Udp

/-!
# The two version 2 servers agree

Both servers put the same bytes into the query buffer, or reject a message that
is too short for the other as well (`udpReply_eq`). So what they send differs
only where the response is too large for a datagram, and that is a success with
a flag (`replies_agree`).
-/

namespace StateProtocol.V2

open StateProtocol.Clib StateProtocol.Data

/-- The bytes sent in place of a response that is too large. -/
def tooLargeFrame : Bytes := [2, 254, 1, 0] ++ textBlock tooLargeMsg

theorem tooLargeReply_blocks : tooLargeReply.blocks.flatten = tooLargeFrame := by
  rw [tooLargeReply, (messageReply_packed 254 tooLargeMsg).blocks]
  simp [tooLargeFrame, Response.header, messageReply]

/-- The stream bytes `t` and the datagram `u` are the same answer: equal when
it fits into a datagram, and otherwise `u` says so. -/
structure SameAnswer (t u : Bytes) : Prop where
  fits : u.length ≤ maxPackLen
  equal : t.length ≤ maxPackLen → u = t
  tooLarge : maxPackLen < t.length → u = tooLargeFrame

section

variable {db : Lookup} {m : Bytes} {res : Response}

/-- A buffer without a second state character is rejected. -/
theorem parseQuery_of_short (h : m.length < 4) : parseQuery (zeroPad queryLen m) = none := by
  cases hparse : parseQuery (zeroPad queryLen m) with
  | none => rfl
  | some req =>
    obtain ⟨rfl, hacc⟩ := parseQuery_eq_some.mp hparse
    exact absurd h hacc.long

/-- A count above five is rejected. -/
theorem parseQuery_of_gt (h : 5 < (announced m).toNat) :
    parseQuery (zeroPad queryLen m) = none := by
  cases hparse : parseQuery (zeroPad queryLen m) with
  | none => rfl
  | some req =>
    obtain ⟨rfl, hacc⟩ := parseQuery_eq_some.mp hparse
    have hle := hacc.count_le
    rw [castRequest_zeroPad] at hle
    exact absurd hle (Nat.not_le.mpr h)

/-- On a message that the stream server reads whole, the datagram server has the
same response, unless it is too large. -/
theorem udpReply_eq (db : Lookup) (hm : 2 ≤ m.length)
    (hfit : 5 < (announced m).toNat ∨ m.length ≤ 4 + (announced m).toNat) :
    ∃ res, tcpReply db m = some res ∧
      udpReply db m = if calcPacketSize res > maxPackLen then tooLargeReply else res := by
  have herror : ¬calcPacketSize errorReply > maxPackLen := by
    rw [errorReply, (messageReply_packed 255 invalidQueryMsg).size]
    show ¬500 < _
    simp
  refine ⟨if m.length < 4 then errorReply else replyTo db (parseQuery (zeroPad queryLen m)), ?_, ?_⟩
  · rcases Nat.lt_or_ge 5 (announced m).toNat with hgt | hle
    · rw [tcpReply_of_gt hm hgt, parseQuery_of_gt hgt]
      split <;> rfl
    · have hlen : m.length ≤ 4 + (announced m).toNat := hfit.resolve_left (by omega)
      rw [tcpReply_of_le hm hle, queryBuffer, List.take_of_length_le hlen]
      split
      next hshort => rw [parseQuery_of_short hshort, replyTo]
      next => rfl
  · unfold udpReply
    by_cases hshort : m.length < 4
    · rw [if_pos hshort, if_pos hshort, if_neg herror]
    · rw [if_neg hshort, if_neg hshort]

/-- The answer to a stream is too large exactly when it carries a flag. -/
theorem tcpReply_large (hm : 2 ≤ m.length) (hres : tcpReply db m = some res) :
    calcPacketSize res > maxPackLen ↔ Succeeds db m ∧ 5 ∈ requested m := by
  by_cases h : Succeeds db m
  · obtain ⟨a, ha, hreply⟩ := tcpReply_of_succeeds h
    obtain rfl : res = okResponse a := Option.some.inj (hres.symm.trans hreply)
    have hops := requested_ne_nil h
    have hroom := (okResponse_packed ha h.texts hops).room
    rw [(okResponse_packed ha h.texts hops).size, collect_gif_length ha]
    show 500 < _ ↔ _
    split
    next h5 => exact ⟨fun _ => ⟨h, h5⟩, fun _ => by omega⟩
    next h5 => exact ⟨fun _ => by omega, fun hs => absurd hs.2 h5⟩
  · obtain rfl : res = errorReply :=
      Option.some.inj (hres.symm.trans (tcpReply_of_not_succeeds hm h))
    rw [errorReply, (messageReply_packed 255 invalidQueryMsg).size]
    show 500 < _ ↔ _
    exact ⟨fun hlt => by simp at hlt, fun hs => absurd hs.1 h⟩

end

/-- **The two servers agree.** For every message that the stream server reads
whole, or rejects for its count: what the stream server sends and what the
datagram server sends are the same answer; the answer is too large exactly when
it is a success with a flag; and what the datagram server sends is the beginning
of a response structure, with its non-empty blocks and nothing between them. -/
theorem replies_agree (db : Lookup) (m : Bytes) (hm : 2 ≤ m.length)
    (hfit : 5 < (announced m).toNat ∨ m.length ≤ 4 + (announced m).toNat)
    (fds : Nat) (os : FullOffers 19004 6) :
    ∃ q u, processQuery (ofLookup db) ⟨fds, m, false, [], os.offers⟩ = .ok () q ∧
      (∀ (σ : Type) (s : σ), serve (ofLookup db) m s = .ok u s) ∧
      SameAnswer q.sent u ∧
      (maxPackLen < q.sent.length ↔ Succeeds db m ∧ 5 ∈ requested m) ∧
      u = (udpReply db m).encode.take (calcPacketSize (udpReply db m)) ∧
      u = (udpReply db m).blocks.flatten := by
  obtain ⟨res, hres, hudp⟩ := udpReply_eq db hm hfit
  obtain ⟨q, hq, hsent⟩ := processQuery_run (s := m) (p := ⟨fds, m, false, [], os.offers⟩) db os
    rfl rfl rfl
  rw [hres] at hsent
  obtain ⟨texts, hpacked⟩ := udpReply_packed db m
  have hlen : q.sent.length = calcPacketSize res := by
    rw [hsent, calcPacketSize_eq]
    rfl
  refine ⟨q, _, hq, fun σ s => serve_run db m s, ⟨udpReply_size db m, ?_, ?_⟩, ?_, ?_, rfl⟩
  · intro hle
    rw [hudp, if_neg (by omega)]
    exact hsent.symm
  · intro hgt
    rw [hudp, if_pos (by omega)]
    exact tooLargeReply_blocks
  · rw [hlen]
    exact tcpReply_large hm hres
  · rw [calcPacketSize_eq]
    exact List.prefix_iff_eq_take.mp hpacked.blocks_initial

/-- A query for the flag of New Hampshire. -/
theorem replies_agree_flag :
    ∃ q u, processQuery (ofLookup (Lookup.const (cstr []) []))
        ⟨4, [2, 1, 110, 104, 5], false, [], (FullOffers.replicate 19003 6).offers⟩ = .ok () q ∧
      (∀ (σ : Type) (s : σ),
        serve (ofLookup (Lookup.const (cstr []) [])) [2, 1, 110, 104, 5] s = .ok u s) ∧
      SameAnswer q.sent u :=
  have ⟨q, u, hq, hu, hsame, _⟩ := replies_agree (Lookup.const (cstr []) []) [2, 1, 110, 104, 5]
    (by decide) (Or.inr (by decide)) 4 (FullOffers.replicate 19003 6)
  ⟨q, u, hq, hu, hsame⟩

end StateProtocol.V2
