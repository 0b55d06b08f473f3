import StateProtocol.Delimited
import StateProtocol.Sessions
import StateProtocol.V1.Client
import StateProtocol.V2.Query

/-!
# When a server has heard enough

A server on an open connection can only go on without another byte if no byte that
may come, and no end of the stream, makes a difference to what it does
(`Settled`). For version 1 that is so from the fourth byte on, and one byte before
if the third one is null, as that query gets no answer anyway (`v1_settled`). For
version 2 it is so from the end of the query on (`v2_settled`).

A version 2 client is heard by a version 1 server. The other way round the server
goes on waiting, while the client has said all it has to say: the server takes its
opcode for a count, and there are as many bytes to come (`versions_apart`).
-/

namespace StateProtocol

open StateProtocol.Clib StateProtocol.Data

/-- The peer of `q` has said what that of `p` has, and then perhaps more. -/
structure Continues (p q : Proc) : Prop where
  apart : Apart p q
  said : p.input <+: q.input

/-- Whatever comes next on the connection, it changes nothing. -/
def Settled (x : C Proc Unit) (p : Proc) : Prop :=
  ∀ q, Continues p q → ∀ σ t,
    sentAfter x p σ t = sentAfter x q σ t ∧ (Waiting x p σ t ↔ Waiting x q σ t)

theorem Continues.refl (p : Proc) : Continues p p := ⟨rfl, List.prefix_rfl⟩

theorem Continues.append (p : Proc) (s : Bytes) (broken : Bool) :
    Continues p { p with input := p.input ++ s, broken := broken } :=
  ⟨rfl, List.prefix_append _ _⟩

/-- Two ways to go on that differ in what is sent. -/
theorem not_settled {x : C Proc Unit} {p q r : Proc} (hq : Continues p q) (hr : Continues p r)
    (σ : Stream' Offer) (t : Nat) (hne : sentAfter x q σ t ≠ sentAfter x r σ t) :
    ¬Settled x p := by
  intro h
  apply hne
  rw [← (h q hq σ t).1, ← (h r hr σ t).1]

/-- A kernel that takes all that is written to it. -/
def roomy : Stream' Offer := fun _ => .room 19005

theorem roomy_whole {size : Nat} (h : size ≤ 19006) (i : Nat) : (roomy.get i).Whole size :=
  ⟨19005, rfl, h⟩

variable {host : Host} {rs : List Record} {p : Proc}

/-! ## Version 1 -/

namespace V1

theorem settled_of_long (host : Host) (h : 4 ≤ p.input.length) :
    Settled (processQuery (onDisk host)) p := by
  intro q hq σ t
  apply (processQuery_sameStart host).sentAfter_eq (fun _ _ h => h.sent) fun _ _ h => h.sent
  exact ⟨hq.apart.withOffers σ t, h, (List.take_prefix 4 p.input).trans hq.said⟩

/-- A query whose third byte is null gets no answer, complete or not. -/
theorem processQuery_null (lib : DataUtils Proc) {version opcode : UInt8} {s : Bytes}
    (h : p.input = version :: opcode :: 0 :: s) :
    ∃ rest, processQuery lib p = .error (.exit 1) { p with input := rest } := by
  cases s with
  | nil =>
    refine ⟨[], processQuery_short h ?_⟩
    simp
  | cons char2 s =>
    have hnull : (queryOf (version :: opcode :: 0 :: char2 :: s)).char1 = 0 := rfl
    refine ⟨s, ?_⟩
    rw [processQuery_reads h (by simp), respond, if_pos (Or.inl hnull)]
    rfl

theorem settled_of_null (host : Host) (h : p.input[2]? = some 0) :
    Settled (processQuery (onDisk host)) p := by
  intro q hq σ t
  obtain ⟨more, hmore⟩ := hq.said
  obtain ⟨version, opcode, s, hs⟩ : ∃ version opcode s,
      p.input = version :: opcode :: 0 :: s := by
    rcases hp : p.input with _ | ⟨a, _ | ⟨b, _ | ⟨c, s⟩⟩⟩
    · simp [hp] at h
    · simp [hp] at h
    · simp [hp] at h
    · obtain rfl : c = 0 := by simpa [hp] using h
      exact ⟨a, b, s, rfl⟩
  have hs' : q.input = version :: opcode :: 0 :: (s ++ more) := by
    rw [← hmore, hs]
    rfl
  obtain ⟨u, hp⟩ := processQuery_null (onDisk host) (p := p.withOffers σ t) hs
  obtain ⟨v, hq'⟩ := processQuery_null (onDisk host) (p := q.withOffers σ t) hs'
  obtain ⟨hends, hsent⟩ := not_waiting_of_exit hp
  obtain ⟨hends', hsent'⟩ := not_waiting_of_exit hq'
  rw [hsent, hsent']
  exact ⟨hq.apart.sent, iff_of_false hends hends'⟩

/-- The reply to any query for a state code goes out. -/
theorem sentAfter_query (hdb : host.statedb = some (Record.file rs))
    (hflags : ∀ name data, host.flags name = some data → data.length ≤ maxDataLen)
    (hfds : p.fds < host.maxFds) {version opcode char1 char2 : UInt8} (h1 : char1 ≠ 0)
    (h2 : char2 ≠ 0) (h : p.input = [version, opcode, char1, char2]) :
    p.sent.length < (sentAfter (processQuery (onDisk host)) p roomy 2).length := by
  have hleaves := respond_run (p := { p.withOffers roomy 2 with input := [] })
    ⟨version, opcode, char1, char2⟩ (not_or.mpr ⟨h1, h2⟩) hdb hfds (fun _ => hflags _)
    (FullOffers.ofKernel roomy (roomy_whole (Nat.le_refl _)) 2) rfl
  rw [outcome_records host.flags h1 h2] at hleaves
  obtain ⟨q, hq, hsent⟩ := hleaves
  have hread : processQuery (onDisk host) (p.withOffers roomy 2) = _ :=
    processQuery_reads h (Nat.le_refl 4)
  rw [sentAfter, finalState, hread.trans hq]
  dsimp only
  rw [hsent, List.length_append, List.length_append, Response.encode_length]
  show p.sent.length < p.sent.length + _ + (6 + maxDataLen)
  omega

/-- **A version 1 server has heard enough** with four bytes, or a null for the state
code. -/
theorem v1_settled (rs : List Record) (host : Host) (hdb : host.statedb = some (Record.file rs))
    (hflags : ∀ name data, host.flags name = some data → data.length ≤ maxDataLen) {p : Proc}
    (hfds : p.fds < host.maxFds) :
    Settled (processQuery (onDisk host)) p ↔ 4 ≤ p.input.length ∨ p.input[2]? = some 0 := by
  constructor
  · intro h
    by_contra hless
    obtain ⟨hshort, hthird⟩ := not_or.mp hless
    have hlen : p.input.length < 4 := Nat.not_le.mp hshort
    obtain ⟨more, version, opcode, char1, char2, hquery, h1, h2⟩ :
        ∃ more version opcode char1 char2,
          p.input ++ more = [version, opcode, char1, char2] ∧ char1 ≠ 0 ∧ char2 ≠ 0 := by
      rcases hp : p.input with _ | ⟨a, _ | ⟨b, _ | ⟨c, _ | ⟨d, s⟩⟩⟩⟩
      · exact ⟨[1, 1, 110, 104], _, _, _, _, rfl, by decide, by decide⟩
      · exact ⟨[1, 110, 104], _, _, _, _, rfl, by decide, by decide⟩
      · exact ⟨[110, 104], _, _, _, _, rfl, by decide, by decide⟩
      · refine ⟨[104], _, _, _, _, rfl, fun hc => ?_, by decide⟩
        simp [hp, hc] at hthird
      · rw [hp] at hlen
        simp at hlen
        omega
    -- as it is nothing is sent, and with the rest of a query something is
    have hnothing : sentAfter (processQuery (onDisk host)) p roomy 2 = p.sent :=
      (not_waiting_of_exit (processQuery_short rfl hlen)).2
    have hmore := sentAfter_query hdb hflags (p := { p with input := p.input ++ more }) hfds h1 h2
      hquery
    apply not_settled (Continues.refl p) (Continues.append p more p.broken) roomy 2 ?_ h
    intro hsame
    rw [← hsame, hnothing] at hmore
    exact Nat.lt_irrefl _ hmore
  · rintro (hlong | hnull)
    · exact settled_of_long host hlong
    · exact settled_of_null host hnull

/-- A query of New Hampshire, and the same without the second letter. -/
theorem v1_settled_name :
    Settled (processQuery (onDisk Host.pair)) { Proc.fresh with input := [1, 1, 110, 104] } ∧
      ¬Settled (processQuery (onDisk Host.pair)) { Proc.fresh with input := [1, 1, 110] } :=
  have hiff (s : Bytes) := v1_settled [delaware, newHampshire] Host.pair rfl
    (fun _ _ h => by cases h) (p := { Proc.fresh with input := s }) (fresh_fds Host.pair)
  ⟨(hiff _).mpr (by decide), fun h => absurd ((hiff _).mp h) (by decide)⟩

end V1

/-! ## Version 2 -/

namespace V2

theorem settled_of_complete (host : Host) (htwo : 2 ≤ p.input.length)
    (h : queryLength p.input ≤ p.input.length) : Settled (processQuery (onDisk host)) p := by
  intro q hq σ t
  apply (processQuery_sameQuery host).sentAfter_eq (fun _ _ h => h.sent) fun _ _ h => h.sent
  exact ⟨htwo, hq.apart.withOffers σ t, h, (List.take_prefix _ p.input).trans hq.said⟩

/-- If the connection breaks before the end of the query, nothing is sent. -/
theorem processQuery_broken (lib : DataUtils Proc) (hb : p.broken = true)
    (h : 2 ≤ p.input.length → p.input.length < queryLength p.input) :
    ∃ rest, processQuery lib p = .error (.exit 1) { p with input := rest } := by
  rcases hp : p.input with _ | ⟨version, _ | ⟨numQueries, s⟩⟩
  · refine ⟨[], ?_⟩
    rw [processQuery]
    dsimp only
    rw [bind_of_error (recvInto_broken hp hb), ← hp]
  · have h0 : recvInto (zeroPad queryLen []) 0 p
        = .ok (some (zeroPad queryLen [version])) { p with input := [] } :=
      recvInto_cons hp (by decide)
    have h1 (buff : List.Vector UInt8 queryLen) : recvInto buff 1 { p with input := [] } = _ :=
      recvInto_broken rfl hb
    refine ⟨[], ?_⟩
    rw [processQuery]
    dsimp only
    rw [bind_of_ok h0, bind_of_error (h1 _)]
  · have hless := h (by simp [hp])
    have hcount : announced (version :: numQueries :: s) = numQueries := rfl
    rw [hp, queryLength, hcount, List.length_cons, List.length_cons] at hless
    by_cases hbig : numQueries > 5
    · rw [if_pos hbig] at hless
      omega
    · rw [if_neg hbig] at hless
      have hle : numQueries.toNat ≤ 5 := UInt8.le_iff_toNat_le.mp (UInt8.not_lt.mp hbig)
      have hroom : 2 + (2 + numQueries.toNat) ≤ 9 := by omega
      have hloop := readLoop_broken (2 + numQueries.toNat) [version, numQueries] s
        (p := { p with input := s }) rfl hb (by omega) hroom
      refine ⟨[], ?_⟩
      rw [processQuery_counted lib hp, if_neg hbig]
      exact bind_of_error hloop

/-- The reply to any stream with a count in it goes out when the stream ends. -/
theorem sentAfter_stream (hdb : host.statedb = some (Record.file rs))
    (hfds : p.fds + 5 ≤ host.maxFds) (hb : p.broken = false) (htwo : 2 ≤ p.input.length) :
    p.sent.length < (sentAfter (processQuery (onDisk host)) p roomy 6).length := by
  obtain ⟨q, hq, hsent⟩ := processQuery_sends (p := p.withOffers roomy 6) hdb hfds rfl hb
    (FullOffers.ofKernel roomy (roomy_whole (by omega)) 6) rfl
  obtain ⟨res, hres⟩ : ∃ res, tcpReply (tableOf rs host.flags) p.input = some res := by
    rcases Nat.lt_or_ge 5 (announced p.input).toNat with hbig | hsmall
    · exact ⟨_, tcpReply_of_gt htwo hbig⟩
    · exact ⟨_, tcpReply_of_le htwo hsmall⟩
  have hheader : res.blocks.flatten = res.header ++ (res.blocks.tail).flatten := rfl
  rw [(not_waiting_of_ok hq).2, hsent]
  show p.sent.length < (p.sent ++ (tcpReply (tableOf rs host.flags) p.input).elim [] _).length
  rw [hres]
  show p.sent.length < (p.sent ++ res.blocks.flatten).length
  rw [hheader, List.length_append, List.length_append]
  show p.sent.length < p.sent.length + (4 + _)
  omega

/-- Before the end of the query it has not. -/
theorem complete_of_settled (hdb : host.statedb = some (Record.file rs))
    (hfds : p.fds + 5 ≤ host.maxFds) (h : Settled (processQuery (onDisk host)) p) :
    2 ≤ p.input.length ∧ queryLength p.input ≤ p.input.length := by
  by_contra hless
  -- if the connection breaks now nothing is sent, and if it is closed later something is
  obtain ⟨rest, hbroken⟩ := processQuery_broken (onDisk host)
    (p := { p with broken := true }.withOffers roomy 6) rfl
    (fun htwo => Nat.not_le.mp fun hle => hless ⟨htwo, hle⟩)
  have hnothing : sentAfter (processQuery (onDisk host)) { p with broken := true } roomy 6
      = p.sent := (not_waiting_of_exit hbroken).2
  have hmore := sentAfter_stream hdb (p := { p with input := p.input ++ [2, 1], broken := false })
    hfds rfl (by simp)
  apply not_settled (q := { p with broken := true }) ⟨rfl, List.prefix_rfl⟩
    (Continues.append p [2, 1] false) roomy 6 ?_ h
  intro hsame
  rw [← hsame, hnothing] at hmore
  exact Nat.lt_irrefl _ hmore

/-- **A version 2 server has heard enough** at the end of the query. -/
theorem v2_settled (rs : List Record) (host : Host) (hdb : host.statedb = some (Record.file rs))
    {p : Proc} (hfds : p.fds + 5 ≤ host.maxFds) :
    Settled (processQuery (onDisk host)) p ↔
      2 ≤ p.input.length ∧ queryLength p.input ≤ p.input.length :=
  ⟨complete_of_settled hdb hfds, fun ⟨htwo, h⟩ => settled_of_complete host htwo h⟩

/-- A query of New Hampshire with its opcode, and without. -/
theorem v2_settled_name :
    Settled (processQuery (onDisk Host.pair)) { Proc.fresh with input := [2, 1, 110, 104, 1] } ∧
      ¬Settled (processQuery (onDisk Host.pair)) { Proc.fresh with input := [2, 1, 110, 104] } :=
  have hiff (s : Bytes) := v2_settled [delaware, newHampshire] Host.pair rfl
    (p := { Proc.fresh with input := s }) (show 4 + 5 ≤ 16 by decide)
  ⟨(hiff _).mpr (by decide), fun h => absurd ((hiff _).mp h) (by decide)⟩

end V2

/-! ## One version and the other -/

/-- **A client and a server of different versions**: a version 1 request is enough for
a version 2 server only with an opcode that is none, while a version 2 query is
enough for a version 1 server. -/
theorem versions_apart (rs : List Record) (host : Host)
    (hdb : host.statedb = some (Record.file rs)) {p : Proc} (hfds : p.fds + 5 ≤ host.maxFds) :
    (∀ req : V1.Request,
      Settled (V2.processQuery (onDisk host)) { p with input := req.encode } ↔
        req.opcode.toNat = 0 ∨ 5 < req.opcode.toNat) ∧
    ∀ q : V2.Query, Settled (V1.processQuery (onDisk host)) { p with input := q.encode } := by
  refine ⟨fun req => ?_, fun q => ?_⟩
  · have htwo : 2 ≤ req.encode.length := by simp [V1.Request.encode]
    have hlen : V2.queryLength req.encode ≤ req.encode.length ↔
        req.opcode.toNat = 0 ∨ 5 < req.opcode.toNat := by
      have hcount : V2.announced req.encode = req.opcode := rfl
      have hbig : req.opcode > 5 ↔ 5 < req.opcode.toNat := UInt8.lt_iff_toNat_lt
      show V2.queryLength req.encode ≤ 4 ↔ _
      rw [V2.queryLength, hcount]
      split
      next h => exact iff_of_true (by omega) (Or.inr (hbig.mp h))
      next h =>
        have hle : req.opcode.toNat ≤ 5 := Nat.not_lt.mp (mt hbig.mpr h)
        omega
    rw [← hlen]
    constructor
    · intro h
      exact (V2.complete_of_settled (p := { p with input := req.encode }) hdb hfds h).2
    · exact fun h => V2.settled_of_complete (p := { p with input := req.encode }) host htwo h
  · apply V1.settled_of_long
    show 4 ≤ q.encode.length
    rw [q.encode_length]
    omega

theorem versions_apart_name :
    (∀ req : V1.Request,
      Settled (V2.processQuery (onDisk Host.small)) { Proc.fresh with input := req.encode } ↔
        req.opcode.toNat = 0 ∨ 5 < req.opcode.toNat) ∧
    ∀ q : V2.Query,
      Settled (V1.processQuery (onDisk Host.small)) { Proc.fresh with input := q.encode } :=
  versions_apart [newHampshire] Host.small rfl (by decide)

end StateProtocol
