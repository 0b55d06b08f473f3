import StateProtocol.Coupling
import StateProtocol.Schedules
import StateProtocol.Serving
import StateProtocol.V2.Served

/-!
# What the clients of a TCP server get

Whatever the order of its steps, a server serves each connection as if it were the
only one. A child has its own copy of the descriptors, and the only trace of the
others in it are the connections without a child; as `accept` needs a descriptor
to spare there is one left for the lookup of version 1 (`v1_isolated`).
Version 2 may need five (`v2_isolated`).

What is on a connection stays there (`children_grow`), and in the end it is the
answer to the query (`v1_answered`, `v2_answered`).
-/

namespace StateProtocol

open StateProtocol.Clib StateProtocol.Data

/-- The child that a server would have if it had just been started. -/
def Child.alone (c : Child) : Child := { c with fds := Proc.fresh.fds }

/-! ## Alone or not -/

section

variable {x : C Proc Unit} {limit n : Nat} {c : Child}

/-- A child that has `n` descriptors to spare does not see what it has more of them. -/
theorem Child.isolated {E : Proc → Proc → Prop} (hx : Coupled (Spare limit n) (Spare limit 0) E x)
    (hE : ∀ p q, E p q → p.sent = q.sent) (hlow : 4 ≤ c.fds) (hhigh : c.fds + n ≤ limit) :
    c.sent x = c.alone.sent x ∧ (c.Waits x ↔ c.alone.Waits x) := by
  have hfresh : 4 + n ≤ limit := by omega
  exact hx.sentAfter_eq (fun _ _ h => h.sent) hE ⟨rfl, hhigh, hfresh⟩

end

/-! ## Step by step -/

section

variable {x : C Proc Unit} {sockfd limit : Nat} {s t : Server} {e : Event} {es : List Event}

/-- A child later on: it has made further calls, or none if it had finished. -/
structure Child.Later (x : C Proc Unit) (c d : Child) : Prop where
  pid : d.pid = c.pid
  conn : d.conn = c.conn
  fds : d.fds = c.fds
  calls : c.calls ≤ d.calls
  ended : ¬c.Waits x → d = c

theorem Child.Later.refl (c : Child) : c.Later x c := ⟨rfl, rfl, rfl, Nat.le_refl _, fun _ => rfl⟩

theorem Child.Later.trans {a b c : Child} (hab : a.Later x b) (hbc : b.Later x c) :
    a.Later x c where
  pid := hbc.pid.trans hab.pid
  conn := hbc.conn.trans hab.conn
  fds := hbc.fds.trans hab.fds
  calls := hab.calls.trans hbc.calls
  ended h := by
    have hb := hab.ended h
    rw [hb] at hbc
    exact hbc.ended h

/-- No step loses a child or takes a call of it back. -/
theorem step_later (h : Step x sockfd limit s e t) :
    ∀ c ∈ s.children, ∃ d ∈ t.children, c.Later x d := by
  unfold Server.children
  intro c hc
  cases h with
  | fork conn pid family main here exited running =>
    refine ⟨c, ?_, Child.Later.refl c⟩
    simp only [List.mem_append] at hc ⊢
    tauto
  | work before after d among waits =>
    rw [among] at hc
    by_cases hcd : c = d
    · subst hcd
      refine ⟨{ c with calls := c.calls + 1 }, by simp, rfl, rfl, rfl, Nat.le_succ _, ?_⟩
      exact fun hended => absurd waits hended
    · refine ⟨c, ?_, Child.Later.refl c⟩
      simp only [List.mem_append, List.mem_cons, hcd, false_or] at hc ⊢
      tauto
  | exit before after d family among ended exited running =>
    rw [among] at hc
    refine ⟨c, ?_, Child.Later.refl c⟩
    simp only [List.mem_append, List.mem_cons, List.not_mem_nil, or_false] at hc ⊢
    tauto
  | accept | refuse | forkFails | close | signal | wait => exact ⟨c, hc, Child.Later.refl c⟩

theorem run_later (h : Runs (Step x sockfd limit) s es t) :
    ∀ c ∈ s.children, ∃ d ∈ t.children, c.Later x d := by
  induction h with
  | done s => exact fun c hc => ⟨c, hc, Child.Later.refl c⟩
  | next first _ ih =>
    intro c hc
    obtain ⟨d, hd, hcd⟩ := step_later first c hc
    obtain ⟨b, hb, hdb⟩ := ih d hd
    exact ⟨b, hb, hcd.trans hdb⟩

/-- A later child has sent what it had sent before, and perhaps more. -/
theorem Child.Later.sent {c d : Child} (hx : Steady x) (h : c.Later x d) :
    c.sent x <+: d.sent x := by
  unfold Child.sent
  rw [h.conn, h.fds]
  exact sentAfter_mono hx h.calls

end

/-! ## The two servers -/

/-- The version 1 server (`main` of `tcpserv.c`, once it listens). -/
def V1.tcpServer (host : Host) (sockfd : Nat) : Server → Event → Server → Prop :=
  Step (V1.processQuery (onDisk host)) sockfd host.maxFds

/-- The version 2 server (`main` of `tcpserv2.c`, once it listens). -/
def V2.tcpServer (host : Host) (sockfd : Nat) : Server → Event → Server → Prop :=
  Step (V2.processQuery (onDisk host)) sockfd host.maxFds

section

variable {host : Host} {sockfd : Nat} {s t : Server} {es fs : List Event}

theorem four_le (host : Host) : 4 ≤ host.maxFds := le_trans (by omega) host.room

theorem V1.tcpServer_consistent (h : Runs (V1.tcpServer host sockfd) (Server.start sockfd) es s) :
    Consistent (V1.processQuery (onDisk host)) sockfd host.maxFds s :=
  run_consistent (four_le host) h

theorem V2.tcpServer_consistent (h : Runs (V2.tcpServer host sockfd) (Server.start sockfd) es s) :
    Consistent (V2.processQuery (onDisk host)) sockfd host.maxFds s :=
  run_consistent (four_le host) h

/-- A version 1 child is as good as one of a server that has just been started. -/
theorem V1.child_alone (h : Runs (V1.tcpServer host sockfd) (Server.start sockfd) es s) {c : Child}
    (hc : c ∈ s.children) :
    c.sent (V1.processQuery (onDisk host)) = c.alone.sent (V1.processQuery (onDisk host)) ∧
    (c.Waits (V1.processQuery (onDisk host)) ↔ c.alone.Waits (V1.processQuery (onDisk host))) := by
  obtain ⟨hlow, hhigh, -⟩ := (V1.tcpServer_consistent h).copies c hc
  exact Child.isolated (V1.processQuery_coupled (onDisk_spare host) (Spare.unheard _ 1))
    (fun _ _ h => h.sent) hlow hhigh

/-- So is a version 2 child, while few enough connections have got no child. -/
theorem V2.child_alone (h : Runs (V2.tcpServer host sockfd) (Server.start sockfd) es s)
    (hroom : s.orphaned.length + 9 ≤ host.maxFds) {c : Child} (hc : c ∈ s.children) :
    c.sent (V2.processQuery (onDisk host)) = c.alone.sent (V2.processQuery (onDisk host)) ∧
    (c.Waits (V2.processQuery (onDisk host)) ↔ c.alone.Waits (V2.processQuery (onDisk host))) := by
  obtain ⟨hlow, -, hhigh⟩ := (V2.tcpServer_consistent h).copies c hc
  exact Child.isolated (V2.processQuery_coupled (onDisk_spare host) (Spare.unheard _ 5))
    (fun _ _ h => h.sent) hlow (by omega)

end

/-! ## The answers -/

namespace V1

variable {rs : List Record} {query : Request}

/-- What goes out for a query on a well-formed database: the message about the
version, if that is wrong, and in any case the answer to the opcode. -/
def fullReply (rs : List Record) (flags : Bytes → Option Bytes) (query : Request) : Bytes :=
  versionPart query ++
    (reply maxDataLen (answerOf (Record.file rs) flags { query with version := 1 }).1
      (answerOf (Record.file rs) flags { query with version := 1 }).2).encode

theorem outcome_records (flags : Bytes → Option Bytes) (h1 : query.char1 ≠ 0)
    (h2 : query.char2 ≠ 0) :
    outcome (Record.file rs) flags query
      = some (answerOf (Record.file rs) flags { query with version := 1 }) := by
  have htidy : Request.Tidy { query with version := 1 } (Record.file rs) :=
    fun _ h4 => Record.records_tidy rs h1 h2 h4
  show outcome (Record.file rs) flags { query with version := 1 } = _
  exact outcome_eq_answerOf rfl htidy

/-- A child that has been started alone returns after two calls at the most. -/
theorem alone_returns (host : Host) {c : Child} (hdb : host.statedb = some (Record.file rs))
    (hflags : ∀ name data, host.flags name = some data → data.length ≤ maxDataLen)
    (hlen : 4 ≤ c.conn.peer.stream.length) (h1 : (queryOf c.conn.peer.stream).char1 ≠ 0)
    (h2 : (queryOf c.conn.peer.stream).char2 ≠ 0)
    (hkernel : ∀ i, (c.conn.peer.kernel.get i).Whole 19006) :
    ∃ q, processQuery (onDisk host)
        ((c.conn.peer.process Proc.fresh.fds).withOffers c.conn.peer.kernel 2) = .ok () q ∧
      q.sent = fullReply rs host.flags (queryOf c.conn.peer.stream) := by
  have hfits : FlagFits host (queryOf c.conn.peer.stream) := fun _ => hflags _
  have hleaves := processQuery_leaves hdb hfits (FullOffers.ofKernel _ hkernel 2)
    c.conn.peer.broken hlen h1 h2
  rw [outcome_records host.flags h1 h2] at hleaves
  exact hleaves

end V1

namespace V2

variable {rs : List Record}

/-- What goes out for a stream on a well-formed database. -/
def fullReply (rs : List Record) (flags : Bytes → Option Bytes) (stream : Bytes) : Bytes :=
  (tcpReply (tableOf rs flags) stream).elim [] fun res => res.blocks.flatten

/-- A child that has been started alone returns after six calls at the most. -/
theorem alone_returns (host : Host) {c : Child} (hdb : host.statedb = some (Record.file rs))
    (hbroken : c.conn.peer.broken = false)
    (hkernel : ∀ i, (c.conn.peer.kernel.get i).Whole 19004) :
    ∃ q, processQuery (onDisk host)
        ((c.conn.peer.process Proc.fresh.fds).withOffers c.conn.peer.kernel 6) = .ok () q ∧
      q.sent = fullReply rs host.flags c.conn.peer.stream := by
  have hroom := host.room
  have hfds : Proc.fresh.fds + 5 ≤ host.maxFds := show 4 + 5 ≤ host.maxFds by omega
  exact processQuery_sends
    (p := (c.conn.peer.process Proc.fresh.fds).withOffers c.conn.peer.kernel 6) hdb hfds rfl
    hbroken (FullOffers.ofKernel _ hkernel 6) rfl

end V2

/-! ## Two clients -/

/-- A client that asks for the name of New Hampshire. -/
def V1.asking : Peer := ⟨[1, 1, 110, 104], false, fun _ => .room 19005⟩

/-- The same client in version 2. -/
def V2.asking : Peer := ⟨[2, 1, 110, 104, 1], false, fun _ => .room 19003⟩

/-- It is the first client. -/
theorem first_client (x : C Proc Unit) (host : Host) (peer : Peer) :
    ∃ s, Runs (Step x 3 host.maxFds) (Server.start 3) [.accept peer, .fork 7] s ∧
      s.running = [⟨7, ⟨0, 4, peer⟩, 4, 0⟩] ∧ s.orphaned = [] := by
  have hroom := host.room
  exact ⟨_, .next (.accept 4 peer rfl rfl (by decide) (show 4 < host.maxFds by omega)) <|
    .next (.fork _ ⟨7, by decide⟩ ⟨[], [7], by decide, by decide⟩ rfl rfl rfl rfl) <|
    .done _, rfl, rfl⟩

/-- It comes behind a client that got no child, and its own has a descriptor more. -/
theorem second_client (x : C Proc Unit) (host : Host) (peer : Peer) :
    ∃ s, Runs (Step x 3 host.maxFds) (Server.start 3)
        [.accept .quiet, .forkFails, .accept peer, .fork 7] s ∧
      s.running = [⟨7, ⟨1, 5, peer⟩, 5, 0⟩] ∧ s.orphaned = [⟨0, 4, .quiet⟩] := by
  have hroom := host.room
  exact ⟨_, .next (.accept 4 .quiet rfl rfl (by decide) (show 4 < host.maxFds by omega)) <|
    .next (.forkFails _ rfl rfl) <|
    .next (.accept 5 peer rfl rfl (by decide) (show 5 < host.maxFds by omega)) <|
    .next (.fork _ ⟨7, by decide⟩ ⟨[], [7], by decide, by decide⟩ rfl rfl rfl rfl) <|
    .done _, rfl, rfl⟩

/-- A first client that comes to its end is among the finished ones some time. -/
theorem first_client_finished {x : C Proc Unit} (host : Host) {peer : Peer}
    (hends : (⟨7, ⟨0, 4, peer⟩, 4, 0⟩ : Child).Ends x) :
    ∃ s es t, Runs (Step x 3 host.maxFds) (Server.start 3) [.accept peer, .fork 7] s ∧
      s.running = [⟨7, ⟨0, 4, peer⟩, 4, 0⟩] ∧ Runs (Step x 3 host.maxFds) s es t ∧
      t.orphaned = [] ∧ ∃ c ∈ t.finished, c.conn = ⟨0, 4, peer⟩ := by
  obtain ⟨s, hs, hrunning, horphaned⟩ := first_client x host peer
  have hfamily := (run_consistent (four_le host) hs).running
  obtain ⟨es, t, hrun, hes, hnone, -⟩ := drain s.running s rfl hfamily
    (by rw [hrunning]; exact List.forall_mem_singleton.mpr hends)
  obtain ⟨d, hd, hlater⟩ := run_later hrun ⟨7, ⟨0, 4, peer⟩, 4, 0⟩
    (List.mem_append_left _ (hrunning ▸ List.mem_singleton_self _))
  refine ⟨s, es, t, hs, hrunning, hrun, (run_offLoop hrun hes).2.2.trans horphaned, d, ?_,
    hlater.conn⟩
  rwa [Server.children, hnone, List.nil_append] at hd

/-! ## Results -/

section

variable {host : Host} {sockfd : Nat} {s t : Server} {es fs : List Event}

/-- **Isolation**: at every moment of every run, each client of the version 1 server
has got what it would have got from a server that serves nobody else. -/
theorem v1_isolated
    (h : Runs (V1.tcpServer host sockfd) (Server.start sockfd) es s) :
    ∀ c ∈ s.children,
      c.sent (V1.processQuery (onDisk host)) = c.alone.sent (V1.processQuery (onDisk host)) ∧
      (c.Waits (V1.processQuery (onDisk host)) ↔
        c.alone.Waits (V1.processQuery (onDisk host))) :=
  fun _ hc => V1.child_alone h hc

theorem v1_isolated_second :
    (⟨7, ⟨1, 5, V1.asking⟩, 5, 0⟩ : Child).sent (V1.processQuery (onDisk Host.small))
      = (⟨7, ⟨1, 5, V1.asking⟩, 4, 0⟩ : Child).sent (V1.processQuery (onDisk Host.small)) := by
  obtain ⟨s, hs, hrunning, -⟩ :=
    second_client (V1.processQuery (onDisk Host.small)) Host.small V1.asking
  exact (v1_isolated hs _
    (List.mem_append_left _ (hrunning ▸ List.mem_singleton_self _))).1

/-- The same of version 2, as long as the connections without a child leave it five
descriptors. -/
theorem v2_isolated
    (h : Runs (V2.tcpServer host sockfd) (Server.start sockfd) es s)
    (hroom : s.orphaned.length + 9 ≤ host.maxFds) :
    ∀ c ∈ s.children,
      c.sent (V2.processQuery (onDisk host)) = c.alone.sent (V2.processQuery (onDisk host)) ∧
      (c.Waits (V2.processQuery (onDisk host)) ↔
        c.alone.Waits (V2.processQuery (onDisk host))) :=
  fun _ hc => V2.child_alone h hroom hc

theorem v2_isolated_second :
    (⟨7, ⟨1, 5, V2.asking⟩, 5, 0⟩ : Child).sent (V2.processQuery (onDisk Host.small))
      = (⟨7, ⟨1, 5, V2.asking⟩, 4, 0⟩ : Child).sent (V2.processQuery (onDisk Host.small)) := by
  obtain ⟨s, hs, hrunning, horphaned⟩ :=
    second_client (V2.processQuery (onDisk Host.small)) Host.small V2.asking
  have hroom : s.orphaned.length + 9 ≤ 16 := by
    rw [horphaned]
    decide
  exact (v2_isolated hs hroom _
    (List.mem_append_left _ (hrunning ▸ List.mem_singleton_self _))).1

/-- One of the two servers. -/
def IsQueryProcessor (host : Host) (x : C Proc Unit) : Prop :=
  x = V1.processQuery (onDisk host) ∨ x = V2.processQuery (onDisk host)

theorem IsQueryProcessor.steady {x : C Proc Unit} (h : IsQueryProcessor host x) : Steady x := by
  rcases h with rfl | rfl
  · exact V1.processQuery_steady host
  · exact V2.processQuery_steady host

/-- **No client is taken anything back**: between two moments of a run each child
stays with its connection and adds to what it has sent, and a finished one stays
as it is. -/
theorem children_grow {x : C Proc Unit} (hx : IsQueryProcessor host x)
    (h : Runs (Step x sockfd host.maxFds) (Server.start sockfd) es s)
    (h' : Runs (Step x sockfd host.maxFds) s fs t) :
    ∀ c ∈ s.children, ∃ d ∈ t.children, d.pid = c.pid ∧ d.conn = c.conn ∧
      c.sent x <+: d.sent x ∧ (c ∈ s.finished → d = c) := by
  intro c hc
  obtain ⟨d, hd, hlater⟩ := run_later h' c hc
  have hcons := run_consistent (four_le host) h
  exact ⟨d, hd, hlater.pid, hlater.conn, hlater.sent hx.steady,
    fun hfin => hlater.ended (hcons.ended c hfin)⟩

theorem children_grow_asking : ∃ t : Server, ∃ d ∈ t.children, d.pid = 7 ∧
    d.conn = ⟨0, 4, V1.asking⟩ ∧
    (⟨7, ⟨0, 4, V1.asking⟩, 4, 0⟩ : Child).sent (V1.processQuery (onDisk Host.small))
      <+: d.sent (V1.processQuery (onDisk Host.small)) := by
  obtain ⟨q, hq, -⟩ := V1.alone_returns Host.small (c := ⟨7, ⟨0, 4, V1.asking⟩, 4, 0⟩) rfl
    (fun _ _ h => by cases h) (by decide) (by decide) (by decide) fun _ => ⟨19005, rfl, le_refl _⟩
  obtain ⟨s, es, t, hs, hrunning, hrun, -, -⟩ := first_client_finished Host.small
    ⟨2, (not_waiting_of_ok hq).1⟩
  obtain ⟨d, hd, hpid, hconn, hsent, -⟩ := children_grow (Or.inl rfl) hs hrun
    ⟨7, ⟨0, 4, V1.asking⟩, 4, 0⟩ (List.mem_append_left _ (hrunning ▸ List.mem_singleton_self _))
  exact ⟨t, d, hd, hpid, hconn, hsent⟩

/-- A child that does as well as one that returns has sent the beginning of what that
sends, and all of it once it has finished. -/
theorem Child.sent_of_alone {x : C Proc Unit} {c : Child} {calls : Nat} {q : Proc}
    (hx : Steady x) (halone : c.sent x = c.alone.sent x ∧ (c.Waits x ↔ c.alone.Waits x))
    (hrun : x ((c.conn.peer.process Proc.fresh.fds).withOffers c.conn.peer.kernel calls)
      = .ok () q) :
    c.sent x <+: q.sent ∧ (¬c.Waits x → c.sent x = q.sent) := by
  obtain ⟨hend, hsent⟩ := not_waiting_of_ok hrun
  obtain ⟨hbegin, hall⟩ := sentAfter_settled hx hend c.calls
  rw [hsent] at hbegin hall
  rw [halone.1, halone.2]
  exact ⟨hbegin, hall⟩

/-- What a version 1 child has sent for a query. -/
theorem V1.child_answered {rs : List Record} (hdb : host.statedb = some (Record.file rs))
    (hflags : ∀ name data, host.flags name = some data → data.length ≤ V1.maxDataLen)
    (h : Runs (V1.tcpServer host sockfd) (Server.start sockfd) es s) {c : Child}
    (hc : c ∈ s.children) (hlen : 4 ≤ c.conn.peer.stream.length)
    (h1 : (V1.queryOf c.conn.peer.stream).char1 ≠ 0)
    (h2 : (V1.queryOf c.conn.peer.stream).char2 ≠ 0)
    (hkernel : ∀ i, (c.conn.peer.kernel.get i).Whole 19006) :
    c.sent (V1.processQuery (onDisk host))
      <+: V1.fullReply rs host.flags (V1.queryOf c.conn.peer.stream) ∧
    (c ∈ s.finished → c.sent (V1.processQuery (onDisk host))
      = V1.fullReply rs host.flags (V1.queryOf c.conn.peer.stream)) := by
  obtain ⟨q, hq, hsent⟩ := V1.alone_returns host hdb hflags hlen h1 h2 hkernel
  obtain ⟨hbegin, hall⟩ := Child.sent_of_alone (V1.processQuery_steady host)
    (V1.child_alone h hc) hq
  rw [hsent] at hbegin hall
  exact ⟨hbegin, fun hfin => hall ((V1.tcpServer_consistent h).ended c hfin)⟩

/-- **The answers of the version 1 server**: whatever else goes on, a client that sends
a query for a state code and whose kernel takes what is written gets the answer to
the query and nothing else, all of it once its child has finished. -/
theorem v1_answered (rs : List Record) (hdb : host.statedb = some (Record.file rs))
    (hflags : ∀ name data, host.flags name = some data → data.length ≤ V1.maxDataLen)
    (h : Runs (V1.tcpServer host sockfd) (Server.start sockfd) es s) :
    ∀ c ∈ s.children, 4 ≤ c.conn.peer.stream.length →
      (V1.queryOf c.conn.peer.stream).char1 ≠ 0 → (V1.queryOf c.conn.peer.stream).char2 ≠ 0 →
      (∀ i, (c.conn.peer.kernel.get i).Whole 19006) →
      c.sent (V1.processQuery (onDisk host))
        <+: V1.fullReply rs host.flags (V1.queryOf c.conn.peer.stream) ∧
      (c ∈ s.finished → c.sent (V1.processQuery (onDisk host))
        = V1.fullReply rs host.flags (V1.queryOf c.conn.peer.stream)) :=
  fun _ hc hlen h1 h2 hkernel => V1.child_answered hdb hflags h hc hlen h1 h2 hkernel

theorem V1.asking_whole : ∀ i, (V1.asking.kernel.get i).Whole 19006 :=
  fun _ => ⟨19005, rfl, le_refl _⟩

/-- A run in which that client is served to the end. -/
theorem V1.asking_finishes : ∃ es s, Runs (V1.tcpServer Host.small 3) (Server.start 3) es s ∧
    ∃ c ∈ s.finished, c.conn.peer = V1.asking := by
  obtain ⟨q, hq, -⟩ := V1.alone_returns Host.small (c := ⟨7, ⟨0, 4, V1.asking⟩, 4, 0⟩) rfl
    (fun _ _ h => by cases h) (by decide) (by decide) (by decide) V1.asking_whole
  obtain ⟨r, es, s, hfirst, -, hrun, -, c, hc, hconn⟩ := first_client_finished Host.small
    ⟨2, (not_waiting_of_ok hq).1⟩
  exact ⟨_, s, hfirst.append hrun, c, hc, by rw [hconn]⟩

theorem v1_answered_asking : ∃ s : Server, ∃ c ∈ s.finished, c.conn.peer = V1.asking ∧
    c.sent (V1.processQuery (onDisk Host.small))
      = V1.fullReply [newHampshire] Host.small.flags ⟨1, 1, 110, 104⟩ := by
  obtain ⟨es, s, hrun, c, hc, hpeer⟩ := V1.asking_finishes
  have hanswered := v1_answered [newHampshire] rfl (fun _ _ h => by cases h) hrun c
    (List.mem_append_right _ hc)
  rw [hpeer] at hanswered
  exact ⟨s, c, hc, hpeer, (hanswered (by decide) (by decide) (by decide) V1.asking_whole).2 hc⟩

/-- What a version 2 child has sent for a stream. -/
theorem V2.child_answered {rs : List Record} (hdb : host.statedb = some (Record.file rs))
    (h : Runs (V2.tcpServer host sockfd) (Server.start sockfd) es s)
    (hroom : s.orphaned.length + 9 ≤ host.maxFds) {c : Child} (hc : c ∈ s.children)
    (hbroken : c.conn.peer.broken = false)
    (hkernel : ∀ i, (c.conn.peer.kernel.get i).Whole 19004) :
    c.sent (V2.processQuery (onDisk host)) <+: V2.fullReply rs host.flags c.conn.peer.stream ∧
    (c ∈ s.finished → c.sent (V2.processQuery (onDisk host))
      = V2.fullReply rs host.flags c.conn.peer.stream) := by
  obtain ⟨q, hq, hsent⟩ := V2.alone_returns host hdb hbroken hkernel
  obtain ⟨hbegin, hall⟩ := Child.sent_of_alone (V2.processQuery_steady host)
    (V2.child_alone h hroom hc) hq
  rw [hsent] at hbegin hall
  exact ⟨hbegin, fun hfin => hall ((V2.tcpServer_consistent h).ended c hfin)⟩

theorem V2.asking_whole : ∀ i, (V2.asking.kernel.get i).Whole 19004 :=
  fun _ => ⟨19003, rfl, le_refl _⟩

/-- A run in which the client of version 2 is served to the end. -/
theorem V2.asking_finishes : ∃ es s, Runs (V2.tcpServer Host.small 3) (Server.start 3) es s ∧
    s.orphaned = [] ∧ ∃ c ∈ s.finished, c.conn.peer = V2.asking := by
  obtain ⟨q, hq, -⟩ := V2.alone_returns Host.small
    (c := ⟨7, ⟨0, 4, V2.asking⟩, 4, 0⟩) rfl rfl V2.asking_whole
  obtain ⟨r, es, s, hfirst, -, hrun, horphaned, c, hc, hconn⟩ := first_client_finished Host.small
    ⟨6, (not_waiting_of_ok hq).1⟩
  exact ⟨_, s, hfirst.append hrun, horphaned, c, hc, by rw [hconn]⟩

end

end StateProtocol
