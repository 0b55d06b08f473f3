import StateProtocol.Accepting
import StateProtocol.Clib.Rounds
import StateProtocol.Clib.Transmit
import StateProtocol.Reaping

/-!
# A TCP server and its children

The parent, its SIGCHLD handler and the children, one step at a time. The parent
is at one of three points of its loop: in `accept`, before `fork`, or before
`close`. A child runs `process_query` on its own copy of the descriptors; a `work`
step is the kernel's answer to its next `write`. When a child has exited, a signal
is pending, and once that is delivered the parent does nothing but call `waitpid`
until the handler returns. Steps of the parent, of the children and of the kernel
come in any order.

The Makefiles ask for `-std=c11`, and there `signal` installs a handler for one
signal: it is taken off when it is called. So the first SIGCHLD is the only one
that gets to `child_exit`, and those after it are dropped.

`Consistent` is what every state of a run has: the descriptors of the parent, where
each connection is, and which children have been waited for (`run_consistent`).
-/

namespace StateProtocol

open StateProtocol.Clib

/-- The other end of a connection: what it sends before the end of its stream, and
the answers of the kernel to what is written to it. -/
structure Peer where
  stream : Bytes
  broken : Bool
  kernel : Stream' Offer

/-- A connection, with its number in the order of arrival and its descriptor in the
parent. -/
structure Conn where
  number : Nat
  fd : Nat
  peer : Peer

/-- A process that was forked for a connection. -/
structure Child where
  pid : Nat
  conn : Conn
  /-- its descriptors when it begins with the query -/
  fds : Nat
  /-- the `write` calls that have been answered -/
  calls : Nat

/-- A process with `fds` descriptors that begins with the query. -/
def Peer.process (peer : Peer) (fds : Nat) : Proc := ⟨fds, peer.stream, peer.broken, [], []⟩

/-- What a child has put on its connection so far. -/
def Child.sent (processQuery : C Proc Unit) (c : Child) : Bytes :=
  sentAfter processQuery (c.conn.peer.process c.fds) c.conn.peer.kernel c.calls

/-- The child has another `write` to make. -/
def Child.Waits (processQuery : C Proc Unit) (c : Child) : Prop :=
  Waiting processQuery (c.conn.peer.process c.fds) c.conn.peer.kernel c.calls

/-- Where the parent is in its loop. -/
inductive Point
  | accepting
  | forking (conn : Conn)
  | closing (conn : Conn)

structure Server where
  /-- the parent's descriptors, but for the standard streams -/
  fds : List Nat
  point : Point
  /-- the parent is in `child_exit` -/
  handling : Bool
  /-- SIGCHLD still has its handler -/
  installed : Bool
  /-- a SIGCHLD has not been delivered -/
  pending : Bool
  parent : Parent
  running : List Child
  finished : List Child
  /-- connections that got no child, the last one first -/
  orphaned : List Conn
  /-- how many connections there have been -/
  accepted : Nat
  /-- what the system has made of them -/
  arrivals : List Arrival

/-- The server gets to its loop. -/
def Server.start (sockfd : Nat) : Server where
  fds := [sockfd]
  point := .accepting
  handling := false
  installed := true
  pending := false
  parent := ⟨⟨[], [], by simp, by simp⟩, [], []⟩
  running := []
  finished := []
  orphaned := []
  accepted := 0
  arrivals := []

inductive Event
  | accept (peer : Peer)
  | refuse
  | fork (pid : Nat)
  | forkFails
  | close
  | work (pid : Nat)
  | exit (pid : Nat)
  | signal
  | wait

/-- Is it a step of the parent's loop? -/
def Event.OfLoop : Event → Prop
  | .accept _ | .refuse | .fork _ | .forkFails | .close => True
  | _ => False

/-- One step of a server whose children run `processQuery`, under a limit on open
descriptors. -/
inductive Step (processQuery : C Proc Unit) (sockfd limit : Nat) : Server → Event → Server → Prop
  | accept {s : Server} (fd : Nat) (peer : Peer) (main : s.handling = false)
    (here : s.point = .accepting) (unused : fd ∉ s.fds) (room : 3 + s.fds.length < limit) :
    Step processQuery sockfd limit s (.accept peer) { s with
      fds := fd :: s.fds
      point := .forking ⟨s.accepted, fd, peer⟩
      accepted := s.accepted + 1 }
  | refuse {s : Server} (main : s.handling = false) (here : s.point = .accepting) :
    Step processQuery sockfd limit s .refuse { s with arrivals := s.arrivals ++ [.refused] }
  | fork {s : Server} (conn : Conn) (pid : Pid) (family : Family) (main : s.handling = false)
    (here : s.point = .forking conn) (exited : family.exited = s.parent.family.exited)
    (running : family.running = s.parent.family.running ++ [pid.val]) :
    Step processQuery sockfd limit s (.fork pid.val) { s with
      point := .closing conn
      parent := { s.parent with family := family }
      -- the child closes its copy of the listening socket
      running := s.running ++ [⟨pid.val, conn, 3 + (s.fds.erase sockfd).length, 0⟩]
      arrivals := s.arrivals ++ [.connected conn.fd (some pid)] }
  | forkFails {s : Server} (conn : Conn) (main : s.handling = false)
    (here : s.point = .forking conn) :
    Step processQuery sockfd limit s .forkFails { s with
      -- back to `accept`, and the connection stays open
      point := .accepting
      orphaned := conn :: s.orphaned
      arrivals := s.arrivals ++ [.connected conn.fd none] }
  | close {s : Server} (conn : Conn) (main : s.handling = false)
    (here : s.point = .closing conn) :
    Step processQuery sockfd limit s .close { s with
      fds := s.fds.erase conn.fd
      point := .accepting }
  | work {s : Server} (before after : List Child) (c : Child)
    (among : s.running = before ++ c :: after) (waits : c.Waits processQuery) :
    Step processQuery sockfd limit s (.work c.pid) { s with
      running := before ++ { c with calls := c.calls + 1 } :: after }
  | exit {s : Server} (before after : List Child) (c : Child) (family : Family)
    (among : s.running = before ++ c :: after) (ended : ¬c.Waits processQuery)
    (exited : family.exited.Perm (c.pid :: s.parent.family.exited))
    (running : family.running = (before ++ after).map Child.pid) :
    Step processQuery sockfd limit s (.exit c.pid) { s with
      -- by default the signal is ignored
      pending := s.installed
      parent := { s.parent with family := family }
      running := before ++ after
      finished := s.finished ++ [c] }
  | signal {s : Server} (main : s.handling = false) (here : s.pending = true) :
    Step processQuery sockfd limit s .signal { s with
      handling := true
      installed := false
      pending := false }
  | wait {s : Server} (pid : Int) (parent : Parent) (here : s.handling = true)
    (waited : waitpid s.parent = .ok pid parent) :
    Step processQuery sockfd limit s .wait { s with
      -- only -1 ends the handler
      handling := decide (pid ≠ -1)
      parent := if pid = -1 then parent
        else { parent with reported := parent.reported ++ [pid] } }

/-! ## What every state has -/

/-- The connection that the parent has in hand. -/
def Point.inHand : Point → List Conn
  | .accepting => []
  | .forking conn | .closing conn => [conn]

/-- The connection that has not got to `fork`. -/
def Point.unforked : Point → List Conn
  | .forking conn => [conn]
  | .accepting | .closing _ => []

/-- Every child there has been and not been forgotten. -/
def Server.children (s : Server) : List Child := s.running ++ s.finished

/-- Where the connections are: in hand, without a child, or with one. -/
def Server.places (s : Server) : List Conn :=
  s.point.unforked ++ s.orphaned ++ s.children.map Child.conn

structure Consistent (processQuery : C Proc Unit) (sockfd limit : Nat) (s : Server) : Prop where
  /-- the parent has its socket open, the connection in hand and those without a child -/
  fds : s.fds = (s.point.inHand ++ s.orphaned).map Conn.fd ++ [sockfd]
  room : 3 + s.fds.length ≤ limit
  running : s.parent.family.running = s.running.map Child.pid
  /-- every connection is in one place -/
  places : (s.places.map Conn.number).Perm (List.range s.accepted)
  /-- a finished child is waited for once, or still to be waited for -/
  waited : (s.parent.family.exited ++ s.parent.reaped).Perm (s.finished.map Child.pid)
  /-- as long as the handler has not been called nobody is waited for, and whoever
  has exited has left a signal -/
  unhandled : s.installed = true → s.handling = false ∧ s.parent.reaped = [] ∧
    (s.parent.family.exited ≠ [] → s.pending = true)
  /-- and after that there is no signal -/
  oneShot : s.pending = true → s.installed = true
  arrivals : orphans s.arrivals = s.orphaned.map Conn.fd
  /-- a child has its connection, and those that were without a child when it was forked -/
  copies : ∀ c ∈ s.children, 4 ≤ c.fds ∧ c.fds < limit ∧ c.fds ≤ 4 + s.orphaned.length
  ended : ∀ c ∈ s.finished, ¬c.Waits processQuery

section

variable {processQuery : C Proc Unit} {sockfd limit : Nat} {s t : Server} {e : Event}

theorem start_consistent (h : 4 ≤ limit) :
    Consistent processQuery sockfd limit (Server.start sockfd) where
  fds := rfl
  room := h
  running := rfl
  places := List.Perm.refl _
  waited := List.Perm.refl _
  unhandled _ := ⟨rfl, rfl, fun h => absurd rfl h⟩
  oneShot h := absurd h Bool.false_ne_true
  arrivals := rfl
  copies _ h := absurd h List.not_mem_nil
  ended _ h := absurd h List.not_mem_nil

/-! ### Descriptors -/

theorem step_fds (h : Step processQuery sockfd limit s e t)
    (hs : s.fds = (s.point.inHand ++ s.orphaned).map Conn.fd ++ [sockfd]) :
    t.fds = (t.point.inHand ++ t.orphaned).map Conn.fd ++ [sockfd] := by
  cases h with
  | accept fd peer main here unused room =>
    rw [here] at hs
    exact congrArg (fd :: ·) hs
  | fork conn pid family main here exited running =>
    rw [here] at hs
    exact hs
  | forkFails conn main here =>
    rw [here] at hs
    exact hs
  | close conn main here =>
    rw [here] at hs
    have hfront : s.fds = conn.fd :: (s.orphaned.map Conn.fd ++ [sockfd]) := hs
    show s.fds.erase conn.fd = _
    rw [hfront, List.erase_cons_head]
    rfl
  | refuse | work | exit | signal | wait => exact hs

theorem step_room (h : Step processQuery sockfd limit s e t) (hs : 3 + s.fds.length ≤ limit) :
    3 + t.fds.length ≤ limit := by
  cases h with
  | accept fd peer main here unused room => exact room
  | close conn main here =>
    refine le_trans ?_ hs
    exact Nat.add_le_add_left List.length_erase_le 3
  | refuse | fork | forkFails | work | exit | signal | wait => exact hs

/-! ### Children -/

theorem waitpid_running_eq {p q : Parent} {r : Int} (h : waitpid p = .ok r q) :
    q.family.running = p.family.running := by
  rcases waitpid_cases h with ⟨pid, pids, -, -, rfl⟩ | ⟨-, -, -, rfl⟩ | ⟨-, -, -, rfl⟩ <;> rfl

/-- What is said of a child does not change what is kept of it. -/
theorem handled_family (pid : Int) (parent : Parent) :
    (if pid = -1 then parent else { parent with reported := parent.reported ++ [pid] }).family
      = parent.family := by
  split <;> rfl

theorem handled_reaped (pid : Int) (parent : Parent) :
    (if pid = -1 then parent else { parent with reported := parent.reported ++ [pid] }).reaped
      = parent.reaped := by
  split <;> rfl

theorem step_running (h : Step processQuery sockfd limit s e t)
    (hs : s.parent.family.running = s.running.map Child.pid) :
    t.parent.family.running = t.running.map Child.pid := by
  cases h with
  | fork conn pid family main here exited running =>
    rw [List.map_append, ← hs]
    exact running
  | work before after c among waits =>
    rw [among] at hs
    simpa using hs
  | exit before after c family among ended exited running => exact running
  | wait pid parent here waited =>
    dsimp only
    rw [handled_family, waitpid_running_eq waited]
    exact hs
  | accept | refuse | forkFails | close | signal => exact hs

theorem step_waited (h : Step processQuery sockfd limit s e t)
    (hs : (s.parent.family.exited ++ s.parent.reaped).Perm (s.finished.map Child.pid)) :
    (t.parent.family.exited ++ t.parent.reaped).Perm (t.finished.map Child.pid) := by
  cases h with
  | fork conn pid family main here exited running =>
    show (family.exited ++ s.parent.reaped).Perm _
    rwa [exited]
  | exit before after c family among ended exited running =>
    rw [List.map_append]
    refine ((exited.append_right _).trans ?_)
    exact (hs.cons _).trans (List.perm_append_singleton _ _).symm
  | wait pid parent here waited =>
    dsimp only
    rw [handled_family, handled_reaped]
    rcases waitpid_cases waited with ⟨pid, pids, hex, -, rfl⟩ | ⟨-, -, -, rfl⟩ | ⟨-, -, -, rfl⟩
    · rw [hex] at hs
      show (s.parent.family.exited.tail ++ (s.parent.reaped ++ [pid])).Perm _
      rw [hex, List.tail_cons, ← List.append_assoc]
      exact (List.perm_append_singleton _ _).trans hs
    · exact hs
    · exact hs
  | accept | refuse | forkFails | close | work | signal => exact hs

theorem step_unhandled (h : Step processQuery sockfd limit s e t)
    (hs : s.installed = true → s.handling = false ∧ s.parent.reaped = [] ∧
      (s.parent.family.exited ≠ [] → s.pending = true)) :
    t.installed = true → t.handling = false ∧ t.parent.reaped = [] ∧
      (t.parent.family.exited ≠ [] → t.pending = true) := by
  cases h with
  | fork conn pid family main here exited running =>
    show _ → _ ∧ _ ∧ (family.exited ≠ [] → _)
    rwa [exited]
  | exit before after c family among ended exited running =>
    intro hinstalled
    obtain ⟨hmain, hreaped, -⟩ := hs hinstalled
    exact ⟨hmain, hreaped, fun _ => hinstalled⟩
  | signal => exact fun hoff => absurd hoff Bool.false_ne_true
  | wait pid parent here waited =>
    intro hinstalled
    rw [(hs hinstalled).1] at here
    cases here
  | accept | refuse | forkFails | close | work => exact hs

theorem step_oneShot (h : Step processQuery sockfd limit s e t)
    (hs : s.pending = true → s.installed = true) : t.pending = true → t.installed = true := by
  cases h with
  | exit => exact id
  | signal => exact fun hoff => absurd hoff Bool.false_ne_true
  | accept | refuse | fork | forkFails | close | work | wait => exact hs

/-- The copies of the descriptors that a child gets. -/
theorem copied_fds {conn : Conn} (here : s.point = .forking conn)
    (hs : s.fds = (s.point.inHand ++ s.orphaned).map Conn.fd ++ [sockfd]) :
    3 + (s.fds.erase sockfd).length = 4 + s.orphaned.length ∧
      s.fds.length = s.orphaned.length + 2 := by
  have hmem : sockfd ∈ s.fds := by
    rw [hs]
    exact List.mem_append_right _ (List.mem_singleton_self _)
  have hlen : s.fds.length = s.orphaned.length + 2 := by
    rw [hs, here]
    simp [Point.inHand]
  rw [List.length_erase_of_mem hmem, hlen]
  omega

theorem step_copies (h : Step processQuery sockfd limit s e t)
    (hfds : s.fds = (s.point.inHand ++ s.orphaned).map Conn.fd ++ [sockfd])
    (hroom : 3 + s.fds.length ≤ limit)
    (hs : ∀ c ∈ s.children, 4 ≤ c.fds ∧ c.fds < limit ∧ c.fds ≤ 4 + s.orphaned.length) :
    ∀ c ∈ t.children, 4 ≤ c.fds ∧ c.fds < limit ∧ c.fds ≤ 4 + t.orphaned.length := by
  unfold Server.children at hs ⊢
  cases h with
  | fork conn pid family main here exited running =>
    obtain ⟨hcopy, hlen⟩ := copied_fds here hfds
    intro c hc
    simp only [List.mem_append, List.mem_singleton] at hc hs
    rcases hc with (hc | rfl) | hc
    · exact hs c (Or.inl hc)
    · dsimp only
      omega
    · exact hs c (Or.inr hc)
  | forkFails conn main here =>
    intro c hc
    obtain ⟨hlow, hhigh, hbound⟩ := hs c hc
    exact ⟨hlow, hhigh, hbound.trans (Nat.add_le_add_left (Nat.le_succ _) 4)⟩
  | work before after c among waits =>
    rw [among] at hs
    intro d hd
    simp only [List.mem_append, List.mem_cons] at hd hs
    rcases hd with (hd | rfl | hd) | hd
    · exact hs d (Or.inl (Or.inl hd))
    · exact hs c (Or.inl (Or.inr (Or.inl rfl)))
    · exact hs d (Or.inl (Or.inr (Or.inr hd)))
    · exact hs d (Or.inr hd)
  | exit before after c family among ended exited running =>
    rw [among] at hs
    intro d hd
    refine hs d ?_
    simp only [List.mem_append, List.mem_cons, List.not_mem_nil, or_false] at hd ⊢
    tauto
  | accept | refuse | close | signal | wait => exact hs

theorem step_ended (h : Step processQuery sockfd limit s e t)
    (hs : ∀ c ∈ s.finished, ¬c.Waits processQuery) : ∀ c ∈ t.finished, ¬c.Waits processQuery := by
  cases h with
  | exit before after c family among ended exited running =>
    intro d hd
    rcases List.mem_append.mp hd with hd | hd
    · exact hs d hd
    · rwa [List.mem_singleton.mp hd]
  | accept | refuse | fork | forkFails | close | work | signal | wait => exact hs

/-! ### Connections -/

theorem step_places (h : Step processQuery sockfd limit s e t)
    (hs : (s.places.map Conn.number).Perm (List.range s.accepted)) :
    (t.places.map Conn.number).Perm (List.range t.accepted) := by
  unfold Server.places Server.children at hs ⊢
  cases h with
  | accept fd peer main here unused room =>
    rw [here] at hs
    rw [List.range_succ]
    exact (hs.cons s.accepted).trans (List.perm_append_singleton _ _).symm
  | fork conn pid family main here exited running =>
    rw [here] at hs
    refine List.Perm.trans (List.Perm.map _ ?_) hs
    -- the connection goes from the front to the last of the running children
    have hmiddle : (s.orphaned ++ s.running.map Child.conn
        ++ conn :: s.finished.map Child.conn).Perm _ := List.perm_middle
    simpa [Point.unforked] using hmiddle
  | forkFails conn main here =>
    rw [here] at hs
    exact hs
  | close conn main here =>
    rw [here] at hs
    exact hs
  | work before after c among waits =>
    rw [among] at hs
    simpa using hs
  | exit before after c family among ended exited running =>
    rw [among] at hs
    have hmoved : (before ++ after ++ (s.finished ++ [c])).Perm
        (before ++ c :: after ++ s.finished) := by
      rw [List.append_assoc, List.append_assoc, ← List.append_assoc after]
      exact (List.perm_append_singleton _ _).append_left before
    exact List.Perm.trans (List.Perm.map _ ((hmoved.map _).append_left _)) hs
  | refuse | signal | wait => exact hs

theorem orphans_append (as bs : List Arrival) :
    orphans (as ++ bs) = orphans bs ++ orphans as := by
  induction as with
  | nil => exact (List.append_nil _).symm
  | cons a as ih =>
    rw [List.cons_append]
    cases a with
    | refused => exact ih
    | connected fd child =>
      cases child with
      | none => rw [orphans, orphans, ih, List.append_assoc]
      | some pid => exact ih

theorem step_arrivals (h : Step processQuery sockfd limit s e t)
    (hs : orphans s.arrivals = s.orphaned.map Conn.fd) :
    orphans t.arrivals = t.orphaned.map Conn.fd := by
  cases h with
  | refuse | fork =>
    dsimp only
    rw [orphans_append]
    exact hs
  | forkFails conn main here =>
    dsimp only
    rw [orphans_append, hs]
    rfl
  | accept | close | work | exit | signal | wait => exact hs

theorem step_consistent (h : Step processQuery sockfd limit s e t)
    (hs : Consistent processQuery sockfd limit s) : Consistent processQuery sockfd limit t where
  fds := step_fds h hs.fds
  room := step_room h hs.room
  running := step_running h hs.running
  places := step_places h hs.places
  waited := step_waited h hs.waited
  unhandled := step_unhandled h hs.unhandled
  oneShot := step_oneShot h hs.oneShot
  arrivals := step_arrivals h hs.arrivals
  copies := step_copies h hs.fds hs.room hs.copies
  ended := step_ended h hs.ended

/-- **Every state of every run is consistent.** -/
theorem run_consistent {es : List Event} (hlimit : 4 ≤ limit)
    (h : Runs (Step processQuery sockfd limit) (Server.start sockfd) es s) :
    Consistent processQuery sockfd limit s :=
  h.invariant (fun _ _ _ hs hst => step_consistent hst hs) (start_consistent hlimit)

end

/-! ## Coming to an end -/

section

variable {x : C Proc Unit} {sockfd limit : Nat}

/-- A child that comes to its end if the kernel goes on answering. -/
def Child.Ends (x : C Proc Unit) (c : Child) : Prop :=
  ∃ calls, ¬({ c with calls := c.calls + calls } : Child).Waits x

/-- Such a child can be brought to its end. -/
theorem work_off (x : C Proc Unit) (sockfd limit : Nat) (before after : List Child) :
    ∀ (calls : Nat) (s : Server) (c : Child), s.running = before ++ c :: after →
      ¬({ c with calls := c.calls + calls } : Child).Waits x →
      ∃ es d, (∀ e ∈ es, ¬e.OfLoop) ∧ ¬d.Waits x ∧ d.pid = c.pid ∧
        Runs (Step x sockfd limit) s es { s with running := before ++ d :: after } := by
  intro calls
  induction calls with
  | zero =>
    intro s c among ended
    refine ⟨[], c, by simp, ended, rfl, ?_⟩
    rw [← among]
    exact Runs.done s
  | succ calls ih =>
    intro s c among ended
    by_cases hwaits : c.Waits x
    · have hstep : Step x sockfd limit s (.work c.pid) { s with
          running := before ++ { c with calls := c.calls + 1 } :: after } :=
        Step.work before after c among hwaits
      have hended : ¬({ c with calls := c.calls + 1 + calls } : Child).Waits x := by
        rwa [Nat.add_assoc, Nat.add_comm 1 calls]
      obtain ⟨es, d, hes, hd, hpid, hrun⟩ := ih
        { s with running := before ++ { c with calls := c.calls + 1 } :: after }
        { c with calls := c.calls + 1 } rfl hended
      exact ⟨_, d, List.forall_mem_cons.mpr ⟨id, hes⟩, hd, hpid, Runs.next hstep hrun⟩
    · refine ⟨[], c, by simp, hwaits, rfl, ?_⟩
      rw [← among]
      exact Runs.done s

/-- All of them can, and the parent does not move. -/
theorem drain : ∀ (cs : List Child) (s : Server), s.running = cs →
    s.parent.family.running = cs.map Child.pid → (∀ c ∈ cs, c.Ends x) →
    ∃ es t, Runs (Step x sockfd limit) s es t ∧ (∀ e ∈ es, ¬e.OfLoop) ∧ t.running = [] ∧
      t.parent.family.running = [] ∧ t.handling = s.handling ∧ t.installed = s.installed ∧
      t.parent.reaped = s.parent.reaped := by
  intro cs
  induction cs with
  | nil => exact fun s hrun hfam _ => ⟨[], s, Runs.done s, by simp, hrun, hfam, rfl, rfl, rfl⟩
  | cons c cs ih =>
    intro s hrun hfam hends
    obtain ⟨hhead, htail⟩ := List.forall_mem_cons.mp hends
    obtain ⟨calls, hcalls⟩ := hhead
    obtain ⟨es, d, hes, hd, hpid, hwork⟩ := work_off x sockfd limit [] cs calls s c hrun hcalls
    have hsplit : s.parent.family.running = [] ++ d.pid :: cs.map Child.pid := by
      rw [hfam, hpid]
      rfl
    let exited : Server := { s with
      pending := s.installed
      parent := { s.parent with family := s.parent.family.leave hsplit }
      running := cs
      finished := s.finished ++ [d] }
    have hexit : Step x sockfd limit { s with running := [] ++ d :: cs } (.exit d.pid) exited :=
      Step.exit [] cs d (s.parent.family.leave hsplit) rfl hd (List.perm_append_singleton _ _) rfl
    obtain ⟨fs, t, hrest, hfs, ht⟩ := ih exited rfl rfl htail
    refine ⟨es ++ .exit d.pid :: fs, t, hwork.append (Runs.next hexit hrest), ?_, ht⟩
    intro e he
    rcases List.mem_append.mp he with he | he
    · exact hes e he
    · rcases List.mem_cons.mp he with rfl | he
      · exact id
      · exact hfs e he

end

section

variable {x : C Proc Unit} {sockfd limit : Nat} {s t : Server} {es : List Event}

/-- Steps that are not of the loop leave the parent where it is, with what it has open. -/
theorem run_offLoop (h : Runs (Step x sockfd limit) s es t) (hes : ∀ e ∈ es, ¬e.OfLoop) :
    t.point = s.point ∧ t.fds = s.fds ∧ t.orphaned = s.orphaned := by
  induction h with
  | done s => exact ⟨rfl, rfl, rfl⟩
  | next first rest ih =>
    obtain ⟨hhead, htail⟩ := List.forall_mem_cons.mp hes
    cases first with
    | work | exit | signal | wait => exact ih htail
    | accept | refuse | fork | forkFails | close => exact absurd trivial hhead

end

/-! ## Results -/

section

variable {processQuery : C Proc Unit} {sockfd limit : Nat} {s : Server} {es : List Event}

/-- A client that hangs up. -/
def Peer.quiet : Peer := ⟨[], false, fun _ => .fail⟩

/-- Three such clients: the first has a child, the second gets none, and the third is
about to be closed in the parent. -/
theorem three_clients (processQuery : C Proc Unit) :
    ∃ s, Runs (Step processQuery 3 16) (Server.start 3)
        [.accept .quiet, .fork 7, .close, .accept .quiet, .forkFails, .accept .quiet, .fork 8] s ∧
      s.accepted = 3 ∧ s.fds = [5, 4, 3] :=
  ⟨_, .next (.accept 4 .quiet rfl rfl (by decide) (by decide)) <|
    .next (.fork _ ⟨7, by decide⟩ ⟨[], [7], by decide, by decide⟩ rfl rfl rfl rfl) <|
    .next (.close _ rfl rfl) <|
    .next (.accept 4 .quiet rfl rfl (by decide) (by decide)) <|
    .next (.forkFails _ rfl rfl) <|
    .next (.accept 5 .quiet rfl rfl (by decide) (by decide)) <|
    .next (.fork _ ⟨8, by decide⟩ ⟨[], [7, 8], by decide, by decide⟩ rfl rfl rfl rfl) <|
    .done _, rfl, rfl⟩

/-- **No connection is lost or served twice**: in every state of every run, each
connection there has been is in exactly one place, and the parent has open its
socket, the connection in hand and the ones without a child. -/
theorem connections_accounted (hlimit : 4 ≤ limit)
    (h : Runs (Step processQuery sockfd limit) (Server.start sockfd) es s) :
    (s.places.map Conn.number).Perm (List.range s.accepted) ∧ (s.places.map Conn.number).Nodup ∧
    s.fds = (s.point.inHand ++ s.orphaned).map Conn.fd ++ [sockfd] ∧ 3 + s.fds.length ≤ limit := by
  have hs := run_consistent hlimit h
  exact ⟨hs.places, hs.places.nodup_iff.mpr List.nodup_range, hs.fds, hs.room⟩

theorem connections_accounted_three : ∃ s : Server, s.accepted = 3 ∧ s.fds = [5, 4, 3] ∧
    (s.places.map Conn.number).Perm (List.range s.accepted) ∧ (s.places.map Conn.number).Nodup ∧
    s.fds = (s.point.inHand ++ s.orphaned).map Conn.fd ++ [3] ∧ 3 + s.fds.length ≤ 16 := by
  obtain ⟨s, hrun, haccepted, hfds⟩ := three_clients (pure ())
  exact ⟨s, haccepted, hfds, connections_accounted (by decide) hrun⟩

end

end StateProtocol
