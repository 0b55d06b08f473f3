import StateProtocol.Clib.Accept

/-!
# The accept loops of the TCP servers (`main`)

Both servers hand each connection to a child and close their own descriptor of
it. When `fork` fails they go on to the next connection without closing it, so
that descriptor stays open: the parent gets back to `accept` with what it had
open before exactly as long as no `fork` has failed (`acceptLoop_iff`), and with
one descriptor more for every one that has (`acceptLoop_run`).
-/

namespace StateProtocol

open StateProtocol.Clib

/-- `for ( ; ; ) { newsockfd = accept(…); … }`; `processQuery` is what the child
does with its connection. -/
def acceptLoop (processQuery : Nat → C Listener Unit) (sockfd : Nat) :
    (rounds : Nat) → C Listener Unit
  | 0 => throw .blocked
  | rounds + 1 => do
    match ← accept with
    | none => acceptLoop processQuery sockfd rounds
    | some newsockfd =>
      let pid ← fork
      -- the connection is not closed here
      if pid = -1 then acceptLoop processQuery sockfd rounds
      else if pid ≠ 0 then do
        close newsockfd
        acceptLoop processQuery sockfd rounds
      else do
        close sockfd
        processQuery newsockfd
        close newsockfd

/-- The loop for as many rounds as there are connections to come, and back to
`accept`. -/
def acceptAll (processQuery : Nat → C Listener Unit) (sockfd : Nat) : C Listener Unit := fun s =>
  acceptLoop processQuery sockfd (s.coming.length + 1) s

/-- The loop in `main` of `Version1_Server/tcpserv.c` -/
def V1.acceptConnections := acceptAll

/-- The loop in `main` of `Version2_Server/tcpserv2.c` -/
def V2.acceptConnections := acceptAll

/-- Each time the process gets back to `accept`, which is after any beginning of
the arrivals, it has the same descriptors open as at the start. -/
def KeepsDescriptors (server : C Listener Unit) (fds : List Nat) (arrivals : List Arrival) :
    Prop :=
  ∀ seen, seen <+: arrivals → ∃ t,
    server ⟨fds, seen, none⟩ = .error .blocked t ∧ t.coming = [] ∧ t.fds = fds

section

variable (processQuery : Nat → C Listener Unit) (sockfd : Nat) {arrivals : List Arrival}

/-- The descriptors of the connections that got no child. -/
def orphans : List Arrival → List Nat
  | [] => []
  | .refused :: arrivals => orphans arrivals
  | .connected fd none :: arrivals => orphans arrivals ++ [fd]
  | .connected _ (some _) :: arrivals => orphans arrivals

/-- **What the process has open** when it gets back to `accept`. -/
theorem acceptLoop_run : ∀ (arrivals : List Arrival) (fds : List Nat) (child : Option Pid),
    ∃ child', acceptLoop processQuery sockfd (arrivals.length + 1) ⟨fds, arrivals, child⟩
      = .error .blocked ⟨orphans arrivals ++ fds, [], child'⟩ := by
  intro arrivals
  induction arrivals with
  | nil => exact fun fds child => ⟨child, rfl⟩
  | cons arrival arrivals ih =>
    intro fds child
    rw [List.length_cons, acceptLoop]
    cases arrival with
    | refused =>
      rw [bind_of_ok (accept_refused fds arrivals child)]
      exact ih fds child
    | connected fd forked =>
      rw [bind_of_ok (accept_connected fds fd arrivals child forked)]
      dsimp only
      cases forked with
      | none =>
        rw [bind_of_ok (fork_failed (fd :: fds) arrivals), if_pos rfl, orphans, List.append_assoc]
        exact ih (fd :: fds) none
      | some pid =>
        have hpid := pid.property
        rw [bind_of_ok (fork_parent (fd :: fds) arrivals pid), if_neg (by omega),
          if_pos (by omega), bind_of_ok (close_first fds fd arrivals (some pid))]
        exact ih fds (some pid)

theorem orphans_eq_nil : orphans arrivals = [] ↔ ∀ a ∈ arrivals, ¬a.Orphan := by
  induction arrivals with
  | nil => simp [orphans]
  | cons a arrivals ih =>
    rw [List.forall_mem_cons, ← ih]
    cases a with
    | refused => simp [orphans, Arrival.Orphan]
    | connected fd child => cases child <;> simp [orphans, Arrival.Orphan]

theorem acceptAll_iff (fds : List Nat) :
    KeepsDescriptors (acceptAll processQuery sockfd) fds arrivals ↔
      ∀ a ∈ arrivals, ¬a.Orphan := by
  have hrun := acceptLoop_run processQuery sockfd
  constructor
  · intro h
    obtain ⟨t, ht, -, hfds⟩ := h arrivals List.prefix_rfl
    obtain ⟨child, hall⟩ := hrun arrivals fds none
    rw [acceptAll, hall] at ht
    cases ht
    exact orphans_eq_nil.mp (List.append_left_eq_self.mp hfds)
  · intro h seen hseen
    obtain ⟨child, hall⟩ := hrun seen fds none
    rw [orphans_eq_nil.mpr fun a ha => h a (hseen.subset ha)] at hall
    exact ⟨_, hall, rfl, rfl⟩

end

/-- **When the parents keep only their listening socket**, or whatever else they
have open at the start. -/
theorem keepsDescriptors_iff (processQuery : Nat → C Listener Unit) (sockfd : Nat)
    (fds : List Nat) (arrivals : List Arrival) :
    (KeepsDescriptors (V1.acceptConnections processQuery sockfd) fds arrivals ↔
      ∀ a ∈ arrivals, ¬a.Orphan) ∧
    (KeepsDescriptors (V2.acceptConnections processQuery sockfd) fds arrivals ↔
      ∀ a ∈ arrivals, ¬a.Orphan) :=
  ⟨acceptAll_iff processQuery sockfd fds, acceptAll_iff processQuery sockfd fds⟩

/-- One connection, for which there is no child. -/
theorem not_keepsDescriptors_orphan :
    ¬KeepsDescriptors (V1.acceptConnections (fun _ => pure ()) 3) [3] [.connected 4 none] ∧
      ¬KeepsDescriptors (V2.acceptConnections (fun _ => pure ()) 3) [3] [.connected 4 none] := by
  have h : ¬KeepsDescriptors (acceptAll (fun _ => pure ()) 3) [3] [.connected 4 none] :=
    fun hkeeps => (acceptAll_iff _ 3 [3]).mp hkeeps _ (List.mem_singleton_self _) rfl
  exact ⟨h, h⟩

end StateProtocol
