import StateProtocol.Sessions

/-!
# The parent between its loop and its handler

While the parent is in `child_exit`, it takes no step of its loop, and it stays there
until every child has exited that was running when it got in
(`handler_outlasts`). Once no child is running the handler returns, with every
child waited for; it has gone by then, and the children that exit later are never
waited for (`children_waited`). Seen from its loop, the parent is the one of
`acceptLoop`, and in the handler it does what `reapLoop` does (`parent_refines`).

So a server can always get back to `accept`, if its children come to their ends
(`run_settles`).
-/

namespace StateProtocol

open StateProtocol.Clib StateProtocol.Data

variable {x : C Proc Unit} {sockfd limit : Nat} {s t : Server} {e : Event} {es fs : List Event}

/-! ## In the handler -/

theorem step_main (h : Step x sockfd limit s e t) (hloop : e.OfLoop) : s.handling = false := by
  cases h with
  | accept fd peer main | refuse main | fork conn pid family main | forkFails conn main
  | close conn main => exact main
  | work | exit | signal | wait => exact absurd hloop id

/-- A step other than the exit of `pid` keeps the parent in the handler if that child
is running. -/
theorem step_handling {pid : Nat} (h : Step x sockfd limit s e t) (hne : e ≠ .exit pid)
    (hs : s.handling = true ∧ pid ∈ s.parent.family.running ∧
      s.parent.family.running = s.running.map Child.pid) :
    ¬e.OfLoop ∧ t.handling = true ∧ pid ∈ t.parent.family.running ∧
      t.parent.family.running = t.running.map Child.pid := by
  obtain ⟨hhandling, hmem, hrunning⟩ := hs
  refine ⟨fun hloop => ?_, ?_, ?_, step_running h hrunning⟩
  · rw [step_main h hloop] at hhandling
    cases hhandling
  · cases h with
    | wait pid' parent here waited =>
      rcases waitpid_cases waited with ⟨p, pids, -, rfl, -⟩ | ⟨-, -, rfl, -⟩ | ⟨-, hrun, -, -⟩
      · show decide ((p : Int) ≠ -1) = true
        exact decide_eq_true (by omega)
      · rfl
      · -- not without children
        rw [hrun] at hmem
        cases hmem
    | signal => rfl
    | accept | refuse | fork | forkFails | close | work | exit => exact hhandling
  · cases h with
    | fork conn pid' family main here exited running =>
      rw [hhandling] at main
      cases main
    | exit before after c family among ended exited running =>
      have hcne : pid ≠ c.pid := fun heq => hne (by rw [heq])
      show pid ∈ family.running
      rw [hrunning, among] at hmem
      rw [running]
      simp only [List.map_append, List.map_cons, List.mem_append, List.mem_cons] at hmem ⊢
      tauto
    | wait pid' parent here waited =>
      dsimp only
      rw [handled_family, waitpid_running_eq waited]
      exact hmem
    | accept | refuse | forkFails | close | work | signal => exact hmem

/-- While a child is running that does not exit, the parent stays in the handler. -/
theorem run_handling {pid : Nat} (h : Runs (Step x sockfd limit) s es t)
    (hes : ∀ e ∈ es, e ≠ .exit pid)
    (hs : s.handling = true ∧ pid ∈ s.parent.family.running ∧
      s.parent.family.running = s.running.map Child.pid) :
    (∀ e ∈ es, ¬e.OfLoop) ∧ t.handling = true := by
  have hrun := h.guarded (fun _ _ _ hne hs hst => step_handling hst hne hs) hes hs
  exact ⟨hrun.1, hrun.2.1⟩

/-- A client that hangs up has its child at its end. -/
theorem quiet_ends (host : Host) {c : Child} (h : c.conn.peer = .quiet) :
    ¬c.Waits (V1.processQuery (onDisk host)) := by
  rintro ⟨q, hq⟩
  rw [h, V1.processQuery_short (s := []) rfl (by decide)] at hq
  cases hq

/-- Two such clients: the parent is in the handler for the first, while the second has
its child, and it gets out when that has exited too. -/
theorem two_clients (host : Host) :
    ∃ s t, Runs (V1.tcpServer host 3) (Server.start 3) [.accept .quiet, .fork 7, .close,
        .accept .quiet, .fork 8, .close, .exit 7, .signal] s ∧
      s.handling = true ∧ s.point = .accepting ∧ s.running = [⟨8, ⟨1, 4, .quiet⟩, 4, 0⟩] ∧
      Runs (V1.tcpServer host 3) s [.wait, .exit 8, .wait, .wait] t ∧ t.handling = false := by
  have hroom := host.room
  exact ⟨_, _, .next (.accept 4 .quiet rfl rfl (by decide) (show 4 < host.maxFds by omega)) <|
    .next (.fork _ ⟨7, by decide⟩ ⟨[], [7], by decide, by decide⟩ rfl rfl rfl rfl) <|
    .next (.close _ rfl rfl) <|
    .next (.accept 4 .quiet rfl rfl (by decide) (show 4 < host.maxFds by omega)) <|
    .next (.fork _ ⟨8, by decide⟩ ⟨[], [7, 8], by decide, by decide⟩ rfl rfl rfl rfl) <|
    .next (.close _ rfl rfl) <|
    .next (.exit [] [⟨8, ⟨1, 4, .quiet⟩, 4, 0⟩] ⟨7, ⟨0, 4, .quiet⟩, 4, 0⟩
      ⟨[7], [8], by decide, by decide⟩ rfl (quiet_ends host rfl) (.refl _) rfl) <|
    .next (.signal rfl rfl) <|
    .done _, rfl, rfl, rfl,
    .next (.wait _ _ rfl rfl) <|
    .next (.exit [] [] ⟨8, ⟨1, 4, .quiet⟩, 4, 0⟩ ⟨[8], [], by decide, by decide⟩ rfl
      (quiet_ends host rfl) (.refl _) rfl) <|
    .next (.wait _ _ rfl rfl) <|
    .next (.wait _ _ rfl rfl) <|
    .done _, rfl⟩

/-- **The handler outlasts the children**: whatever the order of the steps, the parent
takes no step of its loop and does not get out of the handler before every child
has exited that was running when it was there. -/
theorem handler_outlasts (hlimit : 4 ≤ limit)
    (h : Runs (Step x sockfd limit) (Server.start sockfd) es s) (hin : s.handling = true)
    (h' : Runs (Step x sockfd limit) s fs t)
    (hout : (∃ e ∈ fs, e.OfLoop) ∨ t.handling = false) :
    ∀ c ∈ s.running, Event.exit c.pid ∈ fs := by
  intro c hc
  have hrunning := (run_consistent hlimit h).running
  have hmem : c.pid ∈ s.parent.family.running := hrunning ▸ List.mem_map_of_mem hc
  by_contra hnot
  have hes : ∀ e ∈ fs, e ≠ .exit c.pid := fun e he heq => hnot (heq ▸ he)
  obtain ⟨hloop, hhandling⟩ := run_handling h' hes ⟨hin, hmem, hrunning⟩
  rcases hout with ⟨e, he, hofLoop⟩ | hfalse
  · exact hloop e he hofLoop
  · rw [hhandling] at hfalse
    cases hfalse

theorem handler_outlasts_second : Event.exit 8 ∈ [Event.wait, .exit 8, .wait, .wait] := by
  obtain ⟨s, t, hs, hin, -, hrunning, ht, hout⟩ := two_clients Host.small
  exact handler_outlasts (by decide) hs hin ht (Or.inr hout) ⟨8, ⟨1, 4, .quiet⟩, 4, 0⟩
    (hrunning ▸ List.mem_singleton_self _)

/-! ## Out of the handler -/

/-- The handler has been called and has returned, and there is no other. -/
def Server.Past (s : Server) : Prop :=
  s.installed = false ∧ s.handling = false ∧ s.pending = false

theorem step_past (h : Step x sockfd limit s e t) (hs : s.Past) :
    t.Past ∧ t.parent.reaped = s.parent.reaped ∧ s.finished <+: t.finished := by
  obtain ⟨hinstalled, hmain, hpending⟩ := hs
  cases h with
  | exit before after c family among ended exited running =>
    exact ⟨⟨hinstalled, hmain, hinstalled⟩, rfl, List.prefix_append _ _⟩
  | signal _ here =>
    rw [hpending] at here
    cases here
  | wait pid parent here waited =>
    rw [hmain] at here
    cases here
  | accept | refuse | fork | forkFails | close | work =>
    exact ⟨⟨hinstalled, hmain, hpending⟩, rfl, List.prefix_rfl⟩

/-- From then on nobody is waited for. -/
theorem run_past (h : Runs (Step x sockfd limit) s es t) (hs : s.Past) :
    t.Past ∧ t.parent.reaped = s.parent.reaped ∧ s.finished <+: t.finished := by
  refine h.invariant (I := fun u => u.Past ∧ u.parent.reaped = s.parent.reaped ∧
    s.finished <+: u.finished) (fun u _ v hu hstep => ?_) ⟨hs, rfl, List.prefix_rfl⟩
  obtain ⟨hpast, hreaped, hfinished⟩ := step_past hstep hu.1
  exact ⟨hpast, hreaped.trans hu.2.1, hu.2.2.trans hfinished⟩

/-- In the handler there is no other. -/
theorem Consistent.handled (hs : Consistent x sockfd limit s) (hin : s.handling = true) :
    s.installed = false ∧ s.pending = false := by
  have hinstalled : s.installed = false := by
    by_contra hon
    rw [(hs.unhandled (Bool.eq_true_of_not_eq_false hon)).1] at hin
    cases hin
  refine ⟨hinstalled, ?_⟩
  by_contra hon
  rw [hs.oneShot (Bool.eq_true_of_not_eq_false hon)] at hinstalled
  cases hinstalled

/-- The handler is left without a child. -/
theorem wait_leaves (hs : Consistent x sockfd limit s) (h : Step x sockfd limit s .wait t)
    (hout : t.handling = false) :
    t.Past ∧ t.running = [] ∧ t.parent.reaped.Perm (t.finished.map Child.pid) := by
  have hwaited := step_waited h hs.waited
  have hrunning := step_running h hs.running
  cases h with
  | wait pid parent here waited =>
    obtain rfl : pid = -1 := by simpa using hout
    obtain ⟨hinstalled, hpending⟩ := hs.handled here
    refine ⟨⟨hinstalled, hout, hpending⟩, ?_⟩
    rcases waitpid_cases waited with ⟨p, pids, -, hp, -⟩ | ⟨-, -, hzero, -⟩ | ⟨hex, hrun, -, rfl⟩
    · omega
    · omega
    · dsimp only at hwaited hrunning ⊢
      rw [if_pos rfl] at hwaited hrunning ⊢
      rw [hrun] at hrunning
      rw [hex, List.nil_append] at hwaited
      exact ⟨List.map_eq_nil_iff.mp hrunning.symm, hwaited⟩

/-- **Which children are waited for**: a finished child is among the ones to be waited
for or among the ones that have been. Until the handler is called it is the former,
with a signal for it; when the handler returns no child is left, and the ones that
finish later are not waited for in any state that the server can get to. -/
theorem children_waited (hlimit : 4 ≤ limit)
    (h : Runs (Step x sockfd limit) (Server.start sockfd) es s) :
    (s.parent.family.exited ++ s.parent.reaped).Perm (s.finished.map Child.pid) ∧
    s.parent.family.running = s.running.map Child.pid ∧
    (s.installed = true → s.parent.reaped = [] ∧
      (s.parent.family.exited ≠ [] → s.pending = true)) ∧
    ∀ t, Step x sockfd limit s .wait t → t.handling = false →
      t.running = [] ∧ t.parent.reaped.Perm (t.finished.map Child.pid) ∧
      ∀ fs u, Runs (Step x sockfd limit) t fs u →
        u.handling = false ∧ u.parent.reaped = t.parent.reaped ∧
        ∃ later, u.finished = t.finished ++ later ∧
          u.parent.family.exited.Perm (later.map Child.pid) := by
  have hs := run_consistent hlimit h
  refine ⟨hs.waited, hs.running, fun hon => (hs.unhandled hon).2, fun t hstep hout => ?_⟩
  obtain ⟨hpast, hrunning, hreaped⟩ := wait_leaves hs hstep hout
  refine ⟨hrunning, hreaped, fun fs u hrest => ?_⟩
  obtain ⟨⟨-, hmain, -⟩, hsame, later, hlater⟩ := run_past hrest hpast
  have hwaited := (run_consistent hlimit (h.append (Runs.next hstep hrest))).waited
  refine ⟨hmain, hsame, later, hlater.symm, ?_⟩
  -- what has been waited for is what had finished by the return
  rw [hsame, ← hlater, List.map_append] at hwaited
  refine (List.perm_append_left_iff t.parent.reaped).mp ?_
  exact (List.perm_append_comm.trans hwaited).trans (hreaped.symm.append_right _)

/-- Two clients one after the other: the handler has returned when the second has its
child. -/
theorem one_by_one (host : Host) :
    ∃ s t u, Runs (V1.tcpServer host 3) (Server.start 3)
        [.accept .quiet, .fork 7, .close, .exit 7, .signal, .wait] s ∧
      V1.tcpServer host 3 s .wait t ∧ t.handling = false ∧
      t.finished = [⟨7, ⟨0, 4, .quiet⟩, 4, 0⟩] ∧
      Runs (V1.tcpServer host 3) t [.accept .quiet, .fork 8, .close, .exit 8] u ∧
      u.finished = [⟨7, ⟨0, 4, .quiet⟩, 4, 0⟩, ⟨8, ⟨1, 4, .quiet⟩, 4, 0⟩] := by
  have hroom := host.room
  exact ⟨_, _, _, .next (.accept 4 .quiet rfl rfl (by decide) (show 4 < host.maxFds by omega)) <|
    .next (.fork _ ⟨7, by decide⟩ ⟨[], [7], by decide, by decide⟩ rfl rfl rfl rfl) <|
    .next (.close _ rfl rfl) <|
    .next (.exit [] [] ⟨7, ⟨0, 4, .quiet⟩, 4, 0⟩ ⟨[7], [], by decide, by decide⟩ rfl
      (quiet_ends host rfl) (.refl _) rfl) <|
    .next (.signal rfl rfl) <|
    .next (.wait _ _ rfl rfl) <|
    .done _, .wait _ _ rfl rfl, rfl, rfl,
    .next (.accept 4 .quiet rfl rfl (by decide) (show 4 < host.maxFds by omega)) <|
    .next (.fork _ ⟨8, by decide⟩ ⟨[], [8], by decide, by decide⟩ rfl rfl rfl rfl) <|
    .next (.close _ rfl rfl) <|
    .next (.exit [] [] ⟨8, ⟨1, 4, .quiet⟩, 4, 0⟩ ⟨[8], [], by decide, by decide⟩ rfl
      (quiet_ends host rfl) (.refl _) rfl) <|
    .done _, rfl⟩

/-- The first of them has been waited for, and the second never is. -/
theorem children_waited_second : ∃ t u : Server,
    u.finished.map Child.pid = [7, 8] ∧ t.parent.reaped.Perm [7] ∧
    u.parent.reaped = t.parent.reaped ∧ u.parent.family.exited.Perm [8] := by
  obtain ⟨s, t, u, hs, hstep, hout, hfirst, hu, hboth⟩ := one_by_one Host.small
  obtain ⟨-, -, -, hreturn⟩ := children_waited (show 4 ≤ 16 by decide) hs
  obtain ⟨-, hreaped, hlater⟩ := hreturn t hstep hout
  obtain ⟨-, hsame, later, hfinished, hexited⟩ := hlater _ u hu
  rw [hboth, hfirst] at hfinished
  rw [hfirst] at hreaped
  obtain rfl : later = [⟨8, ⟨1, 4, .quiet⟩, 4, 0⟩] := (List.cons.inj hfinished).2.symm
  exact ⟨t, u, congrArg (List.map Child.pid) hboth, hreaped, hsame, hexited⟩

/-! ## The handler is `child_exit` -/

theorem waitpid_returns (p : Parent) : ∃ r q, waitpid p = .ok r q := by
  unfold waitpid
  split
  · exact ⟨_, _, rfl⟩
  · exact ⟨_, _, rfl⟩

/-- One call of the handler. -/
theorem reapLoop_succ {p q : Parent} {r : Int} (calls : Nat) (h : waitpid p = .ok r q) :
    reapLoop (calls + 1) p = if r = -1 then .ok () q
      else reapLoop calls { q with reported := q.reported ++ [r] } := by
  rw [reapLoop, bind_of_ok h]
  split
  · rfl
  · rfl

/-- What the loop does in some number of calls, the parent does in no more. -/
theorem waits_of_reapLoop (x : C Proc Unit) (sockfd limit : Nat) :
    ∀ (calls : Nat) (s : Server) (p : Parent), s.handling = true →
      reapLoop calls s.parent = .ok () p →
      ∃ k, Runs (Step x sockfd limit) s (List.replicate k .wait)
        { s with handling := false, parent := p } := by
  intro calls
  induction calls with
  | zero => exact fun s p _ h => by cases h
  | succ calls ih =>
    intro s p hin hloop
    obtain ⟨r, q, hwait⟩ := waitpid_returns s.parent
    rw [reapLoop_succ calls hwait] at hloop
    have hstep : Step x sockfd limit s .wait _ := Step.wait r q hin hwait
    by_cases hr : r = -1
    · rw [if_pos hr] at hloop hstep
      cases hloop
      refine ⟨1, Runs.single ?_⟩
      rwa [hr] at hstep
    · rw [if_neg hr] at hloop hstep
      rw [decide_eq_true hr] at hstep
      obtain ⟨k, hk⟩ := ih { s with
        handling := true
        parent := { q with reported := q.reported ++ [r] } } p rfl hloop
      exact ⟨k + 1, Runs.next hstep hk⟩

/-- And what the parent does in some number of calls, the loop does too. -/
theorem reapLoop_of_waits : ∀ (k : Nat) (s : Server), s.handling = true →
    Runs (Step x sockfd limit) s (List.replicate k .wait) t → t.handling = false →
    reapLoop k s.parent = .ok () t.parent ∧
      t = { s with handling := false, parent := t.parent } := by
  intro k
  induction k with
  | zero =>
    intro s hin h hout
    cases h
    rw [hin] at hout
    cases hout
  | succ k ih =>
    intro s hin h hout
    cases h with
    | next first rest =>
      cases first with
      | wait r q here waited =>
        rw [reapLoop_succ k waited]
        by_cases hr : r = -1
        · rw [if_pos hr]
          subst hr
          cases k with
          | zero =>
            cases rest
            exact ⟨rfl, rfl⟩
          | succ k =>
            -- the handler is left, so there is no other call
            cases rest with
            | next second _ =>
              cases second with
              | wait _ _ here _ => cases here
        · rw [if_neg hr]
          rw [if_neg hr, decide_eq_true hr] at rest
          obtain ⟨hloop, ht⟩ := ih _ rfl rest hout
          exact ⟨hloop, ht⟩

/-- **The parent refines its code**: each time it is at `accept`, it has open what the
accept loop has open behind the same arrivals, and from its entry into the handler
to the exit it does what `child_exit` does, in as many calls. -/
theorem parent_refines (hlimit : 4 ≤ limit)
    (h : Runs (Step x sockfd limit) (Server.start sockfd) es s) :
    (s.point = .accepting → ∀ processQuery, ∃ child,
      V1.acceptConnections processQuery sockfd ⟨[sockfd], s.arrivals, none⟩
        = .error .blocked ⟨s.fds, [], child⟩ ∧
      V2.acceptConnections processQuery sockfd ⟨[sockfd], s.arrivals, none⟩
        = .error .blocked ⟨s.fds, [], child⟩) ∧
    (s.handling = true → ∀ t,
      ((∃ k, Runs (Step x sockfd limit) s (List.replicate k .wait) t ∧ t.handling = false) ↔
        t = { s with handling := false, parent := t.parent } ∧
        ∃ calls, V1.childExit calls s.parent = .ok () t.parent ∧
          V2.childExit calls s.parent = .ok () t.parent)) := by
  have hs := run_consistent hlimit h
  constructor
  · intro hpoint processQuery
    obtain ⟨child, hrun⟩ := acceptLoop_run processQuery sockfd s.arrivals [sockfd] none
    have hfds : orphans s.arrivals ++ [sockfd] = s.fds := by
      rw [hs.arrivals, hs.fds, hpoint]
      rfl
    rw [hfds] at hrun
    exact ⟨child, hrun, hrun⟩
  · intro hin t
    constructor
    · rintro ⟨k, hk, hout⟩
      obtain ⟨hloop, ht⟩ := reapLoop_of_waits k s hin hk hout
      exact ⟨ht, k, hloop, hloop⟩
    · rintro ⟨ht, calls, hloop, -⟩
      obtain ⟨k, hk⟩ := waits_of_reapLoop x sockfd limit calls s t.parent hin hloop
      rw [← ht] at hk
      exact ⟨k, hk, by rw [ht]⟩

theorem parent_refines_two : ∃ s t : Server, s.point = .accepting ∧
    (∃ child, V1.acceptConnections (fun _ => pure ()) 3 ⟨[3], s.arrivals, none⟩
        = .error .blocked ⟨s.fds, [], child⟩ ∧
      V2.acceptConnections (fun _ => pure ()) 3 ⟨[3], s.arrivals, none⟩
        = .error .blocked ⟨s.fds, [], child⟩) ∧
    ((∃ k, Runs (V1.tcpServer Host.small 3) s (List.replicate k .wait) t ∧ t.handling = false) ↔
      t = { s with handling := false, parent := t.parent } ∧
      ∃ calls, V1.childExit calls s.parent = .ok () t.parent ∧
        V2.childExit calls s.parent = .ok () t.parent) := by
  obtain ⟨s, t, hs, hin, hpoint, -, -, -⟩ := two_clients Host.small
  have hrefines := parent_refines (by decide) hs
  exact ⟨s, t, hpoint, hrefines.1 hpoint _, hrefines.2 hin t⟩

/-! ## Getting back -/

/-- Without running children the handler returns. -/
theorem handler_returns (x : C Proc Unit) (sockfd limit : Nat) (hin : s.handling = true)
    (hrun : s.parent.family.running = []) :
    ∃ k p, Runs (Step x sockfd limit) s (List.replicate k .wait)
        { s with handling := false, parent := p } ∧
      p.family.exited = [] ∧ p.family.running = [] := by
  obtain ⟨p, hloop, -, -, hexited, hrunning⟩ := reapLoop_alone s.parent.family.exited rfl hrun
  obtain ⟨k, hk⟩ := waits_of_reapLoop x sockfd limit _ s p hin hloop
  exact ⟨k, p, hk, hexited, hrunning⟩

theorem not_ofLoop_of_wait {k : Nat} : ∀ e ∈ List.replicate k Event.wait, ¬e.OfLoop := by
  intro e he
  rw [List.eq_of_mem_replicate he]
  exact id

/-- Nor does the parent get into it again without another child. -/
theorem settle (hs : Consistent x sockfd limit s) (hrun : s.running = []) :
    ∃ fs t, Runs (Step x sockfd limit) s fs t ∧ (∀ e ∈ fs, ¬e.OfLoop) ∧ t.running = [] ∧
      t.handling = false ∧ t.pending = false ∧
      (s.installed = true ∨ s.handling = true → t.parent.family.exited = []) ∧
      (¬(s.installed = true ∨ s.handling = true) → t.parent.reaped = s.parent.reaped) := by
  have hfam : s.parent.family.running = [] := by rw [hs.running, hrun, List.map_nil]
  cases hin : s.handling with
  | true =>
    obtain ⟨k, p, hk, hexited, -⟩ := handler_returns x sockfd limit hin hfam
    exact ⟨_, _, hk, not_ofLoop_of_wait, hrun, rfl, (hs.handled hin).2, fun _ => hexited,
      fun hnot => absurd (Or.inr rfl) hnot⟩
  | false =>
    cases hpending : s.pending with
    | true =>
      -- the signal that is left brings it in
      let called : Server := { s with
        handling := true
        installed := false
        pending := false }
      have hsignal : Step x sockfd limit s .signal called := Step.signal hin hpending
      obtain ⟨k, p, hk, hexited, -⟩ := handler_returns (s := called) x sockfd limit rfl hfam
      have hinstalled := hs.oneShot hpending
      exact ⟨_, _, Runs.next hsignal hk, List.forall_mem_cons.mpr ⟨id, not_ofLoop_of_wait⟩, hrun,
        rfl, rfl, fun _ => hexited, fun hnot => absurd (Or.inl hinstalled) hnot⟩
    | false =>
      refine ⟨[], s, Runs.done s, by simp, hrun, hin, hpending, fun hor => ?_, fun _ => rfl⟩
      by_contra hne
      have hinstalled := hor.resolve_right Bool.false_ne_true
      rw [(hs.unhandled hinstalled).2.2 hne] at hpending
      cases hpending

/-- **The server can always get on**: from every state that it can get to, if the
children that are running can come to their ends, it can get out of its handler
without a step of its loop, with no child running and no signal left. Every child has
been waited for then, unless the handler had returned before. -/
theorem run_settles (hlimit : 4 ≤ limit)
    (h : Runs (Step x sockfd limit) (Server.start sockfd) es s)
    (hends : ∀ c ∈ s.running, c.Ends x) :
    ∃ fs t, Runs (Step x sockfd limit) s fs t ∧ (∀ e ∈ fs, ¬e.OfLoop) ∧ t.running = [] ∧
      t.handling = false ∧ t.pending = false ∧ t.point = s.point ∧ t.fds = s.fds ∧
      (s.installed = true ∨ s.handling = true → t.parent.family.exited = [] ∧
        t.parent.reaped.Perm (t.finished.map Child.pid)) ∧
      (¬(s.installed = true ∨ s.handling = true) → t.parent.reaped = s.parent.reaped) := by
  have hs := run_consistent hlimit h
  obtain ⟨fs, u, hdrain, hfs, hrun, -, hhandling, hinstalled, hreaped⟩ :=
    drain s.running s rfl hs.running hends
  have hu := run_consistent hlimit (h.append hdrain)
  obtain ⟨gs, t, hsettle, hgs, hdone, hout, hpending, hall, hnone⟩ := settle hu hrun
  have ht := run_consistent hlimit ((h.append hdrain).append hsettle)
  rw [hhandling, hinstalled] at hall hnone
  rw [hreaped] at hnone
  have hoff : ∀ e ∈ fs ++ gs, ¬e.OfLoop := by
    intro e he
    exact (List.mem_append.mp he).elim (hfs e) (hgs e)
  obtain ⟨hpoint, hfds, -⟩ := run_offLoop (hdrain.append hsettle) hoff
  refine ⟨fs ++ gs, t, hdrain.append hsettle, hoff, hdone, hout, hpending, hpoint, hfds,
    fun hor => ⟨hall hor, ?_⟩, hnone⟩
  have hwaited := ht.waited
  rwa [hall hor, List.nil_append] at hwaited

theorem run_settles_two : ∃ s fs t, s.running = [⟨8, ⟨1, 4, .quiet⟩, 4, 0⟩] ∧
    Runs (V1.tcpServer Host.small 3) s fs t ∧ (∀ e ∈ fs, ¬e.OfLoop) ∧ t.running = [] ∧
    t.handling = false ∧ t.pending = false ∧ t.point = s.point ∧ t.fds = s.fds ∧
    t.parent.family.exited = [] ∧ t.parent.reaped.Perm (t.finished.map Child.pid) := by
  obtain ⟨s, -, hs, hin, -, hrunning, -, -⟩ := two_clients Host.small
  have hends : ∀ c ∈ s.running, c.Ends (V1.processQuery (onDisk Host.small)) := by
    intro c hc
    rw [hrunning] at hc
    rw [List.mem_singleton.mp hc]
    exact ⟨0, quiet_ends Host.small rfl⟩
  obtain ⟨fs, t, hsettles, hoff, hrun, hout, hpending, hpoint, hfds, hall, -⟩ :=
    run_settles (by decide) hs hends
  exact ⟨s, fs, t, hrunning, hsettles, hoff, hrun, hout, hpending, hpoint, hfds,
    hall (Or.inr hin)⟩

end StateProtocol
