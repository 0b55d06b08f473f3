import StateProtocol.Clib.Wait

/-!
# The SIGCHLD handlers of the TCP servers (`child_exit`)

Both servers wait for their children in a loop that only the result -1 ends: no
children. With a child that is still running the result is 0, which is reported
as a pid, again and again. So the handler does its work exactly when every child
has exited (`childExit_iff`), and otherwise the parent does not get back to its
connections (`childExit_spins`).
-/

namespace StateProtocol

open StateProtocol.Clib

/-- `for (;;) { int pid = waitpid(…); if (pid == -1) break; fprintf(…); }`,
observed for a number of `waitpid` calls. -/
def reapLoop : (calls : Nat) → C Parent Unit
  | 0 => throw .blocked
  | calls + 1 => do
    let pid ← waitpid
    -- 0, a child that is still running, does not end the loop
    if pid = -1 then return ()
    else do
      report pid
      reapLoop calls

/-- `child_exit` of `Version1_Server/tcpserv.c` -/
def V1.childExit : (calls : Nat) → C Parent Unit := reapLoop

/-- `child_exit` of `Version2_Server/tcpserv2.c` -/
def V2.childExit : (calls : Nat) → C Parent Unit := reapLoop

/-- The handler, entered with this family, returns after finitely many calls: it
has waited for every exited child once, has reported only children that it waited
for, and has left the running ones alone. -/
def Reaps (handler : Nat → C Parent Unit) (f : Family) : Prop :=
  ∃ calls t, handler calls ⟨f, [], []⟩ = .ok () t ∧
    t.reaped.Perm f.exited ∧ t.family.exited = [] ∧
    (∀ pid ∈ t.reported, ∃ child ∈ t.reaped, pid = (child : Int)) ∧
    t.family.running = f.running

/-- One round with an exited child. -/
theorem reapLoop_exited {s : Parent} {pid : Nat} {pids : List Nat} (calls : Nat)
    (h : s.family.exited = pid :: pids) :
    reapLoop (calls + 1) s
      = reapLoop calls ⟨s.family.reap, s.reaped ++ [pid], s.reported ++ [(pid : Int)]⟩ := by
  rw [reapLoop, bind_of_ok (waitpid_exited h), if_neg (show ¬(pid : Int) = -1 by omega)]
  rfl

/-- When every child has exited, the loop waits for them one by one and ends. -/
theorem reapLoop_alone (pids : List Nat) {s : Parent} (h : s.family.exited = pids)
    (hr : s.family.running = []) :
    ∃ t, reapLoop (pids.length + 1) s = .ok () t ∧ t.reaped = s.reaped ++ pids ∧
      t.reported = s.reported ++ pids.map (fun pid : Nat => (pid : Int)) ∧ t.family.exited = [] ∧
      t.family.running = [] := by
  induction pids generalizing s with
  | nil =>
    refine ⟨s, ?_, (List.append_nil _).symm, (List.append_nil _).symm, h, hr⟩
    rw [reapLoop, bind_of_ok (waitpid_alone h hr), if_pos rfl]
    rfl
  | cons pid pids ih =>
    have htail : s.family.reap.exited = pids := congrArg List.tail h
    obtain ⟨t, ht, hreaped, hreported, hrest⟩ := ih
      (s := ⟨s.family.reap, s.reaped ++ [pid], s.reported ++ [(pid : Int)]⟩) htail hr
    refine ⟨t, ?_, ?_, ?_, hrest⟩
    · rw [List.length_cons, reapLoop_exited _ h]
      exact ht
    · rw [hreaped, List.append_assoc, List.singleton_append]
    · rw [hreported, List.map_cons, List.append_assoc, List.singleton_append]

/-- With a running child the loop is still going after any number of calls. -/
theorem reapLoop_running (calls : Nat) {s : Parent} (hr : s.family.running ≠ []) :
    ∃ t, reapLoop calls s = .error .blocked t := by
  induction calls generalizing s with
  | zero => exact ⟨s, rfl⟩
  | succ calls ih =>
    cases h : s.family.exited with
    | nil =>
      obtain ⟨t, ht⟩ := ih (s := { s with reported := s.reported ++ [0] }) hr
      refine ⟨t, ?_⟩
      rw [reapLoop, bind_of_ok (waitpid_running h hr), if_neg (by decide)]
      exact ht
    | cons pid pids =>
      obtain ⟨t, ht⟩ := ih
        (s := ⟨s.family.reap, s.reaped ++ [pid], s.reported ++ [(pid : Int)]⟩) hr
      exact ⟨t, (reapLoop_exited calls h).trans ht⟩

/-- The handler does not return while a child is running. -/
theorem childExit_spins {f : Family} (h : f.running ≠ []) : ¬Reaps reapLoop f := by
  rintro ⟨calls, t, ht, -⟩
  obtain ⟨u, hu⟩ := reapLoop_running calls (s := ⟨f, [], []⟩) h
  rw [hu] at ht
  cases ht

theorem childExit_returns {f : Family} (h : f.running = []) : Reaps reapLoop f := by
  obtain ⟨t, ht, hreaped, hreported, hexited, hrunning⟩ :=
    reapLoop_alone f.exited (s := ⟨f, [], []⟩) rfl h
  rw [List.nil_append] at hreaped hreported
  refine ⟨f.exited.length + 1, t, ht, .of_eq hreaped, hexited, ?_, hrunning.trans h.symm⟩
  intro pid hpid
  rw [hreported] at hpid
  obtain ⟨child, hchild, rfl⟩ := List.mem_map.mp hpid
  exact ⟨child, hreaped ▸ hchild, rfl⟩

/-- **When the handlers do their work.** -/
theorem childExit_iff (f : Family) :
    (Reaps V1.childExit f ↔ f.running = []) ∧ (Reaps V2.childExit f ↔ f.running = []) := by
  have h : Reaps reapLoop f ↔ f.running = [] := by
    constructor
    · intro hreaps
      by_contra hr
      exact childExit_spins hr hreaps
    · exact childExit_returns
  exact ⟨h, h⟩

/-- One client has finished, and another is still connected. -/
theorem not_reaps_connected :
    ¬Reaps V1.childExit ⟨[7], [8], by decide, by decide⟩ ∧
      ¬Reaps V2.childExit ⟨[7], [8], by decide, by decide⟩ :=
  ⟨childExit_spins (List.cons_ne_nil 8 []), childExit_spins (List.cons_ne_nil 8 [])⟩

end StateProtocol
