import StateProtocol.Clib.Process

/-!
# Child processes

What the system keeps for a parent: the children that have exited and were not
waited for, in the order in which it will report them, and those that are
running. The pids of a `Family` are positive and distinct by construction, so a
result of `waitpid` tells a child from `0` and `-1`.
-/

namespace StateProtocol.Clib

structure Family where
  exited : List Nat
  running : List Nat
  positive : ∀ pid ∈ exited ++ running, 0 < pid
  distinct : (exited ++ running).Nodup

/-- The family when the first of the exited children has been waited for. -/
def Family.reap (f : Family) : Family where
  exited := f.exited.tail
  running := f.running
  positive pid h := f.positive pid
    ((List.Sublist.append_right (List.tail_sublist f.exited) f.running).subset h)
  distinct := f.distinct.sublist (List.Sublist.append_right (List.tail_sublist f.exited) f.running)

/-- The family when one of the running children has exited. -/
def Family.leave (f : Family) {before after : List Nat} {pid : Nat}
    (h : f.running = before ++ pid :: after) : Family where
  exited := f.exited ++ [pid]
  running := before ++ after
  positive p hp := f.positive p (by
    rw [h]
    simp only [List.mem_append, List.mem_cons, List.not_mem_nil, or_false] at hp ⊢
    tauto)
  distinct := by
    have hmoved : (f.exited ++ [pid] ++ (before ++ after)).Perm
        (f.exited ++ (before ++ pid :: after)) := by
      rw [List.append_assoc, List.singleton_append]
      exact List.perm_middle.symm.append_left f.exited
    exact hmoved.nodup_iff.mpr (h ▸ f.distinct)

/-- A parent process: its family, the children it has waited for and the pids it
has reported. -/
structure Parent where
  family : Family
  reaped : List Nat
  reported : List Int

/-- `waitpid(-1, &status, WNOHANG)` -/
def waitpid : C Parent Int := fun s =>
  match s.family.exited with
  | pid :: _ => .ok pid { s with family := s.family.reap, reaped := s.reaped ++ [pid] }
  | [] => .ok (if s.family.running = [] then -1 else 0) s

theorem waitpid_exited {s : Parent} {pid : Nat} {pids : List Nat}
    (h : s.family.exited = pid :: pids) :
    waitpid s = .ok pid { s with family := s.family.reap, reaped := s.reaped ++ [pid] } := by
  rw [waitpid, h]

theorem waitpid_running {s : Parent} (h : s.family.exited = []) (hr : s.family.running ≠ []) :
    waitpid s = .ok 0 s := by
  rw [waitpid, h]
  dsimp only
  rw [if_neg hr]

theorem waitpid_alone {s : Parent} (h : s.family.exited = []) (hr : s.family.running = []) :
    waitpid s = .ok (-1) s := by
  rw [waitpid, h]
  dsimp only
  rw [if_pos hr]

/-- The three results of `waitpid`. -/
theorem waitpid_cases {s t : Parent} {r : Int} (h : waitpid s = .ok r t) :
    (∃ pid : Nat, ∃ pids, s.family.exited = pid :: pids ∧ r = pid ∧
      t = { s with family := s.family.reap, reaped := s.reaped ++ [pid] }) ∨
    (s.family.exited = [] ∧ s.family.running ≠ [] ∧ r = 0 ∧ t = s) ∨
    (s.family.exited = [] ∧ s.family.running = [] ∧ r = -1 ∧ t = s) := by
  cases hex : s.family.exited with
  | cons pid pids =>
    rw [waitpid_exited hex] at h
    cases h
    exact Or.inl ⟨pid, pids, rfl, rfl, rfl⟩
  | nil =>
    by_cases hrun : s.family.running = []
    · rw [waitpid_alone hex hrun] at h
      cases h
      exact Or.inr (Or.inr ⟨rfl, hrun, rfl, rfl⟩)
    · rw [waitpid_running hex hrun] at h
      cases h
      exact Or.inr (Or.inl ⟨rfl, hrun, rfl, rfl⟩)

/-- A line about a child on the standard error stream. -/
def report (pid : Int) : C Parent Unit := fun s =>
  .ok () { s with reported := s.reported ++ [pid] }

end StateProtocol.Clib
