import StateProtocol.Data.Records

/-!
# `find_data` on a well-formed database

The scan is a lookup there, so a call returns what the lookup has for the state
code: nothing when no record has it, and otherwise a field of the first that
does. No token is missing on the way.
-/

namespace StateProtocol.Data

open StateProtocol.Clib

section

variable {rs : List Record} {host : Host} {char1 char2 : UInt8} {index : Nat} {p : Proc}

theorem findData_records (hdb : host.statedb = some (Record.file rs)) (h1 : char1 ≠ 0)
    (h2 : char2 ≠ 0) (h4 : index ≤ 4) (hfds : p.fds < host.maxFds) :
    findData host char1 char2 index p
      = .ok ((Record.lookup rs char1 char2).map fun r => r.data index)
        { p with fds := p.fds + 1 } := by
  rw [findData_run hdb hfds, Record.findIn_records rs h1 h2 h4]

/-- No line of the file leads to a null pointer. -/
theorem findData_orderly (hdb : host.statedb = some (Record.file rs)) (h1 : char1 ≠ 0)
    (h2 : char2 ≠ 0) (h4 : index ≤ 4) (t : Proc) :
    findData host char1 char2 index p ≠ .error .fault t := by
  intro hfault
  by_cases hfds : p.fds < host.maxFds
  · rw [findData_records hdb h1 h2 h4 hfds] at hfault
    cases hfault
  · rw [findData_exhausted hfds] at hfault
    cases hfault

/-- The first record with a code is the one that is looked up. -/
theorem Record.lookup_first {before after : List Record} {r : Record}
    (hbefore : ∀ x ∈ before, x.code.text ≠ [toupper char1, toupper char2])
    (hr : r.code.text = [toupper char1, toupper char2]) :
    Record.lookup (before ++ r :: after) char1 char2 = some r := by
  rw [Record.lookup, List.find?_eq_some_iff_append]
  refine ⟨decide_eq_true hr, before, after, rfl, ?_⟩
  intro x hx
  simpa using hbefore x hx

theorem Record.lookup_none (h : ∀ r ∈ rs, r.code.text ≠ [toupper char1, toupper char2]) :
    Record.lookup rs char1 char2 = none := by
  rw [Record.lookup, List.find?_eq_none]
  intro r hr
  simpa using h r hr

end

/-- **What `find_data` finds.** -/
theorem findData_first (rs : List Record) (host : Host)
    (hdb : host.statedb = some (Record.file rs)) (char1 char2 : UInt8) (h1 : char1 ≠ 0)
    (h2 : char2 ≠ 0) (index : Nat) (h4 : index ≤ 4) :
    (∀ p : Proc, p.fds < host.maxFds →
      ((∀ r ∈ rs, r.code.text ≠ [toupper char1, toupper char2]) →
        findData host char1 char2 index p = .ok none { p with fds := p.fds + 1 }) ∧
      ∀ before r after, rs = before ++ r :: after →
        (∀ x ∈ before, x.code.text ≠ [toupper char1, toupper char2]) →
        r.code.text = [toupper char1, toupper char2] →
        ∃ data, findData host char1 char2 index p = .ok (some data) { p with fds := p.fds + 1 } ∧
          data.bytes = if index = 4 then (r.field 4).text ++ [newline]
            else (r.field index).text) ∧
    ∀ p t : Proc, findData host char1 char2 index p ≠ .error .fault t := by
  refine ⟨fun p hfds => ⟨fun hnone => ?_, ?_⟩, fun p t => findData_orderly hdb h1 h2 h4 t⟩
  · rw [findData_records hdb h1 h2 h4 hfds, Record.lookup_none hnone]
    rfl
  · rintro before r after rfl hbefore hr
    refine ⟨r.data index, ?_, ?_⟩
    · rw [findData_records hdb h1 h2 h4 hfds, Record.lookup_first hbefore hr]
      rfl
    · show r.token index = _
      unfold Record.token
      split
      next he => rw [he]
      next => rfl

/-- The motto of New Hampshire, behind another record. -/
theorem findData_motto :
    ∃ data, findData Host.pair 110 104 4 Proc.fresh
        = .ok (some data) { Proc.fresh with fds := Proc.fresh.fds + 1 } ∧
      data.bytes = newHampshire.motto.text ++ [newline] :=
  ((findData_first [delaware, newHampshire] Host.pair rfl 110 104 (by decide) (by decide) 4
    (by decide)).1 Proc.fresh (fresh_fds Host.pair)).2 [delaware] newHampshire [] rfl
    (by decide) (by decide)

end StateProtocol.Data
