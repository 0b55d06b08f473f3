import StateProtocol.Clib.Lines
import StateProtocol.Data.Records

/-!
# `find_data` on any database

Nothing has to be known of the file for this: its windows are cut at their first
null, the tokens of a window are its pieces between pipes, and the first window
that is not passed over decides (`findData_windows`). A window is passed over when
it has a token and the first one is another code. So a line that is too long, or
that has a null or two pipes next to each other in it, counts for what is left of
it, and a window without a token ends the scan before anything behind it is
reached.
-/

namespace StateProtocol.Data

open StateProtocol.Clib

/-- The fields that the scan sees in a window. -/
def windowTokens (w : Bytes) : List Bytes := tokens pipe (cstr w).bytes

/-- The scan goes on behind the window. -/
def Passed (state w : Bytes) : Prop := ∃ code, (windowTokens w).head? = some code ∧ code ≠ state

section

variable {state w : Bytes} {index : Nat} {ws : List Bytes}

theorem nthToken_none (left : Nat) : nthToken left none [] = none := by
  induction left with
  | zero => rfl
  | succ left ih => exact ih

/-- The loop over the tokens picks one of them. -/
theorem nthToken_tokens (left : Nat) (token saved : Bytes) :
    nthToken left (some token) saved = (token :: tokens pipe saved)[left]? := by
  induction left generalizing token saved with
  | zero => rfl
  | succ left ih =>
    rw [nthToken, List.getElem?_cons_succ]
    cases hs : strtok pipe saved with
    | none => rw [strtok_eq_none.mp hs, List.getElem?_nil, nthToken_none]
    | some r =>
      obtain ⟨token', rest⟩ := r
      rw [strtok_tokens hs]
      exact ih token' rest

theorem scanLines_passed (h : Passed state w) :
    scanLines state index (w :: ws) = scanLines state index ws := by
  obtain ⟨code, hcode, hne⟩ := h
  rw [scanLines]
  cases hs : strtok pipe (cstr w).bytes with
  | none =>
    rw [windowTokens, strtok_eq_none.mp hs] at hcode
    cases hcode
  | some r =>
    obtain ⟨token, saved⟩ := r
    rw [windowTokens, strtok_tokens hs] at hcode
    obtain rfl : token = code := Option.some.inj hcode
    exact if_neg hne

theorem scanLines_append_passed {before : List Bytes} (h : ∀ v ∈ before, Passed state v) :
    scanLines state index (before ++ ws) = scanLines state index ws := by
  induction before with
  | nil => rfl
  | cons v vs ih =>
    obtain ⟨hv, hvs⟩ := List.forall_mem_cons.mp h
    rw [List.cons_append, scanLines_passed hv, ih hvs]

/-- The first token of a window that decides. -/
theorem first_of_not_passed {token : Bytes} {more : List Bytes} (h : ¬Passed state w)
    (htokens : windowTokens w = token :: more) : token = state := by
  by_contra hne
  exact h ⟨token, by rw [htokens]; rfl, hne⟩

/-- The window decides, and it has the field. -/
theorem scanLines_hit {t : Bytes} (hpass : ¬Passed state w)
    (ht : (windowTokens w)[index]? = some t) (hlen : w.length ≤ maxLineLen - 1) :
    ∃ data : CString, scanLines state index (w :: ws) = .ok (some data) ∧ data.bytes = t := by
  rw [scanLines]
  cases hs : strtok pipe (cstr w).bytes with
  | none =>
    rw [windowTokens, strtok_eq_none.mp hs] at ht
    cases ht
  | some r =>
    obtain ⟨token, saved⟩ := r
    have htokens : windowTokens w = token :: tokens pipe saved := strtok_tokens hs
    obtain rfl := first_of_not_passed hpass htokens
    rw [htokens, ← nthToken_tokens] at ht
    obtain ⟨hne, -, hsub, hrest, hsum⟩ := strtok_spec hs
    have hline : (cstr w).bytes.length ≤ maxLineLen - 1 :=
      (List.takeWhile_sublist _).length_le.trans hlen
    have htoken : ∀ u, some token = some u → u ≠ [] ∧ 0 ∉ u ∧ u.length ≤ maxLineLen - 1 := by
      intro u hu
      cases hu
      exact ⟨hne, fun h0 => (cstr w).noNull (hsub h0), by omega⟩
    obtain ⟨-, hnull, hshort⟩ := nthToken_spec index (some token) saved t (maxLineLen - 1) ht
      (fun h0 => (cstr w).noNull (hrest h0)) (by omega) htoken
    dsimp only
    rw [if_pos rfl, ht]
    refine ⟨_, rfl, ?_⟩
    rw [List.take_of_length_le hshort, cstr_bytes_of_noNull hnull]

/-- The window decides, and it has not. -/
theorem scanLines_fault (hpass : ¬Passed state w) (ht : (windowTokens w)[index]? = none) :
    scanLines state index (w :: ws) = .error .fault := by
  rw [scanLines]
  cases hs : strtok pipe (cstr w).bytes with
  | none => rfl
  | some r =>
    obtain ⟨token, saved⟩ := r
    have htokens : windowTokens w = token :: tokens pipe saved := strtok_tokens hs
    rw [htokens, ← nthToken_tokens] at ht
    dsimp only
    rw [if_pos (first_of_not_passed hpass htokens), ht]

end

/-- **What `find_data` makes of any file.** -/
theorem findData_windows (host : Host) {db : Bytes} (hdb : host.statedb = some db)
    (char1 char2 : UInt8) (index : Nat) {p : Proc} (hfds : p.fds < host.maxFds) :
    ∃ ws, Windows (maxLineLen - 1) db ws ∧
      (∀ ws', Windows (maxLineLen - 1) db ws' → ws' = ws) ∧
      ((∀ w ∈ ws, Passed (stateCode char1 char2) w) →
        findData host char1 char2 index p = .ok none { p with fds := p.fds + 1 }) ∧
      ∀ before w after, ws = before ++ w :: after →
        (∀ v ∈ before, Passed (stateCode char1 char2) v) → ¬Passed (stateCode char1 char2) w →
        (∀ t, (windowTokens w)[index]? = some t → ∃ data : CString, data.bytes = t ∧
          findData host char1 char2 index p = .ok (some data) { p with fds := p.fds + 1 }) ∧
        ((windowTokens w)[index]? = none →
          findData host char1 char2 index p = .error .fault { p with fds := p.fds + 1 }) := by
  have hsize : 2 ≤ maxLineLen := by decide
  have hwindows := windows_fgetsAll hsize db
  have hscan : findData host char1 char2 index p = _ := findData_run hdb hfds
  refine ⟨fgetsAll maxLineLen db, hwindows, fun ws' h => (windows_iff hsize).mp h, ?_, ?_⟩
  · intro hall
    have hnone : findIn db char1 char2 index = .ok none := by
      have happend : scanLines (stateCode char1 char2) index (fgetsAll maxLineLen db ++ [])
          = .ok none := scanLines_append_passed hall
      rwa [List.append_nil] at happend
    rw [hscan, hnone]
  · intro before w after hws hbefore hpass
    have hfound : findIn db char1 char2 index
        = scanLines (stateCode char1 char2) index (w :: after) := by
      rw [findIn, hws]
      exact scanLines_append_passed hbefore
    refine ⟨fun t ht => ?_, fun ht => ?_⟩
    · have hmem : w ∈ fgetsAll maxLineLen db :=
        hws ▸ List.mem_append_right _ (List.mem_cons_self ..)
      obtain ⟨data, hdata, hbytes⟩ := scanLines_hit hpass ht (hwindows.short w hmem)
      refine ⟨data, hbytes, ?_⟩
      rw [hscan, hfound, hdata]
    · rw [hscan, hfound, scanLines_fault hpass ht]

/-- A line of two pipes in front of New Hampshire, and a system with that file. -/
def pipesHost : Host :=
  { Host.small with statedb := some (pipe :: pipe :: newline :: Record.file [newHampshire]) }

theorem findData_windows_pipes :
    ∃ ws, Windows (maxLineLen - 1) (pipe :: pipe :: newline :: Record.file [newHampshire]) ws ∧
      (∀ ws', Windows (maxLineLen - 1) (pipe :: pipe :: newline :: Record.file [newHampshire]) ws' →
        ws' = ws) ∧
      ((∀ w ∈ ws, Passed (stateCode 110 104) w) →
        findData pipesHost 110 104 1 Proc.fresh
          = .ok none { Proc.fresh with fds := Proc.fresh.fds + 1 }) ∧
      ∀ before w after, ws = before ++ w :: after →
        (∀ v ∈ before, Passed (stateCode 110 104) v) → ¬Passed (stateCode 110 104) w →
        (∀ t, (windowTokens w)[1]? = some t → ∃ data : CString, data.bytes = t ∧
          findData pipesHost 110 104 1 Proc.fresh
            = .ok (some data) { Proc.fresh with fds := Proc.fresh.fds + 1 }) ∧
        ((windowTokens w)[1]? = none →
          findData pipesHost 110 104 1 Proc.fresh
            = .error .fault { Proc.fresh with fds := Proc.fresh.fds + 1 }) :=
  findData_windows pipesHost rfl 110 104 1 (fresh_fds pipesHost)

end StateProtocol.Data
