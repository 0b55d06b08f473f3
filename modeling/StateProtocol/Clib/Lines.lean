import StateProtocol.Clib.Stdio

/-!
# Lines and tokens, without the calls

What a sequence of `fgets` calls makes of a file, and a sequence of `strtok` calls
of a string, can be said without either. The windows of a file are a cut of it in
which no piece has a newline before its end, none is longer than the buffer, and
each but the last is stopped by one of these two (`Windows`); there is only one
such cut (`windows_iff`). The tokens of a string are its pieces between delimiters,
without the empty ones (`strtok_tokens`).
-/

namespace StateProtocol.Clib

/-! ## Windows -/

/-- A cut of the file into lines of at most `k` bytes. -/
structure Windows (k : Nat) (file : Bytes) (ws : List Bytes) : Prop where
  flatten : ws.flatten = file
  ne : [] ∉ ws
  line : ∀ w ∈ ws, newline ∉ w.dropLast
  short : ∀ w ∈ ws, w.length ≤ k
  full : ∀ w ∈ ws.dropLast, newline ∈ w ∨ w.length = k

section Windows

variable {k : Nat} {file w rest : Bytes} {ws : List Bytes}

/-- One window, and what is left when it has been taken. -/
theorem fgetsTake_window : ∀ (w : Bytes) (k : Nat) (rest : Bytes), newline ∉ w.dropLast →
    w.length ≤ k → w ≠ [] → (newline ∈ w ∨ w.length = k ∨ rest = []) →
    fgetsTake k (w ++ rest) = (w, rest)
  | [], _, _, _, _, hne, _ => absurd rfl hne
  | [b], k + 1, rest, _, _, _, hstop => by
    rw [List.singleton_append, fgetsTake]
    by_cases hb : b = newline
    · rw [if_pos hb]
    · rw [if_neg hb]
      rcases hstop with hnl | hk | rfl
      · exact absurd (List.mem_singleton.mp hnl).symm hb
      · obtain rfl : k = 0 := by simpa using hk.symm
        rfl
      · cases k <;> rfl
  | b :: c :: w, k + 1, rest, hline, hk, _, hstop => by
    rw [List.dropLast_cons_cons, List.mem_cons, not_or] at hline
    have hb : b ≠ newline := fun he => hline.1 he.symm
    have hrest : newline ∈ c :: w ∨ (c :: w).length = k ∨ rest = [] := by
      refine hstop.imp (fun hnl => ?_) (Or.imp_left fun hlen => ?_)
      · exact (List.mem_cons.mp hnl).resolve_left fun he => hb he.symm
      · exact Nat.succ.inj hlen
    have ih := fgetsTake_window (c :: w) k rest hline.2 (Nat.le_of_succ_le_succ hk)
      (List.cons_ne_nil c w) hrest
    rw [List.cons_append, fgetsTake, if_neg hb, ih]

/-- What a call takes is a window. -/
theorem fgetsTake_stops {k : Nat} (hne : file ≠ []) (hk : 1 ≤ k) :
    (fgetsTake k file).1 ≠ [] ∧ newline ∉ (fgetsTake k file).1.dropLast ∧
    (newline ∈ (fgetsTake k file).1 ∨ (fgetsTake k file).1.length = k ∨
      (fgetsTake k file).2 = []) := by
  induction file generalizing k with
  | nil => exact absurd rfl hne
  | cons b bs ih =>
    obtain ⟨k, rfl⟩ := Nat.exists_eq_add_of_le' hk
    rw [fgetsTake]
    by_cases hb : b = newline
    · rw [if_pos hb]
      simp [hb]
    · rw [if_neg hb]
      refine ⟨List.cons_ne_nil _ _, ?_⟩
      by_cases hk0 : k = 0
      · subst hk0
        exact ⟨List.not_mem_nil, Or.inr (Or.inl rfl)⟩
      · by_cases hbs : bs = []
        · subst hbs
          cases k <;> simp [fgetsTake]
        · obtain ⟨htake, hline, hstop⟩ := ih hbs (Nat.one_le_iff_ne_zero.mpr hk0)
          dsimp only
          generalize fgetsTake k bs = r at htake hline hstop
          constructor
          · rw [List.dropLast_cons_of_ne_nil htake, List.mem_cons, not_or]
            exact ⟨fun he => hb he.symm, hline⟩
          · refine hstop.imp (List.mem_cons_of_mem b) (Or.imp_left fun hlen => ?_)
            exact congrArg (· + 1) hlen

theorem fgetsAll_cons {size : Nat} (hs : 2 ≤ size) (hne : file ≠ []) :
    fgetsAll size file
      = (fgetsTake (size - 1) file).1 :: fgetsAll size (fgetsTake (size - 1) file).2 := by
  obtain ⟨b, bs, rfl⟩ := List.exists_cons_of_ne_nil hne
  have hsplit := congrArg List.length (fgetsTake_append (size - 1) (b :: bs))
  have hpos := List.length_pos_iff.mpr (fgetsTake_stops hne (show 1 ≤ size - 1 by omega)).1
  rw [List.length_append, List.length_cons] at hsplit
  rw [fgetsAll, List.length_cons, fgetsLoop, fgets, if_neg hne]
  dsimp only
  rw [fgetsLoop_fuel hs bs.length _ _ (by omega) (Nat.le_refl _)]
  rfl

/-- Any cut of that kind is what the calls make. -/
theorem Windows.eq_fgetsAll {size : Nat} (hs : 2 ≤ size) :
    ∀ {ws : List Bytes} {file : Bytes}, Windows (size - 1) file ws → ws = fgetsAll size file
  | [], file, h => by
    obtain rfl : [] = file := h.flatten
    rfl
  | w :: ws, file, h => by
    obtain rfl : w ++ ws.flatten = file := h.flatten
    obtain ⟨hne, hnes⟩ := not_or.mp (List.mem_cons.not.mp h.ne)
    obtain ⟨hline, hlines⟩ := List.forall_mem_cons.mp h.line
    obtain ⟨hshort, hshorts⟩ := List.forall_mem_cons.mp h.short
    have hne' : w ≠ [] := fun he => hne he.symm
    have hstop : newline ∈ w ∨ w.length = size - 1 ∨ ws.flatten = [] := by
      cases ws with
      | nil => exact Or.inr (Or.inr rfl)
      | cons v vs =>
        exact (h.full w (List.mem_cons_self ..)).imp_right Or.inl
    have hfulls : ∀ v ∈ ws.dropLast, newline ∈ v ∨ v.length = size - 1 := by
      intro v hv
      refine h.full v ?_
      cases ws with
      | nil => cases hv
      | cons u us => exact List.mem_cons_of_mem w hv
    rw [fgetsAll_cons hs (List.append_ne_nil_of_left_ne_nil hne' _),
      fgetsTake_window w (size - 1) ws.flatten hline hshort hne' hstop]
    exact congrArg (w :: ·) (Windows.eq_fgetsAll hs ⟨rfl, hnes, hlines, hshorts, hfulls⟩)

/-- The calls make such a cut. -/
theorem windows_fgetsAll {size : Nat} (hs : 2 ≤ size) (file : Bytes) :
    Windows (size - 1) file (fgetsAll size file) := by
  by_cases hne : file = []
  · subst hne
    exact ⟨rfl, List.not_mem_nil, fun _ hw => absurd hw List.not_mem_nil,
      fun _ hw => absurd hw List.not_mem_nil, fun _ hw => absurd hw List.not_mem_nil⟩
  · obtain ⟨hwne, hline, hstop⟩ := fgetsTake_stops hne (show 1 ≤ size - 1 by omega)
    have hsplit := fgetsTake_append (size - 1) file
    have hshort := fgetsTake_length_le (size - 1) file
    have hless : (fgetsTake (size - 1) file).2.length < file.length := by
      have hpos := List.length_pos_iff.mpr hwne
      have hlen := congrArg List.length hsplit
      rw [List.length_append] at hlen
      omega
    have ih := windows_fgetsAll hs (fgetsTake (size - 1) file).2
    rw [fgetsAll_cons hs hne]
    refine ⟨?_, ?_, ?_, ?_, ?_⟩
    · rw [List.flatten_cons, ih.flatten, hsplit]
    · rw [List.mem_cons, not_or]
      exact ⟨fun he => hwne he.symm, ih.ne⟩
    · exact List.forall_mem_cons.mpr ⟨hline, ih.line⟩
    · exact List.forall_mem_cons.mpr ⟨hshort, ih.short⟩
    · -- the window is the last one only if it takes the rest of the file
      have hfull := ih.full
      by_cases hrest : (fgetsTake (size - 1) file).2 = []
      · rw [hrest]
        exact fun _ hw => absurd hw List.not_mem_nil
      · rw [fgetsAll_cons hs hrest] at hfull ⊢
        rw [List.dropLast_cons_cons]
        refine List.forall_mem_cons.mpr ⟨?_, hfull⟩
        exact hstop.imp_right fun h => h.resolve_right hrest
termination_by file.length

/-- **The windows of a file.** -/
theorem windows_iff {size : Nat} (hs : 2 ≤ size) :
    Windows (size - 1) file ws ↔ ws = fgetsAll size file := by
  constructor
  · exact Windows.eq_fgetsAll hs
  · rintro rfl
    exact windows_fgetsAll hs file

end Windows

/-! ## Tokens -/

/-- The pieces between delimiters that are not empty. -/
def tokens (delim : UInt8) (s : Bytes) : List Bytes := (s.splitOn delim).filter (· ≠ [])

section Tokens

variable {delim : UInt8} {s token rest : Bytes}

@[simp] theorem tokens_nil (delim : UInt8) : tokens delim [] = [] := by
  rw [tokens, List.splitOn_nil]
  rfl

theorem tokens_delim (delim : UInt8) (s : Bytes) : tokens delim (delim :: s) = tokens delim s := by
  have hsplit : (delim :: s).splitOn delim = [] :: s.splitOn delim :=
    List.splitOn_append_cons_self_of_not_mem List.not_mem_nil s
  rw [tokens, hsplit, List.filter_cons_of_neg (by simp)]
  rfl

theorem tokens_field (rest : Bytes) (hne : token ≠ []) (hd : delim ∉ token) :
    tokens delim (token ++ delim :: rest) = token :: tokens delim rest := by
  rw [tokens, List.splitOn_append_cons_self_of_not_mem hd,
    List.filter_cons_of_pos (by simpa using hne)]
  rfl

theorem tokens_last (hne : token ≠ []) (hd : delim ∉ token) : tokens delim token = [token] := by
  rw [tokens, List.splitOn_eq_singleton hd, List.filter_cons_of_pos (by simpa using hne)]
  rfl

/-- Delimiters in front do not count. -/
theorem tokens_dropWhile (delim : UInt8) (s : Bytes) :
    tokens delim (s.dropWhile (· = delim)) = tokens delim s := by
  induction s with
  | nil => rfl
  | cons b bs ih =>
    by_cases hb : b = delim
    · rw [List.dropWhile_cons_of_pos (by simpa using hb), ih, hb, tokens_delim]
    · rw [List.dropWhile_cons_of_neg (by simpa using hb)]

/-- **What `strtok` finds**: the first token, and a string with the others. -/
theorem strtok_tokens (h : strtok delim s = some (token, rest)) :
    tokens delim s = token :: tokens delim rest := by
  obtain ⟨hne, hd, -⟩ := strtok_spec h
  rw [← tokens_dropWhile]
  unfold strtok at h
  split at h
  next => cases h
  next b bs hdrop =>
    cases h
    have hsplit := List.takeWhile_append_dropWhile (p := (· ≠ delim)) (l := b :: bs)
    have hstop := List.head?_dropWhile_not (· ≠ delim) (b :: bs)
    generalize (b :: bs).takeWhile (· ≠ delim) = token at hne hd hsplit ⊢
    generalize (b :: bs).dropWhile (· ≠ delim) = tail at hsplit hstop ⊢
    rw [hdrop, ← hsplit]
    cases tail with
    | nil =>
      rw [List.append_nil, tokens_last hne hd]
      rfl
    | cons c cs =>
      -- what stops a token is a delimiter
      obtain rfl : c = delim := by simpa using hstop
      exact tokens_field cs hne hd

theorem strtok_eq_none : strtok delim s = none ↔ tokens delim s = [] := by
  constructor
  · intro h
    rw [← tokens_dropWhile]
    unfold strtok at h
    split at h
    next hdrop => rw [hdrop, tokens_nil]
    next => cases h
  · intro h
    cases hs : strtok delim s with
    | none => rfl
    | some r =>
      rw [strtok_tokens hs] at h
      cases h

end Tokens

end StateProtocol.Clib
