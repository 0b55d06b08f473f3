import StateProtocol.Clib.Bytes

/-!
# `fgets`, `strtok` and `%d`

The library calls a line-oriented record scanner is made of.

* `fgets size` hands out the file in windows of at most `size - 1` bytes that
  end at a newline where there is one. `fgetsAll` is the sequence of its results
  up to the null pointer; on newline-terminated lines that fit, the windows are
  the lines (`fgetsAll_line`).
* `strtok` skips delimiters, cuts the token before the next one and remembers
  what is left. On a delimiter-free non-empty field it yields that field
  (`strtok_field`, `strtok_last`).

`decimal` is what `%d` prints for a byte.
-/

namespace StateProtocol.Clib

/-- `'\n'` -/
abbrev newline : UInt8 := 10

/-! ## `fgets` -/

/-- At most `k` bytes, up to and including the first newline; and the rest. -/
def fgetsTake : Nat → Bytes → Bytes × Bytes
  | 0, bs => ([], bs)
  | _ + 1, [] => ([], [])
  | k + 1, b :: bs =>
    if b = newline then ([b], bs)
    else (b :: (fgetsTake k bs).1, (fgetsTake k bs).2)

/-- `fgets(line, size, file)`: the bytes stored in `line` and the file after
the read, or the null pointer at its end. -/
def fgets (size : Nat) (file : Bytes) : Option (Bytes × Bytes) :=
  if file = [] then none else some (fgetsTake (size - 1) file)

/-- The results of the first `fuel` calls, up to the null pointer. -/
def fgetsLoop (size : Nat) : Nat → Bytes → List Bytes
  | 0, _ => []
  | fuel + 1, file =>
    match fgets size file with
    | none => []
    | some (line, rest) => line :: fgetsLoop size fuel rest

/-- Every call takes a byte off the file, so its length is enough fuel. -/
def fgetsAll (size : Nat) (file : Bytes) : List Bytes := fgetsLoop size file.length file

theorem fgetsTake_append : ∀ (k : Nat) (bs : Bytes),
    (fgetsTake k bs).1 ++ (fgetsTake k bs).2 = bs
  | 0, _ => rfl
  | _ + 1, [] => rfl
  | k + 1, b :: bs => by
    unfold fgetsTake
    split
    · rfl
    · rw [List.cons_append, fgetsTake_append k bs]

theorem fgetsTake_length_le : ∀ (k : Nat) (bs : Bytes), (fgetsTake k bs).1.length ≤ k
  | 0, _ => Nat.le_refl 0
  | _ + 1, [] => Nat.zero_le _
  | k + 1, b :: bs => by
    unfold fgetsTake
    split
    · simp
    · simpa using fgetsTake_length_le k bs

/-- A line that fits is taken with its newline. -/
theorem fgetsTake_line : ∀ (line : Bytes) (k : Nat) (rest : Bytes), newline ∉ line →
    line.length < k → fgetsTake k (line ++ newline :: rest) = (line ++ [newline], rest)
  | [], k + 1, rest, _, _ => by simp [fgetsTake]
  | b :: line, k + 1, rest, hnl, hk => by
    have hb : b ≠ newline := fun h => hnl (h ▸ List.mem_cons_self ..)
    have ih := fgetsTake_line line k rest (fun h => hnl (List.mem_cons_of_mem _ h))
      (by simpa using hk)
    rw [List.cons_append, fgetsTake, if_neg hb, ih]
    rfl

/-- So is a last line without a newline. -/
theorem fgetsTake_last : ∀ (line : Bytes) (k : Nat), newline ∉ line → line.length ≤ k →
    fgetsTake k line = (line, [])
  | [], 0, _, _ => rfl
  | [], _ + 1, _, _ => rfl
  | b :: line, k + 1, hnl, hk => by
    have hb : b ≠ newline := fun h => hnl (h ▸ List.mem_cons_self ..)
    have ih := fgetsTake_last line k (fun h => hnl (List.mem_cons_of_mem _ h))
      (Nat.le_of_succ_le_succ hk)
    rw [fgetsTake, if_neg hb, ih]

/-- The fuel of `fgetsLoop` does not matter once it covers the file. -/
theorem fgetsLoop_fuel {size : Nat} (hs : 2 ≤ size) :
    ∀ (fuel fuel' : Nat) (file : Bytes), file.length ≤ fuel → file.length ≤ fuel' →
      fgetsLoop size fuel file = fgetsLoop size fuel' file := by
  -- each call shortens the file, as `size - 1 > 0` and the file is not empty
  have hshort : ∀ file : Bytes, file ≠ [] →
      (fgetsTake (size - 1) file).2.length < file.length := by
    intro file hne
    obtain ⟨b, bs, rfl⟩ := List.exists_cons_of_ne_nil hne
    obtain ⟨k, hk⟩ : ∃ k, size - 1 = k + 1 := ⟨size - 2, by omega⟩
    rw [hk, fgetsTake]
    split
    · simp
    · have h := congrArg List.length (fgetsTake_append k bs)
      simp only [List.length_append] at h
      simp only [List.length_cons]
      omega
  intro fuel
  induction fuel with
  | zero =>
    intro fuel' file h _
    obtain rfl : file = [] := List.length_eq_zero_iff.mp (by omega)
    cases fuel' <;> simp [fgetsLoop, fgets]
  | succ fuel ih =>
    intro fuel' file h h'
    by_cases hne : file = []
    · subst hne
      cases fuel' <;> simp [fgetsLoop, fgets]
    · cases fuel' with
      | zero => exact absurd (List.length_eq_zero_iff.mp (by omega)) hne
      | succ fuel' =>
        have hlt := hshort file hne
        simp only [fgetsLoop, fgets, if_neg hne]
        rw [ih fuel' _ (by omega) (by omega)]

@[simp] theorem fgetsAll_nil (size : Nat) : fgetsAll size [] = [] := rfl

/-- The first window is the line when it fits, and the others come from the
rest of the file. -/
theorem fgetsAll_line {size : Nat} {line : Bytes} (rest : Bytes) (hnl : newline ∉ line)
    (hsize : line.length + 1 < size) :
    fgetsAll size (line ++ newline :: rest) = (line ++ [newline]) :: fgetsAll size rest := by
  unfold fgetsAll
  rw [show (line ++ newline :: rest).length = (line.length + rest.length) + 1 by simp; omega,
    fgetsLoop, fgets, if_neg (by simp), fgetsTake_line line (size - 1) rest hnl (by omega)]
  show _ :: fgetsLoop size (line.length + rest.length) rest = _ :: fgetsLoop size rest.length rest
  rw [fgetsLoop_fuel (by omega) _ rest.length rest (by omega) (Nat.le_refl _)]

/-- A last line is a window of its own. -/
theorem fgetsAll_last {size : Nat} {line : Bytes} (hne : line ≠ []) (hnl : newline ∉ line)
    (hsize : line.length ≤ size - 1) : fgetsAll size line = [line] := by
  obtain ⟨b, bs, rfl⟩ := List.exists_cons_of_ne_nil hne
  rw [fgetsAll, List.length_cons, fgetsLoop, fgets, if_neg hne, fgetsTake_last _ _ hnl hsize]
  cases bs.length <;> rfl

/-- No window is longer than the buffer allows. -/
theorem fgetsLoop_length_le (size : Nat) :
    ∀ (fuel : Nat) (file : Bytes), ∀ line ∈ fgetsLoop size fuel file, line.length ≤ size - 1 := by
  intro fuel
  induction fuel with
  | zero => intro file line h; simp [fgetsLoop] at h
  | succ fuel ih =>
    intro file line h
    simp only [fgetsLoop, fgets] at h
    by_cases hne : file = []
    · simp [hne] at h
    · rw [if_neg hne] at h
      rcases List.mem_cons.mp h with rfl | h'
      · exact fgetsTake_length_le _ _
      · exact ih _ _ h'

theorem fgetsAll_length_le {size : Nat} {file line : Bytes} (h : line ∈ fgetsAll size file) :
    line.length ≤ size - 1 :=
  fgetsLoop_length_le size file.length file line h

/-! ## `strtok` -/

/-- One call of `strtok`: the token and the saved rest of the string, or the
null pointer when only delimiters are left. -/
def strtok (delim : UInt8) (s : Bytes) : Option (Bytes × Bytes) :=
  match s.dropWhile (· = delim) with
  | [] => none
  | b :: bs => some ((b :: bs).takeWhile (· ≠ delim), ((b :: bs).dropWhile (· ≠ delim)).drop 1)

@[simp] theorem strtok_nil (delim : UInt8) : strtok delim [] = none := rfl

/-- What a token is: not empty, free of delimiters and a part of the string. -/
theorem strtok_spec {delim : UInt8} {s token rest : Bytes}
    (h : strtok delim s = some (token, rest)) :
    token ≠ [] ∧ delim ∉ token ∧ token ⊆ s ∧ rest ⊆ s ∧ token.length + rest.length ≤ s.length := by
  unfold strtok at h
  split at h
  next => simp at h
  next b bs hdrop =>
    simp only [Option.some.injEq, Prod.mk.injEq] at h
    obtain ⟨rfl, rfl⟩ := h
    have hsub : ∀ x, x ∈ b :: bs → x ∈ s := by
      intro x hx
      rw [← hdrop] at hx
      exact (List.dropWhile_suffix _).subset hx
    have hb : b ≠ delim := by
      have := List.head_dropWhile_not (l := s) (· = delim) (by rw [hdrop]; simp)
      simpa [hdrop] using this
    have hlen : ((b :: bs).takeWhile (· ≠ delim)).length
        + ((b :: bs).dropWhile (· ≠ delim)).length = (b :: bs).length := by
      rw [← List.length_append, List.takeWhile_append_dropWhile]
    have hlen' : (b :: bs).length ≤ s.length := by
      rw [← hdrop]
      exact (List.dropWhile_suffix _).length_le
    refine ⟨by simp [hb], ?_, ?_, ?_, ?_⟩
    · intro hmem
      simpa using List.mem_takeWhile_imp hmem
    · have htok := List.takeWhile_prefix (· ≠ delim) (l := b :: bs)
      exact fun x hx => hsub x (htok.subset hx)
    · exact fun x hx => hsub x ((List.dropWhile_suffix _).subset (List.mem_of_mem_drop hx))
    · rw [List.length_drop]
      omega

/-- A field is cut off at the delimiter or the end that follows it. -/
theorem strtok_append {delim : UInt8} {field tail : Bytes} (hne : field ≠ [])
    (hd : delim ∉ field) (htail : ∀ b ∈ tail.head?, b = delim) :
    strtok delim (field ++ tail) = some (field, tail.drop 1) := by
  obtain ⟨b, bs, rfl⟩ := List.exists_cons_of_ne_nil hne
  have hall : ∀ x ∈ b :: bs, (x ≠ delim : Bool) := by
    intro x hx
    simpa using fun he : x = delim => hd (he ▸ hx)
  have hb : b ≠ delim := by simpa using hall b (List.mem_cons_self ..)
  have hstart : ((b :: bs) ++ tail).dropWhile (· = delim) = b :: (bs ++ tail) := by simp [hb]
  have hstop : tail.takeWhile (· ≠ delim) = [] ∧ tail.dropWhile (· ≠ delim) = tail := by
    cases tail with
    | nil => simp
    | cons c cs =>
      obtain rfl : c = delim := htail c rfl
      simp
  have htok : (b :: (bs ++ tail)).takeWhile (· ≠ delim) = b :: bs := by
    rw [← List.cons_append, List.takeWhile_append_of_pos hall, hstop.1, List.append_nil]
  have hrest : (b :: (bs ++ tail)).dropWhile (· ≠ delim) = tail := by
    rw [← List.cons_append, List.dropWhile_append_of_pos hall, hstop.2]
  simp only [strtok, hstart, htok, hrest]

/-- A field followed by a delimiter is the next token. -/
theorem strtok_field {delim : UInt8} {field : Bytes} (rest : Bytes) (hne : field ≠ [])
    (hd : delim ∉ field) : strtok delim (field ++ delim :: rest) = some (field, rest) :=
  strtok_append hne hd (by simp)

/-- The last field of a string is the next token and leaves nothing. -/
theorem strtok_last {delim : UInt8} {field : Bytes} (hne : field ≠ []) (hd : delim ∉ field) :
    strtok delim field = some (field, []) := by
  have htail : ∀ b ∈ ([] : Bytes).head?, b = delim := by simp
  simpa using strtok_append hne hd htail

/-! ## `%d` -/

/-- `%d` of a byte. -/
def decimal (b : UInt8) : Bytes :=
  let digit (d : Nat) : UInt8 := UInt8.ofNat (48 + d)
  if b.toNat < 10 then [digit b.toNat]
  else if b.toNat < 100 then [digit (b.toNat / 10), digit (b.toNat % 10)]
  else [digit (b.toNat / 100), digit (b.toNat / 10 % 10), digit (b.toNat % 10)]

theorem decimal_length_le (b : UInt8) : (decimal b).length ≤ 3 := by
  unfold decimal
  dsimp only
  split
  · exact show 1 ≤ 3 by omega
  · split
    · exact show 2 ≤ 3 by omega
    · exact Nat.le_refl 3

theorem decimal_noNull (b : UInt8) : 0 ∉ decimal b := by
  have hdigit : ∀ d < 10, (0 : UInt8) ≠ UInt8.ofNat (48 + d) := by decide
  have hb := b.toNat_lt
  unfold decimal
  dsimp only
  split
  · simp only [List.mem_cons, List.not_mem_nil, or_false]
    exact hdigit _ (by omega)
  · split
    · simp only [List.mem_cons, List.not_mem_nil, or_false, not_or]
      exact ⟨hdigit _ (by omega), hdigit _ (by omega)⟩
    · simp only [List.mem_cons, List.not_mem_nil, or_false, not_or]
      exact ⟨hdigit _ (by omega), hdigit _ (by omega), hdigit _ (by omega)⟩

end StateProtocol.Clib
