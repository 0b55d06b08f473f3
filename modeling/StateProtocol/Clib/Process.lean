import StateProtocol.Clib.Bytes

/-!
# A C process as a state monad

`C σ` is a C computation over a state `σ` of the surrounding system. It either
returns a value or stops for one of three reasons (`Halt`): a call of `exit`,
undefined behaviour, or a system call that has not come back yet. The state
survives each of them, so what a process had written before it died stays
visible.

Arrays have a fixed size. `load` and `store` fault outside of it, and
`copyLoop` is the byte-copying `for` loop over them: `copyLoop_zeroPad` is its
effect on a cleared array when the bounds are respected.
-/

namespace StateProtocol.Clib

/-- Why a process stopped before its function returned. -/
inductive Halt
  /-- It called `exit(code)`. -/
  | exit (code : Nat)
  /-- It read or wrote outside of an object, or followed a null pointer. -/
  | fault
  /-- It waits in a system call. -/
  | blocked
deriving DecidableEq, Repr

abbrev C (σ : Type) := EStateM Halt σ

variable {σ α β : Type}

/-! ## Running a computation -/

@[simp] theorem pure_run (a : α) (s : σ) : (pure a : C σ α) s = .ok a s := rfl

@[simp] theorem throw_run (e : Halt) (s : σ) : (throw e : C σ α) s = .error e s := rfl

theorem bind_run (x : C σ α) (f : α → C σ β) (s : σ) :
    (x >>= f) s = match x s with
      | .ok a t => f a t
      | .error e t => .error e t := by
  show EStateM.bind x f s = _
  rw [EStateM.bind]
  cases x s <;> rfl

theorem bind_of_ok {x : C σ α} {f : α → C σ β} {s t : σ} {a : α} (h : x s = .ok a t) :
    (x >>= f) s = f a t := by rw [bind_run, h]

theorem bind_of_error {x : C σ α} {f : α → C σ β} {s t : σ} {e : Halt} (h : x s = .error e t) :
    (x >>= f) s = .error e t := by rw [bind_run, h]

/-- A sequence that returned went through a return of its first part. -/
theorem bind_eq_ok {x : C σ α} {f : α → C σ β} {s u : σ} {b : β} :
    (x >>= f) s = .ok b u ↔ ∃ a t, x s = .ok a t ∧ f a t = .ok b u := by
  rw [bind_run]
  cases hx : x s with
  | ok a t => simp
  | error e t => simp

/-- The state a computation leaves behind, whether it returned or not. -/
def finalState (x : C σ α) (s : σ) : σ :=
  match x s with
  | .ok _ t => t
  | .error _ t => t

theorem finalState_of_error {x : C σ α} {s t : σ} {e : Halt} (h : x s = .error e t) :
    finalState x s = t := by rw [finalState, h]

/-! ## Arrays -/

variable {n : Nat}

/-- `v[i]` -/
def load (v : List.Vector α n) (i : Nat) : C σ α :=
  if h : i < n then pure (v.get ⟨i, h⟩) else throw .fault

/-- `v[i] = a` -/
def store (v : List.Vector α n) (i : Nat) (a : α) : C σ (List.Vector α n) :=
  if h : i < n then pure (v.set ⟨i, h⟩ a) else throw .fault

theorem load_of_lt (v : List.Vector α n) {i : Nat} (h : i < v.toList.length) (s : σ) :
    (load v i : C σ α) s = .ok v.toList[i] s := by
  rw [load, dif_pos (by simpa using h)]
  rfl

theorem store_of_lt (v : List.Vector α n) {i : Nat} (h : i < n) (a : α) (s : σ) :
    (store v i a : C σ _) s = .ok (v.set ⟨i, h⟩ a) s := by
  rw [store, dif_pos h]
  rfl

theorem store_of_ge (v : List.Vector α n) {i : Nat} (h : n ≤ i) (a : α) (s : σ) :
    (store v i a : C σ _) s = .error .fault s := by
  rw [store, dif_neg (Nat.not_lt.mpr h)]
  rfl

/-- `data[i]` for an object that holds exactly the bytes `data`. -/
def loadByte (data : Bytes) (i : Nat) : C σ UInt8 :=
  match data[i]? with
  | some b => pure b
  | none => throw .fault

/-- `for (; i < i + count; i++) dst[i] = src[i];` -/
def copyLoop (src : Bytes) : (count i : Nat) → List.Vector UInt8 n → C σ (List.Vector UInt8 n)
  | 0, _, dst => pure dst
  | count + 1, i, dst => do
    let b ← loadByte src i
    let dst ← store dst i b
    copyLoop src count (i + 1) dst

/-- Inside both arrays the loop replaces positions `i` up to `i + count`. -/
theorem copyLoop_run (src : Bytes) :
    ∀ (count i : Nat) (dst : List.Vector UInt8 n) (s : σ),
      i + count ≤ src.length → i + count ≤ n →
      ∃ v : List.Vector UInt8 n, copyLoop src count i dst s = .ok v s ∧
        v.toList = dst.toList.take i ++ (src.drop i).take count ++ dst.toList.drop (i + count) := by
  intro count
  induction count with
  | zero =>
    intro i dst s _ _
    exact ⟨dst, rfl, by simp⟩
  | succ count ih =>
    intro i dst s hsrc hdst
    have hb : (loadByte src i : C σ UInt8) s = .ok src[i] s := by
      rw [loadByte, List.getElem?_eq_getElem (by omega)]
      rfl
    obtain ⟨v, hv, hl⟩ := ih (i + 1) (dst.set ⟨i, by omega⟩ src[i]) s (by omega) (by omega)
    refine ⟨v, ?_, ?_⟩
    · rw [copyLoop, bind_of_ok hb, bind_of_ok (store_of_lt dst (by omega) _ s)]
      exact hv
    · rw [hl, List.Vector.toList_set]
      -- position `i` is the last of the new prefix and no longer in the suffix
      have hpre : (dst.toList.set i src[i]).take (i + 1) = dst.toList.take i ++ [src[i]] := by
        have hi : i < (dst.toList.set i src[i]).length := by simp; omega
        rw [List.take_add_one, List.take_set_of_le (by omega), List.getElem?_eq_getElem hi]
        simp
      have hsuf : (dst.toList.set i src[i]).drop (i + 1 + count)
          = dst.toList.drop (i + (count + 1)) := by
        rw [List.drop_set_of_lt (by omega)]
        congr 1
        omega
      rw [hpre, hsuf, List.drop_eq_getElem_cons (show i < src.length by omega),
        List.take_succ_cons]
      simp

/-- A loop that would go on behind the end of the array faults there, if not
before. -/
theorem copyLoop_overrun (src : Bytes) :
    ∀ (count i : Nat) (dst : List.Vector UInt8 n) (s : σ), i ≤ n → n < i + count →
      copyLoop src count i dst s = .error .fault s := by
  intro count
  induction count with
  | zero =>
    intro i dst s hi hcount
    omega
  | succ count ih =>
    intro i dst s hi hcount
    cases hb : src[i]? with
    | none =>
      have hload : (loadByte src i : C σ UInt8) s = .error .fault s := by
        rw [loadByte, hb]
        rfl
      rw [copyLoop, bind_of_error hload]
    | some b =>
      have hload : (loadByte src i : C σ UInt8) s = .ok b s := by
        rw [loadByte, hb]
        rfl
      rw [copyLoop, bind_of_ok hload]
      rcases Nat.lt_or_ge i n with hlt | hge
      · rw [bind_of_ok (store_of_lt dst hlt b s)]
        exact ih (i + 1) _ s hlt (by omega)
      · exact bind_of_error (store_of_ge dst hge b s)

/-- From a cleared array the loop makes the zero-padded copy. -/
theorem copyLoop_zeroPad {src : Bytes} {count : Nat} (hsrc : count ≤ src.length)
    (hn : count ≤ n) (s : σ) :
    copyLoop src count 0 (zeroPad n []) s = .ok (zeroPad n (src.take count)) s := by
  obtain ⟨v, hv, hl⟩ := copyLoop_run src count 0 (zeroPad n []) s (by omega) (by omega)
  rw [hv]
  congr 1
  apply List.Vector.toList_injective
  rw [hl]
  simp [Nat.min_eq_left hsrc, List.take_take, hn]

end StateProtocol.Clib
