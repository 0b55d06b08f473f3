import StateProtocol.Clib.Bytes
import Mathlib.Algebra.Group.Nat.Defs

/-!
# Scanning a string (`sscanf`)

The two conversions that the programs use, on the bytes of a string. `%s` and
`%d` both skip white space first. `scanWord` is the longest run of other bytes
then, and `scanInt` the integer whose digits come next, with an optional sign;
`FirstWord` and `LeadingInt` say the same without a scanner.

`sscanf` stores the integer in an `int`. What that does with a number outside of
its range is not specified by C, so it is a parameter of `storeInt`.
-/

namespace StateProtocol.Clib

/-- `isspace` of the C locale. -/
def isspace (c : UInt8) : Bool := c == 32 || (9 ≤ c && c ≤ 13)

def isdigit (c : UInt8) : Bool := 48 ≤ c && c ≤ 57

/-- What `"%s"` matches, if anything. -/
def scanWord (s : Bytes) : Option Bytes :=
  match (s.dropWhile isspace).takeWhile (!isspace ·) with
  | [] => none
  | w => some w

/-- The number that digits stand for. -/
def digitsValue (ds : Bytes) : Nat := ds.foldl (fun n d => 10 * n + (d.toNat - 48)) 0

/-- An optional sign: whether it is a minus, and what follows. -/
def scanSign : Bytes → Bool × Bytes
  | 45 :: s => (true, s)
  | 43 :: s => (false, s)
  | s => (false, s)

/-- What `"%d"` matches, if anything. -/
def scanInt (s : Bytes) : Option Int :=
  let (minus, s) := scanSign (s.dropWhile isspace)
  match s.takeWhile isdigit with
  | [] => none
  | ds => some (if minus then -(digitsValue ds : Int) else digitsValue ds)

/-- The `int` that `"%d"` stores for the integer it has read. -/
def storeInt (outside : Int → Int32) (n : Int) : Int32 :=
  if -2 ^ 31 ≤ n ∧ n < 2 ^ 31 then Int32.ofInt n else outside n

/-- One way to treat the others: the nearest `long`, cut to 32 bits. -/
def longToInt (n : Int) : Int32 := Int32.ofInt (max (-2 ^ 63) (min n (2 ^ 63 - 1)))

example : scanInt (ascii " -12x") = some (-12) := by decide

/-! ## The matched text -/

/-- `w` is the first word of `s`. -/
def FirstWord (s w : Bytes) : Prop :=
  ∃ pre rest, s = pre ++ (w ++ rest) ∧ (∀ c ∈ pre, isspace c = true) ∧ w ≠ [] ∧
    (∀ c ∈ w, isspace c = false) ∧ ∀ c ∈ rest.head?, isspace c = true

/-- `s` begins, after white space, with the integer `n`. -/
def LeadingInt (s : Bytes) (n : Int) : Prop :=
  ∃ pre sign ds rest, s = pre ++ (sign ++ (ds ++ rest)) ∧ (∀ c ∈ pre, isspace c = true) ∧
    sign ∈ [[], [43], [45]] ∧ ds ≠ [] ∧ (∀ c ∈ ds, isdigit c = true) ∧
    (∀ c ∈ rest.head?, isdigit c = false) ∧
    n = if sign = [45] then -(digitsValue ds : Int) else digitsValue ds

section Span

variable {α : Type} {p : α → Bool}

/-- Where a run of elements ends, and what it is. -/
theorem span_append {as bs : List α} (has : ∀ a ∈ as, p a = true)
    (hbs : ∀ b ∈ bs.head?, p b = false) :
    (as ++ bs).takeWhile p = as ∧ (as ++ bs).dropWhile p = bs := by
  rw [List.takeWhile_append_of_pos has, List.dropWhile_append_of_pos has]
  cases bs with
  | nil => simp
  | cons b bs =>
    have hb := hbs b rfl
    simp [hb]

theorem head?_dropWhile (l : List α) : ∀ b ∈ (l.dropWhile p).head?, p b = false := by
  intro b hb
  have hnot := List.head?_dropWhile_not p l
  rw [hb] at hnot
  simpa using hnot

end Span

/-- The two ends of the digits, and the signs, are not white space. -/
theorem isspace_of_isdigit {c : UInt8} (h : isdigit c = true) : isspace c = false := by
  simp only [isdigit, Bool.and_eq_true, decide_eq_true_eq, UInt8.le_iff_toNat_le] at h
  simp only [isspace, Bool.or_eq_false_iff, Bool.and_eq_false_iff, beq_eq_false_iff_ne, ne_eq,
    decide_eq_false_iff_not, UInt8.le_iff_toNat_le, ← UInt8.toNat_inj]
  have h1 : (48 : UInt8).toNat = 48 := rfl
  have h2 : (32 : UInt8).toNat = 32 := rfl
  have h3 : (13 : UInt8).toNat = 13 := rfl
  omega

/-- Skipping white space before something else. -/
theorem dropWhile_isspace {pre s : Bytes} (hpre : ∀ c ∈ pre, isspace c = true)
    (hs : ∀ c ∈ s.head?, isspace c = false) : (pre ++ s).dropWhile isspace = s :=
  (span_append hpre hs).2

/-- White space comes off the front. -/
theorem split_isspace (s : Bytes) : ∃ pre, s = pre ++ s.dropWhile isspace ∧
    (∀ c ∈ pre, isspace c = true) ∧ ∀ c ∈ (s.dropWhile isspace).head?, isspace c = false :=
  ⟨s.takeWhile isspace, (List.takeWhile_append_dropWhile ..).symm,
    fun _ hc => List.mem_takeWhile_imp hc, head?_dropWhile s⟩

theorem scanWord_eq_some {s w : Bytes} : scanWord s = some w ↔ FirstWord s w := by
  constructor
  · intro h
    obtain ⟨pre, hs, hpre, -⟩ := split_isspace s
    unfold scanWord at h
    split at h
    · cases h
    next hne =>
      obtain rfl := Option.some.inj h
      refine ⟨pre, (s.dropWhile isspace).dropWhile (!isspace ·), ?_, hpre, hne, fun c hc => ?_,
        fun c hc => ?_⟩
      · rw [List.takeWhile_append_dropWhile]
        exact hs
      · simpa using List.mem_takeWhile_imp hc
      · simpa using head?_dropWhile _ c hc
  · rintro ⟨pre, rest, rfl, hpre, hne, hw, hrest⟩
    have hfirst : ∀ c ∈ (w ++ rest).head?, isspace c = false := by
      obtain ⟨c, w, rfl⟩ := List.exists_cons_of_ne_nil hne
      intro b hb
      obtain rfl := Option.some.inj hb
      exact hw c (List.mem_cons_self ..)
    have hspan : (w ++ rest).takeWhile (!isspace ·) = w :=
      (span_append (fun c hc => by simp [hw c hc]) fun c hc => by simp [hrest c hc]).1
    unfold scanWord
    rw [dropWhile_isspace hpre hfirst, hspan]
    split
    · exact absurd rfl hne
    · rfl

theorem scanSign_spec (s : Bytes) : ∃ sign, s = sign ++ (scanSign s).2 ∧
    sign ∈ [[], [43], [45]] ∧ ((scanSign s).1 = true ↔ sign = [45]) := by
  unfold scanSign
  split
  · exact ⟨[45], rfl, by decide, by simp⟩
  · exact ⟨[43], rfl, by decide, by simp⟩
  · exact ⟨[], rfl, by decide, by simp⟩

/-- In front of a digit the scanner takes all of the sign. -/
theorem scanSign_append {sign s : Bytes} (hsign : sign ∈ [[], [43], [45]])
    (hs : ∃ c t, s = c :: t ∧ isdigit c = true) :
    scanSign (sign ++ s) = (decide (sign = [45]), s) := by
  obtain ⟨c, t, rfl, hc⟩ := hs
  simp only [List.mem_cons, List.not_mem_nil, or_false] at hsign
  rcases hsign with rfl | rfl | rfl
  · rw [List.nil_append]
    unfold scanSign
    split
    next h =>
      obtain rfl := (List.cons.inj h).1
      exact absurd hc (by decide)
    next h =>
      obtain rfl := (List.cons.inj h).1
      exact absurd hc (by decide)
    next => rfl
  · rfl
  · rfl

theorem scanInt_eq_some {s : Bytes} {n : Int} : scanInt s = some n ↔ LeadingInt s n := by
  constructor
  · intro h
    obtain ⟨pre, hs, hpre, -⟩ := split_isspace s
    obtain ⟨sign, hrest, hsign, hminus⟩ := scanSign_spec (s.dropWhile isspace)
    unfold scanInt at h
    dsimp only at h
    split at h
    · cases h
    next hne =>
      obtain rfl := Option.some.inj h
      refine ⟨pre, sign, _, (scanSign (s.dropWhile isspace)).2.dropWhile isdigit, ?_, hpre, hsign,
        hne, fun c hc => List.mem_takeWhile_imp hc, head?_dropWhile _, if_congr hminus rfl rfl⟩
      rw [List.takeWhile_append_dropWhile, ← hrest]
      exact hs
  · rintro ⟨pre, sign, ds, rest, rfl, hpre, hsign, hne, hds, hrest, rfl⟩
    obtain ⟨d, t, rfl⟩ := List.exists_cons_of_ne_nil hne
    have hd := hds d (List.mem_cons_self ..)
    have hfirst : ∀ c ∈ (sign ++ (d :: t ++ rest)).head?, isspace c = false := by
      simp only [List.mem_cons, List.not_mem_nil, or_false] at hsign
      intro c hc
      rcases hsign with rfl | rfl | rfl
      · obtain rfl := Option.some.inj hc
        exact isspace_of_isdigit hd
      · obtain rfl := Option.some.inj hc
        decide
      · obtain rfl := Option.some.inj hc
        decide
    have hspan : (d :: t ++ rest).takeWhile isdigit = d :: t := (span_append hds hrest).1
    have hscan : scanSign (sign ++ (d :: t ++ rest)) = (decide (sign = [45]), d :: t ++ rest) :=
      scanSign_append hsign ⟨d, t ++ rest, rfl, hd⟩
    unfold scanInt
    rw [dropWhile_isspace hpre hfirst, hscan]
    dsimp only
    rw [hspan]
    dsimp only
    simp only [decide_eq_true_eq]

end StateProtocol.Clib
