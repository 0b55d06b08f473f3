import StateProtocol.Clib.Paths
import StateProtocol.Data.Files
import StateProtocol.Data.Save

/-!
# The flags that a query can reach

The name of a flag file has two bytes in it that come from the client, and nothing
checks them: they may be slashes, dots or nulls. They cannot make up a `..`, so
whatever they are the name stays in `flags/` (`gif_inside`), and the server opens
neither its database for a flag nor a copy that it has saved.
-/

namespace StateProtocol.Data

open StateProtocol.Clib

/-- The part of the name that depends on the client. -/
def gifName (char1 char2 : UInt8) : Bytes :=
  (cstr ([tolower char1, tolower char2] ++ ascii ".gif")).bytes

theorem constructGifFilename_eq (char1 char2 : UInt8) :
    constructGifFilename char1 char2 = ascii "flags" ++ slash :: gifName char1 char2 := rfl

theorem flags_proper : Proper (ascii "flags") := ⟨by decide, by decide, by decide, by decide⟩

/-- The string in the buffer stops at a null. -/
theorem gif_bytes (a b : UInt8) : (cstr ([a, b] ++ ascii ".gif")).bytes =
    if a = 0 then [] else if b = 0 then [a] else [a, b] ++ ascii ".gif" := by
  by_cases ha : a = 0
  · subst ha
    rfl
  · by_cases hb : b = 0
    · subst hb
      have hnot : 0 ∉ [a] := by simpa using Ne.symm ha
      rw [if_neg ha, if_pos rfl]
      exact cstr_append_null hnot (ascii ".gif")
    · have hgif : 0 ∉ ascii ".gif" := by decide
      rw [if_neg ha, if_neg hb]
      apply cstr_bytes_of_noNull
      simp [Ne.symm ha, Ne.symm hb, hgif]

/-- **Two bytes and `.gif`** are never cut so that a `..` comes out. -/
theorem parent_not_mem (a b : UInt8) :
    parent ∉ ((cstr ([a, b] ++ ascii ".gif")).bytes).splitOn slash := by
  -- it would have to be shorter than the two bytes, or end in `.gif`
  have hshort {s : Bytes} (hs : s.length ≤ 1) : parent ∉ s.splitOn slash := by
    intro hmem
    rw [← List.append_nil s] at hmem
    have htwo : parent.length = 2 := rfl
    rcases mem_splitOn_append List.not_mem_nil s parent hmem with ⟨t, ht, hle⟩ | hless
    · rw [ht, List.append_nil] at htwo
      omega
    · omega
  rw [gif_bytes]
  split
  · exact hshort (Nat.zero_le 1)
  · split
    · exact hshort (Nat.le_refl 1)
    · intro hmem
      rcases mem_splitOn_append (g := ascii ".gif") (by decide) [a, b] parent hmem with
        ⟨t, ht, -⟩ | hless
      · have hlen := congrArg List.length ht
        rw [List.length_append] at hlen
        exact absurd (show 2 = t.length + 4 from hlen) (by omega)
      · exact absurd hless (Nat.lt_irrefl 2)

/-- Any flag is in `flags/`, if it is not that directory itself. -/
theorem gif_inside (cwd : List Bytes) (char1 char2 : UInt8) :
    cwd ++ [ascii "flags"] <+: resolve cwd (constructGifFilename char1 char2) := by
  rw [constructGifFilename_eq]
  exact resolve_inside flags_proper (parent_not_mem _ _)

theorem tolower_ne_slash {c : UInt8} (h : c ≠ slash) : tolower c ≠ slash := by
  unfold tolower slash at *
  grind

/-- For a state code of other bytes it has a name of its own there. -/
theorem gif_place (cwd : List Bytes) {char1 char2 : UInt8} (h1 : char1 ≠ 0) (h2 : char2 ≠ 0)
    (hs1 : char1 ≠ slash) (hs2 : char2 ≠ slash) :
    resolve cwd (constructGifFilename char1 char2)
      = cwd ++ [ascii "flags", [tolower char1, tolower char2] ++ ascii ".gif"] := by
  have hbytes : gifName char1 char2 = [tolower char1, tolower char2] ++ ascii ".gif" := by
    rw [gifName, gif_bytes, if_neg (tolower_ne_zero h1), if_neg (tolower_ne_zero h2)]
  have hlong {s : Bytes} (hs : s.length < 6) :
      [tolower char1, tolower char2] ++ ascii ".gif" ≠ s :=
    fun he => absurd (congrArg List.length he) (Nat.ne_of_gt hs)
  have hslash : slash ∉ [tolower char1, tolower char2] ++ ascii ".gif" := by
    have hgif : slash ∉ ascii ".gif" := by decide
    simp [Ne.symm (tolower_ne_slash hs1), Ne.symm (tolower_ne_slash hs2), hgif]
  have hproper : Proper ([tolower char1, tolower char2] ++ ascii ".gif") :=
    ⟨hlong (Nat.succ_pos 5), hlong (show 1 < 6 by omega), hlong (show 2 < 6 by omega), hslash⟩
  rw [constructGifFilename_eq, hbytes, resolve, if_neg (head?_ne_slash flags_proper),
    List.splitOn_append_cons_self_of_not_mem flags_proper.noSlash,
    List.splitOn_eq_singleton hproper.noSlash, List.foldl_cons, walk_proper flags_proper,
    List.foldl_cons, walk_proper hproper, List.append_assoc]
  rfl

/-- **No query reaches another file** than one in `flags/`, whatever bytes it has for a
state code: none that is found without a directory, like the database or a copy that
the server saves. -/
theorem flags_confined (cwd : List Bytes) (char1 char2 : UInt8) :
    cwd ++ [ascii "flags"] <+: resolve cwd (constructGifFilename char1 char2) ∧
    (∀ file, slash ∉ file → file ≠ ascii "flags" →
      resolve cwd file ≠ resolve cwd (constructGifFilename char1 char2)) ∧
    ∀ code1 code2 : UInt8, 0 ∉ [char1, char2, code1, code2] → slash ∉ [char1, char2, code1, code2] →
      (resolve cwd (constructGifFilename char1 char2)
          = resolve cwd (constructGifFilename code1 code2) ↔
        tolower char1 = tolower code1 ∧ tolower char2 = tolower code2) := by
  refine ⟨gif_inside cwd char1 char2, fun file hfile hne => ?_, fun code1 code2 h0 hs => ?_⟩
  · exact resolve_outside (gif_inside cwd char1 char2) hfile hne
  · simp only [List.mem_cons, List.not_mem_nil, or_false, not_or] at h0 hs
    obtain ⟨h01, h02, h03, h04⟩ := h0
    obtain ⟨hs1, hs2, hs3, hs4⟩ := hs
    rw [gif_place cwd (Ne.symm h01) (Ne.symm h02) (Ne.symm hs1) (Ne.symm hs2),
      gif_place cwd (Ne.symm h03) (Ne.symm h04) (Ne.symm hs3) (Ne.symm hs4)]
    simp

/-- With two dots for a state code: neither the database, nor what is saved for a
debugger. -/
theorem flags_confined_dots :
    resolve [] (ascii "statedb.txt") ≠ resolve [] (constructGifFilename 46 46) ∧
    resolve [] (Local.constructLocalGifFilename 116 116)
      ≠ resolve [] (constructGifFilename 46 46) := by
  obtain ⟨-, hother, -⟩ := flags_confined [] 46 46
  exact ⟨hother _ (by decide) (by decide), hother _ (by decide) (by decide)⟩

end StateProtocol.Data
