import StateProtocol.Clib.Bytes

/-!
# Where a path leads

A path is resolved from left to right, name by name, and from the working
directory if it does not begin with a slash (`resolve`); the names are taken as
those of directories and files, not of links. Without the name `..` a path leads
only downwards (`walk_prefix`), so whatever stands behind a directory in it is
found in there (`resolve_inside`).
-/

namespace StateProtocol.Clib

/-- `/` -/
def slash : UInt8 := 47

/-- `.` -/
def here : Bytes := [46]

/-- `..` -/
def parent : Bytes := [46, 46]

/-- Where a name leads from a directory, which is the list of the names from the root
to it. -/
def walk (dir : List Bytes) (name : Bytes) : List Bytes :=
  if name = [] ∨ name = here then dir
  else if name = parent then dir.dropLast
  else dir ++ [name]

/-- Where a path leads for a process in the directory `cwd`. -/
def resolve (cwd : List Bytes) (path : Bytes) : List Bytes :=
  (path.splitOn slash).foldl walk (if path.head? = some slash then [] else cwd)

/-- The names in a path that ends in `g`: the last one ends so too, and the others are
cut out of what is in front. -/
theorem mem_splitOn_append {g : Bytes} (hg : slash ∉ g) (s : Bytes) :
    ∀ name ∈ (s ++ g).splitOn slash,
      (∃ t, name = t ++ g ∧ t.length ≤ s.length) ∨ name.length < s.length := by
  by_cases hs : slash ∈ s
  · obtain ⟨pre, post, rfl, hpre⟩ := List.eq_append_cons_of_mem hs
    have hlen : (pre ++ slash :: post).length = pre.length + post.length + 1 := by simp; omega
    rw [List.append_assoc, List.cons_append, List.splitOn_append_cons_self_of_not_mem hpre, hlen]
    intro name hname
    rcases List.mem_cons.mp hname with rfl | hname
    · exact Or.inr (by omega)
    · rcases mem_splitOn_append hg post name hname with ⟨t, rfl, ht⟩ | hless
      · exact Or.inl ⟨t, rfl, by omega⟩
      · exact Or.inr (by omega)
  · have hall : slash ∉ s ++ g := by simp [hs, hg]
    rw [List.splitOn_eq_singleton hall]
    simp
termination_by s.length

variable {cwd dir : List Bytes} {names : List Bytes} {name rest : Bytes}

/-- A name that stands for a file or a directory of its own. -/
structure Proper (name : Bytes) : Prop where
  ne : name ≠ []
  notHere : name ≠ here
  notParent : name ≠ parent
  noSlash : slash ∉ name

theorem walk_proper (h : Proper name) : walk dir name = dir ++ [name] := by
  rw [walk, if_neg, if_neg h.notParent]
  simp [h.ne, h.notHere]

/-- Without `..` it only goes down. -/
theorem walk_prefix (h : parent ∉ names) : dir <+: names.foldl walk dir := by
  induction names generalizing dir with
  | nil => exact List.prefix_rfl
  | cons name names ih =>
    obtain ⟨hname, hnames⟩ := not_or.mp (List.mem_cons.not.mp h)
    apply List.IsPrefix.trans _ (ih hnames)
    unfold walk
    split
    · exact List.prefix_rfl
    · rw [if_neg fun he => hname he.symm]
      exact List.prefix_append dir [name]

theorem head?_ne_slash (h : Proper name) : (name ++ rest).head? ≠ some slash := by
  obtain ⟨b, bs, rfl⟩ := List.exists_cons_of_ne_nil h.ne
  intro hb
  apply h.noSlash
  simp [← Option.some.inj hb]

theorem resolve_proper (h : Proper name) : resolve cwd name = cwd ++ [name] := by
  have hhead : name.head? ≠ some slash := by
    have hcons : (name ++ []).head? ≠ some slash := head?_ne_slash h
    rwa [List.append_nil] at hcons
  rw [resolve, if_neg hhead, List.splitOn_eq_singleton h.noSlash]
  exact walk_proper h

/-- **What stands behind a directory** is found in it, if there is no `..`. -/
theorem resolve_inside (h : Proper name) (hrest : parent ∉ rest.splitOn slash) :
    cwd ++ [name] <+: resolve cwd (name ++ slash :: rest) := by
  rw [resolve, if_neg (head?_ne_slash h), List.splitOn_append_cons_self_of_not_mem h.noSlash,
    List.foldl_cons, walk_proper h]
  exact walk_prefix hrest

/-- Another name without a slash is found elsewhere. -/
theorem resolve_outside {file path : Bytes}
    (hpath : cwd ++ [name] <+: resolve cwd path) (hfile : slash ∉ file) (hne : file ≠ name) :
    resolve cwd file ≠ resolve cwd path := by
  intro hsame
  rw [← hsame] at hpath
  have hlen := hpath.length_le
  rw [List.length_append, List.length_singleton] at hlen
  by_cases hproper : Proper file
  · rw [resolve_proper hproper] at hpath
    have heq := hpath.eq_of_length (by simp)
    exact hne (List.singleton_inj.mp (List.append_cancel_left heq)).symm
  · -- the name of no file leads nowhere deeper
    have hhead : file.head? ≠ some slash := by
      intro hs
      exact hfile (List.mem_of_mem_head? hs)
    have hshort : (resolve cwd file).length ≤ cwd.length := by
      rw [resolve, if_neg hhead, List.splitOn_eq_singleton hfile]
      show (walk cwd file).length ≤ cwd.length
      unfold walk
      split
      · exact Nat.le_refl _
      next hnot =>
        obtain ⟨hnil, hhere⟩ := not_or.mp hnot
        split
        · rw [List.length_dropLast]
          exact Nat.sub_le _ 1
        next hup => exact absurd ⟨hnil, hhere, hup, hfile⟩ hproper
    omega

end StateProtocol.Clib
