import StateProtocol.Clib.Process
import Mathlib.Logic.Function.Basic

/-!
# Files that a process writes

A `Disk` is the directory of a process that creates files in it: under which
names it may, what they hold, and how much the coming `fwrite` calls will take.
`fwrite` reports how many bytes it took; a process that has used up its counts
is `blocked` in it, so a longer and longer list of counts shows the files at
every moment.
-/

namespace StateProtocol.Clib

structure Disk where
  /-- can a file be created under the name? -/
  writable : Bytes → Bool
  files : Bytes → Option Bytes
  /-- how many bytes the coming `fwrite` calls take, at the most -/
  counts : List Nat

/-- The disk with a file of the given contents. -/
def Disk.put (d : Disk) (name contents : Bytes) : Disk :=
  { d with files := Function.update d.files name (some contents) }

@[simp] theorem Disk.put_files (d : Disk) (name contents : Bytes) :
    (d.put name contents).files = Function.update d.files name (some contents) := rfl

@[simp] theorem Disk.put_counts (d : Disk) (name contents : Bytes) :
    (d.put name contents).counts = d.counts := rfl

/-- `fopen(name, "wb")`: an empty file, if there can be one. -/
def fopenWrite (name : Bytes) : C Disk Bool := fun d =>
  if d.writable name then .ok true (d.put name []) else .ok false d

/-- `fwrite(buffer, 1, count, file)`: the number of bytes appended to the file. -/
def fwrite (name buffer : Bytes) (count : Nat) : C Disk Nat := fun d =>
  if buffer.length < count then .error .fault d
  else
    match d.counts with
    | [] => .error .blocked d
    | k :: ks =>
      .ok (min k count)
        { d.put name ((d.files name).getD [] ++ buffer.take (min k count)) with counts := ks }

/-- A disk on which every file can be created, and whose next `fwrite` takes up
to `size` bytes. -/
structure RoomyDisk (size : Nat) where
  disk : Disk
  writable : ∀ name, disk.writable name = true
  room : ∃ k ks, disk.counts = k :: ks ∧ size ≤ k

/-- A file written whole to a roomy disk is what it then holds. -/
theorem fwrite_created {d : Disk} {buffer : Bytes} {count k : Nat} {ks : List Nat} (name : Bytes)
    (hcounts : d.counts = k :: ks) (hk : count ≤ k) (hbuffer : count ≤ buffer.length) :
    fwrite name buffer count (d.put name [])
      = .ok count { d.put name (buffer.take count) with counts := ks } := by
  rw [fwrite, if_neg (Nat.not_lt.mpr hbuffer), Disk.put_counts, hcounts]
  dsimp only
  rw [Nat.min_eq_right hk, Disk.put_files, Function.update_self]
  simp [Disk.put]

/-- An empty directory with that much room. -/
def RoomyDisk.empty (size : Nat) : RoomyDisk size where
  disk := ⟨fun _ => true, fun _ => none, [size]⟩
  writable _ := rfl
  room := ⟨size, [], rfl, Nat.le_refl size⟩

end StateProtocol.Clib
