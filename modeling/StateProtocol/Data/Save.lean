import StateProtocol.Clib.Disk

/-!
# `save_gif` on the disk of a client (`lib/data_utils.c`)

The loop hands the whole buffer to every `fwrite` and adds up what was taken.
When the first call takes everything, it is the only one, and the file holds the
buffer (`saveGif_whole`).
-/

namespace StateProtocol.Data.Local

open StateProtocol.Clib

/-- `construct_local_gif_filename`: `"%c%c.gif"` in a buffer of 7 bytes. -/
def constructLocalGifFilename (char1 char2 : UInt8) : Bytes :=
  (cstr (([tolower char1, tolower char2] ++ ascii ".gif").take 13)).bytes

/-- An `int` passed as a `size_t`. -/
def asSize (len : Int32) : Nat := (len.toInt % 2 ^ 64).toNat

/-- The loop of `save_gif`, with `total` bytes counted. -/
def saveLoop (filename buffer : Bytes) (len : Int32) : (calls : Nat) → (total : Int32) → C Disk Unit
  | 0, _ => throw .blocked
  | calls + 1, total => do
    let bytesWritten ← fwrite filename buffer (asSize len)
    if Int32.ofNat bytesWritten < 0 then throw (.exit 1)
    else
      let total := total + Int32.ofNat bytesWritten
      if total ≥ len then return ()
      -- the next call begins at the start of the buffer again
      else saveLoop filename buffer len calls total

/-- `save_gif`. Each call of `fwrite` uses up a count, so their number bounds the
calls. -/
def saveGif (char1 char2 : UInt8) (buffer : Bytes) (len : Int32) : C Disk Unit := do
  let filename := constructLocalGifFilename char1 char2
  if ← fopenWrite filename then
    fun d => saveLoop filename buffer len (d.counts.length + 1) 0 d
  else throw (.exit 1)

theorem asSize_ofNat {n : Nat} (h : n < 2 ^ 31) : asSize (Int32.ofNat n) = n := by
  rw [asSize, Int32.toInt_ofNat_of_lt h]
  omega

theorem saveLoop_whole {filename buffer : Bytes} {n calls : Nat} {d t : Disk} (hn : n < 2 ^ 31)
    (h : fwrite filename buffer n d = .ok n t) :
    saveLoop filename buffer (Int32.ofNat n) (calls + 1) 0 d = .ok () t := by
  have hneg : ¬Int32.ofNat n < 0 := by
    rw [ofNat_neg_iff (hn.trans (by omega))]
    omega
  have hwhole : (0 : Int32) + Int32.ofNat n ≥ Int32.ofNat n := by
    rw [Int32.zero_add]
    exact Int32.le_refl _
  rw [saveLoop, asSize_ofNat hn, bind_of_ok h]
  dsimp only
  rw [if_neg hneg, if_pos hwhole]
  rfl

/-- On a disk with room the file is the buffer. -/
theorem saveGif_whole {n : Nat} (roomy : RoomyDisk n) (char1 char2 : UInt8) {buffer : Bytes}
    (hn : n < 2 ^ 31) (hbuffer : n ≤ buffer.length) :
    ∃ t, saveGif char1 char2 buffer (Int32.ofNat n) roomy.disk = .ok () t ∧
      t.files = Function.update roomy.disk.files (constructLocalGifFilename char1 char2)
        (some (buffer.take n)) := by
  obtain ⟨k, ks, hcounts, hk⟩ := roomy.room
  have hopen : fopenWrite (constructLocalGifFilename char1 char2) roomy.disk
      = .ok true (roomy.disk.put (constructLocalGifFilename char1 char2) []) :=
    if_pos (roomy.writable _)
  have hwrite := fwrite_created (constructLocalGifFilename char1 char2) hcounts hk hbuffer
  exact ⟨_, (bind_of_ok hopen).trans (saveLoop_whole hn hwrite), rfl⟩

end StateProtocol.Data.Local
