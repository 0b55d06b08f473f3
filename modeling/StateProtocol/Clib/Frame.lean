import StateProtocol.Clib.Bytes

/-!
# Length-prefixed blocks

A block is its length as four bytes in network order, followed by its bytes.
`readBlocks` is the reader that is told how many blocks there are; it gives back
what was framed and leaves what follows (`readBlocks_frames`).
-/

namespace StateProtocol.Clib

/-- A block on the wire. -/
def frame (block : Bytes) : Bytes := beBytes (UInt32.ofNat block.length) ++ block

/-- One block: four bytes of length, and the bytes it announces. -/
def readBlock : Bytes → Option (Bytes × Bytes)
  | a :: b :: c :: d :: rest =>
    if rest.length < beNat [a, b, c, d] then none
    else some (rest.take (beNat [a, b, c, d]), rest.drop (beNat [a, b, c, d]))
  | _ => none

/-- As many blocks as the reader is told, and the bytes that are left. -/
def readBlocks : (count : Nat) → Bytes → Option (List Bytes × Bytes)
  | 0, bs => some ([], bs)
  | count + 1, bs =>
    match readBlock bs with
    | none => none
    | some (block, rest) =>
      (readBlocks count rest).map fun (blocks, left) => (block :: blocks, left)

theorem readBlock_frame {block : Bytes} (rest : Bytes) (h : block.length < 2 ^ 32) :
    readBlock (frame block ++ rest) = some (block, rest) := by
  have hlen : beNat (beBytes (UInt32.ofNat block.length)) = block.length := by
    rw [beNat_beBytes]
    exact UInt32.toNat_ofNat_of_lt' h
  rw [frame, List.append_assoc]
  show (if (block ++ rest).length < beNat (beBytes (UInt32.ofNat block.length)) then none
    else some ((block ++ rest).take (beNat (beBytes (UInt32.ofNat block.length))),
      (block ++ rest).drop (beNat (beBytes (UInt32.ofNat block.length))))) = _
  rw [hlen, if_neg (by simp), List.take_left, List.drop_left]

/-- The reader gives back the blocks that were framed. -/
theorem readBlocks_frames : ∀ (blocks : List Bytes) (rest : Bytes),
    (∀ block ∈ blocks, block.length < 2 ^ 32) →
    readBlocks blocks.length ((blocks.map frame).flatten ++ rest) = some (blocks, rest)
  | [], _, _ => rfl
  | block :: blocks, rest, h => by
    have ih := readBlocks_frames blocks rest fun b hb => h b (List.mem_cons_of_mem _ hb)
    rw [List.length_cons, List.map_cons, List.flatten_cons, List.append_assoc, readBlocks,
      readBlock_frame _ (h block (List.mem_cons_self ..))]
    dsimp only
    rw [ih]
    rfl

/-- More bytes do not change what has been read. -/
theorem readBlock_append {bs block rest : Bytes} (more : Bytes)
    (h : readBlock bs = some (block, rest)) :
    readBlock (bs ++ more) = some (block, rest ++ more) := by
  match bs, h with
  | a :: b :: c :: d :: tail, h =>
    rw [readBlock] at h
    split at h
    next => cases h
    next hlen =>
      cases h
      have hle : beNat [a, b, c, d] ≤ tail.length := Nat.not_lt.mp hlen
      show (if (tail ++ more).length < beNat [a, b, c, d] then none
        else some ((tail ++ more).take (beNat [a, b, c, d]),
          (tail ++ more).drop (beNat [a, b, c, d]))) = _
      rw [List.length_append, if_neg (by omega), List.take_append_of_le_length hle,
        List.drop_append_of_le_length hle]

theorem readBlocks_append (more : Bytes) : ∀ (count : Nat) (bs : Bytes) {blocks : List Bytes}
    {left : Bytes}, readBlocks count bs = some (blocks, left) →
    readBlocks count (bs ++ more) = some (blocks, left ++ more)
  | 0, bs, _, _, h => by
    cases h
    rfl
  | count + 1, bs, blocks, left, h => by
    rw [readBlocks] at h ⊢
    cases hblock : readBlock bs with
    | none =>
      rw [hblock] at h
      cases h
    | some r =>
      obtain ⟨block, rest⟩ := r
      rw [hblock] at h
      rw [readBlock_append more hblock]
      obtain ⟨⟨blocks', left'⟩, hrest, heq⟩ := Option.map_eq_some_iff.mp h
      cases heq
      exact Option.map_eq_some_iff.mpr ⟨_, readBlocks_append more count rest hrest, rfl⟩

end StateProtocol.Clib
