import StateProtocol.Clib.Unread
import StateProtocol.Data.CaseBlind
import StateProtocol.Data.Records
import StateProtocol.V1.Tcp
import StateProtocol.V1.Udp
import StateProtocol.V2.Tcp
import StateProtocol.V2.Udp

/-!
# The servers cannot tell the case of a state code

Every use that the four servers make of the state bytes of a query goes through the
data library or the message about an unknown state, which fold their case, or is
a comparison with a byte that is no letter: null, and in the version 1 UDP server
also 5. So two queries that differ in case only are handled by the same
computation (`V1.respond_congr`, `V1.Udp.processQuery_congr`, `V2.execute_congr`),
and `replies_ignore_case` follows for whatever is on the disk.
-/

namespace StateProtocol

open StateProtocol.Clib StateProtocol.Data

/-! ## Version 1 -/

namespace V1

variable {σ : Type}

/-- Two queries that differ in the case of their state codes at the most. -/
structure Request.Alike (query query' : Request) : Prop where
  version : query.version = query'.version
  opcode : query.opcode = query'.opcode
  char1 : tolower query.char1 = tolower query'.char1
  char2 : tolower query.char2 = tolower query'.char2

theorem queryOf_alike {m m' : Bytes} (h : SameButCase m m') : (queryOf m).Alike (queryOf m') where
  version := h.getD_front (show 0 < 2 by omega)
  opcode := h.getD_front (show 1 < 2 by omega)
  char1 := h.getD_code (show 0 < 2 by omega)
  char2 := h.getD_code (show 1 < 2 by omega)

variable {query query' : Request}

theorem Request.Alike.null_iff (h : query.Alike query') :
    (query.char1 = 0 ∨ query.char2 = 0) ↔ (query'.char1 = 0 ∨ query'.char2 = 0) :=
  or_congr (eq_iff_of_tolower h.char1 (show 0 < 65 by omega))
    (eq_iff_of_tolower h.char2 (show 0 < 65 by omega))

/-- The TCP server, once it has read the query. -/
theorem respond_congr {lib : DataUtils Proc} (hlib : CaseBlind lib) (h : query.Alike query') :
    respond lib query = respond lib query' := by
  have hcheck : checkVersion query = checkVersion query' := by
    funext res
    rw [checkVersion, checkVersion, h.version]
  have hanswer : answer lib query = answer lib query' := by
    funext res
    rw [answer, answer, h.opcode, hlib.findData _ h.char1 h.char2, hlib.loadGif h.char1 h.char2,
      noStateMsg_congr h.char1 h.char2]
  rw [respond, respond, hcheck, hanswer]
  exact if_congr h.null_iff rfl rfl

theorem processQuery_congr {lib : DataUtils Proc} (hlib : CaseBlind lib) {m m' : Bytes}
    (h : SameButCase m m') (p : Proc) :
    processQuery lib { p with input := m } = processQuery lib { p with input := m' } := by
  by_cases hshort : m.length < 4
  · rw [processQuery_short rfl hshort, processQuery_short rfl (h.length_eq ▸ hshort)]
  · have hlen := Nat.not_lt.mp hshort
    rw [processQuery_reads rfl hlen, processQuery_reads rfl (h.length_eq ▸ hlen),
      respond_congr hlib (queryOf_alike h), h.back]

namespace Udp

/-- The UDP server compares the second character with 5. -/
theorem processQuery_congr {lib : DataUtils σ} (hlib : CaseBlind lib) (h : query.Alike query') :
    processQuery lib query = processQuery lib query' := by
  have h5 : query.char2 ≠ 5 ↔ query'.char2 ≠ 5 :=
    not_congr (eq_iff_of_tolower h.char2 (show 5 < 65 by omega))
  rw [processQuery, processQuery, h.version, h.opcode, hlib.findData _ h.char1 h.char2,
    noStateMsg_congr h.char1 h.char2]
  dsimp only
  simp only [h5]

theorem serve_congr {lib : DataUtils σ} (hlib : CaseBlind lib) {m m' : Bytes}
    (h : SameButCase m m') : serve lib m = serve lib m' := by
  have halike := queryOf_alike h
  rw [serve, serve, recvfrom, recvfrom]
  dsimp only
  rw [castRequest_zeroPad, castRequest_zeroPad, h.length_eq, processQuery_congr hlib halike]
  simp only [halike.null_iff]

end Udp

end V1

/-! ## Version 2 -/

namespace V2

variable {σ : Type}

/-- Two queries that differ in the case of their state codes at the most. -/
structure Request.Alike (req req' : Request) : Prop where
  version : req.version = req'.version
  numQueries : req.numQueries = req'.numQueries
  char1 : tolower req.char1 = tolower req'.char1
  char2 : tolower req.char2 = tolower req'.char2
  opcodes : req.opcodes = req'.opcodes

theorem castRequest_alike {m m' : Bytes} (h : SameButCase m m') :
    (castRequest (zeroPad queryLen m)).Alike (castRequest (zeroPad queryLen m')) := by
  rw [castRequest_zeroPad, castRequest_zeroPad]
  exact {
    version := h.getD_front (show 0 < 2 by omega)
    numQueries := h.getD_front (show 1 < 2 by omega)
    char1 := h.getD_code (show 0 < 2 by omega)
    char2 := h.getD_code (show 1 < 2 by omega)
    opcodes := congrArg (zeroPad maxOpcodes) h.back }

section Executor

variable {lib : DataUtils σ} {req req' : Request}

theorem Request.Alike.symm (h : req.Alike req') : req'.Alike req :=
  ⟨h.version.symm, h.numQueries.symm, h.char1.symm, h.char2.symm, h.opcodes.symm⟩

/-- The parser only looks for null in the state code. -/
theorem Request.Alike.accepted (h : req.Alike req') (hacc : Accepted req) : Accepted req' := by
  have hnull1 : req.char1 = 0 ↔ req'.char1 = 0 :=
    eq_iff_of_tolower h.char1 (show 0 < 65 by omega)
  have hnull2 : req.char2 = 0 ↔ req'.char2 = 0 :=
    eq_iff_of_tolower h.char2 (show 0 < 65 by omega)
  have hasked : req.asked = req'.asked := by rw [Request.asked, Request.asked, h.opcodes]
  refine ⟨?_, ?_, ?_, ?_, ?_, ?_, ?_, ?_⟩
  · exact h.version ▸ hacc.version
  · exact h.numQueries ▸ hacc.count_le
  · exact h.numQueries ▸ hacc.count_pos
  · exact h.opcodes ▸ hacc.range
  · rw [← h.numQueries, ← hasked]
    exact hacc.count
  · exact hasked ▸ hacc.texts
  · exact mt hnull1.mpr hacc.char1
  · exact mt hnull2.mpr hacc.char2

theorem executeLoop_congr (hlib : CaseBlind lib) (h : req.Alike req') (left i : Nat)
    (st : Progress) : executeLoop lib req left i st = executeLoop lib req' left i st := by
  have hgif : handleGifOpp lib req.char1 req.char2 = handleGifOpp lib req'.char1 req'.char2 := by
    rw [handleGifOpp, handleGifOpp, hlib.loadGif h.char1 h.char2]
  have hopp (code : UInt8) :
      handleOpp lib code req.char1 req.char2 = handleOpp lib code req'.char1 req'.char2 := by
    rw [handleOpp, handleOpp, hlib.findData _ h.char1 h.char2]
  induction left generalizing i st with
  | zero => rfl
  | succ left ih => simp only [executeLoop, h.opcodes, hgif, hopp, ih]

/-- The executor, behind the parser. -/
theorem execute_congr (hlib : CaseBlind lib) {b b' : List.Vector UInt8 queryLen}
    (h : (castRequest b).Alike (castRequest b')) :
    executeQuery lib (parseQuery b) = executeQuery lib (parseQuery b') := by
  cases hparse : parseQuery b with
  | some req =>
    obtain ⟨rfl, hacc⟩ := parseQuery_eq_some.mp hparse
    rw [parseQuery_eq_some.mpr ⟨rfl, h.accepted hacc⟩, executeQuery, executeQuery, h.numQueries]
    congr 1
    exact executeLoop_congr hlib h _ 0 Progress.init
  | none =>
    cases hparse' : parseQuery b' with
    | none => rfl
    | some req' =>
      obtain ⟨rfl, hacc⟩ := parseQuery_eq_some.mp hparse'
      rw [parseQuery_eq_some.mpr ⟨rfl, h.symm.accepted hacc⟩] at hparse
      cases hparse

theorem serve_congr (hlib : CaseBlind lib) {m m' : Bytes} (h : SameButCase m m') :
    serve lib m = serve lib m' := by
  rw [serve, serve, recvfrom, recvfrom]
  dsimp only
  rw [h.length_eq, execute_congr hlib (castRequest_alike h)]

end Executor

/-- The loop that reads the state code and the opcodes, whatever is done with the buffer
afterwards. -/
theorem readLoop_congr {version numQueries : UInt8} {s s' : Bytes}
    (h : SameButCase (version :: numQueries :: s) (version :: numQueries :: s')) {left : Nat}
    (h2 : 2 ≤ left) (hroom : 2 + left ≤ queryLen) {f : List.Vector UInt8 queryLen → C Proc Unit}
    (hf : ∀ l l', SameButCase l l' → f (zeroPad queryLen l) = f (zeroPad queryLen l'))
    (p : Proc) :
    (readLoop left 2 (zeroPad queryLen [version, numQueries]) >>= f) { p with input := s }
      = (readLoop left 2 (zeroPad queryLen [version, numQueries]) >>= f)
          { p with input := s' } := by
  have hlen : s.length = s'.length := by simpa using h.length_eq
  by_cases hbreaks : p.broken = true ∧ s.length < left
  · have hrun (l : Bytes) (hl : l.length < left) :=
      readLoop_broken left [version, numQueries] l (p := { p with input := l }) rfl hbreaks.1 hl
        hroom
    exact (bind_of_error (hrun s hbreaks.2)).trans
      (bind_of_error (hrun s' (hlen ▸ hbreaks.2))).symm
  · have hrun (l : Bytes) (hl : s.length = l.length) :=
      readLoop_run left [version, numQueries] l (p := { p with input := l }) rfl
        (fun hb => Nat.not_lt.mp fun hlt => hbreaks ⟨hb, hl ▸ hlt⟩) hroom
    have hread := h.take (left + 2)
    rw [List.take_succ_cons, List.take_succ_cons, List.take_succ_cons, List.take_succ_cons]
      at hread
    -- what is left behind the opcodes does not reach into the state code
    have hrest : s.drop left = s'.drop left := by
      have hback : s.drop 2 = s'.drop 2 := h.back
      rw [← Nat.add_sub_cancel' h2, ← List.drop_drop, hback, List.drop_drop]
    calc (readLoop left 2 (zeroPad queryLen [version, numQueries]) >>= f) { p with input := s }
        = f (zeroPad queryLen (version :: numQueries :: s.take left))
            { p with input := s.drop left } := bind_of_ok (hrun s rfl)
      _ = f (zeroPad queryLen (version :: numQueries :: s'.take left))
            { p with input := s'.drop left } := by rw [hf _ _ hread, hrest]
      _ = (readLoop left 2 (zeroPad queryLen [version, numQueries]) >>= f)
            { p with input := s' } := (bind_of_ok (hrun s' hlen)).symm

/-- The TCP server. It does not read the state code of a query with too large a count, so
what is the same then is what the client gets. -/
theorem processQuery_congr {lib : DataUtils Proc} (hlib : CaseBlind lib) {m m' : Bytes}
    (h : SameButCase m m') (p : Proc) :
    observed (processQuery lib { p with input := m })
      = observed (processQuery lib { p with input := m' }) := by
  match m, m', h with
  | [], m', h => rw [List.eq_nil_of_length_eq_zero h.length_eq.symm]
  | [version], m', h =>
    have hshort : m'.length ≤ 2 := h.length_eq ▸ Nat.le_succ 1
    rw [← List.take_of_length_le hshort, ← h.front]
    rfl
  | version :: numQueries :: s, [], h => cases h.length_eq
  | version :: numQueries :: s, [_], h => cases h.length_eq
  | version :: numQueries :: s, _ :: _ :: s', h =>
    obtain ⟨rfl, rfl⟩ : version = _ ∧ numQueries = _ := by simpa using h.front
    rw [processQuery_counted lib rfl, processQuery_counted lib rfl]
    split
    next =>
      rw [bind_of_ok (errorResponse_run _), bind_of_ok (errorResponse_run _), writeOut_eq]
      exact (Unread.sendBlocks errorReply.blocks).observed_eq p s s'
    next hsmall =>
      have hle : numQueries.toNat ≤ 5 := UInt8.le_iff_toNat_le.mp (UInt8.not_lt.mp hsmall)
      refine congrArg observed (readLoop_congr h (Nat.le_add_right 2 _) ?_ ?_ p)
      · exact show 2 + (2 + numQueries.toNat) ≤ 9 by omega
      · intro l l' hl
        rw [execute_congr hlib (castRequest_alike hl)]

end V2

/-- **State codes are case-insensitive everywhere**: whatever the database and the flag
files are, and whatever the state of the process, the four servers give to two queries
that differ only in the case of their state codes the same bytes, or none. -/
theorem replies_ignore_case (host : Host) {m m' : Bytes} (h : SameButCase m m') (p : Proc) :
    observed (V1.processQuery (onDisk host) { p with input := m })
        = observed (V1.processQuery (onDisk host) { p with input := m' }) ∧
      V1.Udp.serve (onDisk host) m p = V1.Udp.serve (onDisk host) m' p ∧
      observed (V2.processQuery (onDisk host) { p with input := m })
        = observed (V2.processQuery (onDisk host) { p with input := m' }) ∧
      V2.serve (onDisk host) m p = V2.serve (onDisk host) m' p := by
  have hlib := onDisk_caseBlind host
  refine ⟨?_, ?_, V2.processQuery_congr hlib h p, ?_⟩
  · rw [V1.processQuery_congr hlib h p]
  · rw [V1.Udp.serve_congr hlib h]
  · rw [V2.serve_congr hlib h]

/-- `NH` and `nh`, asked for the abbreviation and the flag. -/
theorem replies_ignore_case_nh :
    observed (V1.processQuery (onDisk Host.small)
          { Proc.fresh with input := [2, 2, 78, 72, 1, 5, 0, 0, 0] })
        = observed (V1.processQuery (onDisk Host.small)
          { Proc.fresh with input := [2, 2, 110, 104, 1, 5, 0, 0, 0] }) ∧
      V1.Udp.serve (onDisk Host.small) [2, 2, 78, 72, 1, 5, 0, 0, 0] Proc.fresh
        = V1.Udp.serve (onDisk Host.small) [2, 2, 110, 104, 1, 5, 0, 0, 0] Proc.fresh ∧
      observed (V2.processQuery (onDisk Host.small)
          { Proc.fresh with input := [2, 2, 78, 72, 1, 5, 0, 0, 0] })
        = observed (V2.processQuery (onDisk Host.small)
          { Proc.fresh with input := [2, 2, 110, 104, 1, 5, 0, 0, 0] }) ∧
      V2.serve (onDisk Host.small) [2, 2, 78, 72, 1, 5, 0, 0, 0] Proc.fresh
        = V2.serve (onDisk Host.small) [2, 2, 110, 104, 1, 5, 0, 0, 0] Proc.fresh :=
  replies_ignore_case Host.small ⟨rfl, by decide, rfl⟩ Proc.fresh

end StateProtocol
