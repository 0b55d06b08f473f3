import StateProtocol.Data.LastLine
import StateProtocol.V1.Tcp
import StateProtocol.V1.Udp

/-!
# The text of a field, at the end of the file too

Both servers drop the last character of the motto, for the newline that stands
behind it in the database. A last line may have none, and then the character is
the motto's own. `sendsField_iff` says that this is the only text that is not
sent as it is stored.
-/

namespace StateProtocol.V1

open StateProtocol.Clib StateProtocol.Data

/-- The servers answer a query for a field with that field, followed by zeros;
the UDP server does so whenever it reports success. -/
structure SendsField (host : Host) (os : List Offer) (opcode char1 char2 : UInt8)
    (field : Bytes) : Prop where
  tcp : ∃ q, processQuery (onDisk host) ⟨4, [1, opcode, char1, char2], false, [], os⟩ = .ok () q ∧
    q.sent = (reply maxDataLen 1 field).encode
  udp : ∃ (u : Response maxPackLen) (r : Proc),
    Udp.serve (onDisk host) [1, opcode, char1, char2] Proc.fresh = .ok (some u.encode) r ∧
    (u.status = 1 → u.payload = zeroPad maxPackLen field) ∧ (char2 ≠ 5 → u.status = 1)

section

variable {host : Host} {db : Bytes} {opcode char1 char2 : UInt8} {data : CString}

/-- When the scan finds `data`, the TCP server sends what is left of it. -/
theorem processQuery_found (hdb : host.statedb = some db) (h1 : char1 ≠ 0) (h2 : char2 ≠ 0)
    (hlow : 1 ≤ opcode.toNat) (hhigh : opcode.toNat ≤ 4)
    (hfound : findIn db char1 char2 opcode.toNat = .ok (some data)) (os : FullOffers 19006 2) :
    ∃ q, processQuery (onDisk host) ⟨4, [1, opcode, char1, char2], false, [], os.offers⟩
        = .ok () q ∧ q.sent = (reply maxDataLen 1 (cutText opcode data).bytes).encode := by
  have h5 : opcode ≠ 5 := text_ne_five hhigh
  have hrange : ¬(opcode < 1 ∨ opcode > 5) := opcode_range.mpr ⟨hlow, by omega⟩
  have hleaves := processQuery_answers hdb (fun he => absurd he h5) os h1 h2
  have hout : outcome db host.flags ⟨1, opcode, char1, char2⟩
      = some (1, (cutText opcode data).bytes) := by
    rw [outcome, if_neg hrange, if_pos h5, hfound]
  rw [hout] at hleaves
  exact hleaves

/-- And so does the UDP server, if it gets as far as the scan. -/
theorem serve_found (hdb : host.statedb = some db) (h1 : char1 ≠ 0) (h2 : char2 ≠ 0)
    (hlow : 1 ≤ opcode.toNat) (hhigh : opcode.toNat ≤ 4)
    (hfound : findIn db char1 char2 opcode.toNat = .ok (some data)) :
    ∃ r, Udp.serve (onDisk host) [1, opcode, char1, char2] Proc.fresh
      = .ok (some (if char2 ≠ 5 then reply maxPackLen 1 (cutText opcode data).bytes
          else reply maxPackLen 0 []).encode) r := by
  have h5 : opcode ≠ 5 := text_ne_five hhigh
  have hrange : ¬(opcode < 1 ∨ opcode > 5) := opcode_range.mpr ⟨hlow, by omega⟩
  have hserve := Udp.serve_run (m := [1, opcode, char1, char2]) ⟨Nat.le_refl 4, h1, h2⟩ hdb
    (fresh_fds host)
  have hout : Udp.outcome db (queryOf [1, opcode, char1, char2])
      = if char2 ≠ 5 then some (1, (cutText opcode data).bytes) else some (0, []) := by
    show Udp.outcome db ⟨1, opcode, char1, char2⟩ = _
    rw [Udp.outcome, if_neg (not_not.mpr rfl), if_neg hrange, if_neg h5, hfound]
  rw [hout] at hserve
  by_cases hchar : char2 ≠ 5
  · rw [if_pos hchar] at hserve ⊢
    exact ⟨_, hserve⟩
  · rw [if_neg hchar] at hserve ⊢
    exact ⟨_, hserve⟩

/-- The field is sent exactly when its newline is where it is expected. -/
theorem sendsField_iff_newline (hdb : host.statedb = some db) (h1 : char1 ≠ 0) (h2 : char2 ≠ 0)
    (hlow : 1 ≤ opcode.toNat) (hhigh : opcode.toNat ≤ 4)
    (hfound : findIn db char1 char2 opcode.toNat = .ok (some data)) (os : FullOffers 19006 2) :
    SendsField host os.offers opcode char1 char2 (withoutNewline data.bytes) ↔
      (data.bytes.getLast? = some newline ↔ opcode.toNat = 4) := by
  obtain ⟨hne, hlen⟩ := findIn_spec hfound
  rw [← cutText_eq_iff hne]
  obtain ⟨q, hq, hsent⟩ := processQuery_found hdb h1 h2 hlow hhigh hfound os
  constructor
  · intro h
    obtain ⟨q', hq', hsent'⟩ := h.tcp
    rw [hq] at hq'
    cases hq'
    have hpay := congrArg Response.payload (Response.encode_injective (hsent.symm.trans hsent'))
    have hcut : (cutText opcode data).strlen ≤ data.strlen := cutText_strlen_le
    have hfield := withoutNewline_length_le data.bytes
    have hmax : maxLineLen - 1 ≤ maxDataLen := show 159 ≤ 19000 by omega
    refine zeroPad_injOn (cutText opcode data).noNull ?_ ((hcut.trans hlen).trans hmax)
      ((hfield.trans hlen).trans hmax) hpay
    intro h0
    exact data.noNull (withoutNewline_subset _ h0)
  · intro hcut
    obtain ⟨r, hr⟩ := serve_found hdb h1 h2 hlow hhigh hfound
    rw [hcut] at hsent hr
    refine ⟨⟨q, hq, hsent⟩, _, r, hr, ?_, ?_⟩
    · split
      · intro _
        rfl
      · intro h
        exact absurd h (show ¬(0 : UInt8) = 1 by decide)
    · intro hchar
      rw [if_pos hchar]
      rfl

end

/-- **When the field is sent as it is stored.** -/
theorem sendsField_iff (db : Database) (host : Host) (hdb : host.statedb = some db.file)
    (opcode char1 char2 : UInt8) (hlow : 1 ≤ opcode.toNat) (hhigh : opcode.toNat ≤ 4)
    (h1 : char1 ≠ 0) (h2 : char2 ≠ 0) (field : Field)
    (hfield : db.field char1 char2 opcode.toNat = some field) (os : FullOffers 19006 2) :
    SendsField host os.offers opcode char1 char2 field.text ↔
      (opcode = 4 → Record.lookup db.records char1 char2 ≠ none) := by
  obtain ⟨data, hfound, htext, hnewline⟩ := db.findIn_field h1 h2 hhigh hfield
  have hop : opcode.toNat = 4 ↔ opcode = 4 := UInt8.toNat_inj (b := 4)
  rw [← htext, sendsField_iff_newline hdb h1 h2 hlow hhigh hfound os, hnewline, hop]
  exact ⟨fun h h4 => (h.mpr h4).1, fun h => ⟨fun hboth => hboth.2, fun h4 => ⟨h h4, h4⟩⟩⟩

/-- The name in the last line is sent as it is. -/
theorem sendsField_name :
    SendsField
      { Host.small with statedb := some (Database.file ⟨[delaware], some newHampshireLast⟩) }
      (FullOffers.replicate 19005 2).offers 1 110 104 (ascii "New Hampshire") :=
  (sendsField_iff ⟨[delaware], some newHampshireLast⟩
    { Host.small with statedb := some (Database.file ⟨[delaware], some newHampshireLast⟩) } rfl
    1 110 104 (by decide) (by decide) (by decide) (by decide) (newHampshireLast.field 1) rfl
    (FullOffers.replicate 19005 2)).mpr (by decide)

/-- The motto loses its last character. -/
theorem not_sendsField_motto :
    ¬SendsField Host.cut (FullOffers.replicate 19005 2).offers 4 110 104
      (newHampshireLast.field 4).text := by
  intro h
  obtain ⟨data, hfound, htext, hnewline⟩ := Database.findIn_field ⟨[], some newHampshireLast⟩
    (show (110 : UInt8) ≠ 0 by decide) (show (104 : UInt8) ≠ 0 by decide) (Nat.le_refl 4) rfl
  rw [← htext] at h
  exact (hnewline.mp (((sendsField_iff_newline rfl (by decide) (by decide) (by decide) (by decide)
    hfound _).mp h).mpr rfl)).1 rfl

end StateProtocol.V1
