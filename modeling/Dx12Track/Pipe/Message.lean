import Dx12Track.Lib.Framing

/-!
# Messages on the pipe

The bytes of `struct EventHeader` (packed, little-endian), and the framing that a
header with its payload makes: the header says how many bytes follow it.

* `EventHeader`, `bytes`, `read` — the header and its 24 bytes.
* `Message` — a header with the payload it announces.
* `wire` — the framing of the pipe.
-/

namespace Dx12Track

def kProtocolMagic : UInt32 := 0x44583132

/-- `struct EventHeader`; the padding is one 56-bit number. -/
structure EventHeader where
  magic : UInt32
  payloadBytes : UInt32
  tsNs : UInt64
  kind : UInt8
  pad : BitVec 56 := 0
  deriving DecidableEq, Repr

namespace EventHeader

/-- `sizeof(EventHeader)`. -/
def size : ℕ := 24

/-- The memory of a header. -/
def bytes (h : EventHeader) : List UInt8 :=
  Bytes.le 4 h.magic.toNat ++ (Bytes.le 4 h.payloadBytes.toNat ++ (Bytes.le 8 h.tsNs.toNat ++
    (Bytes.le 1 h.kind.toNat ++ Bytes.le 7 h.pad.toNat)))

/-- The header whose memory is `bs`. -/
def read (bs : List UInt8) : EventHeader where
  magic := UInt32.ofNat (Bytes.ofLE (bs.take 4))
  payloadBytes := UInt32.ofNat (Bytes.ofLE ((bs.drop 4).take 4))
  tsNs := UInt64.ofNat (Bytes.ofLE ((bs.drop 8).take 8))
  kind := UInt8.ofNat (Bytes.ofLE ((bs.drop 16).take 1))
  pad := BitVec.ofNat 56 (Bytes.ofLE ((bs.drop 17).take 7))

@[simp] theorem length_bytes (h : EventHeader) : h.bytes.length = size := by
  simp [bytes, size]

theorem read_bytes (h : EventHeader) : read h.bytes = h := by
  have hmagic : Bytes.ofLE (Bytes.le 4 h.magic.toNat) = h.magic.toNat :=
    Bytes.ofLE_le h.magic.toNat_lt
  have hsize : Bytes.ofLE (Bytes.le 4 h.payloadBytes.toNat) = h.payloadBytes.toNat :=
    Bytes.ofLE_le h.payloadBytes.toNat_lt
  have hts : Bytes.ofLE (Bytes.le 8 h.tsNs.toNat) = h.tsNs.toNat :=
    Bytes.ofLE_le h.tsNs.toNat_lt
  have hkind : Bytes.ofLE (Bytes.le 1 h.kind.toNat) = h.kind.toNat :=
    Bytes.ofLE_le h.kind.toNat_lt
  have hpad : Bytes.ofLE (Bytes.le 7 h.pad.toNat) = h.pad.toNat :=
    Bytes.ofLE_le h.pad.isLt
  simp [read, bytes, List.drop_append, List.drop_eq_nil_of_le,
    List.take_of_length_le, hmagic, hsize, hts, hkind, hpad]

end EventHeader

/-- What the reader hands over: a header and the payload behind it. -/
abbrev Delivery := EventHeader × List UInt8

/-- A header with the right magic, and the payload it announces. -/
abbrev Message :=
  {m : Delivery // m.1.magic = kProtocolMagic ∧ m.1.payloadBytes.toNat = m.2.length}

namespace Message

/-- The bytes of a message on the pipe. -/
def enc (m : Message) : List UInt8 := m.val.1.bytes ++ m.val.2

/-- The message at the front of a stream. -/
def dec (bs : List UInt8) : Option (Message × List UInt8) :=
  if EventHeader.size ≤ bs.length then
    let hdr := EventHeader.read (bs.take EventHeader.size)
    let rest := bs.drop EventHeader.size
    if h : hdr.magic = kProtocolMagic ∧ hdr.payloadBytes.toNat ≤ rest.length then
      some (⟨(hdr, rest.take hdr.payloadBytes.toNat), h.1, by simp [h.2]⟩,
        rest.drop hdr.payloadBytes.toNat)
    else none
  else none

theorem dec_enc (m : Message) (rest : List UInt8) : dec (enc m ++ rest) = some (m, rest) := by
  obtain ⟨⟨hdr, payload⟩, hmagic, hsize⟩ := m
  have hlen : hdr.bytes.length = EventHeader.size := hdr.length_bytes
  have htake : (enc ⟨(hdr, payload), hmagic, hsize⟩ ++ rest).take EventHeader.size = hdr.bytes := by
    rw [enc, List.append_assoc, ← hlen, List.take_left]
  have hdrop : (enc ⟨(hdr, payload), hmagic, hsize⟩ ++ rest).drop EventHeader.size
      = payload ++ rest := by
    rw [enc, List.append_assoc, ← hlen, List.drop_left]
  have hge : EventHeader.size ≤ (enc ⟨(hdr, payload), hmagic, hsize⟩ ++ rest).length := by
    rw [List.length_append, enc, List.length_append, hlen]
    omega
  simp only at hmagic hsize
  rw [dec, if_pos hge]
  simp [htake, hdrop, EventHeader.read_bytes, hmagic, hsize]

theorem dec_cut (m : Message) (bs : List UInt8) (h : bs <+: enc m)
    (hlt : bs.length < (enc m).length) : dec bs = none := by
  obtain ⟨⟨hdr, payload⟩, hmagic, hsize⟩ := m
  simp only [enc] at h hlt hmagic hsize
  unfold dec
  split
  · rename_i hge
    -- the header has arrived, the payload not
    have hhdr : hdr.bytes <+: bs :=
      List.prefix_of_prefix_length_le (List.prefix_append _ _) h (by simpa using hge)
    obtain ⟨part, rfl⟩ := hhdr
    have htake : (hdr.bytes ++ part).take EventHeader.size = hdr.bytes := by
      rw [← hdr.length_bytes, List.take_left]
    have hdrop : (hdr.bytes ++ part).drop EventHeader.size = part := by
      rw [← hdr.length_bytes, List.drop_left]
    have hshort : ¬hdr.payloadBytes.toNat ≤ part.length := by
      simp only [List.length_append] at hlt
      omega
    simp [htake, hdrop, EventHeader.read_bytes, hshort]
  · rfl

/-- The framing of the pipe. -/
def wire : Framing Message UInt8 where
  enc := enc
  dec := dec
  enc_pos m := by
    rw [enc, List.length_append, EventHeader.length_bytes, EventHeader.size]
    omega
  dec_enc := dec_enc
  dec_cut := dec_cut

end Message

end Dx12Track
