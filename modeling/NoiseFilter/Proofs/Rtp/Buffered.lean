import NoiseFilter.Bytes.Buffer
import NoiseFilter.Proofs.Rtp.RoundTrip

/-!
# Packets in a buffer

A transport leaves a packet at the start of a buffer, and the filter writes one there. `Buffer.packet?`
reads it, for every length that is claimed for it, and `Buffer.payload` is what the next reader will
take for its payload. A packet that is written is read again (`Buffer.packet?_overwrite`), provided
that its header was read before; `Rtp.Unfit` are the packets that do not get written, and which these
are does not depend on the bytes of the payload, only on their number (`Rtp.Packet.fits_congr`).
-/

namespace NoiseFilter

open Rtp

namespace Buffer

/-- **The packet at the start of a buffer**, if the first `length` bytes are one. -/
def packet? (b : Buffer) (length : Nat) : Option Packet :=
  match b.window? length with
  | none => none
  | some bytes => (Packet.decode bytes).toOption

theorem window?_eq_some {b : Buffer} {length : Nat} {bytes : Bytes} :
    b.window? length = some bytes ↔ length ≤ b.size ∧ b.toBytes.take length = bytes := by
  rw [window?, take_eq]
  by_cases h : length ≤ b.size
  · simp [h]
  · simp [h]

theorem packet?_eq_some {b : Buffer} {length : Nat} {packet : Packet} :
    b.packet? length = some packet ↔
      length ≤ b.size ∧ Packet.decode (b.toBytes.take length) = .ok packet := by
  by_cases h : length ≤ b.size
  · rw [packet?, window?_eq_some.2 ⟨h, rfl⟩]
    cases hd : Packet.decode (b.toBytes.take length) <;> simp [hd, h, Except.toOption]
  · rw [packet?, window?, if_neg h]
    simp [h]

theorem le_size_of_packet? {b : Buffer} {length : Nat} {packet : Packet}
    (h : b.packet? length = some packet) : length ≤ b.size := (packet?_eq_some.1 h).1

/-- Reading a packet does not fail. -/
theorem decode_ne_error_of_packet? {b : Buffer} {length : Nat} {packet : Packet}
    (h : b.packet? length = some packet) (fault : Fault) :
    Packet.decode (b.toBytes.take length) ≠ .error fault := by
  rw [(packet?_eq_some.1 h).2]
  exact fun h => nomatch h

/-- What is a packet is neither too long for its buffer nor malformed. -/
theorem not_unread_of_packet? {b : Buffer} {length : Nat} {packet : Packet}
    (h : b.packet? length = some packet) : ¬ (length ≤ b.size →
      ∃ what, Packet.decode (b.toBytes.take length) = .error (.malformed what)) := by
  intro hfault
  obtain ⟨what, hmalformed⟩ := hfault (le_size_of_packet? h)
  exact decode_ne_error_of_packet? h _ hmalformed

/-- Bytes that cannot be read are no packet. -/
theorem packet?_eq_none {b : Buffer} {length : Nat}
    (h : length ≤ b.size → ∃ fault, Packet.decode (b.toBytes.take length) = .error fault) :
    b.packet? length = none := by
  rw [Option.eq_none_iff_forall_ne_some]
  intro packet hpacket
  obtain ⟨fault, hfault⟩ := h (le_size_of_packet? hpacket)
  exact decode_ne_error_of_packet? hpacket fault hfault

/-- **A header in a buffer was read**, and can be read again once it is written. -/
theorem wellFormed_of_packet? {b : Buffer} {length : Nat} {packet : Packet}
    (hsmall : length ≤ 65535) (hpacket : b.packet? length = some packet) :
    packet.header.WellFormed := by
  obtain ⟨-, hdecode⟩ := packet?_eq_some.1 hpacket
  refine (Packet.of_decode hdecode).1 ?_
  exact Nat.le_trans (List.length_take_le _ _) hsmall

/-- What was written into a buffer stands at its start. -/
theorem window?_overwrite {b : Buffer} {data : Bytes} (h : data.length ≤ b.size) :
    (b.overwrite data).window? data.length = some data := by
  rw [window?_eq_some, size_overwrite b data h, toBytes_overwrite]
  exact ⟨h, List.take_left⟩

/-- **A packet written into a buffer is read there again**, with the header as it comes back. -/
theorem packet?_overwrite {b : Buffer} {header : Header} {payload data : Bytes}
    (hwf : header.WellFormed) (hdata : Packet.encode ⟨header, payload⟩ = .ok data)
    (hfits : data.length ≤ b.size) :
    (b.overwrite data).packet? data.length = some ⟨header.rewritten, payload⟩ := by
  rw [packet?, window?_overwrite hfits]
  simp only [Packet.decode_of_encode hwf hdata]
  rfl

/-! ### Payloads -/

/-- **The payload of the packet at the start of a buffer**, empty if there is no packet. -/
def payload (b : Buffer) (length : Nat) : Bytes := ((b.packet? length).map Packet.payload).getD []

theorem payload_of_packet? {b : Buffer} {length : Nat} {packet : Packet}
    (h : b.packet? length = some packet) : b.payload length = packet.payload := by
  rw [payload, h]
  rfl

theorem payload_of_none {b : Buffer} {length : Nat} (h : b.packet? length = none) :
    b.payload length = [] := by
  rw [payload, h]
  rfl

/-- A payload that was written with a header is there afterwards. -/
theorem payload_overwrite {b : Buffer} {header : Header} {payload data : Bytes}
    (hwf : header.WellFormed) (hdata : Packet.encode ⟨header, payload⟩ = .ok data)
    (hfits : data.length ≤ b.size) : (b.overwrite data).payload data.length = payload :=
  payload_of_packet? (packet?_overwrite hwf hdata hfits)

end Buffer

namespace Rtp

/-- **A packet that does not go into a buffer**: it cannot be written, or is too large. -/
def Unfit (packet : Packet) (buffer : Buffer) : Prop :=
  ∀ data, packet.encode = .ok data → buffer.size < data.length

/-- A packet is unfit if it is too large, provided that its header can be written. -/
theorem unfit_iff {header : Header} {payload : Bytes} {buffer : Buffer} :
    Unfit ⟨header, payload⟩ buffer ↔
      (header.spell.length = header.size → buffer.size < Packet.size ⟨header, payload⟩) := by
  constructor
  · intro h hspell
    have hdata : Packet.encode ⟨header, payload⟩ = .ok (Packet.spell ⟨header, payload⟩) :=
      Packet.encode_eq_ok.2 hspell
    rw [← (Packet.of_encode hdata).2]
    exact h _ hdata
  · intro h data hdata
    obtain ⟨rfl, hsize⟩ := Packet.of_encode hdata
    rw [hsize]
    exact h (Packet.encode_eq_ok.1 hdata)

/-- As much of a stream as there is room for fits behind a header without the padding flag. -/
theorem not_unfit_take {header : Header} {buffer : Buffer}
    (hspelled : header.spell.length = header.size) (hpadding : header.padding = false)
    (hroom : header.size ≤ buffer.size) (stream : Bytes) :
    ¬ Unfit ⟨header, stream.take (buffer.size - header.size)⟩ buffer := by
  intro hunfit
  have hlarge := unfit_iff.1 hunfit hspelled
  rw [Packet.size_of_unpadded _ hpadding, List.length_take] at hlarge
  omega

/-! ### The size is all that matters -/

namespace Packet

/-- **A packet that fits**: its header can be written, and all of it is no larger than `size`. -/
def Fits (packet : Packet) (size : Nat) : Prop :=
  packet.header.spell.length = packet.header.size ∧ packet.size ≤ size

instance (packet : Packet) (size : Nat) : Decidable (packet.Fits size) :=
  inferInstanceAs (Decidable (_ ∧ _))

/-- What does not fit is unfit. -/
theorem not_fits_iff {packet : Packet} {buffer : Buffer} :
    ¬ packet.Fits buffer.size ↔ Unfit packet buffer := by
  rw [unfit_iff, Fits, not_and, Nat.not_le]

/-- A packet that was written into a buffer fits. -/
theorem fits_of_encode {packet : Packet} {data : Bytes} {size : Nat}
    (hdata : packet.encode = .ok data) (hfits : data.length ≤ size) : packet.Fits size := by
  obtain ⟨rfl, hsize⟩ := of_encode hdata
  rw [hsize] at hfits
  exact ⟨encode_eq_ok.1 hdata, hfits⟩

section Congr

variable (header : Header) {payload payload' : Bytes} (h : payload.length = payload'.length)

include h

/-- **Padding depends on the length of the payload alone.** -/
theorem spellPadding_congr : spellPadding ⟨header, payload⟩ = spellPadding ⟨header, payload'⟩ := by
  rw [spellPadding, spellPadding, paddingBytes, paddingBytes]
  dsimp only
  rw [h]

theorem size_congr : size ⟨header, payload⟩ = size ⟨header, payload'⟩ := by
  rw [size, size, paddingBytes, paddingBytes]
  dsimp only
  rw [h]

/-- **Whether a packet fits depends on the length of its payload alone.** -/
theorem fits_congr (size : Nat) : Fits ⟨header, payload⟩ size ↔ Fits ⟨header, payload'⟩ size := by
  rw [Fits, Fits, size_congr header h]

end Congr

end Packet

end Rtp

end NoiseFilter
