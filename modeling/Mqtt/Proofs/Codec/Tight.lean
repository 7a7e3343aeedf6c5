import Mqtt.Proofs.Codec.Canonical
import Mqtt.Proofs.Packet.Tight

/-!
# Frames that are written as they were read

* `Frame.Tight` are the frames without slack: their length is in its shortest form, and their body
  is tight.
* `Frame.emit_eq_done_iff`: the packet of a frame is written as just that frame exactly if the frame
  is tight.
* `reencode_eq_iff_tight`: what was decoded is encoded to just the bytes that it was decoded from
  exactly if these are a tight frame.
-/

namespace Mqtt

/-- A frame without slack. The length is in its shortest form, and the body has no slack either. -/
inductive Frame.Tight : Bytes → Prop
  | intro {l body : Bytes} {type : PacketType} {flags : Nat} :
      type.Permits flags → VarInt.Shortest l body.length → Packet.TightBody type flags body →
      Tight (.ofNat (16 * type.code + flags) :: (l ++ body))

/-- The packet of a frame is written as just that frame exactly if the frame is tight. -/
theorem Frame.emit_eq_done_iff {w : Bytes} {p : Packet} (h : Frame w p) :
    p.emit = .done w ↔ Tight w := by
  cases h with
  | @intro l body type flags p hpermits hl hbody =>
    constructor
    · intro hemit
      obtain ⟨body', hbody', hmax, hw⟩ := Packet.emit_eq_done_iff.mp hemit
      obtain ⟨-, hw⟩ := List.cons.inj hw
      -- The length ends where its digits say so, and the body stands behind it.
      obtain ⟨rfl, -, rfl⟩ := VarInt.reads_form.unique hl (VarInt.form_digits hmax) hw
      exact .intro hpermits (VarInt.shortest_iff.mpr ⟨hmax, rfl⟩)
        (hbody.emitBody_eq_done_iff.mp hbody')
    · intro htight
      generalize hw : (.ofNat (16 * type.code + flags) :: (l ++ body) : Bytes) = w at htight
      cases htight with
      | @intro l' body' type' flags' hpermits' hl' hbody' =>
        have hheader : FixedHeader.Form (.ofNat (16 * type.code + flags) :: l)
            ⟨type, flags, body.length⟩ := .intro hpermits hl
        have hheader' : FixedHeader.Form (.ofNat (16 * type'.code + flags') :: l')
            ⟨type', flags', body'.length⟩ := .intro hpermits' hl'.1
        obtain ⟨heq, hfields, rfl⟩ := FixedHeader.reads_form.unique hheader hheader' hw
        obtain ⟨rfl, rfl, -⟩ := FixedHeader.mk.inj hfields
        obtain ⟨-, rfl⟩ := List.cons.inj heq
        obtain ⟨hmax, hdigits⟩ := VarInt.shortest_iff.mp hl'
        refine Packet.emit_eq_done_iff.mpr
          ⟨body, hbody.emitBody_eq_done_iff.mpr hbody', hmax, ?_⟩
        rw [hbody.type_eq, hbody.flags_eq hpermits, hdigits]

/-- What a packet is encoded as to every destination with room is what it is written in. -/
theorem eq_of_forall_encode {p : Packet} {f w : Bytes}
    (hf : ∀ destination, f.length ≤ destination.length →
      encode none p destination = .ok ⟨p, f.length, f ++ destination.drop f.length⟩)
    (hw : p.emit = .done w) : f = w := by
  have hencode := hf (w ++ f) (by simp)
  rw [encode_of_emit hw (by simp)] at hencode
  obtain ⟨-, hlen, hbytes⟩ := Encoded.mk.inj (Except.ok.inj hencode)
  obtain ⟨heq, -⟩ := List.append_inj hbytes hlen
  exact heq.symm

/-- **The fixed points of decoding and encoding.** What was decoded is encoded to any destination
    that has room, and the bytes that are written are those that it was decoded from exactly if
    these are a tight frame. -/
theorem reencode_eq_iff_tight {limit : Option Int} {s : Bytes} {d : Decoded}
    (h : decode limit s = .ok d) :
    ∃ f, (∀ destination, f.length ≤ destination.length →
        encode none d.packet destination =
          .ok ⟨d.packet, f.length, f ++ destination.drop f.length⟩) ∧
      (f = s.take d.size ↔ Frame.Tight (s.take d.size)) := by
  obtain ⟨w, hframe, -, hsize, hs⟩ := decode_eq_ok_iff.mp h
  have hw : s.take d.size = w := by
    rw [hs, hsize, List.take_left]
  obtain ⟨f, hf, -⟩ := hframe.fits_emit_succ
  have hiff : f = w ↔ Frame.Tight w := by
    rw [← hframe.emit_eq_done_iff, hf, Emission.done.injEq]
  rw [hw]
  exact ⟨f, fun _ => encode_of_emit hf, hiff⟩

/-- The frame that the message of the loose frame is written in. -/
def tightFrame : Bytes :=
  [51, 27, 0, 3, 97, 47, 98, 0, 7, 17, 35, 0, 5, 11, 1, 11, 172, 2, 1, 1, 38, 0, 1, 107, 0, 1, 118,
    104, 105]

/-- Of two frames of a message, the one that it is written in is tight and the other is not. -/
theorem reencode_eq_iff_tight_looseFrame :
    decode none looseFrame = .ok ⟨looseMessage, 33, []⟩ ∧ ¬Frame.Tight looseFrame ∧
      decode none tightFrame = .ok ⟨looseMessage, 29, []⟩ ∧ Frame.Tight tightFrame := by
  have hloose : decode none looseFrame = .ok ⟨looseMessage, 33, []⟩ := by decide +kernel
  have htight : decode none tightFrame = .ok ⟨looseMessage, 29, []⟩ := by decide +kernel
  have hemit : looseMessage.emit = .done tightFrame := by decide +kernel
  refine ⟨hloose, ?_, htight, ?_⟩
  · obtain ⟨f, hf, hiff⟩ := reencode_eq_iff_tight hloose
    obtain rfl := eq_of_forall_encode hf hemit
    intro h
    have heq : tightFrame = looseFrame := hiff.mpr h
    exact absurd heq (by decide +kernel)
  · obtain ⟨f, hf, hiff⟩ := reencode_eq_iff_tight htight
    exact hiff.mp (eq_of_forall_encode hf hemit)

end Mqtt
