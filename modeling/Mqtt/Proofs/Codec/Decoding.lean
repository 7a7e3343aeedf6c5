import Mqtt.Codec
import Mqtt.Proofs.Packet.Reading

/-!
# Decoding packets

* `FixedHeader.Form` is the format of a fixed header, and `FixedHeader.reads_form` says that the
  reader takes exactly its words.
* `decode_eq_ok_iff`: the decoder takes exactly the frames of the grammar off the front of the
  bytes, if they are not above the limit.
* `decode_eq_ok_iff_frame` says the same of the decoder without a limit, about the first bytes.
-/

namespace Mqtt

/-! ### Fixed headers -/

namespace FixedHeader

variable {type : PacketType} {flags : Nat}

/-- Type and flags in one byte, and a length, which may be padded. -/
inductive Form : Format FixedHeader
  | intro {l : Bytes} {type : PacketType} {flags remaining : Nat} :
      type.Permits flags → VarInt.Form l remaining →
      Form (.ofNat (16 * type.code + flags) :: l) ⟨type, flags, remaining⟩

/-- Four bits are flags that the type may have if they pass the check. -/
theorem permits_iff : type.Permits flags ↔ flags < 16 ∧ checkFlags type flags = .ok () := by
  have hlow : flags.testBit 1 = decide (flags / 2 % 2 = 1) := Nat.testBit_eq_decide_div_mod_eq
  have hhigh : flags.testBit 2 = decide (flags / 4 % 2 = 1) := Nat.testBit_eq_decide_div_mod_eq
  unfold PacketType.Permits checkFlags
  refine and_congr_right fun _ => ?_
  cases type.reservedFlags? with
  | some reserved =>
    dsimp only
    split <;> simp_all
  | none =>
    simp only [hlow, hhigh, decide_eq_true_eq]
    split
    · simp only [reduceCtorEq, iff_false]
      omega
    · simp only [iff_true]
      omega

/-- The first byte is read as type and flags exactly if it is made of them. -/
theorem ofFirstByte_eq_ok_iff {b : UInt8} :
    ofFirstByte b = .ok (type, flags) ↔
      type.Permits flags ∧ b = .ofNat (16 * type.code + flags) := by
  have hcode := type.code_lt
  have hb := b.toNat_lt
  rw [permits_iff]
  -- The type is the upper half of the byte, and the flags are the lower half.
  unfold ofFirstByte
  dsimp only
  constructor
  · intro h
    split at h
    case h_1 => cases h
    case h_2 t ht =>
      obtain ⟨_, hcheck, heq⟩ := Except.bind_eq_ok_iff.mp h
      cases heq
      have ht' := PacketType.code_of_ofCode? ht
      refine ⟨⟨by omega, hcheck⟩, ?_⟩
      apply UInt8.toNat_inj.mp
      rw [UInt8.toNat_ofNat']
      omega
  · rintro ⟨⟨hflags, hcheck⟩, rfl⟩
    have hnat : (UInt8.ofNat (16 * type.code + flags)).toNat = 16 * type.code + flags := by
      rw [UInt8.toNat_ofNat']
      omega
    have hdiv : (16 * type.code + flags) / 16 = type.code := by omega
    have hmod : (16 * type.code + flags) % 16 = flags := by omega
    rw [hnat, hdiv, hmod, PacketType.ofCode?_code]
    dsimp only
    rw [hcheck]
    rfl

/-- The reader takes exactly the words of the format. -/
theorem reads_form : read.Reads Form := by
  intro s h t
  simp only [read, (Integer.reads_form _).bind_eq_ok_iff, Reader.lift_bind_eq_ok_iff,
    VarInt.reads_form.bind_eq_ok_iff, Reader.pure_eq_ok_iff, Integer.form_one_iff]
  constructor
  · rintro ⟨n, _, _, ⟨hn, rfl⟩, rfl, ⟨type, flags⟩, hfirst, r, l, _, hl, rfl, rfl, rfl⟩
    obtain ⟨hpermits, hbyte⟩ := ofFirstByte_eq_ok_iff.mp hfirst
    rw [hbyte]
    exact ⟨_, .intro hpermits hl, rfl⟩
  · rintro ⟨_, h, rfl⟩
    cases h with
    | @intro l type flags r hpermits hl =>
      have hflags := hpermits.1
      have hcode := type.code_lt
      exact ⟨16 * type.code + flags, _, _, ⟨by omega, rfl⟩, rfl, (type, flags),
        ofFirstByte_eq_ok_iff.mpr ⟨hpermits, rfl⟩, r, l, t, hl, rfl, rfl, rfl⟩

end FixedHeader

/-! ### Frames -/

/-- A body holds a packet exactly if it is in the grammar. -/
theorem decodeBody_eq_ok_iff {type : PacketType} {flags : Nat} {body : Bytes} {p : Packet} :
    decodeBody type flags body = .ok p ↔ Packet.Body type flags body p := by
  rw [← Packet.readsAll_body]
  unfold decodeBody
  split <;> simp_all

/-- What the decoder makes of the bytes behind a fixed header. -/
theorem decode_append_of_header {limit : Option Int} {hd t : Bytes} {header : FixedHeader}
    (h : FixedHeader.Form hd header) :
    decode limit (hd ++ t) =
      match exceeded? limit (hd.length + header.remaining) with
      | some l => .error (.packetTooLarge header.type (hd.length + header.remaining) l)
      | none =>
        if t.length < header.remaining then .error .insufficientData
        else
          (decodeBody header.type header.flags (t.take header.remaining)).map fun p =>
            ⟨p, hd.length + header.remaining, t.drop header.remaining⟩ := by
  -- The header is as long as what its reader has taken.
  have hsize : (hd ++ t).length - t.length = hd.length := by
    rw [List.length_append]
    omega
  have hshort : (t.take header.remaining).length < header.remaining ↔
      t.length < header.remaining := by
    rw [List.length_take]
    omega
  unfold decode
  rw [FixedHeader.reads_form.read_append h t]
  dsimp only
  rw [hsize]
  cases exceeded? limit (hd.length + header.remaining) with
  | some l => rfl
  | none =>
    simp only [hshort]
    split
    · rfl
    · cases decodeBody header.type header.flags (t.take header.remaining) <;> rfl

/-- Behind a fixed header, the decoder takes exactly a body of the length that the header says. -/
theorem decode_append_of_header_eq_ok_iff {limit : Option Int} {hd t : Bytes}
    {header : FixedHeader} {d : Decoded} (h : FixedHeader.Form hd header) :
    decode limit (hd ++ t) = .ok d ↔
      exceeded? limit (hd.length + header.remaining) = none ∧
        ∃ body, body.length = header.remaining ∧
          Packet.Body header.type header.flags body d.packet ∧
          d.size = hd.length + header.remaining ∧ t = body ++ d.rest := by
  rw [decode_append_of_header h]
  cases exceeded? limit (hd.length + header.remaining) with
  | some l => simp only [reduceCtorEq, false_and]
  | none =>
    dsimp only
    by_cases hlen : t.length < header.remaining
    · rw [if_pos hlen]
      simp only [reduceCtorEq, false_iff]
      rintro ⟨-, body, hbody, -, -, rfl⟩
      rw [List.length_append] at hlen
      omega
    · rw [if_neg hlen]
      constructor
      · intro hd
        obtain ⟨p, hp, rfl⟩ := Except.map_eq_ok_iff.mp hd
        refine ⟨rfl, t.take header.remaining, ?_, decodeBody_eq_ok_iff.mp hp, rfl,
          (List.take_append_drop _ _).symm⟩
        rw [List.length_take]
        omega
      · rintro ⟨-, body, hbody, hp, hsize, rfl⟩
        obtain ⟨p, size, rest⟩ := d
        rw [List.take_left' hbody, List.drop_left' hbody, decodeBody_eq_ok_iff.mpr hp, ← hsize]
        rfl

/-- **The decoder takes exactly the frames of the grammar** off the front of the bytes, if they are
    not above the limit. -/
theorem decode_eq_ok_iff {limit : Option Int} {s : Bytes} {d : Decoded} :
    decode limit s = .ok d ↔
      ∃ w, Frame w d.packet ∧ exceeded? limit w.length = none ∧ d.size = w.length ∧
        s = w ++ d.rest := by
  constructor
  · intro h
    cases hread : FixedHeader.read s with
    | error e =>
      unfold decode at h
      rw [hread] at h
      cases h
    | ok r =>
      obtain ⟨header, t⟩ := r
      obtain ⟨hd, hform, rfl⟩ := FixedHeader.reads_form.mp hread
      obtain ⟨hlimit, body, hlen, hbody, hsize, rfl⟩ :=
        (decode_append_of_header_eq_ok_iff hform).mp h
      rw [← hlen, ← List.length_append] at hlimit hsize
      refine ⟨hd ++ body, ?_, hlimit, hsize, (List.append_assoc _ _ _).symm⟩
      cases hform with
      | intro hpermits hl => exact .intro hpermits (hlen.symm ▸ hl) hbody
  · rintro ⟨w, hframe, hlimit, hsize, rfl⟩
    cases hframe with
    | @intro l body type flags _ hpermits hl hbody =>
      have hform : FixedHeader.Form (.ofNat (16 * type.code + flags) :: l)
          ⟨type, flags, body.length⟩ := .intro hpermits hl
      rw [← List.cons_append, List.length_append] at hlimit hsize
      rw [← List.cons_append, List.append_assoc]
      exact (decode_append_of_header_eq_ok_iff hform).mpr ⟨hlimit, body, rfl, hbody, hsize, rfl⟩

/-- **The decoder accepts exactly the packet grammar.** Without a limit it gives a packet of some
    size exactly if that many of the first bytes are a frame of that packet. -/
theorem decode_eq_ok_iff_frame {s : Bytes} {p : Packet} {n : Nat} :
    (∃ rest, decode none s = .ok ⟨p, n, rest⟩) ↔ n ≤ s.length ∧ Frame (s.take n) p := by
  simp only [decode_eq_ok_iff]
  constructor
  · rintro ⟨rest, w, hw, -, rfl, rfl⟩
    rw [List.take_left, List.length_append]
    exact ⟨Nat.le_add_right _ _, hw⟩
  · rintro ⟨hn, hw⟩
    refine ⟨s.drop n, s.take n, hw, rfl, ?_, (List.take_append_drop n s).symm⟩
    rw [List.length_take, Nat.min_eq_left hn]

end Mqtt
