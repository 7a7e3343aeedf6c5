import Mqtt.Proofs.Packet.Writing
import Mqtt.Proofs.Property.Tight

/-!
# Bodies that are written as they were read

* `Packet.HasBlock` says of bytes which property blocks they hold as the body of a packet.
* `Packet.TightBody` are the bodies without slack: each of their property blocks is tight, none is
  left out that would be written, and nothing stands at the end that would be left out.
* `Packet.Body.emitBody_eq_done_iff`: what a body stands for is written as just that body exactly if
  it is tight. It is put together from one `emitBody_eq_done_iff` for each layout. Apart from the
  property blocks, each field has but one word, so all the slack is in these.
-/

namespace Mqtt

/-! ### Where the property blocks stand -/

namespace PacketType

/-- How many bytes stand in front of the property block, if that is a fixed number. -/
def blockOffset? : PacketType → Option Nat
  | .connect => some 10
  | .puback | .pubrec | .pubrel | .pubcomp => some 3
  | .connack | .subscribe | .suback | .unsubscribe | .unsuback => some 2
  | .disconnect | .auth => some 1
  | .publish | .pingreq | .pingresp => none

/-- Whether a packet may be read without a property block, but is written with one. -/
def keepsBlock (t : PacketType) : Bool := t == .connack || t == .auth

/-- Whether a packet is written without an empty property block, and then without a reason code of
    0 in front of it. -/
def shortens : PacketType → Bool
  | .puback | .pubrec | .pubrel | .pubcomp | .disconnect => true
  | _ => false

end PacketType

namespace Packet

/-- The property blocks in a body. The block of a PUBLISH stands behind the topic and, if the QoS
    bits are not 0, a packet identifier. The block of a will stands behind the client identifier of
    a CONNECT, if bit 2 of the byte with the CONNECT flags announces it. -/
inductive HasBlock : PacketType → (flags : Nat) → Bytes → Carrier → Bytes → Prop
  | behind {type : PacketType} {flags : Nat} {front w back : Bytes} {p : Properties} :
      type.blockOffset? = some front.length → (Carrier.packet type).Block w p →
      HasBlock type flags (front ++ w ++ back) (.packet type) w
  | publish {flags : Nat} {tp i w back : Bytes} {topic : Text} {p : Properties} :
      Text.Form tp topic → i.length = (if flags / 2 % 4 = 0 then 0 else 2) →
      (Carrier.packet .publish).Block w p →
      HasBlock .publish flags (tp ++ i ++ w ++ back) (.packet .publish) w
  | will {flags : Nat} {nv fs ka ps ci w back : Bytes} {connectFlags : Nat} {clientId : Text}
      {p q : Properties} :
      nv.length = 7 → Integer.Form 1 fs connectFlags → connectFlags.testBit 2 = true →
      ka.length = 2 → (Carrier.packet .connect).Block ps p → Text.Form ci clientId →
      Carrier.will.Block w q →
      HasBlock .connect flags (nv ++ fs ++ ka ++ ps ++ (ci ++ w ++ back)) .will w

/-- A body without slack. -/
structure TightBody (type : PacketType) (flags : Nat) (body : Bytes) : Prop where
  /-- Each property block is without slack. -/
  tight : ∀ c w, HasBlock type flags body c w → c.TightBlock w
  /-- A block that would be written is there. -/
  kept : type.keepsBlock = true → ∃ c w, HasBlock type flags body c w
  /-- No empty block stands where none would be written. -/
  notEmpty : type.shortens = true → ∀ c w, HasBlock type flags body c w → ¬c.Block w {}
  /-- No reason code of 0 stands at the end where none would be written. -/
  notBare : type.shortens = true →
    ∀ front, type.blockOffset? = some (front.length + 1) → body ≠ front ++ [0]

end Packet

/-! ### The blocks of a body -/

/-- A property block has at least the byte of its length. -/
theorem Carrier.Block.length_pos {c : Carrier} {w : Bytes} {p : Properties} (h : c.Block w p) :
    0 < w.length :=
  List.length_pos_of_ne_nil ((Properties.reads_block c).ne_nil (Properties.consumes_read c) h)

namespace Packet

variable {type : PacketType} {flags : Nat} {front w back body : Bytes} {c : Carrier}
  {p q : Properties}

/-- A body with a block has more bytes than stand in front of the first one. -/
theorem HasBlock.lt_length (h : HasBlock type flags body c w) {n : Nat}
    (hn : type.blockOffset? = some n) : n < body.length := by
  cases h with
  | @behind _ _ front' _ _ _ hfront hw =>
    have hpos := hw.length_pos
    have hlen : front'.length = n := Option.some.inj (hfront.symm.trans hn)
    simp only [List.length_append]
    omega
  | publish _ _ _ => cases hn
  | will hnv hfs _ hka hps _ _ =>
    have hpos := hps.length_pos
    have hone := hfs.length_eq
    have hten : 10 = n := Option.some.inj hn
    simp only [List.length_append]
    omega

/-- The block of the packet stands where its offset says, so there is but one. -/
theorem HasBlock.of_behind (hfront : type.blockOffset? = some front.length)
    (hw : (Carrier.packet type).Block w p) {v : Bytes}
    (h : HasBlock type flags (front ++ w ++ back) c v) :
    (c = .packet type ∧ v = w) ∨ (c = .will ∧ type = .connect) := by
  generalize hbody : front ++ w ++ back = body at h
  cases h with
  | @behind _ _ front' _ back' _ hfront' hv =>
    have hlen : front.length = front'.length := Option.some.inj (hfront.symm.trans hfront')
    rw [List.append_assoc, List.append_assoc] at hbody
    obtain ⟨-, hrest⟩ := List.append_inj hbody hlen
    obtain ⟨hwv, -, -⟩ := (Properties.reads_block _).unique hw hv hrest
    exact .inl ⟨rfl, hwv.symm⟩
  | publish _ _ _ => cases hfront
  | will _ _ _ _ _ _ _ => exact .inr ⟨rfl, rfl⟩

/-- A packet other than a CONNECT has only the block that stands at its offset. -/
theorem hasBlock_behind_iff (hfront : type.blockOffset? = some front.length)
    (hw : (Carrier.packet type).Block w p) (hconnect : type ≠ .connect) (v : Bytes) :
    HasBlock type flags (front ++ w ++ back) c v ↔ c = .packet type ∧ v = w := by
  constructor
  · intro h
    rcases h.of_behind hfront hw with hpacket | ⟨-, htype⟩
    · exact hpacket
    · exact absurd htype hconnect
  · rintro ⟨rfl, rfl⟩
    exact .behind hfront hw

/-- If there is but one block in a body, then the body is tight exactly if this block is, and is
    not an empty one that would be left out. -/
theorem tightBody_iff_of_only (honly : ∀ c' v, HasBlock type flags body c' v ↔ c' = c ∧ v = w) :
    TightBody type flags body ↔
      c.TightBlock w ∧ (type.shortens = true → ¬c.Block w {}) := by
  have hblock : HasBlock type flags body c w := (honly c w).mpr ⟨rfl, rfl⟩
  constructor
  · intro h
    exact ⟨h.tight c w hblock, fun hshort => h.notEmpty hshort c w hblock⟩
  · rintro ⟨htight, hempty⟩
    refine ⟨fun c' v hv => ?_, fun _ => ⟨c, w, hblock⟩, fun hshort c' v hv => ?_,
      fun _ front hfront => ?_⟩
    · obtain ⟨rfl, rfl⟩ := (honly c' v).mp hv
      exact htight
    · obtain ⟨rfl, rfl⟩ := (honly c' v).mp hv
      exact hempty hshort
    · -- Behind the front there is more than one byte.
      rintro rfl
      have hlt := hblock.lt_length hfront
      simp at hlt

/-- A body that ends in front of its block has none, so it is tight exactly if it is not one that
    would be written with a block, or in fewer bytes. -/
theorem tightBody_iff_of_length_le {n : Nat} (hn : type.blockOffset? = some n)
    (hlen : body.length ≤ n) :
    TightBody type flags body ↔
      type.keepsBlock = false ∧
        (type.shortens = true → ∀ front, n = front.length + 1 → body ≠ front ++ [0]) := by
  have hnone : ∀ c w, ¬HasBlock type flags body c w := fun c w h =>
    absurd (h.lt_length hn) (Nat.not_lt.mpr hlen)
  constructor
  · intro h
    refine ⟨?_, fun hshort front hfront => h.notBare hshort front (hfront ▸ hn)⟩
    rw [Bool.eq_false_iff]
    intro hkeeps
    obtain ⟨c, w, hblock⟩ := h.kept hkeeps
    exact hnone c w hblock
  · rintro ⟨hkeeps, hbare⟩
    refine ⟨fun c w h => absurd h (hnone c w), fun h => ?_, fun _ c w h => absurd h (hnone c w),
      fun hshort front hfront => hbare hshort front ?_⟩
    · rw [hkeeps] at h
      cases h
    · exact Option.some.inj (hn.symm.trans hfront)

/-- The one block that stands at its offset is written as it was read exactly if the body is
    tight. -/
theorem surrounded_eq_done_iff_tightBody (hfront : type.blockOffset? = some front.length)
    (hw : (Carrier.packet type).Block w p) (hconnect : type ≠ .connect)
    (hshort : type.shortens = false) :
    .done front ++ p.emit (.packet type) ++ .done back = .done (front ++ w ++ back) ↔
      TightBody type flags (front ++ w ++ back) := by
  have hnot : type.shortens = true → ¬(Carrier.packet type).Block w {} := fun h => by
    rw [hshort] at h
    cases h
  rw [Emission.surrounded_eq_done_iff, hw.emit_eq_done_iff,
    tightBody_iff_of_only fun c v => hasBlock_behind_iff hfront hw hconnect v, and_iff_left hnot]

/-- The same of a block at the end. -/
theorem append_emit_eq_done_iff_tightBody (hfront : type.blockOffset? = some front.length)
    (hw : (Carrier.packet type).Block w p) (hconnect : type ≠ .connect)
    (hshort : type.shortens = false) :
    .done front ++ p.emit (.packet type) = .done (front ++ w) ↔
      TightBody type flags (front ++ w) := by
  have hblock : .done front ++ p.emit (.packet type) ++ .done [] = .done (front ++ w ++ []) ↔
      TightBody type flags (front ++ w ++ []) :=
    surrounded_eq_done_iff_tightBody hfront hw hconnect hshort
  rwa [Emission.append_nil, List.append_nil] at hblock

/-- If a packet keeps its block, then a body without one is not tight, and is not what is written
    with one either. -/
theorem append_emit_eq_done_iff_of_keepsBlock (hfront : type.blockOffset? = some front.length)
    (hkeeps : type.keepsBlock = true) :
    .done front ++ p.emit (.packet type) = .done front ↔ TightBody type flags front := by
  rw [tightBody_iff_of_length_le hfront (Nat.le_refl _)]
  refine iff_of_false (fun h => ?_) fun h => ?_
  · obtain ⟨u, w, hu, hw, heq⟩ := Emission.append_eq_done.mp h
    obtain rfl := Emission.done.inj hu
    have hpos := (Properties.block_of_emit hw).length_pos
    rw [List.self_eq_append_right.mp heq] at hpos
    exact absurd hpos (Nat.lt_irrefl 0)
  · rw [hkeeps] at h
    cases h.1

end Packet

/-! ### Shared fields -/

/-- A reason code is written in the byte that it was read from. -/
theorem Carrier.Reason.emit_eq_done {c : Carrier} {w : Bytes} {r : ReasonCode} (h : c.Reason w r) :
    r.emit = .done w :=
  (Carrier.reason_iff.mp h).1

/-- A packet identifier is written in the bytes that it was read from. -/
theorem PacketId.emit_eq_done {w : Bytes} {n : Nat} (h : PacketId w n) :
    Integer.emit 2 n = .done w :=
  Integer.emit_natCast_eq_done_iff.mpr h.2

namespace Carrier

variable {c : Carrier} {rs ps : Bytes} {r : ReasonCode} {p : Properties}

/-- Without properties, a reason code is written in its byte exactly if that is not 0. -/
theorem Reason.emitOutcome_eq_done_iff (hr : c.Reason rs r) :
    c.emitOutcome r {} = .done rs ↔ rs ≠ [0] := by
  have hnone : ({} : Properties).isEmpty = true := rfl
  obtain ⟨hcode, hrs⟩ := Integer.form_one_iff.mp hr.1
  rw [emitOutcome, if_pos hnone, hr.emit_eq_done]
  by_cases hsuccess : r = .success
  · -- The reason code is left out as well.
    have hzero : rs = [0] := by
      rw [hrs, hsuccess]
      rfl
    rw [if_pos hsuccess, hzero]
    exact iff_of_false nofun fun h => h rfl
  · rw [if_neg hsuccess]
    refine iff_of_true rfl fun hzero => hsuccess ?_
    have hbyte : UInt8.ofNat r.code = 0 := List.singleton_inj.mp (hrs.symm.trans hzero)
    have hnat := congrArg UInt8.toNat hbyte
    rw [UInt8.toNat_ofNat', UInt8.toNat_zero] at hnat
    rw [← ReasonCode.code_eq_zero_iff]
    omega

/-- A reason code and a block are written as they were read exactly if the block is tight, and is
    not an empty one. -/
theorem Block.emitOutcome_eq_done_iff (hr : c.Reason rs r) (hps : c.Block ps p) :
    c.emitOutcome r p = .done (rs ++ ps) ↔ c.TightBlock ps ∧ ¬c.Block ps {} := by
  rw [emitOutcome, hr.emit_eq_done]
  by_cases hempty : p.isEmpty = true
  · -- An empty block is left out, so less is written.
    obtain rfl := Properties.isEmpty_iff.mp hempty
    have hpos := hps.length_pos
    rw [if_pos hempty]
    refine iff_of_false (fun hwritten => ?_) fun h => h.2 hps
    split at hwritten
    all_goals
      have hlen := congrArg List.length (Emission.done.inj hwritten)
      simp only [List.length_nil, List.length_append] at hlen
      omega
  · have hnot : ¬c.Block ps {} := by
      intro hnone
      have heq : ps ++ [] = ps ++ [] := rfl
      obtain ⟨-, rfl, -⟩ := (Properties.reads_block c).unique hps hnone heq
      exact hempty rfl
    rw [if_neg hempty, Emission.behind_eq_done_iff, hps.emit_eq_done_iff, and_iff_left hnot]

end Carrier

namespace Packet

variable {type : PacketType} {flags : Nat} {front o : Bytes} {r : ReasonCode} {p : Properties}

/-- A reason code and properties behind other fields are written as they were read exactly if the
    body is tight. -/
theorem emitOutcome_eq_done_iff_tightBody (hfront : type.blockOffset? = some (front.length + 1))
    (hshort : type.shortens = true) (ho : (Carrier.packet type).Outcome o (r, p)) :
    (Carrier.packet type).emitOutcome r p = .done o ↔ TightBody type flags (front ++ o) := by
  have hconnect : type ≠ .connect := by
    rintro rfl
    cases hshort
  have hkeeps : type.keepsBlock = false := by
    cases type <;> first | rfl | cases hshort
  cases ho with
  | nothing =>
    -- Nothing is what is written for `success` without properties.
    have hlen : (front ++ []).length ≤ front.length + 1 := by simp
    rw [tightBody_iff_of_length_le hfront hlen]
    refine iff_of_true rfl ⟨hkeeps, fun _ front' hfront' heq => ?_⟩
    have hlen' := congrArg List.length heq
    rw [List.append_nil, List.length_append, List.length_singleton] at hlen'
    omega
  | reason hr =>
    have hlen : (front ++ o).length ≤ front.length + 1 := by
      rw [List.length_append, hr.1.length_eq]
    rw [tightBody_iff_of_length_le hfront hlen, hr.emitOutcome_eq_done_iff]
    constructor
    · intro hne
      refine ⟨hkeeps, fun _ front' hfront' heq => ?_⟩
      obtain ⟨-, hzero⟩ := List.append_inj heq (Nat.succ.inj hfront')
      exact hne hzero
    · rintro ⟨-, hbare⟩ rfl
      exact hbare hshort front rfl rfl
  | @full rs ps _ _ hr hps =>
    have hlen : type.blockOffset? = some (front ++ rs).length := by
      rw [List.length_append, hr.1.length_eq, hfront]
    have honly : ∀ c v, HasBlock type flags (front ++ rs ++ ps ++ []) c v ↔
        c = .packet type ∧ v = ps :=
      fun _ v => hasBlock_behind_iff hlen hps hconnect v
    rw [List.append_nil, List.append_assoc] at honly
    rw [tightBody_iff_of_only honly, Carrier.Block.emitOutcome_eq_done_iff hr hps]
    exact and_congr_right fun _ => ⟨fun h _ => h, fun h => h hshort⟩

end Packet

/-! ### CONNACK and AUTH -/

/-- The flags of an answer are written in the byte that they were read from. -/
theorem ConnAck.emit_sessionPresent {fs : Bytes} {n : Nat} (hfs : Integer.Form 1 fs n)
    (hn : n < 2) : Integer.emit 1 ((n.testBit 0).toNat : Int) = .done fs := by
  have hbit : (n.testBit 0).toNat = n := by
    rw [Nat.toNat_testBit]
    omega
  rw [hbit]
  exact Integer.emit_natCast_eq_done_iff.mpr hfs

/-- An answer is written as it was read exactly if its body is tight. -/
theorem ConnAck.Form.emitBody_eq_done_iff {w : Bytes} {p : ConnAck} {flags : Nat} (h : Form w p) :
    p.emitBody = .done w ↔ Packet.TightBody .connack flags w := by
  unfold emitBody
  cases h with
  | @full fs rc ps n r q hfs hn hr hps =>
    have hoffset : PacketType.connack.blockOffset? = some (fs ++ rc).length := by
      rw [List.length_append, hfs.length_eq, hr.1.length_eq]
      rfl
    dsimp only
    rw [emit_sessionPresent hfs hn, hr.emit_eq_done, Emission.done_append_done]
    exact Packet.append_emit_eq_done_iff_tightBody hoffset hps (by decide) rfl
  | @short fs rc n hfs hn hr =>
    have hoffset : PacketType.connack.blockOffset? = some (fs ++ rc).length := by
      rw [List.length_append, hfs.length_eq, hr.1.length_eq]
      rfl
    dsimp only
    rw [emit_sessionPresent hfs hn, hr.emit_eq_done, Emission.done_append_done]
    exact Packet.append_emit_eq_done_iff_of_keepsBlock hoffset rfl

/-- A step is written as it was read exactly if its body is tight. -/
theorem Auth.Form.emitBody_eq_done_iff {w : Bytes} {p : Auth} {flags : Nat} (h : Form w p) :
    p.emitBody = .done w ↔ Packet.TightBody .auth flags w := by
  have hoffset : ∀ {r : Bytes} {n : Nat}, Integer.Form 1 r n →
      PacketType.auth.blockOffset? = some r.length := fun hr => by rw [hr.length_eq]; rfl
  unfold emitBody
  cases h with
  | @full r ps reasonCode q hr hps =>
    dsimp only
    rw [hr.emit_eq_done]
    exact Packet.append_emit_eq_done_iff_tightBody (hoffset hr.1) hps (by decide) rfl
  | @short r reasonCode hr =>
    dsimp only
    rw [hr.emit_eq_done]
    exact Packet.append_emit_eq_done_iff_of_keepsBlock (hoffset hr.1) rfl

/-! ### PUBLISH -/

namespace Publish

variable {w : Bytes} {p : Publish} {flags : Nat}

/-- The flags that are written are those that were read. -/
theorem Form.flags_eq (h : Form flags w p) (hlt : flags < 16) : p.flags = flags := by
  cases h with
  | intro hqos _ _ _ _ _ _ _ =>
    simp only [Publish.flags, ← hqos, Nat.toNat_testBit]
    omega

/-- A packet identifier takes two bytes, and is there unless the QoS is 0. -/
theorem length_optional_packetId {i : Bytes} {qos : QoS} {n : Option Nat}
    (h : Format.Optional PacketId (qos != .atMostOnce) i n) :
    i.length = if qos.code = 0 then 0 else 2 := by
  generalize hpresent : (qos != .atMostOnce) = present at h
  cases h with
  | absent =>
    obtain rfl := bne_eq_false_iff_eq.mp hpresent
    rfl
  | present hid =>
    rw [hid.2.length_eq]
    cases qos <;> first | rfl | cases hpresent

/-- There is no other block in a message than the one behind topic and packet identifier. -/
theorem hasBlock_iff {tp i ps : Bytes} {topic : Text} {q : Properties}
    (htopic : Text.Form tp topic) (hi : i.length = if flags / 2 % 4 = 0 then 0 else 2)
    (hps : (Carrier.packet .publish).Block ps q) (payload : Bytes) (c : Carrier) (v : Bytes) :
    Packet.HasBlock .publish flags (tp ++ i ++ ps ++ payload) c v ↔
      c = .packet .publish ∧ v = ps := by
  constructor
  · intro h
    generalize hbody : tp ++ i ++ ps ++ payload = body at h
    cases h with
    | behind hoffset _ => cases hoffset
    | publish htopic' hi' hv =>
      -- The topic ends where its length says, and the identifier has the length that the QoS says.
      simp only [List.append_assoc] at hbody
      obtain ⟨-, -, hrest⟩ := Text.reads_form.unique htopic htopic' hbody
      obtain ⟨-, hrest⟩ := List.append_inj hrest (hi.trans hi'.symm)
      obtain ⟨heq, -, -⟩ := (Properties.reads_block _).unique hps hv hrest
      exact ⟨rfl, heq.symm⟩
  · rintro ⟨rfl, rfl⟩
    exact .publish htopic hi hps

/-- A message is written as it was read exactly if its body is tight. -/
theorem Form.emitBody_eq_done_iff (h : Form flags w p) :
    p.emitBody = .done w ↔ Packet.TightBody .publish flags w := by
  unfold emitBody
  cases h with
  | @intro tp i ps payload topic qos packetId q hqos htopic _ _ _ _ hid hps =>
    have hi : Emission.option (Integer.emit 2) (packetId.map Int.ofNat) = .done i := by
      rw [Emission.option_map]
      exact Emission.option_of_optional (fun _ _ => PacketId.emit_eq_done) hid
    have hlen : i.length = if flags / 2 % 4 = 0 then 0 else 2 := by
      rw [length_optional_packetId hid, hqos]
    have honly := hasBlock_iff htopic hlen hps
    dsimp only
    rw [Text.emit_eq_done_iff.mpr htopic, hi, Emission.done_append_done,
      Emission.surrounded_eq_done_iff, hps.emit_eq_done_iff,
      Packet.tightBody_iff_of_only (honly payload), and_iff_left]
    rintro ⟨⟩

end Publish

/-! ### Responses to a PUBLISH, and DISCONNECT -/

/-- A response is written as it was read exactly if its body is tight. -/
theorem PublishResponse.Form.emitBody_eq_done_iff {type : PacketType} {w : Bytes}
    {p : PublishResponse} {flags : Nat} (hoffset : type.blockOffset? = some 3)
    (hshort : type.shortens = true) (h : Form (.packet type) w p) :
    p.emitBody (.packet type) = .done w ↔ Packet.TightBody type flags w := by
  unfold emitBody
  cases h with
  | @intro i o packetId r q hid ho =>
    have hfront : type.blockOffset? = some (i.length + 1) := by
      rw [hoffset, hid.2.length_eq]
    dsimp only
    rw [hid.emit_eq_done, Emission.behind_eq_done_iff]
    exact Packet.emitOutcome_eq_done_iff_tightBody hfront hshort ho

/-- A notice is written as it was read exactly if its body is tight. -/
theorem Disconnect.Form.emitBody_eq_done_iff {w : Bytes} {p : Disconnect} {flags : Nat}
    (h : Form w p) : p.emitBody = .done w ↔ Packet.TightBody .disconnect flags w := by
  cases h with
  | @intro o r q ho =>
    have hfront : PacketType.disconnect.blockOffset? = some (([] : Bytes).length + 1) := rfl
    exact Packet.emitOutcome_eq_done_iff_tightBody hfront rfl ho

/-! ### SUBSCRIBE, SUBACK and UNSUBACK, UNSUBSCRIBE -/

/-- A subscription is written in the bytes that it was read from. -/
theorem Subscription.Form.emit_eq_done {w : Bytes} {s : Subscription} (h : Form w s) :
    s.emit = .done w := by
  unfold emit
  cases h with
  | @intro tf os pattern options maxQos retainHandling htf _ hos hlt hqos hretain =>
    -- All bits of the options are in the subscription.
    have hoptions : maxQos.code + 4 * (options.testBit 2).toNat + 8 * (options.testBit 3).toNat
        + 16 * retainHandling.code = options := by
      rw [← hqos, ← hretain, Nat.toNat_testBit, Nat.toNat_testBit]
      omega
    dsimp only [Subscription.options]
    rw [hoptions, Text.emit_eq_done_iff.mpr htf, Integer.emit_natCast_eq_done_iff.mpr hos,
      Emission.done_append_done]

/-- A request is written as it was read exactly if its body is tight. -/
theorem Subscribe.Form.emitBody_eq_done_iff {w : Bytes} {p : Subscribe} {flags : Nat}
    (h : Form w p) : p.emitBody = .done w ↔ Packet.TightBody .subscribe flags w := by
  unfold emitBody
  cases h with
  | @intro i ps ss packetId q subscriptions hid hps hss hne =>
    have hoffset : PacketType.subscribe.blockOffset? = some i.length := by
      rw [hid.2.length_eq]
      rfl
    have hlist : Emission.concat Subscription.emit subscriptions = .done ss :=
      Emission.concat_of_words (fun _ _ => Subscription.Form.emit_eq_done) hss
    dsimp only
    rw [hid.emit_eq_done, hlist]
    exact Packet.surrounded_eq_done_iff_tightBody hoffset hps (by decide) rfl

/-- An answer is written as it was read exactly if its body is tight. -/
theorem SubscriptionAck.Form.emitBody_eq_done_iff {type : PacketType} {w : Bytes}
    {p : SubscriptionAck} {flags : Nat} (hoffset : type.blockOffset? = some 2)
    (hconnect : type ≠ .connect) (hshort : type.shortens = false) (h : Form (.packet type) w p) :
    p.emitBody (.packet type) = .done w ↔ Packet.TightBody type flags w := by
  unfold emitBody
  cases h with
  | @intro i ps rs packetId q reasonCodes hid hps hrs =>
    have hfront : type.blockOffset? = some i.length := by
      rw [hid.2.length_eq, hoffset]
    have hlist : Emission.concat ReasonCode.emit reasonCodes = .done rs :=
      Emission.concat_of_words (fun _ _ => Carrier.Reason.emit_eq_done) hrs
    dsimp only
    rw [hid.emit_eq_done, hlist]
    exact Packet.surrounded_eq_done_iff_tightBody hfront hps hconnect hshort

/-- A request is written as it was read exactly if its body is tight. -/
theorem Unsubscribe.Form.emitBody_eq_done_iff {w : Bytes} {p : Unsubscribe} {flags : Nat}
    (h : Form w p) : p.emitBody = .done w ↔ Packet.TightBody .unsubscribe flags w := by
  unfold emitBody
  cases h with
  | @intro i ps ts packetId q patterns hid hps hts hne =>
    have hoffset : PacketType.unsubscribe.blockOffset? = some i.length := by
      rw [hid.2.length_eq]
      rfl
    have hlist : Emission.concat Text.emit patterns = .done ts :=
      Emission.concat_of_words (fun _ _ => Text.emit_eq_done_iff.mpr) hts
    dsimp only
    rw [hid.emit_eq_done, hlist]
    exact Packet.surrounded_eq_done_iff_tightBody hoffset hps (by decide) rfl

/-! ### CONNECT -/

namespace Emission

variable {u v x ps ws : Bytes} {c c' : Carrier} {p q : Properties}

/-- Two blocks among other fields are written as they were read exactly if each of them is. -/
theorem two_blocks_eq_done_iff (hps : c.Block ps p) :
    done u ++ p.emit c ++ (done v ++ q.emit c' ++ done x) = done (u ++ ps ++ (v ++ ws ++ x)) ↔
      p.emit c = done ps ∧ q.emit c' = done ws := by
  constructor
  · intro h
    obtain ⟨m, n, hm, hn, heq⟩ := append_eq_done.mp h
    obtain ⟨u', ps', hu, hps', rfl⟩ := append_eq_done.mp hm
    obtain rfl := done.inj hu
    -- The first block ends where its length says, so the second one starts at the same place.
    rw [List.append_assoc u ps, List.append_assoc u ps', List.append_cancel_left_eq] at heq
    obtain ⟨rfl, -, rfl⟩ :=
      (Properties.reads_block c).unique hps (Properties.block_of_emit hps') heq
    exact ⟨hps', surrounded_eq_done_iff.mp hn⟩
  · rintro ⟨hp, hq⟩
    rw [hp, hq]
    rfl

end Emission

namespace Connect

variable {w : Bytes} {p : Connect} {flags : Nat}

/-- The flags that are written are those that were read. -/
theorem flags_eq_of_bits {n : Nat} {will : Option Will} {un pw wl : Bytes} {username : Option Text}
    {password : Option Bytes} (hlt : n < 256) (hreserved : n.testBit 0 = false)
    (hnowill : n.testBit 2 = false → n / 8 % 4 = 0 ∧ n.testBit 5 = false)
    (hwl : Format.Optional (Will.Form n) (n.testBit 2) wl will)
    (hun : Format.Optional Text.Form (n.testBit 7) un username)
    (hpw : Format.Optional Binary.Form (n.testBit 6) pw password) :
    2 * (n.testBit 1).toNat + (will.map Will.flags).getD 0 + 64 * password.isSome.toNat
      + 128 * username.isSome.toNat = n := by
  have hwill : (will.map Will.flags).getD 0 =
      4 * (n.testBit 2).toNat + 8 * (n / 8 % 4) + 32 * (n.testBit 5).toNat := by
    generalize hpresent : n.testBit 2 = present at hwl
    cases hwl with
    | absent =>
      obtain ⟨hqos, hretain⟩ := hnowill hpresent
      rw [hqos, hretain]
      rfl
    | present hw =>
      cases hw with
      | intro _ _ _ hqos =>
        rw [hqos]
        rfl
  have hzero := Nat.toNat_testBit n 0
  rw [hreserved] at hzero
  rw [hwill, hun.isSome_eq, hpw.isSome_eq]
  simp only [Nat.toNat_testBit]
  simp at hzero
  omega

variable {nv fs ka ps ci ws back : Bytes} {n : Nat} {clientId : Text} {c : Carrier}
  {q r : Properties}

/-- A block of a will is announced by the flags, and stands behind the client identifier. -/
theorem of_hasBlock_will {rest v : Bytes} (hnv : nv.length = 7) (hfs : Integer.Form 1 fs n)
    (hka : ka.length = 2) (hps : (Carrier.packet .connect).Block ps q)
    (h : Packet.HasBlock .connect flags (nv ++ fs ++ ka ++ ps ++ rest) .will v) :
    n.testBit 2 = true ∧
      ∃ ci back clientId r, Text.Form ci clientId ∧ Carrier.will.Block v r ∧
        rest = ci ++ v ++ back := by
  generalize hbody : nv ++ fs ++ ka ++ ps ++ rest = body at h
  cases h with
  | @will _ nv' fs' ka' ps' ci _ back n' clientId q' r hnv' hfs' hbit hka' hps' hci hv =>
    simp only [List.append_assoc] at hbody
    obtain ⟨-, hbody⟩ := List.append_inj hbody (hnv.trans hnv'.symm)
    obtain ⟨-, rfl, hbody⟩ := (Integer.reads_form 1).unique hfs hfs' hbody
    obtain ⟨-, hbody⟩ := List.append_inj hbody (hka.trans hka'.symm)
    obtain ⟨-, -, hrest⟩ := (Properties.reads_block _).unique hps hps' hbody
    refine ⟨hbit, ci, back, clientId, r, hci, hv, ?_⟩
    rw [hrest, List.append_assoc]

/-- A request may neither leave out its block nor shorten it, so it is tight exactly if all of its
    blocks are. -/
theorem tightBody_iff {body : Bytes} :
    Packet.TightBody .connect flags body ↔
      ∀ c v, Packet.HasBlock .connect flags body c v → c.TightBlock v :=
  ⟨fun h => h.tight, fun h => ⟨h, nofun, nofun, nofun⟩⟩

/-- The fields in front of the block of a request have a fixed size. -/
theorem blockOffset?_connect (hnv : nv.length = 7) (hfs : Integer.Form 1 fs n)
    (hka : ka.length = 2) : PacketType.connect.blockOffset? = some (nv ++ fs ++ ka).length := by
  rw [List.length_append, List.length_append, hnv, hfs.length_eq, hka]
  rfl

/-- Without a will, the only block of a request is its own. -/
theorem tightBody_iff_of_no_will {rest : Bytes} (hnv : nv.length = 7) (hfs : Integer.Form 1 fs n)
    (hbit : n.testBit 2 = false) (hka : ka.length = 2)
    (hps : (Carrier.packet .connect).Block ps q) :
    Packet.TightBody .connect flags (nv ++ fs ++ ka ++ ps ++ rest) ↔
      (Carrier.packet .connect).TightBlock ps := by
  have hfront := blockOffset?_connect hnv hfs hka
  rw [tightBody_iff]
  constructor
  · intro h
    exact h _ ps (.behind hfront hps)
  · intro htight c v hblock
    rcases hblock.of_behind hfront hps with ⟨rfl, rfl⟩ | ⟨rfl, -⟩
    · exact htight
    · obtain ⟨hset, -⟩ := of_hasBlock_will hnv hfs hka hps hblock
      rw [hbit] at hset
      cases hset

/-- With a will, the blocks of a request are its own and that of the will. -/
theorem tightBody_iff_of_will (hnv : nv.length = 7) (hfs : Integer.Form 1 fs n)
    (hbit : n.testBit 2 = true) (hka : ka.length = 2)
    (hps : (Carrier.packet .connect).Block ps q) (hci : Text.Form ci clientId)
    (hws : Carrier.will.Block ws r) :
    Packet.TightBody .connect flags (nv ++ fs ++ ka ++ ps ++ (ci ++ ws ++ back)) ↔
      (Carrier.packet .connect).TightBlock ps ∧ Carrier.will.TightBlock ws := by
  have hfront := blockOffset?_connect hnv hfs hka
  rw [tightBody_iff]
  constructor
  · intro h
    exact ⟨h _ ps (.behind hfront hps), h _ ws (.will hnv hfs hbit hka hps hci hws)⟩
  · rintro ⟨htight, hwill⟩ c v hblock
    rcases hblock.of_behind hfront hps with ⟨rfl, rfl⟩ | ⟨rfl, -⟩
    · exact htight
    · obtain ⟨-, ci', back', clientId', r', hci', hv, hrest⟩ :=
        of_hasBlock_will hnv hfs hka hps hblock
      rw [List.append_assoc, List.append_assoc] at hrest
      obtain ⟨-, -, hrest⟩ := Text.reads_form.unique hci hci' hrest
      obtain ⟨rfl, -, -⟩ := (Properties.reads_block _).unique hws hv hrest
      exact hwill

/-- A request is written as it was read exactly if its body is tight. -/
theorem Form.emitBody_eq_done_iff (h : Form w p) :
    p.emitBody = .done w ↔ Packet.TightBody .connect flags w := by
  cases h with
  | @intro nm vs fs ka ps ci wl un pw n keepAlive q clientId will username password hnm hvs hfs
      hreserved hnowill hka hps hci hwl hun hpw =>
    have hnv : (nm ++ vs).length = 7 := by
      rw [List.length_append, hvs.length_eq, hnm.2.2.2, List.length_append, Bytes.length_bigEndian]
      rfl
    have hflags := flags_eq_of_bits (Integer.form_one_iff.mp hfs).1 hreserved hnowill hwl hun hpw
    have hname : protocolName.emit = .done nm := Text.emit_eq_done_iff.mpr hnm
    have hversion : Integer.emit 1 (protocolVersion : Int) = .done vs :=
      Integer.emit_natCast_eq_done_iff.mpr hvs
    have hfs' : Integer.emit 1 (n : Int) = .done fs := Integer.emit_natCast_eq_done_iff.mpr hfs
    have hka' : Integer.emit 2 (keepAlive : Int) = .done ka :=
      Integer.emit_natCast_eq_done_iff.mpr hka
    have hci' : clientId.emit = .done ci := Text.emit_eq_done_iff.mpr hci
    have hun' : Emission.option Text.emit username = .done un :=
      Emission.option_of_optional (fun _ _ => Text.emit_eq_done_iff.mpr) hun
    have hpw' : Emission.option Binary.emit password = .done pw :=
      Emission.option_of_optional (fun _ _ => Binary.emit_eq_done_iff.mpr) hpw
    unfold emitBody
    simp only [Connect.flags]
    rw [hflags, hname, hversion, hfs', hka', hci', hun', hpw']
    generalize hbit : n.testBit 2 = present at hwl
    cases hwl with
    | absent =>
      have hbody : nm ++ vs ++ fs ++ ka ++ ps ++ ci ++ [] ++ un ++ pw =
          nm ++ vs ++ fs ++ ka ++ ps ++ (ci ++ un ++ pw) := by
        simp only [List.append_assoc, List.nil_append]
      have hemit : .done nm ++ .done vs ++ .done fs ++ .done ka ++ q.emit (.packet .connect) ++
          .done ci ++ .option Will.emit none ++ .done un ++ .done pw =
          .done (nm ++ vs ++ fs ++ ka) ++ q.emit (.packet .connect) ++ .done (ci ++ un ++ pw) := by
        simp only [Emission.option, Emission.append_assoc, Emission.done_append_done,
          List.append_assoc, List.nil_append]
      rw [hbody, hemit, Emission.surrounded_eq_done_iff, hps.emit_eq_done_iff,
        tightBody_iff_of_no_will hnv hfs hbit hka.length_eq hps]
    | @present _ v hw =>
      cases hw with
      | @intro ws tp pl r topic payload qos hws htp hpl hqos =>
        have hbody : nm ++ vs ++ fs ++ ka ++ ps ++ ci ++ (ws ++ tp ++ pl) ++ un ++ pw =
            nm ++ vs ++ fs ++ ka ++ ps ++ (ci ++ ws ++ (tp ++ pl ++ un ++ pw)) := by
          simp only [List.append_assoc]
        have hemit : .done nm ++ .done vs ++ .done fs ++ .done ka ++ q.emit (.packet .connect) ++
            .done ci ++ (r.emit .will ++ .done tp ++ .done pl) ++ .done un ++ .done pw =
            .done (nm ++ vs ++ fs ++ ka) ++ q.emit (.packet .connect) ++
              (.done ci ++ r.emit .will ++ .done (tp ++ pl ++ un ++ pw)) := by
          simp only [Emission.append_assoc, Emission.done_append_done, List.append_assoc]
        simp only [Emission.option, Will.emit]
        rw [Text.emit_eq_done_iff.mpr htp, Binary.emit_eq_done_iff.mpr hpl, hbody, hemit,
          Emission.two_blocks_eq_done_iff hps, hps.emit_eq_done_iff, hws.emit_eq_done_iff,
          tightBody_iff_of_will hnv hfs hbit hka.length_eq hps hci hws]

end Connect

/-! ### All packets -/

namespace Packet

variable {type : PacketType} {flags : Nat} {w : Bytes} {p : Packet}

/-- A packet is written with the type that it was read with. -/
theorem Body.type_eq (h : Body type flags w p) : p.type = type := by
  cases h <;> rfl

/-- A packet is written with the flags that it was read with. -/
theorem Body.flags_eq (h : Body type flags w p) (hflags : type.Permits flags) :
    p.flags = flags := by
  cases h with
  | publish hp => exact hp.flags_eq hflags.1
  | _ => exact hflags.2.symm

/-- Only a PUBLISH has a block at no fixed offset. -/
theorem HasBlock.eq_publish {body : Bytes} {c : Carrier} (h : HasBlock type flags body c w)
    (hoffset : type.blockOffset? = none) : type = .publish := by
  cases h with
  | behind hfront _ =>
    rw [hoffset] at hfront
    cases hfront
  | publish _ _ _ => rfl
  | will _ _ _ _ _ _ _ => cases hoffset

/-- The empty body of a ping is tight. -/
theorem tightBody_ping (hoffset : type.blockOffset? = none) (hpublish : type ≠ .publish) :
    TightBody type flags w := by
  have hnone : ∀ c v, ¬HasBlock type flags w c v := fun c v h => hpublish (h.eq_publish hoffset)
  have hkeeps : type.keepsBlock = false := by
    cases type <;> first | rfl | cases hoffset
  have hshort : type.shortens = false := by
    cases type <;> first | rfl | cases hoffset
  refine ⟨fun c v h => absurd h (hnone c v), fun h => ?_, fun h => ?_, fun h => ?_⟩
  · rw [hkeeps] at h
    cases h
  all_goals
    rw [hshort] at h
    cases h

/-- **Bodies that are written as they were read.** What a body stands for is written as just that
    body exactly if it is tight. -/
theorem Body.emitBody_eq_done_iff (h : Body type flags w p) :
    p.emitBody = .done w ↔ TightBody type flags w := by
  cases h with
  | connect hp => exact hp.emitBody_eq_done_iff
  | connack hp => exact hp.emitBody_eq_done_iff
  | publish hp => exact hp.emitBody_eq_done_iff
  | puback hp => exact hp.emitBody_eq_done_iff rfl rfl
  | pubrec hp => exact hp.emitBody_eq_done_iff rfl rfl
  | pubrel hp => exact hp.emitBody_eq_done_iff rfl rfl
  | pubcomp hp => exact hp.emitBody_eq_done_iff rfl rfl
  | subscribe hp => exact hp.emitBody_eq_done_iff
  | suback hp => exact hp.emitBody_eq_done_iff rfl (by decide) rfl
  | unsubscribe hp => exact hp.emitBody_eq_done_iff
  | unsuback hp => exact hp.emitBody_eq_done_iff rfl (by decide) rfl
  | pingreq => exact iff_of_true rfl (tightBody_ping rfl (by decide))
  | pingresp => exact iff_of_true rfl (tightBody_ping rfl (by decide))
  | disconnect hp => exact hp.emitBody_eq_done_iff
  | auth hp => exact hp.emitBody_eq_done_iff

end Packet

end Mqtt
