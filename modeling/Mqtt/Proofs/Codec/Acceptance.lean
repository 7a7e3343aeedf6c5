import Mqtt.Proofs.Codec.RoundTrip

/-!
# Whether what is written is accepted

* `Packet.losesAlias`: a message on an empty topic, of which the alias is there but has no value.
  Such a message may be built, but on the wire nothing stands for its topic.
* `Packet.Built.built_normal_iff`: that is the only way in which a packet that may be built has a
  normal form that may not.
* `decode_append_emit`: what is written as a packet decodes to its normal form, but for those
  messages, which are refused.
-/

namespace Mqtt

/-! ### Messages that lose their alias -/

/-- A table reads back with the kinds that have a value, but for user properties. -/
theorem PropertyTable.contains_normal {t : PropertyTable} {k : PropertyKind}
    (huser : k ≠ .userProperty) : t.normal.contains k = !(t.scalarsOf k).isEmpty := by
  rw [Bool.eq_iff_iff, contains_iff, ← get?_isSome_iff, Option.isSome_iff_exists,
    Bool.not_eq_true', List.isEmpty_eq_false_iff, scalarsOf]
  simp only [get?_normal_eq_some_iff]
  constructor
  · rintro ⟨_, v, hv, -, hne, -⟩
    rw [hv]
    exact hne
  · intro hne
    cases hv : t.get? k with
    | none =>
      rw [hv] at hne
      exact absurd rfl hne
    | some v =>
      rw [hv] at hne
      exact ⟨_, v, rfl, huser, hne, rfl⟩

namespace Publish

variable {p : Publish} {w : Bytes}

/-- The message with its properties in their normal form. -/
def normal (p : Publish) : Publish := { p with properties := p.properties.normal }

/-- Whether the topic is empty and the alias that would stand for it has no value. -/
def losesAlias (p : Publish) : Bool :=
  p.topic.isEmpty && (p.properties.table.scalarsOf .topicAlias).isEmpty

/-- The normal form of a message passes the checks that the message passes, unless it has lost the
    alias. -/
theorem check_normal (hp : p.check = .ok ()) :
    p.normal.check = if p.losesAlias then .error .emptyTopic else .ok () := by
  rw [check, Except.seq_eq_ok_iff, Except.seq_eq_ok_iff] at hp
  obtain ⟨hfield, hdelivery, htopic⟩ := hp
  -- Only the last of the checks looks at the properties.
  have hlast : p.normal.check = p.normal.checkTopic := by
    have hfield' : p.normal.checkField = .ok () := hfield
    have hdelivery' : p.normal.checkDelivery = .ok () := hdelivery
    rw [check, hfield', hdelivery']
    rfl
  have hwild : ¬p.topic.any isWildcard = true := by
    intro hany
    rw [checkTopic, if_pos hany] at htopic
    cases htopic
  have halias : p.normal.properties.table.contains .topicAlias =
      !(p.properties.table.scalarsOf .topicAlias).isEmpty :=
    PropertyTable.contains_normal (by decide)
  rw [hlast, checkTopic, halias, Bool.not_not]
  exact if_neg hwild

/-- What is written as a message that may be built is read back up to the last check, that of the
    normal form. -/
theorem readBody_of_emitBody (hp : p.check = .ok ()) (h : p.emitBody = .done w) :
    readBody p.flags w = p.normal.check.map fun _ => (p.normal, []) := by
  have hflags := announces_flags p
  obtain ⟨hfield, ⟨hsome, -⟩, -⟩ := check_eq_ok_iff.mp hp
  unfold emitBody at h
  simp only [Emission.append_eq_done] at h
  obtain ⟨_, pl, ⟨_, ps, ⟨tp, i, htp, hi, rfl⟩, hps, rfl⟩, hpl, rfl⟩ := h
  obtain rfl := Emission.done.inj hpl
  obtain ⟨n, hn, hid⟩ := exists_optional_packetId hfield hsome hi
  have hqos : QoS.ofCode (p.flags / 2 % 4 : Nat) = .ok p.qos := by
    rw [hflags.qos]
    exact QoS.ofCode_eq_ok_iff.mpr rfl
  have hretain : decide (p.flags % 2 = 1) = p.retain := by
    rw [← hflags.retain, Nat.testBit_eq_decide_div_mod_eq, Nat.pow_zero, Nat.div_one]
  have hduplicate : decide (p.flags / 8 % 2 = 1) = p.duplicate := by
    rw [← hflags.duplicate, Nat.testBit_eq_decide_div_mod_eq]
  have hmessage :
      ({ topic := p.topic, payload := p.payload, packetId := n.map Int.ofNat,
         retain := p.flags % 2 = 1, qos := p.qos, duplicate := p.flags / 8 % 2 = 1,
         properties := p.properties.normal } : Publish) = p.normal := by
    rw [hretain, hduplicate, ← hn]
    rfl
  -- The readers take one word after the other, and leave the check of the message they give.
  unfold readBody
  rw [List.append_assoc, List.append_assoc,
    Reader.bind_of_ok (Reader.lift_eq_ok_iff.mpr ⟨hqos, rfl⟩),
    Reader.bind_of_ok (Text.reads_form.read_append (Text.emit_eq_done_iff.mp htp) _),
    Reader.bind_of_ok ((Reader.reads_optional (Integer.reads_form 2) _).read_append
      (optional_packetId_iff.mp hid).1 _),
    Reader.bind_of_ok ((Properties.reads_block _).read_append (Properties.block_of_emit hps) _),
    Reader.bind_of_ok (Reader.rest_eq_ok_iff.mpr ⟨rfl, rfl⟩), hmessage]
  cases p.normal.check <;> rfl

end Publish

/-- Whether the packet is a message that has lost the alias for its topic. -/
def Packet.losesAlias : Packet → Bool
  | .publish p => p.losesAlias
  | _ => false

/-- Packets that are the same have both lost the alias for their topic, or neither. -/
theorem Packet.losesAlias_eq_of_same {p q : Packet} (h : p.same q = true) :
    p.losesAlias = q.losesAlias := by
  cases p <;> cases q <;> simp only [same, Bool.false_eq_true] at h
  case publish.publish p q =>
    simp only [Publish.same, Properties.same, Bool.and_eq_true, beq_iff_eq, Publish.mk.injEq,
      and_true] at h
    obtain ⟨⟨htopic, -⟩, htable, -⟩ := h
    have hscalars := PropertyTable.map_normal_scalarsOf_of_same htable .topicAlias
    have hempty : (p.properties.table.scalarsOf .topicAlias).isEmpty =
        (q.properties.table.scalarsOf .topicAlias).isEmpty := by
      rw [← List.isEmpty_map, hscalars, List.isEmpty_map]
    show Publish.losesAlias p = Publish.losesAlias q
    rw [Publish.losesAlias, Publish.losesAlias, htopic, hempty]
  all_goals rfl

/-- **The normal form of a packet may be built** if the packet may be, unless it has lost its
    alias. -/
theorem Packet.Built.built_normal_iff {p : Packet} (h : p.Built) :
    p.normal.Built ↔ p.losesAlias = false := by
  cases p with
  | publish p =>
    have hcheck : p.normal.check = _ := Publish.check_normal h.packet
    constructor
    · intro hnormal
      have hpass : p.normal.check = .ok () := hnormal.packet
      show p.losesAlias = false
      rw [hcheck] at hpass
      cases hloses : p.losesAlias with
      | false => rfl
      | true =>
        rw [hloses] at hpass
        cases hpass
    · intro hloses
      refine .of_check ?_ rfl
      show p.normal.check = .ok ()
      have hkeeps : p.losesAlias = false := hloses
      rw [hcheck, hkeeps]
      rfl
  | _ =>
    -- No other check looks at properties.
    exact iff_of_true ⟨h.packet, h.subscriptions⟩ rfl

/-! ### What is written -/

/-- What is written as a packet decodes to what its body holds, unless it is above the limit. -/
theorem decode_append_of_emit_eq {p : Packet} {f : Bytes} (h : p.emit = .done f)
    (limit : Option Int) (t : Bytes) :
    ∃ body, p.emitBody = .done body ∧
      decode limit (f ++ t) =
        match exceeded? limit f.length with
        | some l => .error (.packetTooLarge p.type f.length l)
        | none => (decodeBody p.type p.flags body).map fun q => ⟨q, f.length, t⟩ := by
  obtain ⟨body, hbody, hmax, rfl⟩ := Packet.emit_eq_done_iff.mp h
  refine ⟨body, hbody, ?_⟩
  let hd : Bytes := .ofNat (16 * p.type.code + p.flags) :: VarInt.digits body.length
  have hform : FixedHeader.Form hd ⟨p.type, p.flags, body.length⟩ :=
    .intro p.permits_flags (VarInt.form_digits hmax)
  have henough : ¬(body ++ t).length < body.length := by
    rw [List.length_append]
    omega
  have hsize : (hd ++ body).length = hd.length + body.length := List.length_append
  show decode limit (hd ++ body ++ t) = match exceeded? limit (hd ++ body).length with
    | some l => .error (.packetTooLarge p.type (hd ++ body).length l)
    | none => (decodeBody p.type p.flags body).map fun q => ⟨q, (hd ++ body).length, t⟩
  rw [List.append_assoc, decode_append_of_header hform, hsize]
  cases exceeded? limit (hd.length + body.length) with
  | some l => rfl
  | none =>
    dsimp only
    rw [if_neg henough, List.take_left, List.drop_left]

/-- What is written as a packet decodes under a limit as it does without one, unless it is above
    the limit. -/
theorem decode_append_of_emit_limit {p : Packet} {f : Bytes} (h : p.emit = .done f)
    (limit : Option Int) (t : Bytes) :
    decode limit (f ++ t) =
      match exceeded? limit f.length with
      | some l => .error (.packetTooLarge p.type f.length l)
      | none => decode none (f ++ t) := by
  obtain ⟨body, hbody, hlimit⟩ := decode_append_of_emit_eq h limit t
  obtain ⟨body', hbody', hnone⟩ := decode_append_of_emit_eq h none t
  obtain rfl := Emission.done.inj (hbody.symm.trans hbody')
  rw [hlimit, hnone]
  rfl

/-- A message that has lost its alias is refused for its topic. -/
theorem decode_append_of_losesAlias {p : Packet} {f : Bytes} (hbuilt : p.Built)
    (hloses : p.losesAlias = true) (h : p.emit = .done f) (t : Bytes) :
    decode none (f ++ t) = .error .emptyTopic := by
  cases p with
  | publish p =>
    have hloses' : p.losesAlias = true := hloses
    obtain ⟨body, hbody, hdecode⟩ := decode_append_of_emit_eq h none t
    have hread : Packet.readBody .publish p.flags body = .error .emptyTopic := by
      show (Publish.readBody p.flags body >>= fun x => .ok (Packet.publish x.1, x.2)) = _
      rw [Publish.readBody_of_emitBody hbuilt.packet hbody, Publish.check_normal hbuilt.packet,
        hloses']
      rfl
    rw [hdecode]
    show (decodeBody .publish p.flags body).map _ = _
    rw [decodeBody, hread]
    rfl
  | _ => cases hloses

/-- **What is written is accepted, but for lost aliases.** If a packet that may be built is written,
    with values of any shape among its properties, then it decodes, whatever bytes follow: exactly
    its own bytes are taken, and they give its normal form. Only a message on an empty topic, of
    which the alias has no value, is refused, and that for its topic. -/
theorem decode_append_emit {p : Packet} {f : Bytes} (hbuilt : p.Built) (h : p.emit = .done f)
    (t : Bytes) :
    decode none (f ++ t) =
      if p.losesAlias then .error .emptyTopic else .ok ⟨p.normal, f.length, t⟩ := by
  cases hloses : p.losesAlias with
  | false => exact decode_append_of_emit (hbuilt.built_normal_iff.mpr hloses) h t
  | true => exact decode_append_of_losesAlias hbuilt hloses h t

/-- A message on an empty topic, with an alias that has no value. -/
def aliaslessMessage : Packet := .publish
  { topic := [], properties := { table := ⟨[(.topicAlias, .many [])], by decide⟩ } }

/-- That message is written, and what is written is refused. -/
theorem decode_append_emit_aliaslessMessage :
    aliaslessMessage.Built ∧ aliaslessMessage.emit = .done [48, 3, 0, 0, 0] ∧
      decode none [48, 3, 0, 0, 0] = .error .emptyTopic := by
  have hbuilt : aliaslessMessage.Built := .of_check (by decide) rfl
  have hemit : aliaslessMessage.emit = .done [48, 3, 0, 0, 0] := by decide +kernel
  exact ⟨hbuilt, hemit, decode_append_emit hbuilt hemit []⟩

/-- Not everything that is written decodes. -/
theorem not_forall_decode_of_emit :
    ¬∀ (p : Packet) (f : Bytes), p.Built → p.emit = .done f →
      ∃ d, decode none f = .ok d ∧ d.size = f.length ∧ d.rest = [] := by
  intro h
  have hrefused : decode none [48, 3, 0, 0, 0] = .error .emptyTopic := by decide +kernel
  obtain ⟨d, hd, -⟩ := h aliaslessMessage [48, 3, 0, 0, 0] (.of_check (by decide) rfl)
    (by decide +kernel)
  rw [hrefused] at hd
  cases hd

end Mqtt
