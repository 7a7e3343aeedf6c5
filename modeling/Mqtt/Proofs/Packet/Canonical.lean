import Mqtt.Proofs.Packet.Writing

/-!
# Writing again what was read

* `Packet.settled_of_body`: what a body in the grammar stands for may be built, is its own normal
  form, and is written in no more bytes than the body has.
* `Packet.keepsEmptyBlock` are the packets that are written with a property block but can be read
  without one. Only these may become longer, by one byte.
-/

namespace Mqtt

/-! ### Bounds of single fields -/

/-- No properties are written in the byte of their length. -/
theorem Properties.fits_emit_empty (c : Carrier) : (emit c {}).Fits 1 := by
  have hempty : emit c {} = VarInt.emit (0 : Nat) := by
    show VarInt.emit (0 : Nat) ++ .done [] = _
    rw [Emission.append_nil]
  rw [hempty, VarInt.emit_natCast (by decide)]
  exact ⟨_, rfl, Nat.le_of_eq (VarInt.length_digits_of_lt (by decide))⟩

namespace Carrier

variable {c : Carrier} {r : ReasonCode} {p : Properties} {w : Bytes}

/-- A reason code is written in its byte. -/
theorem Reason.fits_emit (h : c.Reason w r) : r.emit.Fits w.length := h.1.fits_emit

/-- An outcome is written in no more bytes. What has its default value at its end is left out. -/
theorem Outcome.fits_emit (h : c.Outcome w (r, p)) : (c.emitOutcome r p).Fits w.length := by
  unfold emitOutcome
  cases h with
  | nothing => exact Emission.fits_of_eq_done rfl
  | reason hr =>
    have hempty : ({} : Properties).isEmpty = true := rfl
    rw [if_pos hempty]
    split
    · exact (Emission.fits_of_eq_done rfl).mono (Nat.zero_le _)
    · exact hr.fits_emit
  | full hr hp =>
    rw [List.length_append]
    split
    · split
      · exact (Emission.fits_of_eq_done rfl).mono (Nat.zero_le _)
      · exact hr.fits_emit.mono (Nat.le_add_right _ _)
    · exact hr.fits_emit.append (Properties.fits_emit_of_block hp)

/-- The properties of an outcome are their own normal form. -/
theorem Outcome.normal_eq (h : c.Outcome w (r, p)) : p.normal = p := by
  cases h with
  | nothing => rfl
  | reason _ => rfl
  | full _ hp => exact Properties.normal_of_block hp

end Carrier

/-! ### Settled packets -/

namespace Packet

/-- A packet that is written with its properties even if there are none, though it can be read
    without them. -/
def keepsEmptyBlock : Packet → Bool
  | connack p => p.reasonCode == .success && p.properties.isEmpty
  | auth p => p.properties.isEmpty
  | _ => false

/-- The packet may be built, is its own normal form, and has a body of at most `k` bytes, unless it
    keeps an empty block: then the body may have one byte more, if `k` is small. -/
structure Settled (p : Packet) (k : Nat) : Prop where
  built : p.Built
  normal_eq : p.normal = p
  fits : p.emitBody.Fits k ∨ p.keepsEmptyBlock = true ∧ k < 127 ∧ p.emitBody.Fits (k + 1)

/-- What settles a packet without subscriptions and without a will. -/
theorem Settled.of_fits {p : Packet} {k : Nat} {ps : Properties} (hcheck : p.check = .ok ())
    (hs : p.subscriptions = []) (hp : p.properties? = some ps) (hw : p.will? = none)
    (hps : ps.normal = ps) (hfits : p.emitBody.Fits k) : p.Settled k where
  built := .of_check hcheck hs
  normal_eq := normal_eq_self hp hw hps
  fits := Or.inl hfits

end Packet

variable {w : Bytes}

/-! ### The layouts -/

/-- What is in the grammar of a will is its own normal form, and written in no more bytes. -/
theorem Will.Form.settled {flags : Nat} {v : Will} (h : Will.Form flags w v) :
    v.normal = v ∧ v.emit.Fits w.length := by
  cases h with
  | intro hps htp hpl _ =>
    refine ⟨?_, ?_⟩
    · simp only [Will.normal, Properties.normal_of_block hps]
    · simp only [List.length_append]
      exact ((Properties.fits_emit_of_block hps).append htp.fits_emit).append hpl.fits_emit

/-- What is in the grammar of CONNECT is settled. -/
theorem Connect.Form.settled {p : Connect} (h : Connect.Form w p) :
    (Packet.connect p).Settled w.length := by
  cases h with
  | @intro _ _ _ _ _ _ _ _ _ _ _ _ _ will _ _ hnm hvs hfs _ _ hka hps hci hwl hun hpw =>
    have hwill : will.map Will.normal = will := hwl.map_eq_self fun _ _ hw => hw.settled.1
    have hflags : ∀ p : Connect, (Integer.emit 1 p.flags).Fits 1 := fun p =>
      Integer.fits_emit_one p.flags_lt
    have hwillFits := Emission.fits_option (F := Will.Form _) (fun _ _ hw => hw.settled.2) hwl
    have hunFits := Emission.fits_option (F := Text.Form) (fun _ _ => Text.Form.fits_emit) hun
    have hpwFits := Emission.fits_option (F := Binary.Form) (fun _ _ => Binary.Form.fits_emit) hpw
    refine ⟨.of_check rfl rfl, ?_, Or.inl ?_⟩
    · simp only [Packet.normal, hwill, Properties.normal_of_block hps]
    · simp only [List.length_append, hfs.length_eq]
      exact (((((((hnm.fits_emit.append hvs.fits_emit).append (hflags _)).append
        hka.fits_emit).append (Properties.fits_emit_of_block hps)).append hci.fits_emit).append
        hwillFits).append hunFits).append hpwFits

/-- What is in the grammar of CONNACK is settled. -/
theorem ConnAck.Form.settled {p : ConnAck} (h : ConnAck.Form w p) :
    (Packet.connack p).Settled w.length := by
  have hcheck := h.check_eq_ok
  have hflag : ∀ b : Bool, (Integer.emit 1 b.toNat).Fits 1 := fun b =>
    Integer.fits_emit_one (Nat.lt_of_le_of_lt (Bool.toNat_le b) (by decide))
  cases h with
  | full hfs _ hr hps =>
    refine .of_fits hcheck rfl rfl rfl (Properties.normal_of_block hps) ?_
    rw [List.length_append, List.length_append, hfs.length_eq]
    exact ((hflag _).append hr.fits_emit).append (Properties.fits_emit_of_block hps)
  | short hfs _ hr =>
    -- The block that was left out is written as an empty one.
    refine ⟨.of_check hcheck rfl, rfl, Or.inr ⟨rfl, ?_, ?_⟩⟩
    · rw [List.length_append, hfs.length_eq, hr.1.length_eq]
      decide
    · rw [List.length_append, hfs.length_eq]
      exact ((hflag _).append hr.fits_emit).append (Properties.fits_emit_empty _)

/-- What is in the grammar of PUBLISH is settled. -/
theorem Publish.Form.settled {p : Publish} {flags : Nat} (h : Publish.Form flags w p) :
    (Packet.publish p).Settled w.length := by
  have hcheck := h.check_eq_ok
  cases h with
  | intro _ htp _ _ _ _ hid hps =>
    refine .of_fits hcheck rfl rfl rfl (Properties.normal_of_block hps) ?_
    simp only [List.length_append]
    refine ((htp.fits_emit.append ?_).append (Properties.fits_emit_of_block hps)).append
      (Emission.fits_of_eq_done rfl)
    show (Emission.option _ (Option.map Int.ofNat _)).Fits _
    rw [Emission.option_map]
    exact Emission.fits_option (F := PacketId) (fun _ _ h => h.2.fits_emit) hid

/-- What is in the grammar of the responses to a PUBLISH has properties in their normal form, and is
    written in no more bytes. -/
theorem PublishResponse.Form.settled {c : Carrier} {p : PublishResponse}
    (h : PublishResponse.Form c w p) :
    p.properties.normal = p.properties ∧ (p.emitBody c).Fits w.length := by
  cases h with
  | intro hid ho =>
    refine ⟨ho.normal_eq, ?_⟩
    rw [List.length_append]
    exact hid.2.fits_emit.append ho.fits_emit

/-- A subscription is written in no more bytes than it was read from. -/
theorem Subscription.Form.fits_emit {s : Subscription} (h : Subscription.Form w s) :
    s.emit.Fits w.length := by
  cases h with
  | intro htf _ hos _ _ _ =>
    have hoptions : ∀ s : Subscription, (Integer.emit 1 s.options).Fits 1 := fun s =>
      Integer.fits_emit_one (Nat.lt_trans s.options_lt (by decide))
    rw [List.length_append, hos.length_eq]
    exact htf.fits_emit.append (hoptions _)

/-- What is in the grammar of SUBSCRIBE is settled. -/
theorem Subscribe.Form.settled {p : Subscribe} (h : Subscribe.Form w p) :
    (Packet.subscribe p).Settled w.length := by
  have hcheck := h.check_eq_ok
  cases h with
  | intro hid hps hss _ =>
    refine ⟨⟨hcheck, fun s hs => ?_⟩, ?_, Or.inl ?_⟩
    · obtain ⟨_, hform⟩ := hss.exists_of_mem hs
      exact hform.check_eq_ok
    · exact Packet.normal_eq_self rfl rfl (Properties.normal_of_block hps)
    · rw [List.length_append, List.length_append]
      exact (hid.2.fits_emit.append (Properties.fits_emit_of_block hps)).append
        (Emission.fits_concat (fun _ _ => Subscription.Form.fits_emit) hss)

/-- What is in the grammar of SUBACK and UNSUBACK has properties in their normal form, and is
    written in no more bytes. -/
theorem SubscriptionAck.Form.settled {c : Carrier} {p : SubscriptionAck}
    (h : SubscriptionAck.Form c w p) :
    p.properties.normal = p.properties ∧ (p.emitBody c).Fits w.length := by
  cases h with
  | intro hid hps hrs =>
    refine ⟨Properties.normal_of_block hps, ?_⟩
    rw [List.length_append, List.length_append]
    exact (hid.2.fits_emit.append (Properties.fits_emit_of_block hps)).append
      (Emission.fits_concat (F := c.Reason) (fun _ _ hr => hr.fits_emit) hrs)

/-- What is in the grammar of UNSUBSCRIBE is settled. -/
theorem Unsubscribe.Form.settled {p : Unsubscribe} (h : Unsubscribe.Form w p) :
    (Packet.unsubscribe p).Settled w.length := by
  have hcheck := h.check_eq_ok
  cases h with
  | intro hid hps hts _ =>
    refine .of_fits hcheck rfl rfl rfl (Properties.normal_of_block hps) ?_
    rw [List.length_append, List.length_append]
    exact (hid.2.fits_emit.append (Properties.fits_emit_of_block hps)).append
      (Emission.fits_concat (fun _ _ => Text.Form.fits_emit) hts)

/-- What is in the grammar of DISCONNECT is settled. -/
theorem Disconnect.Form.settled {p : Disconnect} (h : Disconnect.Form w p) :
    (Packet.disconnect p).Settled w.length := by
  have hcheck := h.check_eq_ok
  cases h with
  | intro ho =>
    exact .of_fits hcheck rfl rfl rfl ho.normal_eq ho.fits_emit

/-- What is in the grammar of AUTH is settled. -/
theorem Auth.Form.settled {p : Auth} (h : Auth.Form w p) : (Packet.auth p).Settled w.length := by
  have hcheck := h.check_eq_ok
  cases h with
  | full hr hps =>
    refine .of_fits hcheck rfl rfl rfl (Properties.normal_of_block hps) ?_
    rw [List.length_append]
    exact hr.fits_emit.append (Properties.fits_emit_of_block hps)
  | short hr =>
    -- Here too an empty block is written for none.
    refine ⟨.of_check hcheck rfl, rfl, Or.inr ⟨rfl, ?_, ?_⟩⟩
    · rw [hr.1.length_eq]
      decide
    · exact hr.fits_emit.append (Properties.fits_emit_empty _)

/-! ### All packets -/

/-- **What a body in the grammar stands for** may be built, is its own normal form, and is written
    in no more bytes than the body has, but for an empty block. -/
theorem Packet.settled_of_body {type : PacketType} {flags : Nat} (h : Packet.Body type flags w p) :
    p.Settled w.length := by
  cases h with
  | connect h => exact h.settled
  | connack h => exact h.settled
  | publish h => exact h.settled
  | puback h => exact .of_fits (h.check_eq_ok rfl) rfl rfl rfl h.settled.1 h.settled.2
  | pubrec h => exact .of_fits (h.check_eq_ok rfl) rfl rfl rfl h.settled.1 h.settled.2
  | pubrel h => exact .of_fits (h.check_eq_ok rfl) rfl rfl rfl h.settled.1 h.settled.2
  | pubcomp h => exact .of_fits (h.check_eq_ok rfl) rfl rfl rfl h.settled.1 h.settled.2
  | subscribe h => exact h.settled
  | suback h => exact .of_fits h.check_eq_ok rfl rfl rfl h.settled.1 h.settled.2
  | unsubscribe h => exact h.settled
  | unsuback h => exact .of_fits h.check_eq_ok rfl rfl rfl h.settled.1 h.settled.2
  | pingreq => exact ⟨.of_check rfl rfl, rfl, Or.inl (Emission.fits_of_eq_done rfl)⟩
  | pingresp => exact ⟨.of_check rfl rfl, rfl, Or.inl (Emission.fits_of_eq_done rfl)⟩
  | disconnect h => exact h.settled
  | auth h => exact h.settled

end Mqtt
