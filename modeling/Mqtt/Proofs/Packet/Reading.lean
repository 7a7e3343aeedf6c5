import Mqtt.Proofs.Packet.Grammar

/-!
# Reading packet bodies

`Packet.readsAll_body`: the bytes that the reader of a body takes to their end are exactly those of
the grammar. It is put together from one `readsAll_form` for each layout.
-/

namespace Mqtt

/-! ### Shared fields -/

/-- The QoS with a number is the one that has it. -/
theorem QoS.ofCode_eq_ok_iff {n : Nat} {q : QoS} : QoS.ofCode n = .ok q ↔ n = q.code := by
  have hfound : ofCode? n = some q ↔ n = q.code := by
    constructor
    · exact fun h => (Int.ofNat_inj.mp (code_of_ofCode? h)).symm
    · rintro rfl; exact ofCode?_code q
  rw [← hfound, ofCode]
  cases ofCode? n <;> simp

/-- The retain handling with a number is the one that has it. -/
theorem RetainHandling.ofCode_eq_ok_iff {n : Nat} {r : RetainHandling} :
    RetainHandling.ofCode n = .ok r ↔ n = r.code := by
  have hfound : ofCode? n = some r ↔ n = r.code := by
    constructor
    · exact fun h => (Int.ofNat_inj.mp (code_of_ofCode? h)).symm
    · rintro rfl; exact ofCode?_code r
  rw [← hfound, ofCode]
  cases ofCode? n <;> simp

/-- The reason code with a number is the one that has it. -/
theorem ReasonCode.ofCode_eq_ok_iff {n : Nat} {r : ReasonCode} :
    ReasonCode.ofCode n = .ok r ↔ n = r.code := by
  have hfound : ofCode? n = some r ↔ n = r.code := by
    constructor
    · exact fun h => (Int.ofNat_inj.mp (code_of_ofCode? h)).symm
    · rintro rfl; exact ofCode?_code r
  rw [← hfound, ofCode]
  cases ofCode? n <;> simp

/-- A number of two bytes is a packet identifier if it is not 0. -/
theorem packetId_iff {w : Bytes} {n : Nat} :
    PacketId w n ↔ Integer.Form 2 w n ∧ checkPacketId n = .ok () := by
  rw [PacketId, checkPacketId_eq_ok]
  constructor
  · rintro ⟨hpos, hw⟩
    have hlt := hw.1
    exact ⟨hw, by omega, by omega⟩
  · rintro ⟨hw, hpos, -⟩
    exact ⟨by omega, hw⟩

namespace Carrier

variable {c : Carrier} {r : ReasonCode}

/-- A given reason code passes if the carrier may carry it. -/
theorem checkReasonCode_eq_ok_iff : c.checkReasonCode r = .ok () ↔ c.accepts r = true := by
  unfold checkReasonCode
  split <;> simp_all

/-- The reason code with a number is found if the carrier may carry it. -/
theorem reasonCodeOf_eq_ok_iff {n : Nat} :
    c.reasonCodeOf n = .ok r ↔ n = r.code ∧ c.accepts r = true := by
  unfold reasonCodeOf
  simp only [Except.bind_eq_ok_iff, Except.guard_eq_ok_iff, ReasonCode.ofCode_eq_ok_iff]
  constructor
  · rintro ⟨r, rfl, hr, rfl⟩; exact ⟨rfl, hr⟩
  · rintro ⟨rfl, hr⟩; exact ⟨r, rfl, hr, rfl⟩

/-- A reason code is read from its byte. -/
theorem reads_reason (c : Carrier) : c.readReasonCode.Reads c.Reason := by
  intro s r t
  simp only [readReasonCode, (Integer.reads_form 1).bind_eq_ok_iff, Reader.lift_eq_ok_iff,
    reasonCodeOf_eq_ok_iff]
  constructor
  · rintro ⟨_, w, _, hw, rfl, ⟨rfl, hr⟩, rfl⟩
    exact ⟨w, ⟨hw, hr⟩, rfl⟩
  · rintro ⟨w, ⟨hw, hr⟩, rfl⟩
    exact ⟨_, w, t, hw, rfl, ⟨rfl, hr⟩, rfl⟩

/-- Properties at the end are read from nothing or from a block. -/
theorem readsAll_lastProperties (c : Carrier) :
    c.readLastProperties.ReadsAll fun w p => (w = [] ∧ p = {}) ∨ c.Block w p := by
  intro s p
  have hne : ∀ w p, c.Block w p → w ≠ [] := fun w p =>
    (Properties.reads_block c).ne_nil (Properties.consumes_read c)
  refine (Reader.readsAll_orAtEnd (Properties.reads_block c).readsAll {}).trans ?_
  constructor
  · rintro (h | ⟨-, h⟩)
    · exact Or.inl h
    · exact Or.inr h
  · rintro (h | h)
    · exact Or.inl h
    · exact Or.inr ⟨hne s p h, h⟩

/-- The reason code of an outcome is one that the carrier may carry, if it may carry `success`. -/
theorem Outcome.accepts {w : Bytes} {p : Properties} (h : c.Outcome w (r, p))
    (hc : c.accepts .success = true) : c.accepts r = true := by
  cases h with
  | nothing => exact hc
  | reason hr => exact hr.2
  | full hr _ => exact hr.2

/-- A reason code and properties are read as an outcome. -/
theorem readsAll_outcome (c : Carrier) : c.readOutcome.ReadsAll c.Outcome := by
  have hne : ∀ w r, c.Reason w r → w ≠ [] := fun w r =>
    (reads_reason c).ne_nil (consumes_readReasonCode c)
  intro s o
  obtain ⟨r, p⟩ := o
  unfold readOutcome Reader.orAtEnd
  cases s with
  -- Nothing is left, so both parts are left out.
  | nil =>
    rw [List.isEmpty_nil, if_pos rfl, Except.ok.injEq, Prod.mk.injEq, Prod.mk.injEq]
    constructor
    · rintro ⟨⟨rfl, rfl⟩, -⟩; exact .nothing
    · intro h
      generalize hw : ([] : Bytes) = w at h
      cases h with
      | nothing => exact ⟨⟨rfl, rfl⟩, rfl⟩
      | reason hr => exact absurd hw.symm (hne _ _ hr)
      | full hr _ => exact absurd (List.append_eq_nil_iff.mp hw.symm).1 (hne _ _ hr)
  -- The reason code is there, and properties may be.
  | cons b s =>
    rw [List.isEmpty_cons, if_neg (by decide), (reads_reason c).bind_eq_ok_iff]
    simp only [(readsAll_lastProperties c).bind_pure_eq_ok_iff]
    constructor
    · rintro ⟨r, u, v, hr, hs, p, hp, ⟨⟩⟩
      rw [hs]
      rcases hp with ⟨rfl, rfl⟩ | hp
      · rw [List.append_nil]
        exact .reason hr
      · exact .full hr hp
    · intro h
      generalize hw : b :: s = w at h
      cases h with
      | nothing => cases hw
      | reason hr => exact ⟨_, _, [], hr, (List.append_nil _).symm, _, Or.inl ⟨rfl, rfl⟩, rfl⟩
      | full hr hp => exact ⟨_, _, _, hr, rfl, _, Or.inr hp, rfl⟩

end Carrier

/-! ### CONNECT -/

/-- The will is read as the flags say. -/
theorem Will.reads_form (flags : Nat) : (Will.read flags).Reads (Will.Form flags) := by
  intro s w t
  simp only [read, (Properties.reads_block _).bind_eq_ok_iff, Text.reads_form.bind_eq_ok_iff,
    Binary.reads_form.bind_eq_ok_iff, Reader.lift_bind_eq_ok_iff, Reader.pure_eq_ok_iff,
    QoS.ofCode_eq_ok_iff]
  constructor
  · rintro ⟨p, ps, _, hps, rfl, x, tp, _, htp, rfl, bs, pl, _, hpl, rfl, q, hq, rfl, rfl⟩
    refine ⟨ps ++ tp ++ pl, ?_, by simp only [List.append_assoc]⟩
    have h := Will.Form.intro hps htp hpl hq
    rwa [Nat.testBit_eq_decide_div_mod_eq] at h
  · rintro ⟨_, h, rfl⟩
    cases h with
    | intro hps htp hpl hq =>
      rw [Nat.testBit_eq_decide_div_mod_eq]
      simp only [List.append_assoc]
      exact ⟨_, _, _, hps, rfl, _, _, _, htp, rfl, _, _, t, hpl, rfl, _, hq, rfl, rfl⟩

namespace Connect

/-- Only the name of the protocol passes. -/
theorem checkProtocolName_eq_ok_iff {x : Text} :
    checkProtocolName x = .ok () ↔ x = .ofChars ['M', 'Q', 'T', 'T'] := by
  show (if x = .ofChars ['M', 'Q', 'T', 'T'] then _ else _) = _ ↔ _
  split <;> simp_all

/-- Only the version of the protocol passes. -/
theorem checkProtocolVersion_eq_ok_iff {n : Nat} : checkProtocolVersion n = .ok () ↔ n = 5 := by
  show (if n = 5 then _ else _) = _ ↔ _
  split <;> simp_all

/-- Flags pass if bit 0 is clear and there are no bits of a will that is not there. -/
theorem checkFlags_eq_ok_iff {flags : Nat} :
    checkFlags flags = .ok () ↔
      flags.testBit 0 = false ∧
        (flags.testBit 2 = false → flags / 8 % 4 = 0 ∧ flags.testBit 5 = false) := by
  simp only [Nat.testBit_eq_decide_div_mod_eq, Nat.reducePow, decide_eq_false_iff_not]
  unfold checkFlags
  split
  · simp only [reduceCtorEq, false_iff]
    omega
  · split
    · simp only [reduceCtorEq, false_iff]
      omega
    · simp only [true_iff]
      omega

/-- The reader takes exactly the words of the format. -/
theorem reads_form : readBody.Reads Form := by
  intro s p t
  -- What the reader takes, field by field.
  simp only [readBody, Text.reads_form.bind_eq_ok_iff, (Integer.reads_form _).bind_eq_ok_iff,
    (Properties.reads_block _).bind_eq_ok_iff, Reader.check_bind_eq_ok_iff,
    (Reader.reads_optional (Will.reads_form _) _).bind_eq_ok_iff,
    (Reader.reads_optional Text.reads_form _).bind_eq_ok_iff,
    (Reader.reads_optional Binary.reads_form _).bind_eq_ok_iff, Reader.pure_eq_ok_iff,
    checkProtocolName_eq_ok_iff, checkProtocolVersion_eq_ok_iff, checkFlags_eq_ok_iff]
  constructor
  · rintro ⟨_, nm, _, hnm, rfl, rfl, _, vs, _, hvs, rfl, rfl, flags, fs, _, hfs, rfl,
      ⟨h0, hwill⟩, ka, kas, _, hka, rfl, ps, pss, _, hps, rfl, ci, cis, _, hci, rfl, wl, wls, _,
      hwl, rfl, un, uns, _, hun, rfl, pw, pws, _, hpw, rfl, rfl, rfl⟩
    refine ⟨nm ++ vs ++ fs ++ kas ++ pss ++ cis ++ wls ++ uns ++ pws, ?_,
      by simp only [List.append_assoc]⟩
    have h := Form.intro hnm hvs hfs h0 hwill hka hps hci
      (by rw [Nat.testBit_eq_decide_div_mod_eq]; exact hwl)
      (by rw [Nat.testBit_eq_decide_div_mod_eq]; exact hun)
      (by rw [Nat.testBit_eq_decide_div_mod_eq]; exact hpw)
    rwa [Nat.testBit_eq_decide_div_mod_eq] at h
  · rintro ⟨_, h, rfl⟩
    cases h with
    | intro hnm hvs hfs h0 hwill hka hps hci hwl hun hpw =>
      rw [Nat.testBit_eq_decide_div_mod_eq] at hwl hun hpw ⊢
      simp only [List.append_assoc]
      exact ⟨_, _, _, hnm, rfl, rfl, _, _, _, hvs, rfl, rfl, _, _, _, hfs, rfl, ⟨h0, hwill⟩,
        _, _, _, hka, rfl, _, _, _, hps, rfl, _, _, _, hci, rfl, _, _, _, hwl, rfl,
        _, _, _, hun, rfl, _, _, t, hpw, rfl, rfl, rfl⟩

end Connect

/-! ### CONNACK -/

namespace ConnAck

/-- Flags pass if no bit but bit 0 is set. -/
theorem checkFlags_eq_ok_iff {flags : Nat} : checkFlags flags = .ok () ↔ flags < 2 := by
  unfold checkFlags
  split <;> simp_all

/-- The properties are read from a block, or from nothing behind a success. -/
theorem readsAll_properties (r : ReasonCode) :
    (readProperties r).ReadsAll fun w p =>
      (w = [] ∧ r = .success ∧ p = {}) ∨ (Carrier.packet .connack).Block w p := by
  intro s p
  unfold readProperties
  by_cases hr : r = .success
  · rw [if_pos hr, Carrier.readsAll_lastProperties]
    simp only [hr, true_and]
  · rw [if_neg hr]
    simp only [hr, false_and, and_false, false_or]
    cases s with
    | nil =>
      simp only [List.isEmpty_nil, if_true, reduceCtorEq, false_iff]
      intro h
      exact (Properties.reads_block _).ne_nil (Properties.consumes_read _) h rfl
    | cons b s =>
      rw [List.isEmpty_cons, if_neg (by decide)]
      exact (Properties.reads_block (.packet .connack)).readsAll (a := p)

/-- What is in the grammar may be built. -/
theorem Form.check_eq_ok {w : Bytes} {p : ConnAck} (h : Form w p) : p.check = .ok () := by
  refine Carrier.checkReasonCode_eq_ok_iff.mpr ?_
  cases h with
  | full _ _ hr _ => exact hr.2
  | short _ _ hr => exact hr.2

/-- The bytes that the reader takes to their end are exactly the words of the format. -/
theorem readsAll_form : readBody.ReadsAll Form := by
  intro s p
  have hbit : ∀ {flags : Nat}, flags < 2 → flags.testBit 0 = decide (flags = 1) := by
    intro flags hflags
    rw [Nat.testBit_eq_decide_div_mod_eq, decide_eq_decide]
    omega
  simp only [readBody, (Integer.reads_form _).bind_eq_ok_iff, Reader.check_bind_eq_ok_iff,
    (Carrier.reads_reason _).bind_eq_ok_iff, (readsAll_properties _).bind_check_eq_ok_iff,
    checkFlags_eq_ok_iff]
  constructor
  · rintro ⟨flags, fs, _, hfs, rfl, hflags, r, rc, ps, hr, rfl, q, hq, -, rfl⟩
    rw [← hbit hflags]
    rcases hq with ⟨rfl, rfl, rfl⟩ | hps
    · rw [List.append_nil]
      exact .short hfs hflags hr
    · rw [← List.append_assoc]
      exact .full hfs hflags hr hps
  · intro h
    have hcheck := h.check_eq_ok
    cases h with
    | full hfs hflags hr hps =>
      rw [hbit hflags] at hcheck ⊢
      rw [List.append_assoc]
      exact ⟨_, _, _, hfs, rfl, hflags, _, _, _, hr, rfl, _, Or.inr hps, hcheck, rfl⟩
    | short hfs hflags hr =>
      rw [hbit hflags] at hcheck ⊢
      exact ⟨_, _, _, hfs, rfl, hflags, _, _, _, hr, (List.append_nil _).symm, _,
        Or.inl ⟨rfl, rfl, rfl⟩, hcheck, rfl⟩

end ConnAck

/-! ### PUBLISH -/

namespace Publish

/-- A packet identifier passes if it is one; none passes too. -/
theorem checkField_eq_ok_iff {p : Publish} {n : Option Nat} (hn : p.packetId = n.map Int.ofNat) :
    p.checkField = .ok () ↔ ∀ m, n = some m → checkPacketId m = .ok () := by
  unfold checkField
  rw [hn]
  cases n <;> simp

/-- The optional packet identifiers are the optional numbers of two bytes that pass. -/
theorem optional_packetId_iff {present : Bool} {w : Bytes} {n : Option Nat} :
    Format.Optional PacketId present w n ↔
      Format.Optional (Integer.Form 2) present w n ∧
        ∀ m, n = some m → checkPacketId m = .ok () := by
  constructor
  · intro h
    cases h with
    | absent => exact ⟨.absent, fun _ h => nomatch h⟩
    | present hw =>
      obtain ⟨hform, hcheck⟩ := packetId_iff.mp hw
      exact ⟨.present hform, fun m hm => Option.some.inj hm ▸ hcheck⟩
  · rintro ⟨h, hcheck⟩
    cases h with
    | absent => exact .absent
    | present hw => exact .present (packetId_iff.mpr ⟨hw, hcheck _ rfl⟩)

/-- The fields of a message go together if it has a packet identifier exactly above QoS 0, and is no
    duplicate at QoS 0. -/
theorem checkDelivery_eq_ok_iff {p : Publish} :
    p.checkDelivery = .ok () ↔
      (p.packetId.isSome = true ↔ p.qos ≠ .atMostOnce) ∧
        (p.qos = .atMostOnce → p.duplicate = false) := by
  unfold checkDelivery
  cases p.qos <;> cases p.packetId <;> cases p.duplicate <;> simp

/-- A topic passes if it has no wildcard, and is not empty without an alias. -/
theorem checkTopic_eq_ok_iff {p : Publish} :
    p.checkTopic = .ok () ↔
      .ofChar '+' ∉ p.topic ∧ .ofChar '#' ∉ p.topic ∧
        (p.topic = [] → .topicAlias ∈ p.properties.table.keys) := by
  have hwild : p.topic.any isWildcard = false ↔ .ofChar '+' ∉ p.topic ∧ .ofChar '#' ∉ p.topic := by
    rw [List.any_eq_false]
    constructor
    · intro h
      exact ⟨fun hmem => h _ hmem (by decide), fun hmem => h _ hmem (by decide)⟩
    · rintro ⟨hplus, hhash⟩ c hc hwild
      rw [isWildcard, Bool.or_eq_true, beq_iff_eq, beq_iff_eq] at hwild
      rcases hwild with rfl | rfl
      · exact hplus hc
      · exact hhash hc
  unfold checkTopic
  cases hany : p.topic.any isWildcard with
  | true =>
    rw [hany] at hwild
    simp only [if_true, reduceCtorEq, false_iff]
    rintro ⟨hplus, hhash, -⟩
    exact absurd (hwild.mpr ⟨hplus, hhash⟩) (by decide)
  | false =>
    obtain ⟨hplus, hhash⟩ := hwild.mp hany
    rw [if_neg (by decide)]
    simp only [hplus, hhash, not_false_eq_true, true_and]
    rw [← PropertyTable.contains_iff]
    cases htopic : p.topic <;> cases p.properties.table.contains .topicAlias <;> simp

/-- A message may be built if its fields go together and its topic passes. -/
theorem check_eq_ok_iff {p : Publish} :
    p.check = .ok () ↔
      p.checkField = .ok () ∧
        ((p.packetId.isSome = true ↔ p.qos ≠ .atMostOnce) ∧
          (p.qos = .atMostOnce → p.duplicate = false)) ∧
        .ofChar '+' ∉ p.topic ∧ .ofChar '#' ∉ p.topic ∧
          (p.topic = [] → .topicAlias ∈ p.properties.table.keys) := by
  rw [check, Except.seq_eq_ok_iff, Except.seq_eq_ok_iff, checkDelivery_eq_ok_iff,
    checkTopic_eq_ok_iff]

/-- What is in the grammar may be built. -/
theorem Form.check_eq_ok {flags : Nat} {w : Bytes} {p : Publish} (h : Form flags w p) :
    p.check = .ok () := by
  cases h with
  | @intro tp i ps pl topic qos n q _ _ hplus hhash hempty hdup hid _ =>
    have hsome : (n.map Int.ofNat).isSome = true ↔ qos ≠ .atMostOnce := by
      rw [Option.isSome_map, hid.isSome_eq, bne_iff_ne]
    refine check_eq_ok_iff.mpr ⟨?_, ⟨hsome, hdup⟩, hplus, hhash, hempty⟩
    exact (checkField_eq_ok_iff rfl).mpr (optional_packetId_iff.mp hid).2

/-- The bytes that the reader takes to their end are exactly the words of the format. -/
theorem readsAll_form (flags : Nat) : (readBody flags).ReadsAll (Form flags) := by
  intro s p
  have hdup : flags.testBit 3 = decide (flags / 8 % 2 = 1) := Nat.testBit_eq_decide_div_mod_eq
  simp only [readBody, Reader.lift_bind_eq_ok_iff, QoS.ofCode_eq_ok_iff,
    Text.reads_form.bind_eq_ok_iff,
    (Reader.reads_optional (Integer.reads_form 2) _).bind_eq_ok_iff,
    (Properties.reads_block _).bind_eq_ok_iff, Reader.readsAll_rest.bind_check_eq_ok_iff]
  constructor
  · rintro ⟨qos, hqos, topic, tp, _, htp, rfl, n, i, _, hi, rfl, q, ps, pl, hps, rfl, _, rfl,
      hcheck, rfl⟩
    -- The grammar asks for what the check of the built packet asks for.
    obtain ⟨hfield, ⟨-, hqosdup⟩, hplus, hhash, hempty⟩ := check_eq_ok_iff.mp hcheck
    have hid := optional_packetId_iff.mpr ⟨hi, (checkField_eq_ok_iff rfl).mp hfield⟩
    dsimp only at hqosdup
    rw [← hdup] at hqosdup ⊢
    rw [← Nat.testBit_zero, ← List.append_assoc, ← List.append_assoc]
    exact .intro hqos htp hplus hhash hempty hqosdup hid hps
  · intro h
    have hcheck := h.check_eq_ok
    cases h with
    | intro hqos htp _ _ _ _ hid hps =>
      rw [hdup, Nat.testBit_zero] at hcheck ⊢
      simp only [List.append_assoc]
      exact ⟨_, hqos, _, _, _, htp, rfl, _, _, _, (optional_packetId_iff.mp hid).1, rfl, _, _, _,
        hps, rfl, _, rfl, hcheck, rfl⟩

end Publish

/-! ### Responses to a PUBLISH -/

/-- What is in the grammar may be built, for a carrier that may carry `success`. -/
theorem PublishResponse.Form.check_eq_ok {c : Carrier} {w : Bytes} {p : PublishResponse}
    (h : Form c w p) (hc : c.accepts .success = true) : p.check c = .ok () := by
  rw [check, Except.seq_eq_ok_iff, Carrier.checkReasonCode_eq_ok_iff]
  cases h with
  | intro hid ho => exact ⟨(packetId_iff.mp hid).2, ho.accepts hc⟩

/-- The bytes that the reader takes to their end are exactly the words of the format, for a carrier
    that may carry `success`. -/
theorem PublishResponse.readsAll_form {c : Carrier} (hc : c.accepts .success = true) :
    (readBody c).ReadsAll (Form c) := by
  intro s p
  simp only [readBody, (Integer.reads_form _).bind_eq_ok_iff,
    (Carrier.readsAll_outcome _).bind_check_eq_ok_iff]
  constructor
  · rintro ⟨n, i, o, hi, rfl, ⟨r, q⟩, ho, hcheck, rfl⟩
    exact .intro (packetId_iff.mpr ⟨hi, (Except.seq_eq_ok_iff.mp hcheck).1⟩) ho
  · intro h
    have hcheck := h.check_eq_ok hc
    cases h with
    | intro hid ho => exact ⟨_, _, _, (packetId_iff.mp hid).1, rfl, _, ho, hcheck, rfl⟩

/-! ### SUBSCRIBE -/

namespace Subscription

/-- A subscription passes if its topic filter is not empty. -/
theorem check_eq_ok_iff {s : Subscription} : s.check = .ok () ↔ s.pattern ≠ [] := by
  unfold check
  cases s.pattern <;> simp

/-- A byte of options gives a subscription if its reserved bits are clear and the others stand for a
    QoS and a retain handling. -/
theorem ofOptions_eq_ok_iff {x : Text} {n : Nat} {s : Subscription} :
    ofOptions x n = .ok s ↔
      n < 64 ∧ ∃ q r, n % 4 = q.code ∧ n / 16 % 4 = r.code ∧ x ≠ [] ∧
        { pattern := x, maxQos := q, noLocal := n.testBit 2, retainAsPublished := n.testBit 3,
          retainHandling := r } = s := by
  have hlocal : n.testBit 2 = decide (n / 4 % 2 = 1) := Nat.testBit_eq_decide_div_mod_eq
  have hretain : n.testBit 3 = decide (n / 8 % 2 = 1) := Nat.testBit_eq_decide_div_mod_eq
  rw [hlocal, hretain]
  unfold ofOptions
  by_cases hn : 64 ≤ n
  · rw [if_pos hn]
    simp only [Except.bind_eq_ok_iff]
    constructor
    · rintro ⟨_, h, -⟩; cases h
    · rintro ⟨hlt, -⟩; omega
  · rw [if_neg hn]
    simp only [Except.bind_eq_ok_iff, QoS.ofCode_eq_ok_iff, RetainHandling.ofCode_eq_ok_iff]
    constructor
    · rintro ⟨q, hq, r, hr, _, hcheck, ⟨⟩⟩
      exact ⟨by omega, q, r, hq, hr, check_eq_ok_iff.mp hcheck, rfl⟩
    · rintro ⟨-, q, r, hq, hr, hx, rfl⟩
      exact ⟨q, hq, r, hr, (), check_eq_ok_iff.mpr hx, rfl⟩

/-- The reader takes exactly the words of the format. -/
theorem reads_form : read.Reads Form := by
  intro s x t
  simp only [read, Text.reads_form.bind_eq_ok_iff, (Integer.reads_form _).bind_eq_ok_iff,
    Reader.lift_eq_ok_iff, ofOptions_eq_ok_iff]
  constructor
  · rintro ⟨x, tf, _, htf, rfl, n, os, _, hos, rfl, ⟨hn, q, r, hq, hr, hx, rfl⟩, rfl⟩
    exact ⟨tf ++ os, .intro htf hx hos hn hq hr, (List.append_assoc _ _ _).symm⟩
  · rintro ⟨_, h, rfl⟩
    cases h with
    | intro htf hx hos hn hq hr =>
      exact ⟨_, _, _, htf, List.append_assoc _ _ _, _, _, t, hos, rfl,
        ⟨hn, _, _, hq, hr, hx, rfl⟩, rfl⟩

end Subscription

/-- What is in the grammar may be built. -/
theorem Subscription.Form.check_eq_ok {w : Bytes} {s : Subscription} (h : Form w s) :
    s.check = .ok () := by
  cases h with
  | intro _ hx _ _ _ _ => exact Subscription.check_eq_ok_iff.mpr hx

/-- A request may be built if its packet identifier passes and it has subscriptions. -/
theorem Subscribe.check_eq_ok_iff {p : Subscribe} :
    p.check = .ok () ↔ checkPacketId p.packetId = .ok () ∧ p.subscriptions ≠ [] := by
  rw [check, Except.seq_eq_ok_iff, Except.unless_eq_ok_iff, List.isEmpty_iff]

/-- What is in the grammar may be built. -/
theorem Subscribe.Form.check_eq_ok {w : Bytes} {p : Subscribe} (h : Form w p) :
    p.check = .ok () := by
  cases h with
  | intro hid _ _ hne => exact Subscribe.check_eq_ok_iff.mpr ⟨(packetId_iff.mp hid).2, hne⟩

/-- The bytes that the reader takes to their end are exactly the words of the format. -/
theorem Subscribe.readsAll_form : readBody.ReadsAll Form := by
  intro s p
  simp only [readBody, (Integer.reads_form _).bind_eq_ok_iff,
    (Properties.reads_block _).bind_eq_ok_iff,
    (Reader.readsAll_toEnd Subscription.reads_form _).bind_check_eq_ok_iff]
  constructor
  · rintro ⟨n, i, _, hi, rfl, q, ps, ss, hps, rfl, xs, hss, hcheck, rfl⟩
    obtain ⟨hid, hne⟩ := check_eq_ok_iff.mp hcheck
    rw [← List.append_assoc]
    exact .intro (packetId_iff.mpr ⟨hi, hid⟩) hps hss hne
  · intro h
    have hcheck := h.check_eq_ok
    cases h with
    | intro hid hps hss _ =>
      rw [List.append_assoc]
      exact ⟨_, _, _, (packetId_iff.mp hid).1, rfl, _, _, _, hps, rfl, _, hss, hcheck, rfl⟩

/-! ### SUBACK and UNSUBACK -/

/-- Reason codes pass if the carrier may carry each of them. -/
theorem SubscriptionAck.checkReasonCodes_eq_ok_iff {c : Carrier} {rs : List ReasonCode} :
    checkReasonCodes c rs = .ok () ↔ ∀ r ∈ rs, c.accepts r = true := by
  induction rs with
  | nil => simp [checkReasonCodes]
  | cons r rs ih =>
    rw [checkReasonCodes, Except.seq_eq_ok_iff, Carrier.checkReasonCode_eq_ok_iff, ih,
      List.forall_mem_cons]

/-- What is in the grammar may be built. -/
theorem SubscriptionAck.Form.check_eq_ok {c : Carrier} {w : Bytes} {p : SubscriptionAck}
    (h : Form c w p) : p.check c = .ok () := by
  rw [check, Except.seq_eq_ok_iff, checkReasonCodes_eq_ok_iff]
  cases h with
  | intro hid _ hrs =>
    refine ⟨(packetId_iff.mp hid).2, fun r hr => ?_⟩
    obtain ⟨_, hw⟩ := hrs.exists_of_mem hr
    exact hw.2

/-- The bytes that the reader takes to their end are exactly the words of the format. -/
theorem SubscriptionAck.readsAll_form (c : Carrier) : (readBody c).ReadsAll (Form c) := by
  intro s p
  simp only [readBody, (Integer.reads_form _).bind_eq_ok_iff,
    (Properties.reads_block _).bind_eq_ok_iff,
    (Reader.readsAll_toEnd (Carrier.reads_reason c) _).bind_check_eq_ok_iff]
  constructor
  · rintro ⟨n, i, _, hi, rfl, q, ps, ss, hps, rfl, xs, hss, hcheck, rfl⟩
    rw [← List.append_assoc]
    exact .intro (packetId_iff.mpr ⟨hi, (Except.seq_eq_ok_iff.mp hcheck).1⟩) hps hss
  · intro h
    have hcheck := h.check_eq_ok
    cases h with
    | intro hid hps hrs =>
      rw [List.append_assoc]
      exact ⟨_, _, _, (packetId_iff.mp hid).1, rfl, _, _, _, hps, rfl, _, hrs, hcheck, rfl⟩

/-! ### UNSUBSCRIBE -/

/-- A request may be built if its packet identifier passes and it has topic filters. -/
theorem Unsubscribe.check_eq_ok_iff {p : Unsubscribe} :
    p.check = .ok () ↔ checkPacketId p.packetId = .ok () ∧ p.patterns ≠ [] := by
  rw [check, Except.seq_eq_ok_iff, Except.unless_eq_ok_iff, List.isEmpty_iff]

/-- What is in the grammar may be built. -/
theorem Unsubscribe.Form.check_eq_ok {w : Bytes} {p : Unsubscribe} (h : Form w p) :
    p.check = .ok () := by
  cases h with
  | intro hid _ _ hne => exact Unsubscribe.check_eq_ok_iff.mpr ⟨(packetId_iff.mp hid).2, hne⟩

/-- The bytes that the reader takes to their end are exactly the words of the format. -/
theorem Unsubscribe.readsAll_form : readBody.ReadsAll Form := by
  intro s p
  simp only [readBody, (Integer.reads_form _).bind_eq_ok_iff,
    (Properties.reads_block _).bind_eq_ok_iff,
    (Reader.readsAll_toEnd Text.reads_form _).bind_check_eq_ok_iff]
  constructor
  · rintro ⟨n, i, _, hi, rfl, q, ps, ts, hps, rfl, xs, hts, hcheck, rfl⟩
    obtain ⟨hid, hne⟩ := check_eq_ok_iff.mp hcheck
    rw [← List.append_assoc]
    exact .intro (packetId_iff.mpr ⟨hi, hid⟩) hps hts hne
  · intro h
    have hcheck := h.check_eq_ok
    cases h with
    | intro hid hps hts _ =>
      rw [List.append_assoc]
      exact ⟨_, _, _, (packetId_iff.mp hid).1, rfl, _, _, _, hps, rfl, _, hts, hcheck, rfl⟩

/-! ### DISCONNECT and AUTH -/

/-- What is in the grammar may be built. -/
theorem Disconnect.Form.check_eq_ok {w : Bytes} {p : Disconnect} (h : Form w p) :
    p.check = .ok () := by
  refine Carrier.checkReasonCode_eq_ok_iff.mpr ?_
  cases h with
  | intro ho => exact ho.accepts rfl

/-- The bytes that the reader takes to their end are exactly the words of the format. -/
theorem Disconnect.readsAll_form : readBody.ReadsAll Form := by
  intro s p
  simp only [readBody, (Carrier.readsAll_outcome _).bind_check_eq_ok_iff]
  constructor
  · rintro ⟨⟨r, q⟩, ho, -, rfl⟩
    exact .intro ho
  · intro h
    have hcheck := h.check_eq_ok
    cases h with
    | intro ho => exact ⟨_, ho, hcheck, rfl⟩

namespace Auth

/-- The reason code is read from its byte. -/
theorem reads_reason : readReasonCode.Reads (Carrier.packet .auth).Reason := by
  intro s r t
  rw [← Carrier.reads_reason (.packet .auth)]
  unfold readReasonCode
  cases s with
  | nil =>
    rw [List.isEmpty_nil, if_pos rfl]
    simp only [reduceCtorEq, false_iff]
    intro h
    have hle := Carrier.consumes_readReasonCode _ h
    simp at hle
  | cons b s => rfl

/-- What is in the grammar may be built. -/
theorem Form.check_eq_ok {w : Bytes} {p : Auth} (h : Form w p) : p.check = .ok () := by
  refine Carrier.checkReasonCode_eq_ok_iff.mpr ?_
  cases h with
  | full hr _ => exact hr.2
  | short hr => exact hr.2

/-- The bytes that the reader takes to their end are exactly the words of the format. -/
theorem readsAll_form : readBody.ReadsAll Form := by
  intro s p
  simp only [readBody, reads_reason.bind_eq_ok_iff,
    (Carrier.readsAll_lastProperties _).bind_check_eq_ok_iff]
  constructor
  · rintro ⟨r, w, ps, hr, rfl, q, hq, -, rfl⟩
    rcases hq with ⟨rfl, rfl⟩ | hps
    · rw [List.append_nil]
      exact .short hr
    · exact .full hr hps
  · intro h
    have hcheck := h.check_eq_ok
    cases h with
    | full hr hps => exact ⟨_, _, _, hr, rfl, _, Or.inr hps, hcheck, rfl⟩
    | short hr =>
      exact ⟨_, _, _, hr, (List.append_nil _).symm, _, Or.inl ⟨rfl, rfl⟩, hcheck, rfl⟩

end Auth

/-! ### All packets -/

namespace Packet

/-- **The bytes that the reader of a body takes to their end** are exactly those of the grammar. -/
theorem readsAll_body (type : PacketType) (flags : Nat) :
    (readBody type flags).ReadsAll (Body type flags) := by
  cases type with
  | connect =>
    exact Connect.reads_form.readsAll.map (fun _ _ => .connect) fun _ _ (.connect h) => ⟨_, h, rfl⟩
  | connack =>
    exact ConnAck.readsAll_form.map (fun _ _ => .connack) fun _ _ (.connack h) => ⟨_, h, rfl⟩
  | publish =>
    exact (Publish.readsAll_form flags).map (fun _ _ => .publish)
      fun _ _ (.publish h) => ⟨_, h, rfl⟩
  | puback =>
    exact (PublishResponse.readsAll_form rfl).map (fun _ _ => .puback)
      fun _ _ (.puback h) => ⟨_, h, rfl⟩
  | pubrec =>
    exact (PublishResponse.readsAll_form rfl).map (fun _ _ => .pubrec)
      fun _ _ (.pubrec h) => ⟨_, h, rfl⟩
  | pubrel =>
    exact (PublishResponse.readsAll_form rfl).map (fun _ _ => .pubrel)
      fun _ _ (.pubrel h) => ⟨_, h, rfl⟩
  | pubcomp =>
    exact (PublishResponse.readsAll_form rfl).map (fun _ _ => .pubcomp)
      fun _ _ (.pubcomp h) => ⟨_, h, rfl⟩
  | subscribe =>
    exact Subscribe.readsAll_form.map (fun _ _ => .subscribe) fun _ _ (.subscribe h) => ⟨_, h, rfl⟩
  | suback =>
    exact (SubscriptionAck.readsAll_form _).map (fun _ _ => .suback)
      fun _ _ (.suback h) => ⟨_, h, rfl⟩
  | unsubscribe =>
    exact Unsubscribe.readsAll_form.map (fun _ _ => .unsubscribe)
      fun _ _ (.unsubscribe h) => ⟨_, h, rfl⟩
  | unsuback =>
    exact (SubscriptionAck.readsAll_form _).map (fun _ _ => .unsuback)
      fun _ _ (.unsuback h) => ⟨_, h, rfl⟩
  | pingreq =>
    intro s p
    rw [readBody, Reader.pure_eq_ok_iff]
    constructor
    · rintro ⟨rfl, rfl⟩; exact .pingreq
    · rintro ⟨⟩; exact ⟨rfl, rfl⟩
  | pingresp =>
    intro s p
    rw [readBody, Reader.pure_eq_ok_iff]
    constructor
    · rintro ⟨rfl, rfl⟩; exact .pingresp
    · rintro ⟨⟩; exact ⟨rfl, rfl⟩
  | disconnect =>
    exact Disconnect.readsAll_form.map (fun _ _ => .disconnect)
      fun _ _ (.disconnect h) => ⟨_, h, rfl⟩
  | auth => exact Auth.readsAll_form.map (fun _ _ => .auth) fun _ _ (.auth h) => ⟨_, h, rfl⟩

end Packet

end Mqtt
