import Mathlib.Algebra.GroupWithZero.Nat
import Mathlib.Data.List.Forall2
import Mqtt.Outbox
import Mqtt.Proofs.Codec.RoundTrip
import Mqtt.Proofs.Codec.Stream

/-!
# Packets that are sent

* `encode_eq_ok_iff`: a packet is encoded exactly if it is written in some bytes that are not above
  the limit and that the destination has room for.
* `Outbox.Filled o w o'`: the outbox `o'` is `o` with the bytes `w` put behind those already there.
  Every packet that is written fills the outbox with its frame (`Outbox.filled_put`), and so do all
  packets together (`Outbox.filled_putAll`).
* `Outbox.putAll_eq_stream`: what was written is the stream of just those packets that could be
  written.
-/

namespace Mqtt

variable {limit : Option Int} {p : Packet}

/-! ### Encoding -/

/-- A packet is encoded exactly if it is written in some bytes that are not above the limit and that
    the destination has room for. -/
theorem encode_eq_ok_iff {destination : Bytes} {e : Encoded} :
    encode limit p destination = .ok e ↔
      ∃ f, p.emit = .done f ∧ exceeded? limit f.length = none ∧ f.length ≤ destination.length ∧
        e = ⟨p, f.length, f ++ destination.drop f.length⟩ := by
  cases hemit : p.emit with
  | failed bs e =>
    unfold encode
    simp only [hemit, Emission.result, reduceCtorEq, false_and, exists_false]
  | done f =>
    rw [encode_of_emit_eq hemit]
    simp only [Emission.done.injEq, exists_eq_left']
    cases exceeded? limit f.length with
    | some l => simp only [reduceCtorEq, false_and]
    | none =>
      simp only [true_and]
      split
      case isTrue hlt =>
        simp only [reduceCtorEq, false_iff]
        omega
      case isFalse hle =>
        have hfits : f.length ≤ destination.length := by omega
        simp only [hfits, true_and, Except.ok.injEq, eq_comm]

/-- The frame of an encoded packet decodes to the normal form of the packet, under the same
    limit. -/
theorem decode_of_emit {f : Bytes} (hp : p.normal.Built) (h : p.emit = .done f)
    (hlimit : exceeded? limit f.length = none) :
    decode limit f = .ok ⟨p.normal, f.length, []⟩ :=
  decode_eq_ok_iff.mpr ⟨f, Packet.frame_of_emit hp h, hlimit, rfl, (List.append_nil f).symm⟩

/-- What is decoded under a limit is decoded without one. -/
theorem Framed.unlimited {s rest : Bytes} {ps : List (Packet × Nat)} (h : Framed limit s ps rest) :
    Framed none s ps rest := by
  induction h with
  | nil => exact .nil
  | cons hw _ ih =>
    obtain ⟨w', hframe, -, hsize, hrest⟩ := decode_eq_ok_iff.mp hw
    exact .cons (decode_eq_ok_iff.mpr ⟨w', hframe, rfl, hsize, hrest⟩) ih

/-- Frames with nothing behind them are as long as their packets together. -/
theorem Framed.length_eq {s : Bytes} {ps : List (Packet × Nat)} (h : Framed limit s ps []) :
    s.length = (ps.map Prod.snd).sum := by
  generalize hrest : ([] : Bytes) = rest at h
  induction h with
  | nil =>
    subst hrest
    rfl
  | cons _ _ ih =>
    rw [List.length_append, List.map_cons, List.sum_cons, ih hrest]

namespace Outbox

/-! ### What is behind the offset, and what is in front of it -/

/-- The outbox `o'` is `o` with the bytes `w` put behind those already there. -/
structure Filled (o : Outbox) (w : Bytes) (o' : Outbox) : Prop where
  /-- The destination keeps its size. -/
  length : o'.destination.length = o.destination.length
  /-- The offset is moved behind the new bytes. -/
  offset : o'.offset = o.offset + w.length
  /-- The destination ends behind the offset. -/
  room : o'.offset ≤ o'.destination.length
  /-- The new bytes stand in front of the offset, behind the old ones. -/
  front : o'.destination.take o'.offset = o.destination.take o.offset ++ w
  /-- What stands behind the offset is as before. -/
  back : o'.destination.drop o'.offset = o.destination.drop o'.offset

/-- An outbox is itself, with nothing put into it. -/
theorem Filled.refl {o : Outbox} (h : o.offset ≤ o.destination.length) : Filled o [] o where
  length := rfl
  offset := rfl
  room := h
  front := (List.append_nil _).symm
  back := rfl

/-- Bytes that are put in behind others are put in with them. -/
theorem Filled.trans {o o' o'' : Outbox} {w v : Bytes} (h : Filled o w o') (h' : Filled o' v o'') :
    Filled o (w ++ v) o'' where
  length := h'.length.trans h.length
  offset := by
    rw [h'.offset, h.offset, List.length_append, Nat.add_assoc]
  room := h'.room
  front := by
    rw [h'.front, h.front, List.append_assoc]
  back := by
    rw [h'.back, h'.offset, ← List.drop_drop, h.back, List.drop_drop]

/-- A packet that is written fills the outbox with its frame. -/
theorem filled_put {o o' : Outbox} {e : Encoded} (hroom : o.offset ≤ o.destination.length)
    (h : o.put limit p = .ok (o', e)) :
    ∃ f, p.emit = .done f ∧ exceeded? limit f.length = none ∧ e.size = f.length ∧
      Filled o f o' := by
  unfold put at h
  split at h
  case h_1 => cases h
  case h_2 e' hencode =>
    obtain ⟨f, hemit, hlimit, hfits, rfl⟩ := encode_eq_ok_iff.mp hencode
    obtain ⟨rfl, rfl⟩ := Prod.mk.inj (Except.ok.inj h)
    refine ⟨f, hemit, hlimit, rfl, ?_⟩
    rw [List.length_drop] at hfits
    have hfront : (o.destination.take o.offset).length = o.offset :=
      List.length_take_of_le hroom
    -- The destination is what was there before, the frame, and what is behind it.
    have hsplit : (o.destination.take o.offset ++ f).length = o.offset + f.length := by
      rw [List.length_append, hfront]
    have hassoc : o.destination.take o.offset ++
        (f ++ (o.destination.drop o.offset).drop f.length) =
          (o.destination.take o.offset ++ f) ++ o.destination.drop (o.offset + f.length) := by
      rw [List.drop_drop, List.append_assoc]
    have hlength : (o.destination.take o.offset ++
        (f ++ (o.destination.drop o.offset).drop f.length)).length = o.destination.length := by
      rw [List.length_append, length_destination_of_encode hencode, ← List.length_append,
        List.take_append_drop]
    refine ⟨hlength, rfl, ?_, ?_, ?_⟩
    · rw [hlength]
      show o.offset + f.length ≤ _
      omega
    · show (_ : Bytes).take (o.offset + f.length) = _
      rw [hassoc, List.take_left' hsplit]
    · show (_ : Bytes).drop (o.offset + f.length) = _
      rw [hassoc, List.drop_left' hsplit]

/-! ### All packets -/

/-- The packets that could be written, each with the number of bytes that came of it. -/
def written (ps : List Packet) (results : List (Except Error Nat)) : List (Packet × Nat) :=
  (ps.zip results).filterMap fun x => x.2.toOption.map fun n => (x.1, n)

/-- A packet that is written comes with its number of bytes. -/
@[simp] theorem written_cons_ok (p : Packet) (ps : List Packet) (n : Nat)
    (results : List (Except Error Nat)) :
    written (p :: ps) (.ok n :: results) = (p, n) :: written ps results := rfl

/-- A packet that cannot be written is left out. -/
@[simp] theorem written_cons_error (p : Packet) (ps : List Packet) (e : Error)
    (results : List (Except Error Nat)) :
    written (p :: ps) (.error e :: results) = written ps results := rfl

/-- If there is one result for each packet, then every number of bytes belongs to a packet. -/
theorem map_snd_written {ps : List Packet} {results : List (Except Error Nat)}
    (h : results.length = ps.length) :
    (written ps results).map Prod.snd = results.filterMap Except.toOption := by
  induction ps generalizing results with
  | nil =>
    obtain rfl := List.length_eq_zero_iff.mp h
    rfl
  | cons p ps ih =>
    match results with
    | .ok n :: results => exact congrArg (n :: ·) (ih (Nat.succ.inj h))
    | .error e :: results => exact ih (Nat.succ.inj h)

/-- Whatever was written was to be written. -/
theorem mem_of_mem_written {ps : List Packet} {results : List (Except Error Nat)}
    {x : Packet × Nat} (h : x ∈ written ps results) : x.1 ∈ ps := by
  obtain ⟨⟨p, result⟩, hmem, hx⟩ := List.mem_filterMap.mp h
  obtain ⟨n, -, rfl⟩ := Option.map_eq_some_iff.mp hx
  exact (List.of_mem_zip hmem).1

/-- After a packet that is written come the others. -/
theorem putAll_of_ok {o o' : Outbox} {e : Encoded} (h : o.put limit p = .ok (o', e))
    (ps : List Packet) :
    o.putAll limit (p :: ps) =
      ((o'.putAll limit ps).1, .ok e.size :: (o'.putAll limit ps).2) := by
  rw [putAll, h]

/-- A packet that cannot be written is passed over. -/
theorem putAll_of_error {o : Outbox} {e : Error} (h : o.put limit p = .error e)
    (ps : List Packet) :
    o.putAll limit (p :: ps) = ((o.putAll limit ps).1, .error e :: (o.putAll limit ps).2) := by
  rw [putAll, h]

/-- There is one result for each packet. -/
theorem length_putAll (o : Outbox) (ps : List Packet) :
    (o.putAll limit ps).2.length = ps.length := by
  induction ps generalizing o with
  | nil => rfl
  | cons p ps ih =>
    cases h : o.put limit p with
    | error e =>
      rw [putAll_of_error h]
      exact congrArg (· + 1) (ih o)
    | ok r =>
      rw [putAll_of_ok h]
      exact congrArg (· + 1) (ih r.1)

/-- Packets that cannot be written leave no trace: the others alone come to the same. -/
theorem putAll_written (o : Outbox) (ps : List Packet) :
    o.putAll limit ((written ps (o.putAll limit ps).2).map Prod.fst) =
      ((o.putAll limit ps).1, (written ps (o.putAll limit ps).2).map fun x => .ok x.2) := by
  induction ps generalizing o with
  | nil => rfl
  | cons p ps ih =>
    cases h : o.put limit p with
    | error e =>
      rw [putAll_of_error h]
      dsimp only
      rw [written_cons_error, ih o]
    | ok r =>
      rw [putAll_of_ok h]
      dsimp only
      rw [written_cons_ok, List.map_cons, putAll_of_ok h, ih r.1, List.map_cons]

/-- All packets together fill the outbox with the frames of those that could be written. -/
theorem filled_putAll {o : Outbox} {ps : List Packet} (hroom : o.offset ≤ o.destination.length)
    (hps : ∀ p ∈ ps, p.normal.Built) :
    ∃ w, Filled o w (o.putAll limit ps).1 ∧
      Framed limit w ((written ps (o.putAll limit ps).2).map fun x => (x.1.normal, x.2)) [] := by
  induction ps generalizing o with
  | nil => exact ⟨[], .refl hroom, .nil⟩
  | cons p ps ih =>
    obtain ⟨hp, hps⟩ := List.forall_mem_cons.mp hps
    cases h : o.put limit p with
    | error e =>
      rw [putAll_of_error h]
      dsimp only
      rw [written_cons_error]
      exact ih hroom hps
    | ok r =>
      obtain ⟨o', e⟩ := r
      obtain ⟨f, hemit, hlimit, hsize, hput⟩ := filled_put hroom h
      obtain ⟨w, hrest, hframed⟩ := ih hput.room hps
      rw [putAll_of_ok h]
      refine ⟨f ++ w, hput.trans hrest, ?_⟩
      show Framed limit (f ++ w) ((p.normal, e.size) :: _) []
      rw [hsize]
      exact .cons (decode_of_emit hp hemit hlimit) hframed

/-- **What was written is the stream of the packets that could be written.** Let documented packets
    that may be built be written into a destination, one behind the other. There is a result for
    each, and the offset is the sum of the sizes. The destination keeps its size, and nothing behind
    the offset is touched. What stands in front of it decodes, with the same limit or with none, to
    just the packets that could be written, in order: the same packets, with the same properties in
    the same order, and of the sizes that were said. Nothing is left over. The other packets leave
    no trace: without them, the outcome is the same. -/
theorem putAll_eq_stream {destination : Bytes} {ps : List Packet} {l : Option Int}
    (hps : ∀ p ∈ ps, p.Built ∧ p.Documented) (hl : l = none ∨ l = limit) :
    let run := ({ destination } : Outbox).putAll limit ps
    let sent := written ps run.2
    let stream := drain l (run.1.destination.take run.1.offset)
    run.2.length = ps.length ∧
      run.1.offset = (run.2.filterMap Except.toOption).sum ∧
      run.1.destination.length = destination.length ∧
      run.1.destination.drop run.1.offset = destination.drop run.1.offset ∧
      List.Forall₂ (fun x d => d.packet.same x.1 = true ∧ d.packet.keys = x.1.keys ∧
        d.packet.willKeys = x.1.willKeys ∧ d.size = x.2) sent stream.packets ∧
      stream.rest = [] ∧ stream.stop = .insufficientData ∧
      ({ destination } : Outbox).putAll limit (sent.map Prod.fst) =
        (run.1, sent.map fun x => .ok x.2) := by
  intro run sent stream
  have hbuilt : ∀ p ∈ ps, p.normal.Built := fun p hp =>
    (hps p hp).2.built_normal_iff.mpr (hps p hp).1
  have hroom : ({ destination } : Outbox).offset ≤ destination.length := Nat.zero_le _
  obtain ⟨w, hfilled, hframed⟩ :
      ∃ w, Filled { destination } w run.1 ∧
        Framed limit w (sent.map fun x => (x.1.normal, x.2)) [] := filled_putAll hroom hbuilt
  have hfront : run.1.destination.take run.1.offset = w := hfilled.front
  have hoffset : run.1.offset = w.length := hfilled.offset.trans (Nat.zero_add _)
  -- What was written is drained from its frames, under either limit.
  have hstream : Framed l w (sent.map fun x => (x.1.normal, x.2)) [] := by
    rcases hl with rfl | rfl
    · exact hframed.unlimited
    · exact hframed
  obtain ⟨hpackets, hrest, hstop⟩ := hstream.drain_eq rfl
  rw [← hfront] at hpackets hrest hstop
  have hmatch : List.Forall₂ (fun x d => x.1 ∈ ps ∧ (x.1.normal, x.2) = d.parcel) sent
      stream.packets := by
    rw [List.forall₂_and_left]
    refine ⟨fun x hx => mem_of_mem_written hx, ?_⟩
    have hparcels : List.Forall₂ (· = ·) (sent.map fun x => (x.1.normal, x.2))
        (stream.packets.map Decoded.parcel) := by
      rw [List.forall₂_eq_eq_eq]
      exact hpackets.symm
    exact List.forall₂_map_right_iff.mp (List.forall₂_map_left_iff.mp hparcels)
  refine ⟨length_putAll _ _, ?_, hfilled.length, hfilled.back, hmatch.imp ?_, hrest, hstop,
    putAll_written _ _⟩
  · rw [← map_snd_written (length_putAll _ _), hoffset, hframed.length_eq, List.map_map]
    rfl
  · rintro x d ⟨hx, hparcel⟩
    obtain ⟨hpacket, hsize⟩ := Prod.mk.inj hparcel
    have hdocumented := (hps x.1 hx).2
    obtain ⟨hkeys, hwillKeys⟩ := hdocumented.keys_normal
    rw [← hpacket, ← hsize]
    exact ⟨hdocumented.same_normal, hkeys, hwillKeys, rfl⟩

/-- A message may be built and is documented if it passes its checks and its properties are single
    values. -/
theorem built_message {p : Publish} (hcheck : p.check = .ok ())
    (hsingle : ∀ e ∈ p.properties.table.entries,
      e.1 ≠ .userProperty ∧ e.1.isListed = false ∧ ∃ s, e.2 = .one s) :
    (Packet.publish p).Built ∧ (Packet.publish p).Documented := by
  refine ⟨.of_check hcheck rfl, ?_, fun w hw => nomatch hw⟩
  intro q hq
  obtain rfl := Option.some.inj hq
  refine ⟨fun e he => (hsingle e he).1, fun e he => ?_⟩
  obtain ⟨-, hlisted, s, hs⟩ := hsingle e he
  rw [hs]
  exact .single hlisted

/-- Packets of which only the first and the fifth can be written into forty bytes, with a limit of
    thirty: the others hold a text with U+0000, a property that their carrier may not carry and too
    long a payload, or find no room. -/
def mixedBatch : List Packet :=
  [greeting,
   .publish { topic := [.null] },
   .publish
     { topic := Text.ofChars ['a'],
       properties := { table := ⟨[(.serverKeepAlive, .one (.number 5))], by decide⟩ } },
   .publish { topic := Text.ofChars ['a'], payload := List.replicate 40 0 },
   .pingreq,
   greeting]

/-- The packets may be built and are documented. -/
theorem built_mixedBatch : ∀ p ∈ mixedBatch, p.Built ∧ p.Documented := by
  have hgreeting : greeting.Built ∧ greeting.Documented :=
    ⟨.of_check (by decide +kernel) rfl, documented_greeting⟩
  have hping : Packet.pingreq.Built ∧ Packet.pingreq.Documented := by
    refine ⟨.of_check rfl rfl, fun q hq => ?_, fun w hw => ?_⟩
    · cases hq
    · cases hw
  have hnone : ∀ e ∈ ([] : List (PropertyKind × PropertyValue)),
      e.1 ≠ .userProperty ∧ e.1.isListed = false ∧ ∃ s, e.2 = .one s :=
    fun e he => absurd he List.not_mem_nil
  simp only [mixedBatch, List.forall_mem_cons, List.not_mem_nil, false_implies, implies_true,
    and_true]
  refine ⟨hgreeting, built_message (by decide) hnone, built_message (by decide) ?_,
    built_message (by decide) hnone, hping, hgreeting⟩
  intro e he
  obtain rfl := List.mem_singleton.mp he
  exact ⟨by decide, rfl, _, rfl⟩

/-- Two of the packets are written, and drained again. -/
theorem putAll_eq_stream_mixedBatch :
    let run := ({ destination := List.replicate 40 7 } : Outbox).putAll (some 30) mixedBatch
    let sent := written mixedBatch run.2
    let stream := drain none (run.1.destination.take run.1.offset)
    (∀ p ∈ mixedBatch, p.Built ∧ p.Documented) ∧ ((none : Option Int) = none ∨ none = some 30) ∧
      sent = [(greeting, 29), (.pingreq, 2)] ∧
      run.2.length = 6 ∧ run.1.offset = (run.2.filterMap Except.toOption).sum ∧
      run.1.destination.length = (List.replicate 40 (7 : UInt8)).length ∧
      run.1.destination.drop run.1.offset = (List.replicate 40 7).drop run.1.offset ∧
      List.Forall₂ (fun x d => d.packet.same x.1 = true ∧ d.packet.keys = x.1.keys ∧
        d.packet.willKeys = x.1.willKeys ∧ d.size = x.2) sent stream.packets ∧
      stream.rest = [] ∧ stream.stop = .insufficientData ∧
      ({ destination := List.replicate 40 7 } : Outbox).putAll (some 30) (sent.map Prod.fst) =
        (run.1, sent.map fun x => .ok x.2) :=
  ⟨built_mixedBatch, Or.inl rfl, by decide +kernel, putAll_eq_stream built_mixedBatch (Or.inl rfl)⟩

end Outbox

end Mqtt
