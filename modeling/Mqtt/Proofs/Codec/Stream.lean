import Mqtt.Proofs.Codec.Decoding
import Mqtt.Proofs.Wire.Stable
import Mqtt.Receiver

/-!
# Packets of a stream

* `decode_final`: what the decoder answers is final, unless it asks for more bytes, and it asks for
  more as long as a packet is not there to its end.
* `Framed` are bytes that consist of frames and a rest; `framed_drain` and `Framed.drain_eq` say
  that `drain` finds the frames of all bytes, and that there is but one way to do so.
* `Receiver.Follows` is the invariant of a receiver, which each chunk keeps (`Follows.feed`).
* `feedAll_eq_drain`: it makes no difference how a stream is cut into chunks.
-/

namespace Mqtt

variable {limit : Option Int}

/-! ### Answers that are final -/

/-- A fixed header is final as soon as it is there, or wrong. -/
theorem FixedHeader.stable_read : read.Stable :=
  (Integer.stable_read 1).bind fun _ => (Reader.stable_lift _).bind fun _ =>
    VarInt.stable_read.bind fun _ => Reader.stable_pure _

/-- A packet that is decoded is decoded whatever bytes follow. -/
theorem decode_append_of_ok {s : Bytes} {d : Decoded} (h : decode limit s = .ok d) (t : Bytes) :
    decode limit (s ++ t) = .ok ⟨d.packet, d.size, d.rest ++ t⟩ := by
  obtain ⟨w, hframe, hlimit, hsize, rfl⟩ := decode_eq_ok_iff.mp h
  exact decode_eq_ok_iff.mpr ⟨w, hframe, hlimit, hsize, List.append_assoc _ _ _⟩

/-- A packet is decoded from its own bytes alone. -/
theorem decode_frame_of_ok {s : Bytes} {d : Decoded} (h : decode limit s = .ok d) :
    ∃ w, s = w ++ d.rest ∧ d.size = w.length ∧ decode limit w = .ok ⟨d.packet, w.length, []⟩ := by
  obtain ⟨w, hframe, hlimit, hsize, rfl⟩ := decode_eq_ok_iff.mp h
  exact ⟨w, rfl, hsize, decode_eq_ok_iff.mpr ⟨w, hframe, hlimit, rfl, (List.append_nil w).symm⟩⟩

/-- Bytes that are refused are refused for the same reason whatever bytes follow. -/
theorem decode_append_of_error {s : Bytes} {e : Error} (h : decode limit s = .error e)
    (he : e ≠ .insufficientData) (t : Bytes) : decode limit (s ++ t) = .error e := by
  cases hread : FixedHeader.read s with
  | error e' =>
    unfold decode at h ⊢
    rw [hread] at h
    cases h
    rw [FixedHeader.stable_read.error hread he]
  | ok r =>
    obtain ⟨header, u⟩ := r
    obtain ⟨hd, hform, rfl⟩ := FixedHeader.reads_form.mp hread
    rw [decode_append_of_header hform] at h
    rw [List.append_assoc, decode_append_of_header hform]
    cases hlimit : exceeded? limit (hd.length + header.remaining) with
    | some l => rwa [hlimit] at h
    | none =>
      rw [hlimit] at h
      dsimp only at h ⊢
      split at h
      case isTrue =>
        cases h
        exact absurd rfl he
      case isFalse hlen =>
        -- The body is all there, so the bytes that follow are not looked at.
        have hle : header.remaining ≤ u.length := by omega
        rw [if_neg (by rw [List.length_append]; omega), List.take_append_of_le_length hle]
        cases hp : decodeBody header.type header.flags (u.take header.remaining) with
        | error e' => rwa [hp] at h
        | ok p => rw [hp] at h; cases h

/-- The bytes of a packet are refused as too few if some of them are missing at the end. -/
theorem decode_of_proper_prefix {s u : Bytes} {d : Decoded} (h : decode limit s = .ok d)
    (hu : u <+: s.take d.size) (hne : u ≠ s.take d.size) :
    decode limit u = .error .insufficientData := by
  obtain ⟨w, hs, hsize, hw⟩ := decode_frame_of_ok h
  have hframe : s.take d.size = w := by rw [hs, hsize, List.take_left]
  rw [hframe] at hu hne
  obtain ⟨v, rfl⟩ := hu
  -- Any other answer would be final, but the whole frame is decoded, and to its end.
  cases hdecode : decode limit u with
  | ok d' =>
    have hlonger := decode_append_of_ok hdecode v
    rw [hw] at hlonger
    have hlength : (u ++ v).length = d'.size := congrArg Decoded.size (Except.ok.inj hlonger)
    obtain ⟨w', hu', hsize', -⟩ := decode_frame_of_ok hdecode
    have hle : d'.size ≤ u.length := by
      rw [hu', List.length_append]
      omega
    have hv : v = [] := by
      rw [List.length_append] at hlength
      exact List.eq_nil_of_length_eq_zero (by omega)
    rw [hv, List.append_nil] at hne
    exact absurd rfl hne
  | error e =>
    by_contra hmore
    have he : e ≠ .insufficientData := fun he => hmore (congrArg Except.error he)
    rw [decode_append_of_error hdecode he v] at hw
    cases hw

/-- **The verdict of the decoder is final.** A packet that is decoded is decoded whatever bytes
    follow, with the same size, and no proper prefix of its bytes is taken for a packet or refused
    for good: the decoder asks for more. Bytes that are refused for another reason than being too
    few are refused for this reason whatever bytes follow. -/
theorem decode_final (limit : Option Int) (s : Bytes) :
    (∀ d, decode limit s = .ok d →
      (∀ t, decode limit (s ++ t) = .ok ⟨d.packet, d.size, d.rest ++ t⟩) ∧
      ∀ u, u <+: s.take d.size → u ≠ s.take d.size →
        decode limit u = .error .insufficientData) ∧
    ∀ e, decode limit s = .error e → e ≠ .insufficientData →
      ∀ t, decode limit (s ++ t) = .error e :=
  ⟨fun _ h => ⟨decode_append_of_ok h, fun _ => decode_of_proper_prefix h⟩,
    fun _ => decode_append_of_error⟩

/-! ### Frames in a row -/

/-- A packet and its size, without what stood behind it. -/
def Decoded.parcel (d : Decoded) : Packet × Nat := (d.packet, d.size)

/-- How many bytes the packets take together. -/
def offset : List (Packet × Nat) → Nat
  | [] => 0
  | p :: ps => p.2 + offset ps

/-- The bytes are frames of these packets, one behind the other, and then the rest. Each packet is
    decoded from its own frame. -/
inductive Framed (limit : Option Int) : Bytes → List (Packet × Nat) → Bytes → Prop
  | nil {s : Bytes} : Framed limit s [] s
  | cons {w s rest : Bytes} {p : Packet} {ps : List (Packet × Nat)} :
      decode limit w = .ok ⟨p, w.length, []⟩ → Framed limit s ps rest →
      Framed limit (w ++ s) ((p, w.length) :: ps) rest

namespace Framed

variable {s t rest : Bytes} {ps qs : List (Packet × Nat)} {e : Error}

/-- Bytes that follow come to the rest. -/
theorem append (h : Framed limit s ps rest) (t : Bytes) : Framed limit (s ++ t) ps (rest ++ t) := by
  induction h with
  | nil => exact .nil
  | cons hw _ ih =>
    rw [List.append_assoc]
    exact .cons hw ih

/-- The rest may consist of further frames. -/
theorem trans (h : Framed limit s ps t) (h' : Framed limit t qs rest) :
    Framed limit s (ps ++ qs) rest := by
  induction h with
  | nil => exact h'
  | cons hw _ ih => exact .cons hw (ih h')

/-- The rest stands behind all packets. -/
theorem drop_eq (h : Framed limit s ps rest) : s.drop (offset ps) = rest := by
  induction h with
  | nil => rfl
  | cons _ _ ih => rw [offset, ← List.drop_drop, List.drop_left, ih]

end Framed

/-! ### Draining -/

/-- Nothing is taken off bytes that are refused. -/
theorem drain_of_error {s : Bytes} {e : Error} (h : decode limit s = .error e) :
    drain limit s = ⟨[], s, e⟩ := by
  rw [drain]
  split
  case h_1 e' h' =>
    obtain rfl := Except.error.inj (h.symm.trans h')
    rfl
  case h_2 d h' =>
    rw [h] at h'
    cases h'

/-- A packet is taken off, and then the bytes behind it are drained. -/
theorem drain_of_ok {s : Bytes} {d : Decoded} (h : decode limit s = .ok d) :
    drain limit s =
      { drain limit d.rest with packets := d :: (drain limit d.rest).packets } := by
  rw [drain]
  split
  case h_1 e h' =>
    rw [h] at h'
    cases h'
  case h_2 d' h' =>
    obtain rfl := Except.ok.inj (h.symm.trans h')
    rfl

/-- Draining finds frames, up to bytes that are refused. -/
theorem framed_drain (limit : Option Int) (s : Bytes) :
    Framed limit s ((drain limit s).packets.map Decoded.parcel) (drain limit s).rest ∧
      decode limit (drain limit s).rest = .error (drain limit s).stop := by
  induction s using drain.induct limit with
  | case1 s e h =>
    rw [drain_of_error h]
    exact ⟨.nil, h⟩
  | case2 s d h _ ih =>
    obtain ⟨hframed, hstop⟩ := ih
    obtain ⟨w, hs, hsize, hw⟩ := decode_frame_of_ok h
    rw [drain_of_ok h]
    refine ⟨?_, hstop⟩
    rw [List.map_cons, Decoded.parcel, hs, hsize]
    exact .cons hw hframed

/-- Frames up to bytes that are refused are what draining finds. -/
theorem Framed.drain_eq {s rest : Bytes} {ps : List (Packet × Nat)} {e : Error}
    (h : Framed limit s ps rest) (he : decode limit rest = .error e) :
    (drain limit s).packets.map Decoded.parcel = ps ∧ (drain limit s).rest = rest ∧
      (drain limit s).stop = e := by
  induction h with
  | nil =>
    rw [drain_of_error he]
    exact ⟨rfl, rfl, rfl⟩
  | @cons w s _ p _ hw _ ih =>
    obtain ⟨hps, hrest, hstop⟩ := ih he
    have hdecode : decode limit (w ++ s) = .ok ⟨p, w.length, s⟩ := decode_append_of_ok hw s
    rw [drain_of_ok hdecode]
    exact ⟨congrArg _ hps, hrest, hstop⟩

/-! ### Receiving -/

namespace Receiver

/-- What holds of a receiver that got the bytes `s` and delivered the packets `ps`: it waits for
    more bytes behind those in its buffer, or it has stopped, and what stands in its buffer and came
    after that is refused. -/
inductive Follows (r : Receiver) (s : Bytes) (ps : List (Packet × Nat)) : Prop
  | waiting : r.failure? = none → Framed r.limit s ps r.buffer →
      decode r.limit r.buffer = .error .insufficientData → Follows r s ps
  | stopped {e : Error} (dropped : Bytes) : r.failure? = some e → e ≠ .insufficientData →
      Framed r.limit s ps (r.buffer ++ dropped) →
      decode r.limit (r.buffer ++ dropped) = .error e → Follows r s ps

variable {r : Receiver} {s : Bytes} {ps : List (Packet × Nat)}

/-- A new receiver got nothing and delivered nothing. -/
theorem follows_nil (limit : Option Int) : Follows { limit } [] [] :=
  .waiting rfl .nil rfl

/-- Each chunk keeps the invariant. -/
theorem Follows.feed (h : r.Follows s ps) (chunk : Bytes) :
    (r.feed chunk).1.Follows (s ++ chunk) (ps ++ (r.feed chunk).2.map Decoded.parcel) := by
  unfold Receiver.feed
  cases h with
  | stopped dropped hfailure he hframed hdecode =>
    rw [hfailure]
    dsimp only
    rw [List.map_nil, List.append_nil]
    -- The chunk is dropped, and what is refused stays refused with it.
    refine .stopped (dropped ++ chunk) hfailure he ?_ ?_
    · rw [← List.append_assoc]
      exact hframed.append chunk
    · rw [← List.append_assoc]
      exact decode_append_of_error hdecode he chunk
  | waiting hfailure hframed _ =>
    rw [hfailure]
    dsimp only
    -- The frames of the buffer and the chunk come behind those that were delivered.
    obtain ⟨hdrained, hstop⟩ := framed_drain r.limit (r.buffer ++ chunk)
    have hall := (hframed.append chunk).trans hdrained
    by_cases hmore : (drain r.limit (r.buffer ++ chunk)).stop = .insufficientData
    · rw [if_pos hmore]
      exact .waiting rfl hall (hmore ▸ hstop)
    · rw [if_neg hmore]
      refine .stopped [] rfl hmore ?_ ?_
      · rw [List.append_nil]
        exact hall
      · rw [List.append_nil]
        exact hstop

/-- All chunks together keep the invariant. -/
theorem Follows.feedAll (h : r.Follows s ps) (chunks : List Bytes) :
    (r.feedAll chunks).1.Follows (s ++ chunks.flatten)
      (ps ++ (r.feedAll chunks).2.map Decoded.parcel) := by
  induction chunks generalizing r s ps with
  | nil =>
    rw [List.flatten_nil, List.append_nil]
    show r.Follows s (ps ++ [])
    rwa [List.append_nil]
  | cons chunk chunks ih =>
    have hrun := ih (h.feed chunk)
    rw [List.append_assoc, List.append_assoc, ← List.map_append] at hrun
    rw [List.flatten_cons]
    exact hrun

/-- A receiver has delivered all frames up to bytes that are refused, and knows why they are, unless
    more bytes may help. Its buffer starts where these bytes do. -/
theorem Follows.exists_rest (h : r.Follows s ps) :
    ∃ rest e, Framed r.limit s ps rest ∧ decode r.limit rest = .error e ∧
      r.failure? = (if e = .insufficientData then none else some e) ∧
      (e = .insufficientData → r.buffer = rest) ∧ r.buffer <+: rest := by
  cases h with
  | waiting hfailure hframed hdecode =>
    exact ⟨_, _, hframed, hdecode, hfailure, fun _ => rfl, List.prefix_rfl⟩
  | stopped _ hfailure he hframed hdecode =>
    exact ⟨_, _, hframed, hdecode, hfailure.trans (if_neg he).symm, fun h => absurd h he,
      List.prefix_append _ _⟩

/-- A chunk does not change the limit. -/
theorem limit_feed (r : Receiver) (chunk : Bytes) : (r.feed chunk).1.limit = r.limit := by
  unfold feed
  split <;> rfl

/-- Chunks do not change the limit. -/
theorem limit_feedAll (r : Receiver) (chunks : List Bytes) :
    (r.feedAll chunks).1.limit = r.limit := by
  induction chunks generalizing r with
  | nil => rfl
  | cons chunk chunks ih => exact (ih _).trans (limit_feed r chunk)

/-- **It makes no difference how a stream is cut into chunks.** A receiver delivers the packets that
    draining the whole stream finds, in the same order. It ends with the same error, at the same
    place of the stream, or it waits with the same rest in its buffer. Each of the packets is
    decoded from its own frame, and the frames stand one behind the other in the stream. -/
theorem feedAll_eq_drain (limit : Option Int) (chunks : List Bytes) :
    let run := ({ limit } : Receiver).feedAll chunks
    let whole := drain limit chunks.flatten
    run.2.map Decoded.parcel = whole.packets.map Decoded.parcel ∧
      run.1.failure? = (if whole.stop = .insufficientData then none else some whole.stop) ∧
      (whole.stop = .insufficientData → run.1.buffer = whole.rest) ∧
      run.1.buffer <+: whole.rest ∧
      decode limit whole.rest = .error whole.stop ∧
      whole.rest = chunks.flatten.drop (offset (run.2.map Decoded.parcel)) ∧
      Framed limit chunks.flatten (run.2.map Decoded.parcel) whole.rest := by
  intro run whole
  have hlimit : run.1.limit = limit := limit_feedAll _ chunks
  have hfollows : run.1.Follows chunks.flatten (run.2.map Decoded.parcel) :=
    (follows_nil limit).feedAll chunks
  obtain ⟨rest, e, hframed, hdecode, hfailure, hwaiting, hbuffer⟩ := hfollows.exists_rest
  rw [hlimit] at hframed hdecode
  obtain ⟨hpackets, hrest, hstop⟩ := hframed.drain_eq hdecode
  rw [hpackets, hrest, hstop]
  exact ⟨rfl, hfailure, hwaiting, hbuffer, hdecode, hframed.drop_eq.symm, hframed⟩

end Receiver

end Mqtt
