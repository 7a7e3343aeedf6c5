import Mqtt.Proofs.Codec.Acceptance
import Mqtt.Proofs.Codec.Canonical

/-!
# Topic filters

* `Packet.topicFilters` are the topic filters of a packet: those of the subscriptions of a SUBSCRIBE
  and those of an UNSUBSCRIBE.
* `Packet.Built.type_of_nil_mem`: a packet with an empty topic filter that may be built is an
  UNSUBSCRIBE. Subscriptions are checked one by one, the filters of an UNSUBSCRIBE are not.
* `exists_decode_of_emit`: what is written reads back with the same topic filters.
* `Packet.exists_emit_insert_nil`: an empty topic filter may be put anywhere into an UNSUBSCRIBE.
* `emptyFilter_only_in_unsubscribe`: so an empty topic filter passes, but in an UNSUBSCRIBE only.
-/

namespace Mqtt

variable {p : Packet} {f : Bytes}

/-- The topic filters of a packet. -/
def Packet.topicFilters : Packet → List Text
  | subscribe p => p.subscriptions.map Subscription.pattern
  | unsubscribe p => p.patterns
  | _ => []

/-- The normal form of a packet has its topic filters. -/
theorem Packet.topicFilters_normal (p : Packet) : p.normal.topicFilters = p.topicFilters := by
  cases p <;> rfl

/-- A packet with an empty topic filter that may be built is an UNSUBSCRIBE. -/
theorem Packet.Built.type_of_nil_mem (h : p.Built) (hnil : [] ∈ p.topicFilters) :
    p.type = .unsubscribe := by
  cases p with
  | unsubscribe p => rfl
  | subscribe p =>
    obtain ⟨s, hs, hpattern⟩ := List.mem_map.mp hnil
    exact absurd hpattern (Subscription.check_eq_ok_iff.mp (h.subscriptions s hs))
  | _ => exact absurd hnil List.not_mem_nil

/-- A packet with topic filters that may be built and is written decodes to a packet with just these
    topic filters, whatever bytes follow. -/
theorem exists_decode_of_emit (hbuilt : p.Built) (hne : p.topicFilters ≠ []) (h : p.emit = .done f)
    (t : Bytes) :
    ∃ d, decode none (f ++ t) = .ok d ∧ d.size = f.length ∧
      d.packet.topicFilters = p.topicFilters := by
  have hkeeps : p.losesAlias = false := by
    cases p with
    | publish p => exact absurd rfl hne
    | _ => rfl
  exact ⟨_, decode_append_of_emit (hbuilt.built_normal_iff.mpr hkeeps) h t, rfl,
    p.topicFilters_normal⟩

/-! ### Empty filters in an UNSUBSCRIBE -/

/-- The empty text is written as its length alone. -/
theorem Text.emit_nil : Text.emit [] = .done [0, 0] := by decide

/-- An empty topic filter takes two more bytes, wherever it is put. -/
theorem Unsubscribe.exists_emitBody_insert_nil {p : Unsubscribe} {xs ys : List Text} {w : Bytes}
    (hp : p.patterns = xs ++ ys) (h : p.emitBody = .done w) :
    ∃ w', emitBody { p with patterns := xs ++ [] :: ys } = .done w' ∧
      w'.length = w.length + 2 := by
  rw [emitBody, hp, Emission.concat_append] at h
  simp only [Emission.append_eq_done] at h
  obtain ⟨front, _, hfront, ⟨u, v, hu, hv, rfl⟩, rfl⟩ := h
  refine ⟨front ++ (u ++ ([0, 0] ++ v)), ?_, by simp; omega⟩
  rw [emitBody, Emission.concat_append, Emission.concat_cons, Text.emit_nil, hu, hv]
  simp only [Emission.done_append_done, Emission.append_eq_done]
  exact ⟨front, _, hfront, rfl, rfl⟩

/-- An empty topic filter may be put anywhere into an UNSUBSCRIBE that may be built: the packet may
    be built with it, and it is written if the longer body can be framed. -/
theorem Packet.exists_emit_insert_nil {p : Unsubscribe} {xs ys : List Text} {w : Bytes}
    (hbuilt : (unsubscribe p).Built) (hp : p.patterns = xs ++ ys) (h : p.emitBody = .done w)
    (hmax : w.length + 2 ≤ VarInt.max) :
    (unsubscribe { p with patterns := xs ++ [] :: ys }).Built ∧
      ∃ f, emit (unsubscribe { p with patterns := xs ++ [] :: ys }) = .done f := by
  obtain ⟨w', hw', hlen⟩ := Unsubscribe.exists_emitBody_insert_nil hp h
  obtain ⟨hid, -⟩ := Unsubscribe.check_eq_ok_iff.mp hbuilt.packet
  refine ⟨.of_check (Unsubscribe.check_eq_ok_iff.mpr ⟨hid, by simp⟩) rfl, ?_⟩
  exact ⟨_, emit_eq_done_iff.mpr ⟨w', hw', by omega, rfl⟩⟩

/-- **An empty topic filter passes in an UNSUBSCRIBE, and nowhere else.** Neither a decoded packet
    nor one that may be built and is written has an empty topic filter, unless it is an UNSUBSCRIBE.
    What is written reads back with the same topic filters. An empty topic filter may be put
    anywhere into an UNSUBSCRIBE: as long as the longer body can be framed, the packet may be built
    with it, is written, and reads back with it. -/
theorem emptyFilter_only_in_unsubscribe (limit : Option Int) (s : Bytes) (p : Packet) (f : Bytes) :
    (∀ d, decode limit s = .ok d → [] ∈ d.packet.topicFilters → d.packet.type = .unsubscribe) ∧
    (p.Built → p.emit = .done f →
      ([] ∈ p.topicFilters → p.type = .unsubscribe) ∧
      (p.topicFilters ≠ [] → ∀ t, ∃ d, decode none (f ++ t) = .ok d ∧ d.size = f.length ∧
        d.packet.topicFilters = p.topicFilters)) ∧
    ∀ (u : Unsubscribe) xs ys w, (Packet.unsubscribe u).Built → u.patterns = xs ++ ys →
      u.emitBody = .done w → w.length + 2 ≤ VarInt.max →
        ∃ g, Packet.emit (.unsubscribe { u with patterns := xs ++ [] :: ys }) = .done g ∧
          ∃ d, decode none g = .ok d ∧ d.size = g.length ∧
            d.packet.topicFilters = xs ++ [] :: ys := by
  refine ⟨fun d h hnil => ?_, fun hbuilt h => ⟨hbuilt.type_of_nil_mem,
    fun hne t => exists_decode_of_emit hbuilt hne h t⟩, ?_⟩
  · obtain ⟨w, hframe, -⟩ := decode_eq_ok_iff.mp h
    exact hframe.emit_settled.1.type_of_nil_mem hnil
  · intro u xs ys w hbuilt hu h hmax
    obtain ⟨hbuilt', g, hg⟩ := Packet.exists_emit_insert_nil hbuilt hu h hmax
    have hne : (Packet.unsubscribe { u with patterns := xs ++ [] :: ys }).topicFilters ≠ [] :=
      List.append_ne_nil_of_right_ne_nil _ (List.cons_ne_nil _ _)
    have hdecode := exists_decode_of_emit hbuilt' hne hg []
    rw [List.append_nil] at hdecode
    exact ⟨g, hg, hdecode⟩

/-- An UNSUBSCRIBE with a single topic filter. -/
def singleFilter : Unsubscribe := { packetId := 1, patterns := [Text.ofChars ['a']] }

/-- An empty topic filter is put in front of a single other one. -/
theorem emptyFilter_only_in_unsubscribe_singleFilter :
    (Packet.unsubscribe singleFilter).Built ∧
      ∃ g, Packet.emit (.unsubscribe
          { singleFilter with patterns := [[], Text.ofChars ['a']] }) = .done g ∧
        ∃ d, decode none g = .ok d ∧ d.size = g.length ∧
          d.packet.topicFilters = [[], Text.ofChars ['a']] := by
  have hbuilt : (Packet.unsubscribe singleFilter).Built := .of_check (by decide) rfl
  have hbody : singleFilter.emitBody = .done [0, 1, 0, 0, 1, 97] := by decide +kernel
  obtain ⟨-, -, hinsert⟩ :=
    emptyFilter_only_in_unsubscribe none [] (.unsubscribe singleFilter) []
  exact ⟨hbuilt, hinsert singleFilter [] _ _ hbuilt rfl hbody (by decide)⟩

/-- Not all topic filters that are received have at least one character. -/
theorem not_forall_topicFilters_ne_nil :
    ¬∀ s d, decode none s = .ok d → ∀ x ∈ d.packet.topicFilters, x ≠ [] := by
  intro h
  have hdecode : decode none [0xA2, 5, 0, 1, 0, 0, 0] =
      .ok ⟨.unsubscribe { packetId := 1, patterns := [[]] }, 7, []⟩ := by decide +kernel
  exact h _ _ hdecode [] (List.mem_singleton.mpr rfl) rfl

end Mqtt
