import Mqtt.Element.Edit
import Mqtt.Proofs.Packet.Reading

/-!
# What assignments keep

An element that is built passes the checks of its single fields and those of fields that have to go
together. An assignment is checked for its own field only.

* `Element.checkFields` are the checks of single fields, and `Rule` are the rules for fields that
  have to go together. `Element.check_eq_ok_iff`: an element may be built if it passes both.
* `Kept a e e'` is what the assignment `a` keeps of `e` in `e'`; `Element.kept_assign`: whatever is
  assigned keeps it.
* `Session.Follows e s` is the invariant of a session that started with `e`, which each attempt
  keeps. `Session.attemptAll_keeps`: what holds after any attempts to assign something.
* `Rule.exists_broken`: there is no rule that all assignments keep.
-/

namespace Mqtt

/-! ### Single fields and fields that go together -/

/-- Fails for a packet with a field that is wrong on its own. -/
def Packet.checkFields : Packet → Except Error Unit
  | connect _ | pingreq | pingresp => .ok ()
  | connack p => p.check
  | publish p => p.checkField
  | puback p => p.check (.packet .puback)
  | pubrec p => p.check (.packet .pubrec)
  | pubrel p => p.check (.packet .pubrel)
  | pubcomp p => p.check (.packet .pubcomp)
  | subscribe p => checkPacketId p.packetId
  | suback p => p.check (.packet .suback)
  | unsubscribe p => checkPacketId p.packetId
  | unsuback p => p.check (.packet .unsuback)
  | disconnect p => p.check
  | auth p => p.check

/-- Fails for an element with a field that is wrong on its own. -/
def Element.checkFields : Element → Except Error Unit
  | packet p => p.checkFields
  | response p => p.check .response
  | will _ | bare _ | subscription _ => .ok ()

/-- A rule for fields that have to go together, or that have to be filled. -/
inductive Rule where
  /-- A message has a packet identifier exactly above QoS 0. -/
  | identifier
  /-- A message at QoS 0 is no duplicate. -/
  | duplicate
  /-- The topic of a message has no wildcard. -/
  | wildcard
  /-- The topic of a message is not empty, or an alias is there for it. -/
  | topic
  /-- A SUBSCRIBE has a subscription. -/
  | subscriptions
  /-- An UNSUBSCRIBE has a topic filter. -/
  | patterns
  /-- The topic filter of a subscription is not empty. -/
  | pattern
  deriving DecidableEq

namespace Rule

/-- Whether the rule holds of an element. It holds of those that it is not about. -/
def holds : Rule → Element → Bool
  | identifier, .packet (.publish p) => p.packetId.isSome == (p.qos != .atMostOnce)
  | duplicate, .packet (.publish p) => p.qos != .atMostOnce || !p.duplicate
  | wildcard, .packet (.publish p) => !p.topic.any Publish.isWildcard
  | topic, .packet (.publish p) => !p.topic.isEmpty || p.properties.table.contains .topicAlias
  | subscriptions, .packet (.subscribe p) => !p.subscriptions.isEmpty
  | patterns, .packet (.unsubscribe p) => !p.patterns.isEmpty
  | pattern, .subscription s => !s.pattern.isEmpty
  | _, _ => true

/-- Whether the rule is about the field that is assigned. -/
def reads : Rule → Assignment → Bool
  | identifier, .packetId _ | identifier, .qos _ => true
  | duplicate, .duplicate _ | duplicate, .qos _ => true
  | wildcard, .topic _ => true
  | topic, .topic _ | topic, .properties _ => true
  | subscriptions, .subscriptions _ => true
  | patterns, .patterns _ => true
  | pattern, .pattern _ => true
  | _, _ => false

end Rule

/-- A message may be built if its packet identifier is right on its own and it keeps the rules. -/
theorem Publish.check_eq_ok_iff_rules {p : Publish} :
    p.check = .ok () ↔
      p.checkField = .ok () ∧ ∀ r : Rule, r.holds (.packet (.publish p)) = true := by
  have hdelivery : p.checkDelivery = .ok () ↔
      Rule.identifier.holds (.packet (.publish p)) = true ∧
        Rule.duplicate.holds (.packet (.publish p)) = true := by
    simp only [Rule.holds, checkDelivery]
    cases p.qos <;> cases p.packetId <;> cases p.duplicate <;> simp
  have htopic : p.checkTopic = .ok () ↔
      Rule.wildcard.holds (.packet (.publish p)) = true ∧
        Rule.topic.holds (.packet (.publish p)) = true := by
    simp only [Rule.holds, checkTopic]
    cases p.topic.any isWildcard <;> cases p.topic.isEmpty <;>
      cases p.properties.table.contains .topicAlias <;> simp
  rw [check, Except.seq_eq_ok_iff, Except.seq_eq_ok_iff, hdelivery, htopic]
  apply and_congr_right
  intro _
  constructor
  · rintro ⟨⟨hid, hdup⟩, hwild, hempty⟩ r
    cases r with
    | identifier => exact hid
    | duplicate => exact hdup
    | wildcard => exact hwild
    | topic => exact hempty
    | _ => rfl
  · intro h
    exact ⟨⟨h .identifier, h .duplicate⟩, h .wildcard, h .topic⟩

/-- If one rule only is about an element, all rules hold if that one does. -/
theorem Rule.forall_holds_iff {e : Element} (r : Rule)
    (h : ∀ r' : Rule, r' ≠ r → r'.holds e = true) :
    (∀ r' : Rule, r'.holds e = true) ↔ r.holds e = true := by
  constructor
  · intro hall
    exact hall r
  · intro hr r'
    by_cases heq : r' = r
    · rw [heq]
      exact hr
    · exact h r' heq

namespace Element

variable {e e' : Element} {a : Assignment}

/-- **An element may be built** if each of its fields is right on its own and it keeps the rules for
    fields that have to go together. -/
theorem check_eq_ok_iff (e : Element) :
    e.check = .ok () ↔ e.checkFields = .ok () ∧ ∀ r : Rule, r.holds e = true := by
  cases e with
  | packet p =>
    cases p with
    | publish p => exact Publish.check_eq_ok_iff_rules
    | subscribe p =>
      have honly : ∀ r : Rule, r ≠ .subscriptions → r.holds (packet (.subscribe p)) = true := by
        intro r hr
        cases r with
        | subscriptions => contradiction
        | _ => rfl
      rw [Rule.forall_holds_iff .subscriptions honly]
      show p.check = _ ↔ checkPacketId p.packetId = _ ∧ (!p.subscriptions.isEmpty) = true
      rw [Subscribe.check_eq_ok_iff, Bool.not_eq_true', List.isEmpty_eq_false_iff]
    | unsubscribe p =>
      have honly : ∀ r : Rule, r ≠ .patterns → r.holds (packet (.unsubscribe p)) = true := by
        intro r hr
        cases r with
        | patterns => contradiction
        | _ => rfl
      rw [Rule.forall_holds_iff .patterns honly]
      show p.check = _ ↔ checkPacketId p.packetId = _ ∧ (!p.patterns.isEmpty) = true
      rw [Unsubscribe.check_eq_ok_iff, Bool.not_eq_true', List.isEmpty_eq_false_iff]
    | _ =>
      -- No rule is about the other packets.
      exact (and_iff_left fun r => by cases r <;> rfl).symm
  | subscription s =>
    have honly : ∀ r : Rule, r ≠ .pattern → r.holds (subscription s) = true := by
      intro r hr
      cases r with
      | pattern => contradiction
      | _ => rfl
    rw [Rule.forall_holds_iff .pattern honly]
    show s.check = _ ↔ Except.ok () = _ ∧ (!s.pattern.isEmpty) = true
    rw [Subscription.check_eq_ok_iff, Bool.not_eq_true', List.isEmpty_eq_false_iff,
      and_iff_right rfl]
  | will w | response p | bare p => exact (and_iff_left fun r => by cases r <;> rfl).symm

end Element

/-! ### The form in which properties are kept -/

/-- A table is brought into the form in which it is kept once and for all. -/
theorem PropertyTable.listed_listed (t : PropertyTable) : t.listed.listed = t.listed := by
  apply ext
  simp only [listed, List.map_map]
  apply List.map_congr_left
  rintro ⟨k, v⟩ -
  cases hk : k.isListed <;> simp [hk, PropertyValue.scalars]

namespace Element

variable {e e' : Element} {a : Assignment}

/-- The properties that an element is given are those that it has, unless it has none at all. -/
theorem properties?_withProperties (e : Element) (q : Properties) :
    (e.withProperties q).properties? = e.properties?.map fun _ => q := by
  cases e with
  | packet p => cases p <;> rfl
  | _ => rfl

/-- An element that is given the properties that it has stays as it is. -/
theorem withProperties_self {q : Properties} (h : e.properties? = some q) :
    e.withProperties q = e := by
  cases e with
  | packet p =>
    cases p with
    | pingreq | pingresp => rfl
    | _ =>
      obtain rfl := Option.some.inj h
      rfl
  | subscription s => rfl
  | _ =>
    obtain rfl := Option.some.inj h
    rfl

/-- Other properties do not matter to the checks of single fields. -/
theorem checkFields_withProperties (e : Element) (q : Properties) :
    (e.withProperties q).checkFields = e.checkFields := by
  cases e with
  | packet p => cases p <;> rfl
  | _ => rfl

/-- The properties of the form in which an element is kept. -/
theorem properties?_listed (e : Element) : e.listed.properties? = e.properties?.map .listed := by
  unfold listed
  cases h : e.properties? with
  | none => exact h
  | some p =>
    show (e.withProperties p.listed).properties? = _
    rw [properties?_withProperties, h]
    rfl

/-- An element is in the form in which it is kept if its properties are. -/
theorem listed_eq_self_iff : e.listed = e ↔ ∀ p ∈ e.properties?, p.listed = p := by
  constructor
  · intro h p hp
    have hlisted := properties?_listed e
    rw [h, hp] at hlisted
    exact (Option.some.inj hlisted).symm
  · intro h
    unfold listed
    split
    · rfl
    · next p hp =>
      rw [h p hp]
      exact withProperties_self hp

/-- What is built is in the form in which it is kept and passes its check. -/
theorem build_eq_ok_iff {e₀ : Element} : build e₀ = .ok e ↔ e = e₀.listed ∧ e.check = .ok () := by
  unfold build
  rw [Except.seq_eq_ok_iff]
  constructor
  · rintro ⟨hcheck, ⟨⟩⟩
    exact ⟨rfl, hcheck⟩
  · rintro ⟨rfl, hcheck⟩
    exact ⟨hcheck, rfl⟩

/-- An element comes out of its constructor as it went in exactly if it is in the form in which it
    is kept, its fields are right on their own, and it keeps the rules. -/
theorem build_self_iff :
    build e = .ok e ↔
      e.listed = e ∧ e.checkFields = .ok () ∧ ∀ r : Rule, r.holds e = true := by
  rw [build_eq_ok_iff, check_eq_ok_iff, eq_comm]

/-- What is built comes out of its constructor again as it is. -/
theorem build_of_build {e₀ : Element} (h : build e₀ = .ok e) : build e = .ok e := by
  obtain ⟨rfl, hcheck⟩ := build_eq_ok_iff.mp h
  rw [build_eq_ok_iff]
  refine ⟨(listed_eq_self_iff.mpr fun p hp => ?_).symm, hcheck⟩
  rw [properties?_listed] at hp
  obtain ⟨q, -, rfl⟩ := Option.map_eq_some_iff.mp hp
  show Properties.mk q.table.listed.listed q.user = _
  rw [PropertyTable.listed_listed]
  rfl

end Element

/-! ### One assignment -/

/-- What the assignment `a` keeps of `e` in `e'`: the form of the properties, the checks of single
    fields, and the rules that are not about the field that is assigned. -/
structure Kept (a : Assignment) (e e' : Element) : Prop where
  listed : e.listed = e → e'.listed = e'
  fields : e.checkFields = .ok () → e'.checkFields = .ok ()
  rules : ∀ r : Rule, r.reads a = false → r.holds e' = r.holds e

/-- An assignment that leaves the properties alone keeps their form. -/
theorem Kept.of_properties {a : Assignment} {e e' : Element} (hp : e'.properties? = e.properties?)
    (hfields : e.checkFields = .ok () → e'.checkFields = .ok ())
    (hrules : ∀ r : Rule, r.reads a = false → r.holds e' = r.holds e) : Kept a e e' where
  listed := by
    rw [Element.listed_eq_self_iff, Element.listed_eq_self_iff, hp]
    exact id
  fields := hfields
  rules := hrules

variable {a : Assignment}

/-- An assignment to a message keeps what it is not about. -/
theorem Publish.kept_assign {p q : Publish} (h : p.assign a = .ok q) :
    Kept a (.packet (.publish p)) (.packet (.publish q)) := by
  cases a with
  | topic t =>
    cases h
    refine .of_properties rfl id fun r hr => ?_
    cases r with
    | wildcard | topic => cases hr
    | _ => rfl
  | packetId n =>
    obtain ⟨hcheck, hq⟩ := Except.seq_eq_ok_iff.mp h
    cases hq
    refine .of_properties rfl (fun _ => hcheck) fun r hr => ?_
    cases r with
    | identifier => cases hr
    | _ => rfl
  | qos q =>
    cases h
    refine .of_properties rfl id fun r hr => ?_
    cases r with
    | identifier | duplicate => cases hr
    | _ => rfl
  | duplicate b =>
    cases h
    refine .of_properties rfl id fun r hr => ?_
    cases r with
    | duplicate => cases hr
    | _ => rfl
  | payload bs | retain b =>
    -- No rule is about these.
    cases h
    refine .of_properties rfl id fun r _ => ?_
    cases r <;> rfl
  | _ => cases h

/-- An assignment to a SUBSCRIBE keeps what it is not about. -/
theorem Subscribe.kept_assign {p q : Subscribe} (h : p.assign a = .ok q) :
    Kept a (.packet (.subscribe p)) (.packet (.subscribe q)) := by
  unfold assign at h
  split at h
  case h_1 n =>
    obtain ⟨hcheck, hq⟩ := Except.seq_eq_ok_iff.mp h
    cases hq
    refine .of_properties rfl (fun _ => hcheck) fun r _ => ?_
    cases r <;> rfl
  case h_2 ss =>
    cases h
    refine .of_properties rfl id fun r hr => ?_
    cases r with
    | subscriptions => cases hr
    | _ => rfl
  case h_3 => cases h

/-- An assignment to an UNSUBSCRIBE keeps what it is not about. -/
theorem Unsubscribe.kept_assign {p q : Unsubscribe} (h : p.assign a = .ok q) :
    Kept a (.packet (.unsubscribe p)) (.packet (.unsubscribe q)) := by
  unfold assign at h
  split at h
  case h_1 n =>
    obtain ⟨hcheck, hq⟩ := Except.seq_eq_ok_iff.mp h
    cases hq
    refine .of_properties rfl (fun _ => hcheck) fun r _ => ?_
    cases r <;> rfl
  case h_2 ts =>
    cases h
    refine .of_properties rfl id fun r hr => ?_
    cases r with
    | patterns => cases hr
    | _ => rfl
  case h_3 => cases h

/-- An assignment to a subscription keeps what it is not about. -/
theorem Subscription.kept_assign {s t : Subscription} (h : s.assign a = .ok t) :
    Kept a (.subscription s) (.subscription t) := by
  cases a with
  | pattern x =>
    cases h
    refine .of_properties rfl id fun r hr => ?_
    cases r with
    | pattern => cases hr
    | _ => rfl
  | maxQos q | noLocal b | retainAsPublished b | retainHandling r =>
    -- No rule is about these.
    cases h
    refine .of_properties rfl id fun r _ => ?_
    cases r <;> rfl
  | _ => cases h

/-- An assignment to a CONNECT leaves its properties alone. -/
theorem Connect.properties_assign {p q : Connect} (h : p.assign a = .ok q) :
    q.properties = p.properties := by
  unfold assign at h
  split at h <;> cases h <;> rfl

/-- An assignment to a will leaves its properties alone. -/
theorem Will.properties_assign {w v : Will} (h : w.assign a = .ok v) :
    v.properties = w.properties := by
  unfold assign at h
  split at h <;> cases h <;> rfl

/-- An assignment to a CONNACK leaves its properties alone and keeps its check. -/
theorem ConnAck.check_assign {p q : ConnAck} (h : p.assign a = .ok q) :
    q.properties = p.properties ∧ (p.check = .ok () → q.check = .ok ()) := by
  unfold assign at h
  split at h
  case h_1 r =>
    obtain ⟨hcheck, hq⟩ := Except.seq_eq_ok_iff.mp h
    cases hq
    exact ⟨rfl, fun _ => hcheck⟩
  case h_2 =>
    cases h
    exact ⟨rfl, id⟩
  case h_3 => cases h

/-- An assignment to a response leaves its properties alone and keeps its check. -/
theorem PublishResponse.check_assign {c : Carrier} {p q : PublishResponse}
    (h : p.assign c a = .ok q) :
    q.properties = p.properties ∧ (p.check c = .ok () → q.check c = .ok ()) := by
  unfold assign at h
  unfold check
  rw [Except.seq_eq_ok_iff, Except.seq_eq_ok_iff]
  split at h
  case h_1 n =>
    obtain ⟨hcheck, hq⟩ := Except.seq_eq_ok_iff.mp h
    cases hq
    exact ⟨rfl, fun hp => ⟨hcheck, hp.2⟩⟩
  case h_2 r =>
    obtain ⟨hcheck, hq⟩ := Except.seq_eq_ok_iff.mp h
    cases hq
    exact ⟨rfl, fun hp => ⟨hp.1, hcheck⟩⟩
  case h_3 => cases h

/-- An assignment to an answer leaves its properties alone and keeps its check. -/
theorem SubscriptionAck.check_assign {c : Carrier} {p q : SubscriptionAck}
    (h : p.assign c a = .ok q) :
    q.properties = p.properties ∧ (p.check c = .ok () → q.check c = .ok ()) := by
  unfold assign at h
  unfold check
  rw [Except.seq_eq_ok_iff, Except.seq_eq_ok_iff]
  split at h
  case h_1 n =>
    obtain ⟨hcheck, hq⟩ := Except.seq_eq_ok_iff.mp h
    cases hq
    exact ⟨rfl, fun hp => ⟨hcheck, hp.2⟩⟩
  case h_2 rs =>
    obtain ⟨hcheck, hq⟩ := Except.seq_eq_ok_iff.mp h
    cases hq
    exact ⟨rfl, fun hp => ⟨hp.1, hcheck⟩⟩
  case h_3 => cases h

/-- An assignment to a DISCONNECT leaves its properties alone and keeps its check. -/
theorem Disconnect.check_assign {p q : Disconnect} (h : p.assign a = .ok q) :
    q.properties = p.properties ∧ (p.check = .ok () → q.check = .ok ()) := by
  unfold assign at h
  split at h
  case h_1 r =>
    obtain ⟨hcheck, hq⟩ := Except.seq_eq_ok_iff.mp h
    cases hq
    exact ⟨rfl, fun _ => hcheck⟩
  case h_2 => cases h

/-- An assignment to an AUTH leaves its properties alone and keeps its check. -/
theorem Auth.check_assign {p q : Auth} (h : p.assign a = .ok q) :
    q.properties = p.properties ∧ (p.check = .ok () → q.check = .ok ()) := by
  unfold assign at h
  split at h
  case h_1 r =>
    obtain ⟨hcheck, hq⟩ := Except.seq_eq_ok_iff.mp h
    cases hq
    exact ⟨rfl, fun _ => hcheck⟩
  case h_2 => cases h

/-- An assignment to a packet, but for its properties, keeps what it is not about. -/
theorem Packet.kept_assignField {p q : Packet} (h : p.assignField a = .ok q) :
    Kept a (.packet p) (.packet q) := by
  unfold assignField at h
  cases p with
  | publish p =>
    obtain ⟨q, hq, rfl⟩ := Except.map_eq_ok_iff.mp h
    exact Publish.kept_assign hq
  | subscribe p =>
    obtain ⟨q, hq, rfl⟩ := Except.map_eq_ok_iff.mp h
    exact Subscribe.kept_assign hq
  | unsubscribe p =>
    obtain ⟨q, hq, rfl⟩ := Except.map_eq_ok_iff.mp h
    exact Unsubscribe.kept_assign hq
  | connect p =>
    obtain ⟨q, hq, rfl⟩ := Except.map_eq_ok_iff.mp h
    exact .of_properties (congrArg some (Connect.properties_assign hq)) id fun r _ => by
      cases r <;> rfl
  | puback p | pubrec p | pubrel p | pubcomp p =>
    obtain ⟨q, hq, rfl⟩ := Except.map_eq_ok_iff.mp h
    obtain ⟨hp, hcheck⟩ := PublishResponse.check_assign hq
    exact .of_properties (congrArg some hp) hcheck fun r _ => by cases r <;> rfl
  | suback p | unsuback p =>
    obtain ⟨q, hq, rfl⟩ := Except.map_eq_ok_iff.mp h
    obtain ⟨hp, hcheck⟩ := SubscriptionAck.check_assign hq
    exact .of_properties (congrArg some hp) hcheck fun r _ => by cases r <;> rfl
  | connack p =>
    obtain ⟨q, hq, rfl⟩ := Except.map_eq_ok_iff.mp h
    obtain ⟨hp, hcheck⟩ := ConnAck.check_assign hq
    exact .of_properties (congrArg some hp) hcheck fun r _ => by cases r <;> rfl
  | disconnect p =>
    obtain ⟨q, hq, rfl⟩ := Except.map_eq_ok_iff.mp h
    obtain ⟨hp, hcheck⟩ := Disconnect.check_assign hq
    exact .of_properties (congrArg some hp) hcheck fun r _ => by cases r <;> rfl
  | auth p =>
    obtain ⟨q, hq, rfl⟩ := Except.map_eq_ok_iff.mp h
    obtain ⟨hp, hcheck⟩ := Auth.check_assign hq
    exact .of_properties (congrArg some hp) hcheck fun r _ => by cases r <;> rfl
  | pingreq | pingresp => cases h

/-- Properties matter to one rule only, and to that one only their table. -/
theorem Rule.holds_withProperties {r : Rule} {e : Element} {p q : Properties}
    (hq : e.properties? = some q) (h : r = .topic → p.table = q.table) :
    r.holds (e.withProperties p) = r.holds e := by
  cases e with
  | packet m =>
    cases m with
    | publish m =>
      obtain rfl := Option.some.inj hq
      cases r with
      | topic =>
        show (!m.topic.isEmpty || p.table.contains .topicAlias) = _
        rw [h rfl]
        rfl
      | _ => rfl
    | _ => cases r <;> rfl
  | _ => cases r <;> rfl

namespace Element

variable {e e' : Element}

/-- An assignment, but for one to properties, keeps what it is not about. -/
theorem kept_assignField (h : e.assignField a = .ok e') : Kept a e e' := by
  unfold assignField at h
  cases e with
  | packet p =>
    obtain ⟨q, hq, rfl⟩ := Except.map_eq_ok_iff.mp h
    exact Packet.kept_assignField hq
  | will w =>
    obtain ⟨v, hv, rfl⟩ := Except.map_eq_ok_iff.mp h
    exact .of_properties (congrArg some (Will.properties_assign hv)) id fun r _ => by
      cases r <;> rfl
  | response p =>
    obtain ⟨q, hq, rfl⟩ := Except.map_eq_ok_iff.mp h
    obtain ⟨hp, hcheck⟩ := PublishResponse.check_assign hq
    exact .of_properties (congrArg some hp) hcheck fun r _ => by cases r <;> rfl
  | bare p => cases h
  | subscription s =>
    obtain ⟨t, ht, rfl⟩ := Except.map_eq_ok_iff.mp h
    exact Subscription.kept_assign ht

/-- **An assignment keeps what it is not about**: the form of the properties, the checks of single
    fields, and the rules that are about other fields. -/
theorem kept_assign (h : e.assign a = .ok e') : Kept a e e' := by
  unfold assign at h
  split at h
  case h_2 => exact kept_assignField h
  case h_1 p hp =>
    cases h
    obtain ⟨q, hq, hassign⟩ := Option.bind_eq_some_iff.mp hp
    have hproperties : (e.withProperties p).properties? = some p := by
      rw [properties?_withProperties, hq]
      rfl
    have hfields : e.checkFields = .ok () → (e.withProperties p).checkFields = .ok () := by
      rw [checkFields_withProperties]
      exact id
    unfold Properties.assign at hassign
    split at hassign
    case h_1 t =>
      obtain rfl := Option.some.inj hassign
      refine ⟨fun _ => ?_, hfields, fun r hr => Rule.holds_withProperties hq fun h => ?_⟩
      · rw [listed_eq_self_iff, hproperties]
        rintro _ ⟨⟩
        show Properties.mk t.listed.listed q.user = _
        rw [PropertyTable.listed_listed]
      · subst h
        cases hr
    case h_2 us =>
      obtain rfl := Option.some.inj hassign
      refine ⟨fun hlisted => ?_, hfields, fun r _ => Rule.holds_withProperties hq fun _ => rfl⟩
      have hq' := listed_eq_self_iff.mp hlisted q hq
      rw [listed_eq_self_iff, hproperties]
      rintro _ ⟨⟩
      exact congrArg (fun q : Properties => { q with user := us }) hq'
    case h_3 => cases hassign

end Element

/-! ### Any attempts -/

/-- An element and the assignments to it that were accepted, in order. -/
structure Session where
  state : Element
  accepted : List Assignment := []

namespace Session

/-- The session after an attempt to assign something. If the assignment is rejected, nothing
    changes. -/
def attempt (s : Session) (a : Assignment) : Session :=
  match s.state.assign a with
  | .ok e => { state := e, accepted := s.accepted ++ [a] }
  | .error _ => s

/-- The session after all attempts, one after the other. -/
def attemptAll (s : Session) (as : List Assignment) : Session := as.foldl attempt s

/-- What holds of a session that started with the element `e`. -/
structure Follows (e : Element) (s : Session) : Prop where
  /-- What was rejected has left nothing behind. -/
  replay : s.accepted.foldlM Element.assign e = .ok s.state
  listed : s.state.listed = s.state
  fields : s.state.checkFields = .ok ()
  rules : ∀ r : Rule, (∀ a ∈ s.accepted, r.reads a = false) → r.holds s.state = true

variable {e : Element} {s : Session}

/-- The invariant holds of what has just been built. -/
theorem follows_of_build (h : e.build = .ok e) : Follows e { state := e } := by
  obtain ⟨hlisted, hfields, hrules⟩ := Element.build_self_iff.mp h
  exact ⟨rfl, hlisted, hfields, fun r _ => hrules r⟩

/-- Each attempt keeps the invariant. -/
theorem Follows.attempt (h : Follows e s) (a : Assignment) : Follows e (s.attempt a) := by
  unfold Session.attempt
  cases hassign : s.state.assign a with
  | error x => exact h
  | ok e' =>
    have hkept := Element.kept_assign hassign
    refine ⟨?_, hkept.listed h.listed, hkept.fields h.fields, fun r hr => ?_⟩
    · show (s.accepted ++ [a]).foldlM Element.assign e = .ok e'
      rw [List.foldlM_append, h.replay]
      show ([a].foldlM Element.assign s.state) = _
      rw [List.foldlM_cons, hassign]
      rfl
    · -- The rule is neither about this field nor about one that was assigned before.
      have hbefore : ∀ b ∈ s.accepted, r.reads b = false := fun b hb =>
        hr b (List.mem_append_left _ hb)
      have hnow : r.reads a = false := hr a (List.mem_append_right _ (List.mem_singleton_self a))
      show r.holds e' = true
      rw [hkept.rules r hnow]
      exact h.rules r hbefore

/-- All attempts together keep the invariant. -/
theorem Follows.attemptAll (h : Follows e s) (as : List Assignment) :
    Follows e (s.attemptAll as) := by
  induction as generalizing s with
  | nil => exact h
  | cons a as ih => exact ih (h.attempt a)

/-- The accepted assignments are among those that were attempted, in their order. -/
theorem exists_accepted_attemptAll (s : Session) (as : List Assignment) :
    ∃ bs, bs.Sublist as ∧ (s.attemptAll as).accepted = s.accepted ++ bs := by
  induction as generalizing s with
  | nil => exact ⟨[], .slnil, (List.append_nil _).symm⟩
  | cons a as ih =>
    obtain ⟨bs, hbs, haccepted⟩ := ih (s.attempt a)
    have hnext : (s.attemptAll (a :: as)).accepted = (s.attempt a).accepted ++ bs := haccepted
    rw [hnext, attempt]
    cases s.state.assign a with
    | error x => exact ⟨bs, hbs.cons a, rfl⟩
    | ok e => exact ⟨a :: bs, hbs.cons_cons a, List.append_assoc _ _ _⟩

/-- **What any assignments keep of an element that was built.** A rejected assignment changes
    nothing, so the accepted ones alone lead to the same state. In every state that is reached the
    properties have the form in which they are kept, and each field is right on its own; and a rule
    for fields that have to go together holds as long as none of these fields was assigned. The
    constructor would accept the state exactly if it keeps all these rules. -/
theorem attemptAll_keeps {e₀ : Element} (h : e₀.build = .ok e) (as : List Assignment) :
    let run := Session.attemptAll { state := e } as
    (∀ a x, run.state.assign a = .error x → run.attempt a = run) ∧
      run.accepted.Sublist as ∧
      run.accepted.foldlM Element.assign e = .ok run.state ∧
      run.state.listed = run.state ∧
      run.state.checkFields = .ok () ∧
      (∀ r : Rule, (∀ a ∈ run.accepted, r.reads a = false) → r.holds run.state = true) ∧
      (run.state.build = .ok run.state ↔ ∀ r : Rule, r.holds run.state = true) := by
  intro run
  have hrun : Follows e run := (follows_of_build (Element.build_of_build h)).attemptAll as
  obtain ⟨bs, hbs, haccepted⟩ := exists_accepted_attemptAll { state := e } as
  have hsublist : run.accepted.Sublist as := by
    rw [haccepted]
    exact hbs
  refine ⟨fun a x hx => ?_, hsublist, hrun.replay, hrun.listed, hrun.fields, hrun.rules, ?_⟩
  · rw [attempt, hx]
  · rw [Element.build_self_iff, and_iff_right hrun.listed, and_iff_right hrun.fields]

/-- A message at QoS 1. -/
def delivery : Element := .packet (.publish
  { topic := Text.ofChars ['a'], packetId := some 1, qos := .atLeastOnce })

/-- Of three attempts to change the message the first is rejected, and the topic is still right when
    the other two have broken the rule for its packet identifier. -/
theorem attemptAll_keeps_delivery :
    delivery.build = .ok delivery ∧
      (let run := Session.attemptAll { state := delivery }
        [.packetId (some 0), .qos .atMostOnce, .payload [7]]
      run.accepted = [.qos .atMostOnce, .payload [7]] ∧
        run.state.checkFields = .ok () ∧ Rule.wildcard.holds run.state = true ∧
        Rule.identifier.holds run.state = false ∧ run.state.build ≠ .ok run.state) := by
  have hbuilt : delivery.build = .ok delivery := by decide
  obtain ⟨-, -, -, -, hfields, hrules, hbuild⟩ :=
    attemptAll_keeps hbuilt [.packetId (some 0), .qos .atMostOnce, .payload [7]]
  refine ⟨hbuilt, rfl, hfields, hrules .wildcard ?_, rfl, fun h => ?_⟩
  · decide
  · exact absurd (hbuild.mp h .identifier) (by decide)

/-- Not every state that is reached would be accepted by the constructor. -/
theorem not_forall_build_attemptAll :
    ¬∀ (e₀ e : Element) (as : List Assignment), e₀.build = .ok e →
      (Session.attemptAll { state := e } as).state.build =
        .ok (Session.attemptAll { state := e } as).state := by
  intro h
  have hrefused : (Session.attemptAll { state := delivery } [.qos .atMostOnce]).state.build =
      .error .packetIdUnexpected := by decide
  rw [h delivery delivery [.qos .atMostOnce] (by decide)] at hrefused
  cases hrefused

end Session

/-- An element that may be built, and an assignment that breaks the rule. -/
def Rule.breach : Rule → Element × Assignment
  | identifier => (.packet (.publish { topic := Text.ofChars ['a'] }), .packetId (some 1))
  | duplicate => (.packet (.publish { topic := Text.ofChars ['a'] }), .duplicate true)
  | wildcard => (.packet (.publish { topic := Text.ofChars ['a'] }), .topic (Text.ofChars ['#']))
  | topic => (.packet (.publish { topic := Text.ofChars ['a'] }), .topic [])
  | subscriptions =>
    (.packet (.subscribe { packetId := 1, subscriptions := [{ pattern := Text.ofChars ['a'] }] }),
     .subscriptions [])
  | patterns =>
    (.packet (.unsubscribe { packetId := 1, patterns := [Text.ofChars ['a']] }), .patterns [])
  | pattern => (.subscription { pattern := Text.ofChars ['a'] }, .pattern [])

/-- **There is no rule that all assignments keep.** For each rule, some element that was built
    breaks this rule, and no other, after one assignment, which is accepted. -/
theorem Rule.exists_broken (r : Rule) :
    ∃ e a e', Element.build e = .ok e ∧ e.assign a = .ok e' ∧
      ∀ r' : Rule, r'.holds e' = false ↔ r' = r := by
  refine ⟨r.breach.1, r.breach.2, ?_⟩
  cases r <;> exact ⟨_, by decide, rfl, fun r' => by cases r' <;> decide⟩

end Mqtt
