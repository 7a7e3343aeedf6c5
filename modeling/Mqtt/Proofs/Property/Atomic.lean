import Mqtt.Proofs.Property.Normal
import Mqtt.Proofs.Wire.Atomic

/-!
# Property blocks are written whole or not at all

* `Properties.groups` are the properties with the user properties as one more, at the end. A block
  is written group by group (`emitEntries_eq_concat`).
* `PropertyKind.failsWith_emitEntry` and `Carrier.failsWith_emitValue`: what the writing of an entry
  and of a group fails with.
* `Properties.WellTyped`: every property has values of the type that its format asks for. Nothing is
  said about what a carrier may carry, about ranges or about sizes.
* `Properties.whole_emit`: of such properties a block is written whole or not at all.
-/

namespace Mqtt

/-! ### Values -/

namespace ValueFormat

/-- Whether the value is of the type that is written in this format; a flag is a number too. -/
def suits : ValueFormat → Scalar → Bool
  | fixed _, s | varInt, s => s.number?.isSome
  | text, .text _ => true
  | binary, .binary _ => true
  | textPair, .pair _ _ => true
  | _, _ => false

/-- A value that suits the format is written, or the error is about the value. -/
theorem failsWith_emit {f : ValueFormat} {s : Scalar} (h : f.suits s = true) :
    (f.emit s).FailsWith Error.IsGiven := by
  cases f <;> cases s <;> try cases h
  case fixed.number size n => exact (Integer.whole_emit size n).failsWith
  case fixed.flag size b => exact (Integer.whole_emit size b.toInt).failsWith
  case varInt.number n => exact (VarInt.whole_emit n).failsWith
  case varInt.flag b => exact (VarInt.whole_emit b.toInt).failsWith
  case text.text t => exact (Text.whole_emit t).failsWith
  case binary.binary bs => exact (Binary.whole_emit bs).failsWith
  case textPair.pair k v => exact TextPair.failsWith_emit (k, v)

end ValueFormat

/-! ### Entries and groups -/

variable {P : Error → Prop} {c : Carrier} {k : PropertyKind}

/-- An entry fails with what the check of its value and the writing of the value fail with. -/
theorem PropertyKind.failsWith_emitEntry {s : Scalar}
    (hcheck : ∀ e, k.check (.one s) = .error e → P e) (hvalue : (k.format.emit s).FailsWith P) :
    (k.emitEntry s).FailsWith P := by
  unfold emitEntry
  split
  case h_1 e he => exact (Emission.whole_fail (hcheck e he)).failsWith
  case h_2 =>
    rw [VarInt.emit_natCast k.identifier_le_max]
    exact (Emission.whole_done _).failsWith.append hvalue

/-- The values of a kind fail because the carrier may not carry them, or not as many of them, or
    with what one of their entries fails with. -/
theorem Carrier.failsWith_emitValue {v : PropertyValue} (hallows : P (.unsupportedProperty k c))
    (hrepeats : P (.duplicateProperty k c))
    (hentries : ∀ s ∈ v.scalars, (k.emitEntry s).FailsWith P) :
    (c.emitValue k v).FailsWith P := by
  unfold emitValue
  split
  case isTrue => exact (Emission.whole_fail hallows).failsWith
  case isFalse =>
    split
    case isTrue => exact (Emission.whole_fail hrepeats).failsWith
    case isFalse => exact Emission.failsWith_concat hentries

namespace Properties

variable {p : Properties}

/-- The properties, and the user properties as one more if there are any. -/
def groups (p : Properties) : List (PropertyKind × PropertyValue) :=
  p.table.entries ++
    if p.user.isEmpty then [] else [(.userProperty, .many (p.user.map fun u => .pair u.1 u.2))]

/-- The entries of the groups are those that are written. -/
theorem spread_groups (p : Properties) : spread p.groups = p.wireEntries := by
  unfold groups wireEntries spread
  rw [List.flatMap_append]
  cases p.user <;> simp [PropertyValue.scalars]

/-- The user properties are written as one more property, since every carrier may repeat them. -/
theorem emitEntries_eq_concat (c : Carrier) (p : Properties) :
    p.emitEntries c = .concat (fun g => c.emitValue g.1 g.2) p.groups := by
  have huser : c.emitUser p.user = .concat (fun g => c.emitValue g.1 g.2)
      (if p.user.isEmpty then []
        else [(.userProperty, .many (p.user.map fun u => .pair u.1 u.2))]) := by
    unfold Carrier.emitUser
    split
    case isTrue => rfl
    case isFalse =>
      simp [Carrier.emitValue, PropertyValue.scalars, repeats_userProperty, Emission.concat_map]
  rw [emitEntries, groups, Emission.concat_append, huser]

/-- Every property has values of the type that its format asks for. -/
def WellTyped (p : Properties) : Prop :=
  ∀ e ∈ p.table.entries, ∀ s ∈ e.2.scalars, e.1.format.suits s = true

/-- The entries of a block are written, or the error is about a value. -/
theorem WellTyped.failsWith_emitEntries (hp : p.WellTyped) (c : Carrier) :
    (p.emitEntries c).FailsWith Error.IsGiven := by
  have hgroups : ∀ g ∈ p.groups, ∀ s ∈ g.2.scalars, g.1.format.suits s = true := by
    intro g hg s hs
    rcases List.mem_append.mp hg with hg | hg
    · exact hp g hg s hs
    · -- The values of the last group are pairs, and these suit the format of user properties.
      split at hg
      case isTrue => cases hg
      case isFalse =>
        obtain rfl := List.mem_singleton.mp hg
        obtain ⟨u, -, rfl⟩ := List.mem_map.mp hs
        rfl
  rw [emitEntries_eq_concat]
  refine Emission.failsWith_concat fun g hg => ?_
  refine Carrier.failsWith_emitValue (Or.inr rfl) (Or.inr rfl) fun s hs => ?_
  refine PropertyKind.failsWith_emitEntry (fun e he => ?_)
    (ValueFormat.failsWith_emit (hgroups g hg s hs))
  rcases PropertyKind.eq_of_check_eq_error he with rfl | rfl
  · exact Or.inr rfl
  · exact Or.inr rfl

/-- **A property block is written whole or not at all**, although a pair of strings among its values
    is not. -/
theorem WellTyped.whole_emit (hp : p.WellTyped) (c : Carrier) : (p.emit c).Whole Error.IsGiven :=
  (hp.failsWith_emitEntries c).headed fun length => VarInt.whole_emit length

end Properties

end Mqtt
