import Mqtt.Proofs.Property.Canonical

/-!
# What is written of properties reads back

* `PropertyKind.unwrapped`: the value in place of a list that holds only it, for a kind that is not
  listed.
* `PropertyTable.entries_normal_listed`: the entries that are read back of a stored table, one by
  one: they keep their order, user properties and empty lists are left out, flags are numbers and
  values are unwrapped.
* `Properties.exists_pairs_of_emit`: the values of user properties that are written are pairs.
* `Properties.read_append_of_emit_listed`: the block of the stored properties reads back as these
  entries, and as the user properties of the table in front of the others.
-/

namespace Mqtt

/-- The value in place of a list that holds only it, for a kind that is not listed. -/
def PropertyKind.unwrapped (k : PropertyKind) (v : PropertyValue) : PropertyValue :=
  match k.isListed, v with
  | false, .many [s] => .one s
  | _, v => v

/-- A value is read back unwrapped, if the values of listed kinds are lists. -/
theorem PropertyKind.normalValue_eq_normal_unwrapped {k : PropertyKind} {v : PropertyValue}
    (h : k.isListed = true → ∃ ss, v = .many ss) : k.normalValue v = (k.unwrapped v).normal := by
  unfold normalValue unwrapped
  cases hlisted : k.isListed with
  | true =>
    obtain ⟨ss, rfl⟩ := h hlisted
    rfl
  | false =>
    match v with
    | .one s => rfl
    | .many [] => rfl
    | .many [s] => rfl
    | .many (s :: s' :: ss) => rfl

/-- What is read back of a table that a packet keeps. -/
theorem PropertyTable.entries_normal_listed (t : PropertyTable) :
    t.listed.normal.entries =
      (t.listed.entries.filter fun e => e.1 ≠ .userProperty ∧ e.2 ≠ .many []).map fun e =>
        (e.1, (e.1.unwrapped e.2).normal) := by
  have hempty : ∀ v : PropertyValue, v.scalars ≠ [] ↔ v ≠ .many [] := by
    intro v
    cases v <;> simp [PropertyValue.scalars]
  simp only [normal, hempty]
  refine List.map_congr_left fun e he => ?_
  obtain ⟨hmem, -⟩ := List.mem_filter.mp he
  obtain ⟨f, -, rfl⟩ := List.mem_map.mp hmem
  rw [PropertyKind.normalValue_eq_normal_unwrapped]
  -- A value of a listed kind was made a list when it was stored.
  intro hlisted
  exact ⟨f.2.scalars, if_pos hlisted⟩

namespace Properties

variable {c : Carrier} {p : Properties} {w : Bytes}

/-- The single values of a table are all written. -/
theorem mem_wireEntries_of_mem_scalarsOf {k : PropertyKind} {s : Scalar}
    (h : s ∈ p.table.scalarsOf k) : (k, s) ∈ p.wireEntries := by
  unfold PropertyTable.scalarsOf at h
  cases hv : p.table.get? k with
  | none =>
    rw [hv] at h
    cases h
  | some v =>
    rw [hv] at h
    refine List.mem_append_left _ (List.mem_flatMap.mpr ⟨(k, v), ?_, List.mem_map_of_mem h⟩)
    exact PropertyTable.get?_eq_some_iff.mp hv

/-- The values of user properties that are written from the table are pairs. -/
theorem exists_pairs_of_emit (h : p.emit c = .done w) :
    ∃ us : List (Text × Text), p.table.scalarsOf .userProperty = us.map fun u => .pair u.1 u.2 := by
  obtain ⟨-, b, hb, -, -⟩ := emit_eq_done_iff.mp h
  have hpair : ∀ s ∈ p.table.scalarsOf .userProperty, ∃ u v, s = .pair u v := by
    intro s hs
    have hmem : (.userProperty, s) ∈ p.wireEntries := mem_wireEntries_of_mem_scalarsOf hs
    obtain ⟨u, hu⟩ := Emission.exists_concat_eq_done_iff.mp ⟨b, hb⟩ _ hmem
    obtain ⟨-, v, hv, -⟩ := PropertyKind.emitEntry_eq_done_iff.mp hu
    cases s with
    | pair key value => exact ⟨key, value, rfl⟩
    | _ => cases hv
  exact ⟨_, (map_filterMap_pair? hpair).symm⟩

/-- **What is written of properties reads back as the normal form of what is stored**, whatever is
    given to be stored and whatever bytes follow. Of what was given, `listed` is stored. The
    properties come back in their order, without user properties and without empty lists; flags are
    numbers, and a list of one value is that value unless the kind is listed. The user properties
    are the pairs that stood among the other properties, and then those that stood apart. -/
theorem read_append_of_emit_listed (h : p.listed.emit c = .done w) (buffer t : Bytes) :
    (p.listed.emit c).onto buffer = buffer ++ w ∧
      ∃ q, read c (w ++ t) = .ok (q, t) ∧
        q.table.entries =
          (p.listed.table.entries.filter fun e => e.1 ≠ .userProperty ∧ e.2 ≠ .many []).map
            (fun e => (e.1, (e.1.unwrapped e.2).normal)) ∧
        ∃ us, p.listed.table.scalarsOf .userProperty = us.map (fun u => .pair u.1 u.2) ∧
          q.user = us ++ p.listed.user := by
  obtain ⟨us, hus⟩ := exists_pairs_of_emit h
  refine ⟨by rw [h]; rfl, p.listed.normal, (reads_block c).read_append (block_of_emit h) t,
    p.table.entries_normal_listed, us, hus, ?_⟩
  show (p.listed.table.scalarsOf .userProperty).filterMap Scalar.pair? ++ _ = _
  rw [hus, filterMap_map_pair]

/-- Properties in every shape that a packet may be given: a flag, lists of one value, of none and of
    several, a single value of a listed kind, and user properties in both places. -/
def manyShapes : Properties where
  table := ⟨[(.userProperty, .many [.pair (Text.ofChars ['k']) [], .pair (Text.ofChars ['k']) []]),
    (.contentType, .many [.text (Text.ofChars ['t'])]), (.responseTopic, .many []),
    (.subscriptionIdentifier, .one (.number 200)),
    (.payloadFormatIndicator, .one (.flag true))], by decide⟩
  user := [(Text.ofChars ['a'], Text.ofChars ['b'])]

/-- The properties are written and read back. -/
theorem read_append_of_emit_listed_manyShapes :
    let c : Carrier := .packet .publish
    let w : Bytes := [28, 38, 0, 1, 107, 0, 0, 38, 0, 1, 107, 0, 0, 3, 0, 1, 116, 11, 200, 1, 1, 1,
      38, 0, 1, 97, 0, 1, 98]
    manyShapes.listed.emit c = .done w ∧
      (manyShapes.listed.emit c).onto [7] = 7 :: w ∧
      ∃ q, read c (w ++ [208, 0]) = .ok (q, [208, 0]) ∧
        q.table.entries = [(.contentType, .one (.text (Text.ofChars ['t']))),
          (.subscriptionIdentifier, .many [.number 200]),
          (.payloadFormatIndicator, .one (.number 1))] ∧
        ∃ us, manyShapes.listed.table.scalarsOf .userProperty =
            us.map (fun u => .pair u.1 u.2) ∧ q.user = us ++ manyShapes.user := by
  intro c w
  have hemit : manyShapes.listed.emit c = .done w := by decide +kernel
  exact ⟨hemit, read_append_of_emit_listed hemit [7] [208, 0]⟩

end Properties

end Mqtt
