import Mqtt.Proofs.Property.Block
import Mqtt.Proofs.Wire.Emission

/-!
# Writing property blocks

* `wireEntries` are the entries that the properties of a carrier are written in, and `Carried c`
  says which properties the carrier `c` may carry. `emit_eq_done_iff`: a block is written if the
  properties may be carried and each of these entries can be written.
* `normal` is the form in which stored properties read back. `block_of_emit`: what is written is the
  block of that form.
-/

namespace Mqtt

/-! ### The entries that are written -/

/-- A block is written of the properties that a kind may have on a carrier. -/
theorem Carrier.emitValue_eq_done_iff {c : Carrier} {k : PropertyKind} {v : PropertyValue}
    {w : Bytes} :
    c.emitValue k v = .done w ↔
      (c.allows k = true ∧ (c.repeats k = false → v.scalars.length ≤ 1)) ∧
        Emission.concat k.emitEntry v.scalars = .done w := by
  unfold emitValue
  cases hallows : c.allows k with
  | false => simp
  | true =>
    rw [Bool.not_true, if_neg (by decide)]
    split
    case isTrue h =>
      rw [Bool.and_eq_true, decide_eq_true_eq, Bool.not_eq_true'] at h
      simp only [Emission.fail, reduceCtorEq, true_and, false_iff]
      rintro ⟨hle, -⟩
      have := hle h.2
      omega
    case isFalse h =>
      have hle : c.repeats k = false → v.scalars.length ≤ 1 := by
        intro hrep
        simpa [hrep] using h
      exact ⟨fun hw => ⟨⟨rfl, hle⟩, hw⟩, fun hw => hw.2⟩

/-- User properties are written if there are none, or the carrier may carry them. -/
theorem Carrier.emitUser_eq_done_iff {c : Carrier} {us : List (Text × Text)} {w : Bytes} :
    c.emitUser us = .done w ↔
      (us ≠ [] → c.allows .userProperty = true) ∧
        Emission.concat (fun u => PropertyKind.userProperty.emitEntry (.pair u.1 u.2)) us =
          .done w := by
  unfold emitUser
  cases us with
  | nil => simp
  | cons u us =>
    rw [List.isEmpty_cons, if_neg (by decide)]
    cases hallows : c.allows .userProperty with
    | false => simp
    | true => simp

namespace PropertyTable

/-- The single values under a kind. -/
def scalarsOf (t : PropertyTable) (k : PropertyKind) : List Scalar :=
  ((t.get? k).map PropertyValue.scalars).getD []

/-- The single values under a kind are those of the value that is stored there. -/
theorem scalarsOf_of_get? {t : PropertyTable} {k : PropertyKind} {v : PropertyValue}
    (h : t.get? k = some v) : t.scalarsOf k = v.scalars := by
  rw [scalarsOf, h]
  rfl

end PropertyTable

namespace Properties

variable {c : Carrier} {k : PropertyKind} {p : Properties} {w : Bytes}

/-- An entry for each single value of a table. -/
def spread (es : List (PropertyKind × PropertyValue)) : List (PropertyKind × Scalar) :=
  es.flatMap fun e => e.2.scalars.map (Prod.mk e.1)

/-- An entry for each single value: those of the table in its order, and then the user
    properties. -/
def wireEntries (p : Properties) : List (PropertyKind × Scalar) :=
  spread p.table.entries ++ p.user.map fun u => (.userProperty, .pair u.1 u.2)

/-- The carrier may carry each of the properties, and as often as they are there. -/
structure Carried (c : Carrier) (p : Properties) : Prop where
  allowed : ∀ e ∈ p.table.entries, c.allows e.1 = true
  once : ∀ e ∈ p.table.entries, c.repeats e.1 = false → e.2.scalars.length ≤ 1
  user : p.user ≠ [] → c.allows .userProperty = true

/-- The entries are written if the properties may be carried and each entry can be written. -/
theorem emitEntries_eq_done_iff :
    p.emitEntries c = .done w ↔
      Carried c p ∧ Emission.concat (fun e => e.1.emitEntry e.2) p.wireEntries = .done w := by
  have hspread : Emission.concat (fun e => e.1.emitEntry e.2) (spread p.table.entries) =
      .concat (fun e => .concat e.1.emitEntry e.2.scalars) p.table.entries := by
    rw [spread, Emission.concat_flatMap]
    simp only [Emission.concat_map]
  unfold emitEntries wireEntries
  rw [Emission.append_eq_done, Emission.concat_append, Emission.append_eq_done, hspread,
    Emission.concat_map]
  simp only [Emission.concat_eq_done_iff_of_guard (fun _ _ => Carrier.emitValue_eq_done_iff),
    Carrier.emitUser_eq_done_iff]
  constructor
  · rintro ⟨u, v, ⟨htable, hu⟩, ⟨huser, hv⟩, rfl⟩
    exact ⟨⟨fun e he => (htable e he).1, fun e he => (htable e he).2, huser⟩, u, v, hu, hv, rfl⟩
  · rintro ⟨h, u, v, hu, hv, rfl⟩
    exact ⟨u, v, ⟨fun e he => ⟨h.allowed e he, h.once e he⟩, hu⟩, ⟨h.user, hv⟩, rfl⟩

/-- A block is written if the properties may be carried, each entry can be written and the entries
    are not too long together. -/
theorem emit_eq_done_iff :
    p.emit c = .done w ↔
      Carried c p ∧ ∃ b, Emission.concat (fun e => e.1.emitEntry e.2) p.wireEntries = .done b ∧
        b.length ≤ VarInt.max ∧ w = VarInt.digits b.length ++ b := by
  unfold emit
  rw [Emission.headed_eq_done]
  simp only [emitEntries_eq_done_iff]
  constructor
  · rintro ⟨l, b, ⟨hp, hb⟩, hl, rfl⟩
    obtain ⟨-, hmax, rfl⟩ := VarInt.emit_eq_done.mp hl
    exact ⟨hp, b, hb, by omega, by simp⟩
  · rintro ⟨hp, b, hb, hmax, rfl⟩
    exact ⟨_, b, ⟨hp, hb⟩, VarInt.emit_natCast hmax, rfl⟩

/-! ### What the written entries say -/

/-- The entries of a table hold the values of each kind in its place. -/
theorem valuesOf_spread {es : List (PropertyKind × PropertyValue)}
    (hes : (es.map Prod.fst).Nodup) :
    valuesOf k (spread es) = ((es.lookup k).map PropertyValue.scalars).getD [] := by
  induction es with
  | nil => rfl
  | cons e es ih =>
    obtain ⟨j, v⟩ := e
    rw [List.map_cons, List.nodup_cons] at hes
    rw [spread, List.flatMap_cons, ← spread, valuesOf_append, ih hes.2, List.lookup_cons]
    by_cases hk : k = j
    · subst hk
      -- The kind does not come again, so no later entry is of it.
      have hnone : es.lookup k = none := by
        rw [List.lookup_eq_none_iff]
        rintro ⟨i, u⟩ he
        exact bne_iff_ne.mpr fun h => hes.1 (List.mem_map.mpr ⟨_, he, h.symm⟩)
      rw [hnone, valuesOf_map_mk]
      simp
    · have hnil : valuesOf k (v.scalars.map (Prod.mk j)) = [] := by
        simp [valuesOf, List.filter_map, Function.comp_def, Ne.symm hk]
      have hbeq : (k == j) = false := beq_eq_false_iff_ne.mpr hk
      rw [hnil, hbeq, List.nil_append]

/-- Some entry is of each of the kinds. -/
theorem mem_map_fst_of_mem_kindsOf {es : List (PropertyKind × Scalar)} (h : k ∈ kindsOf es) :
    k ∈ es.map Prod.fst := by
  rw [kindsOf, List.mem_eraseDups] at h
  exact (List.mem_filter.mp h).1

/-- Entries of other kinds add their kinds behind. -/
theorem kindsOf_append_of_disjoint {es fs : List (PropertyKind × Scalar)}
    (h : ∀ k ∈ kindsOf fs, k ∉ kindsOf es) : kindsOf (es ++ fs) = kindsOf es ++ kindsOf fs := by
  unfold kindsOf at h ⊢
  simp only [List.mem_eraseDups] at h
  rw [List.map_append, List.filter_append, List.eraseDups_append, List.removeAll]
  have hkeep : ((fs.map Prod.fst).filter (· ≠ .userProperty)).filter
      (fun k => !((es.map Prod.fst).filter (· ≠ .userProperty)).elem k) =
      (fs.map Prod.fst).filter (· ≠ .userProperty) := by
    rw [List.filter_eq_self]
    intro k hk
    have hnot := h k hk
    simpa [List.elem_eq_mem] using hnot
  rw [hkeep]

/-- Several values of a kind are of one kind. -/
theorem kindsOf_map_mk {ss : List Scalar} (huser : k ≠ .userProperty) (hss : ss ≠ []) :
    kindsOf (ss.map (Prod.mk k)) = [k] := by
  obtain ⟨s, ss, rfl⟩ := List.exists_cons_of_ne_nil hss
  have hkinds : ((ss.map (Prod.mk k)).map Prod.fst).filter (· ≠ .userProperty) =
      ss.map fun _ => k := by
    rw [List.map_map, List.filter_eq_self.mpr]
    · rfl
    · intro j hj
      obtain ⟨_, -, rfl⟩ := List.mem_map.mp hj
      simpa using huser
  have hrest : (ss.map fun _ => k).filter (fun j => !j == k) = [] := by
    rw [List.filter_eq_nil_iff]
    intro j hj
    obtain ⟨_, -, rfl⟩ := List.mem_map.mp hj
    simp
  unfold kindsOf
  rw [List.map_cons, List.map_cons, List.filter_cons_of_pos (by simpa using huser), hkinds,
    List.eraseDups_cons, hrest, List.eraseDups_nil]

/-- The kinds of the entries of a table are its kinds, but for user properties and for kinds without
    a value. -/
theorem kindsOf_spread {es : List (PropertyKind × PropertyValue)}
    (hes : (es.map Prod.fst).Nodup) :
    kindsOf (spread es) =
      (es.filter fun e => e.1 ≠ .userProperty ∧ e.2.scalars ≠ []).map Prod.fst := by
  induction es with
  | nil => rfl
  | cons e es ih =>
    obtain ⟨j, v⟩ := e
    rw [List.map_cons, List.nodup_cons] at hes
    have hnot : ∀ i ∈ kindsOf (spread es), i ∉ kindsOf (v.scalars.map (Prod.mk j)) := by
      intro i hi hij
      rw [ih hes.2] at hi
      obtain ⟨_, he, rfl⟩ := List.mem_map.mp (mem_map_fst_of_mem_kindsOf hij)
      obtain ⟨_, -, rfl⟩ := List.mem_map.mp he
      exact hes.1 ((List.filter_sublist.map Prod.fst).subset hi)
    rw [spread, List.flatMap_cons, ← spread, kindsOf_append_of_disjoint hnot, ih hes.2]
    -- A user property or a kind without a value adds no kind.
    by_cases hkeep : j ≠ .userProperty ∧ v.scalars ≠ []
    · rw [kindsOf_map_mk hkeep.1 hkeep.2, List.filter_cons_of_pos (by simpa using hkeep)]
      rfl
    · have hnil : kindsOf (v.scalars.map (Prod.mk j)) = [] := by
        rw [List.eq_nil_iff_forall_not_mem]
        intro i hi
        obtain ⟨huser, hne⟩ := mem_kindsOf_iff.mp hi
        obtain ⟨_, he, rfl⟩ := List.mem_map.mp (mem_map_fst_of_mem_kindsOf hi)
        obtain ⟨s, hs, rfl⟩ := List.mem_map.mp he
        exact hkeep ⟨huser, List.ne_nil_of_mem hs⟩
      rw [hnil, List.filter_cons_of_neg (by simpa using hkeep), List.nil_append]

/-- The values of a kind among the written entries. -/
theorem valuesOf_wireEntries (huser : k ≠ .userProperty) :
    valuesOf k p.wireEntries = p.table.scalarsOf k := by
  have hnil : valuesOf k (p.user.map fun u => (.userProperty, .pair u.1 u.2)) = [] := by
    simp [valuesOf, List.filter_map, Function.comp_def, Ne.symm huser]
  rw [wireEntries, valuesOf_append, hnil, List.append_nil]
  exact valuesOf_spread p.table.nodup

/-- The pairs that values hold which were made of pairs. -/
theorem filterMap_map_pair (us : List (Text × Text)) :
    (us.map fun u => Scalar.pair u.1 u.2).filterMap Scalar.pair? = us := by
  rw [List.filterMap_map]
  exact List.filterMap_some

/-- The user properties among the written entries: those that the table holds come first. -/
theorem pairsOf_wireEntries :
    pairsOf p.wireEntries = (p.table.scalarsOf .userProperty).filterMap Scalar.pair? ++ p.user := by
  have huser : valuesOf .userProperty
      (p.user.map fun u => (PropertyKind.userProperty, Scalar.pair u.1 u.2)) =
      p.user.map fun u => .pair u.1 u.2 := by
    have hall : (p.user.map fun u => (PropertyKind.userProperty, Scalar.pair u.1 u.2)).filter
        (·.1 = .userProperty) = p.user.map fun u => (.userProperty, .pair u.1 u.2) := by
      rw [List.filter_eq_self]
      intro e he
      obtain ⟨u, -, rfl⟩ := List.mem_map.mp he
      rfl
    rw [valuesOf, hall, List.map_map]
    rfl
  rw [pairsOf, wireEntries, valuesOf_append, List.filterMap_append, huser, filterMap_map_pair,
    valuesOf_spread p.table.nodup]
  rfl

/-- The kinds of the written entries. -/
theorem kindsOf_wireEntries :
    kindsOf p.wireEntries =
      (p.table.entries.filter fun e => e.1 ≠ .userProperty ∧ e.2.scalars ≠ []).map Prod.fst := by
  have hnil : kindsOf (p.user.map fun u => (.userProperty, .pair u.1 u.2)) = [] := by
    rw [List.eq_nil_iff_forall_not_mem]
    intro k hk
    obtain ⟨_, he, rfl⟩ := List.mem_map.mp (mem_map_fst_of_mem_kindsOf hk)
    obtain ⟨u, -, rfl⟩ := List.mem_map.mp he
    exact (mem_kindsOf_iff.mp hk).1 rfl
  have hdisjoint : ∀ k ∈ kindsOf (p.user.map fun u => (.userProperty, .pair u.1 u.2)),
      k ∉ kindsOf (spread p.table.entries) := by
    rw [hnil]
    exact fun k hk => absurd hk List.not_mem_nil
  rw [wireEntries, kindsOf_append_of_disjoint hdisjoint, hnil, List.append_nil,
    kindsOf_spread p.table.nodup]

end Properties

/-! ### Normal forms -/

/-- Pairs are no flags, so the same pairs are among the values without flags. -/
theorem Scalar.filterMap_pair?_map_normal (ss : List Scalar) :
    (ss.map normal).filterMap pair? = ss.filterMap pair? := by
  have hpair : pair? ∘ normal = pair? := by
    funext s
    cases s <;> rfl
  rw [List.filterMap_map, hpair]

/-- The form in which the values of a kind read back: flags are numbers, and a single value is in a
    list only if the kind is listed. -/
def PropertyKind.normalValue (k : PropertyKind) (v : PropertyValue) : PropertyValue :=
  match k.isListed, v.scalars.map Scalar.normal with
  | false, [s] => .one s
  | _, ss => .many ss

/-- The form in which a table reads back: user properties are kept apart, and a kind without a value
    is lost. -/
def PropertyTable.normal (t : PropertyTable) : PropertyTable where
  entries := (t.entries.filter fun e => e.1 ≠ .userProperty ∧ e.2.scalars ≠ []).map fun e =>
    (e.1, e.1.normalValue e.2)
  nodup := by
    rw [List.map_map]
    exact t.nodup.sublist (List.filter_sublist.map _)

/-- The form in which properties read back. -/
def Properties.normal (p : Properties) : Properties where
  table := p.table.normal
  user := (p.table.scalarsOf .userProperty).filterMap Scalar.pair? ++ p.user

/-- The values of a listed kind are a list. -/
theorem PropertyKind.normalValue_of_isListed {k : PropertyKind} {v : PropertyValue}
    (h : k.isListed = true) : k.normalValue v = .many (v.scalars.map Scalar.normal) := by
  unfold normalValue
  rw [h]

/-- A single value of another kind stands for itself. -/
theorem PropertyKind.normalValue_of_single {k : PropertyKind} {v : PropertyValue} {s : Scalar}
    (h : k.isListed = false) (hs : v.scalars = [s]) : k.normalValue v = .one s.normal := by
  unfold normalValue
  rw [h, hs]
  rfl

/-- What a table has for a kind reads back in the form for that kind. -/
theorem PropertyTable.get?_normal_eq_some_iff {t : PropertyTable} {k : PropertyKind}
    {v : PropertyValue} :
    t.normal.get? k = some v ↔
      ∃ v', t.get? k = some v' ∧ k ≠ .userProperty ∧ v'.scalars ≠ [] ∧ v = k.normalValue v' := by
  rw [get?_eq_some_iff, normal, List.mem_map]
  constructor
  · rintro ⟨e, he, heq⟩
    rw [List.mem_filter, decide_eq_true_eq] at he
    obtain ⟨rfl, rfl⟩ := Prod.mk.inj heq
    exact ⟨e.2, get?_eq_some_iff.mpr he.1, he.2.1, he.2.2, rfl⟩
  · rintro ⟨v', hv', huser, hne, rfl⟩
    refine ⟨(k, v'), List.mem_filter.mpr ⟨get?_eq_some_iff.mp hv', ?_⟩, rfl⟩
    exact decide_eq_true ⟨huser, hne⟩

namespace Properties

variable {c : Carrier} {k : PropertyKind} {p : Properties} {w : Bytes}

/-- The written entries, as they read back. -/
def normalEntries (p : Properties) : List (PropertyKind × Scalar) :=
  p.wireEntries.map fun e => (e.1, e.2.normal)

/-- The normal forms of values keep their kinds and their places. -/
theorem valuesOf_map_normal {es : List (PropertyKind × Scalar)} :
    valuesOf k (es.map fun e => (e.1, e.2.normal)) = (valuesOf k es).map Scalar.normal := by
  simp [valuesOf, List.filter_map, Function.comp_def]

/-- The values of a kind read back in their normal form. -/
theorem valuesOf_normalEntries :
    valuesOf k p.normalEntries = (valuesOf k p.wireEntries).map Scalar.normal :=
  valuesOf_map_normal

/-- No entry is repeated that may not be, if the carrier may carry the properties. -/
theorem Carried.noRepeat (h : Carried c p) : NoRepeat c p.normalEntries := by
  intro k hk
  have huser : k ≠ .userProperty := by
    rintro rfl
    rw [repeats_userProperty] at hk
    cases hk
  rw [valuesOf_normalEntries, List.length_map, valuesOf_wireEntries huser,
    PropertyTable.scalarsOf]
  cases hv : p.table.get? k with
  | none => exact Nat.zero_le 1
  | some v => exact h.once (k, v) (PropertyTable.get?_eq_some_iff.mp hv) hk

/-- The written entries say the normal form of the properties. -/
theorem Carried.gathers (h : Carried c p) : Gathers p.normalEntries p.normal where
  keys := by
    have hkinds : kindsOf p.normalEntries = kindsOf p.wireEntries := by
      simp [kindsOf, normalEntries, Function.comp_def]
    rw [hkinds, kindsOf_wireEntries]
    show (List.map _ _).map Prod.fst = _
    rw [List.map_map]
    rfl
  listed := by
    intro k hk hlisted
    obtain ⟨v, hv⟩ := PropertyTable.exists_get?_of_mem hk
    obtain ⟨v', hv', huser, -, rfl⟩ := PropertyTable.get?_normal_eq_some_iff.mp hv
    rw [valuesOf_normalEntries, valuesOf_wireEntries huser, PropertyTable.scalarsOf_of_get? hv',
      ← PropertyKind.normalValue_of_isListed hlisted]
    exact hv
  single := by
    intro k hk hlisted
    obtain ⟨v, hv⟩ := PropertyTable.exists_get?_of_mem hk
    obtain ⟨v', hv', huser, hne, rfl⟩ := PropertyTable.get?_normal_eq_some_iff.mp hv
    -- A kind that is not listed may stand once only, so what is stored is a single value.
    have hle : v'.scalars.length ≤ 1 :=
      h.once (k, v') (PropertyTable.get?_eq_some_iff.mp hv') (repeats_eq_false hlisted huser)
    obtain ⟨s, hs⟩ : ∃ s, v'.scalars = [s] := by
      refine List.length_eq_one_iff.mp ?_
      have hpos := List.length_pos_iff.mpr hne
      omega
    refine ⟨s.normal, ?_, ?_⟩
    · rw [valuesOf_normalEntries, valuesOf_wireEntries huser,
        PropertyTable.scalarsOf_of_get? hv', hs]
      rfl
    · rw [← PropertyKind.normalValue_of_single hlisted hs]
      exact hv
  user := by
    rw [pairsOf, valuesOf_normalEntries, Scalar.filterMap_pair?_map_normal]
    exact pairsOf_wireEntries.symm

/-- **What is written is the block of the normal form** of what is stored. -/
theorem block_of_emit (h : p.emit c = .done w) : c.Block w p.normal := by
  obtain ⟨hp, b, hb, hmax, rfl⟩ := emit_eq_done_iff.mp h
  have hallowed : ∀ e ∈ p.wireEntries, c.allows e.1 = true := by
    intro e he
    rcases List.mem_append.mp he with he | he
    · obtain ⟨f, hf, hef⟩ := List.mem_flatMap.mp he
      obtain ⟨s, -, rfl⟩ := List.mem_map.mp hef
      exact hp.allowed f hf
    · obtain ⟨u, hu, rfl⟩ := List.mem_map.mp he
      exact hp.user (List.ne_nil_of_mem hu)
  have hwords : Format.Words c.Entry b p.normalEntries :=
    Emission.words_of_concat (fun e he u hu => Carrier.entry_of_emitEntry (hallowed e he) hu) hb
  exact .intro (VarInt.form_digits hmax) hwords hp.noRepeat hp.gathers

end Properties

end Mqtt
