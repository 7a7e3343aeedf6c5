import Mathlib.Data.List.Nodup
import Mathlib.Data.List.Perm.Subperm
import Mqtt.Proofs.Property.Normal

/-!
# Documented properties

* `Documented` are the properties that a packet is meant to store. They read back as they are, but
  for flags, which read back as numbers (`Documented.same_normal`).
* `normal_of_block`: what a block says is its own normal form.
* `fits_emit_of_block`: what a block says can be written, and in no more bytes than the block has.
* `size?_emit_of_same` and `same_normal_of_same`: properties that are the same are written in the
  same number of bytes, and read back as the same.
-/

namespace Mqtt

/-- How a packet is meant to store the values of a kind: a single value, or a list of them if the
    kind is listed. -/
inductive PropertyKind.Shaped : PropertyKind → PropertyValue → Prop
  | single {k : PropertyKind} {s : Scalar} : k.isListed = false → Shaped k (.one s)
  | list {k : PropertyKind} {ss : List Scalar} : k.isListed = true → ss ≠ [] → Shaped k (.many ss)

/-- What a packet is meant to store: values of the shape of their kind, and the user properties
    apart from the others. -/
structure Properties.Documented (p : Properties) : Prop where
  apart : ∀ e ∈ p.table.entries, e.1 ≠ .userProperty
  shaped : ∀ e ∈ p.table.entries, e.1.Shaped e.2

/-- A value without flags has its single values without flags. -/
theorem PropertyValue.scalars_normal (v : PropertyValue) :
    v.normal.scalars = v.scalars.map Scalar.normal := by
  cases v <;> rfl

/-- Tables that are the same have the same entries without flags, in some order. -/
theorem PropertyTable.perm_of_same {t u : PropertyTable} (h : t.same u = true) :
    (t.entries.map fun e => (e.1, e.2.normal)).Perm
      (u.entries.map fun e => (e.1, e.2.normal)) := by
  rw [PropertyTable.same, Bool.and_eq_true, beq_iff_eq, List.all_eq_true] at h
  obtain ⟨hlen, hall⟩ := h
  have hnodup : (t.entries.map fun e => (e.1, e.2.normal)).Nodup := by
    refine List.Nodup.of_map Prod.fst ?_
    rw [List.map_map]
    exact t.nodup
  have hsubset : (t.entries.map fun e => (e.1, e.2.normal)) ⊆
      u.entries.map fun e => (e.1, e.2.normal) := by
    intro f hf
    obtain ⟨e, he, rfl⟩ := List.mem_map.mp hf
    have hsame := hall e he
    split at hsame
    case h_1 v hv =>
      rw [PropertyValue.same_iff] at hsame
      rw [hsame]
      exact List.mem_map.mpr ⟨(e.1, v), PropertyTable.get?_eq_some_iff.mp hv, rfl⟩
    case h_2 => cases hsame
  refine (List.subperm_of_subset hnodup hsubset).perm_of_length_le ?_
  rw [List.length_map, List.length_map, hlen]

/-- Tables with the same entries without flags, in some order, are the same. -/
theorem PropertyTable.same_of_perm {t u : PropertyTable}
    (h : (t.entries.map fun e => (e.1, e.2.normal)).Perm
      (u.entries.map fun e => (e.1, e.2.normal))) : t.same u = true := by
  rw [PropertyTable.same, Bool.and_eq_true, beq_iff_eq, List.all_eq_true]
  refine ⟨by simpa using h.length_eq, fun e he => ?_⟩
  obtain ⟨⟨k, v⟩, hf, heq⟩ := List.mem_map.mp (h.mem_iff.mp (List.mem_map_of_mem he))
  obtain ⟨rfl, hv⟩ := Prod.mk.inj heq
  rw [PropertyTable.get?_eq_some_iff.mpr hf]
  exact PropertyValue.same_iff.mpr hv.symm

namespace PropertyKind

variable {k : PropertyKind} {v : PropertyValue}

/-- A value in its shape is a value. -/
theorem Shaped.scalars_ne_nil (h : k.Shaped v) : v.scalars ≠ [] := by
  cases h with
  | single _ => exact List.cons_ne_nil _ _
  | list _ hss => exact hss

/-- A value in its shape reads back as it is, a flag being a number. -/
theorem Shaped.normalValue_eq (h : k.Shaped v) : k.normalValue v = v.normal := by
  cases h with
  | single hk => exact normalValue_of_single hk rfl
  | list hk _ => exact normalValue_of_isListed hk

/-- The form in which a value reads back does not tell flags from numbers. -/
theorem normalValue_normal (k : PropertyKind) (v : PropertyValue) :
    k.normalValue v.normal = k.normalValue v := by
  have hscalars : v.normal.scalars.map Scalar.normal = v.scalars.map Scalar.normal := by
    simp [PropertyValue.scalars_normal]
  unfold normalValue
  rw [hscalars]

end PropertyKind

namespace Properties

variable {c : Carrier} {k : PropertyKind} {p q : Properties} {w : Bytes}
  {es : List (PropertyKind × Scalar)}

/-! ### Their normal form -/

/-- Documented properties keep their places and, but for flags, their values. -/
theorem Documented.entries_normal (h : p.Documented) :
    p.normal.table.entries = p.table.entries.map fun e => (e.1, e.2.normal) := by
  show List.map _ (p.table.entries.filter _) = _
  rw [List.filter_eq_self.mpr]
  · apply List.map_congr_left
    intro e he
    rw [(h.shaped e he).normalValue_eq]
  · intro e he
    exact decide_eq_true ⟨h.apart e he, (h.shaped e he).scalars_ne_nil⟩

/-- The kinds of documented properties keep their order. -/
theorem Documented.keys_normal (h : p.Documented) : p.normal.table.keys = p.table.keys := by
  rw [PropertyTable.keys, h.entries_normal, List.map_map]
  rfl

/-- The user properties of documented properties are all apart. -/
theorem Documented.user_normal (h : p.Documented) : p.normal.user = p.user := by
  have hnone : p.table.get? .userProperty = none := by
    cases hget : p.table.get? .userProperty with
    | none => rfl
    | some v => exact absurd rfl (h.apart _ (PropertyTable.get?_eq_some_iff.mp hget))
  show (p.table.scalarsOf .userProperty).filterMap Scalar.pair? ++ p.user = p.user
  rw [PropertyTable.scalarsOf, hnone]
  rfl

/-- Documented properties are the same as their normal form. -/
theorem Documented.same_normal (h : p.Documented) : p.normal.same p = true := by
  have hentries : p.normal.table.entries.map (fun e => (e.1, e.2.normal)) =
      p.table.entries.map fun e => (e.1, e.2.normal) := by
    rw [h.entries_normal, List.map_map]
    simp only [Function.comp_def, PropertyValue.normal_normal]
  rw [same, Bool.and_eq_true]
  refine ⟨PropertyTable.same_of_perm ?_, by simp [h.user_normal]⟩
  rw [hentries]

/-- Documented properties are none if their normal form is none. -/
theorem Documented.isEmpty_normal (h : p.Documented) : p.normal.isEmpty = p.isEmpty := by
  rw [isEmpty, isEmpty, PropertyTable.isEmpty, PropertyTable.isEmpty, h.entries_normal,
    h.user_normal]
  cases p.table.entries <;> rfl

/-- The normal form of documented properties has their entries, flags being numbers. -/
theorem Documented.wireEntries_normal (h : p.Documented) :
    p.normal.wireEntries = p.normalEntries := by
  rw [wireEntries, h.entries_normal, h.user_normal, normalEntries, wireEntries, List.map_append,
    spread, spread, List.flatMap_map, List.map_flatMap, List.map_map]
  simp only [PropertyValue.scalars_normal, List.map_map]
  rfl

/-- Documented properties may be carried if their normal form may be. -/
theorem Documented.carried_normal_iff (h : p.Documented) : Carried c p.normal ↔ Carried c p := by
  constructor
  · intro hc
    refine ⟨fun e he => ?_, fun e he hrep => ?_, h.user_normal ▸ hc.user⟩
    · exact hc.allowed (e.1, e.2.normal) (h.entries_normal ▸ List.mem_map_of_mem he)
    · have hle := hc.once (e.1, e.2.normal) (h.entries_normal ▸ List.mem_map_of_mem he) hrep
      rwa [PropertyValue.scalars_normal, List.length_map] at hle
  · intro hc
    refine ⟨fun e he => ?_, fun e he hrep => ?_, h.user_normal.symm ▸ hc.user⟩
    · rw [h.entries_normal] at he
      obtain ⟨f, hf, rfl⟩ := List.mem_map.mp he
      exact hc.allowed f hf
    · rw [h.entries_normal] at he
      obtain ⟨f, hf, rfl⟩ := List.mem_map.mp he
      rw [PropertyValue.scalars_normal, List.length_map]
      exact hc.once f hf hrep

/-- Documented properties are written in the same block as their normal form. -/
theorem Documented.complete?_emit_normal (h : p.Documented) :
    (p.normal.emit c).complete? = (p.emit c).complete? := by
  have hconcat : ∀ b, Emission.concat (fun e => e.1.emitEntry e.2) p.normal.wireEntries = .done b ↔
      Emission.concat (fun e => e.1.emitEntry e.2) p.wireEntries = .done b := by
    intro b
    rw [h.wireEntries_normal, normalEntries, Emission.concat_map]
    exact Emission.concat_eq_done_iff_congr fun _ _ => PropertyKind.emitEntry_normal_eq_done_iff
  refine Emission.complete?_congr fun w => ?_
  rw [emit_eq_done_iff, emit_eq_done_iff, h.carried_normal_iff]
  simp only [hconcat]

/-! ### What a block says -/

/-- What the table has for a kind are the values that the entries have for it. -/
theorem Gathers.scalars_eq (h : Gathers es p) {v : PropertyValue} (he : (k, v) ∈ p.table.entries) :
    v.scalars = valuesOf k es := by
  have hk : k ∈ p.table.keys := List.mem_map_of_mem he
  have hget := PropertyTable.get?_eq_some_iff.mpr he
  cases hlisted : k.isListed with
  | true =>
    rw [h.listed k hk hlisted] at hget
    obtain rfl := Option.some.inj hget
    rfl
  | false =>
    obtain ⟨s, hs, hone⟩ := h.single k hk hlisted
    rw [hone] at hget
    obtain rfl := Option.some.inj hget
    exact hs.symm

/-- What entries say is documented. -/
theorem Gathers.documented (h : Gathers es p) : p.Documented where
  apart := by
    intro e he
    have hk : e.1 ∈ p.table.keys := List.mem_map_of_mem he
    exact (h.mem_keys_iff.mp hk).1
  shaped := by
    rintro ⟨k, v⟩ he
    have hk : k ∈ p.table.keys := List.mem_map_of_mem he
    have hget := PropertyTable.get?_eq_some_iff.mpr he
    cases hlisted : k.isListed with
    | true =>
      rw [h.listed k hk hlisted] at hget
      obtain rfl := Option.some.inj hget
      exact .list hlisted (h.mem_keys_iff.mp hk).2
    | false =>
      obtain ⟨s, -, hs⟩ := h.single k hk hlisted
      rw [hs] at hget
      obtain rfl := Option.some.inj hget
      exact .single hlisted

/-- What entries without flags say is its own normal form. -/
theorem Gathers.normal_eq (h : Gathers es p) (hes : ∀ e ∈ es, e.2.normal = e.2) :
    p.normal = p := by
  have hvalues : ∀ k, (valuesOf k es).map Scalar.normal = valuesOf k es := by
    intro k
    refine (List.map_congr_left fun s hs => ?_).trans (List.map_id _)
    obtain ⟨e, he, rfl⟩ := List.mem_map.mp hs
    exact hes e (List.mem_filter.mp he).1
  have htable : p.normal.table.entries = p.table.entries := by
    rw [h.documented.entries_normal]
    refine (List.map_congr_left fun e he => ?_).trans (List.map_id _)
    obtain ⟨k, v⟩ := e
    have hv : v.normal = v := by
      have hmap := hvalues k
      rw [← h.scalars_eq he] at hmap
      cases v with
      | one s => exact congrArg PropertyValue.one (List.cons.inj hmap).1
      | many ss => exact congrArg PropertyValue.many hmap
    exact Prod.ext rfl hv
  have huser : p.normal.user = p.user := h.documented.user_normal
  have htable' : p.normal.table = p.table := PropertyTable.ext htable
  cases p
  simp_all [normal]

/-- Entries grouped by their kinds are the same entries in another order. -/
theorem flatMap_filter_perm {ks : List PropertyKind} (hks : ks.Nodup)
    (h : ∀ e ∈ es, e.1 ∈ ks) : (ks.flatMap fun k => es.filter (·.1 = k)).Perm es := by
  -- The entries of the first kind come to the front, and the others are grouped by induction.
  induction ks generalizing es with
  | nil =>
    rw [List.eq_nil_iff_forall_not_mem.mpr fun e he => absurd (h e he) List.not_mem_nil]
    exact List.Perm.nil
  | cons k ks ih =>
    rw [List.nodup_cons] at hks
    have hrest : ∀ e ∈ es.filter (fun e => !decide (e.1 = k)), e.1 ∈ ks := by
      intro e he
      rw [List.mem_filter] at he
      rcases List.mem_cons.mp (h e he.1) with hk | hk
      · simp [hk] at he
      · exact hk
    have hsame : (ks.flatMap fun j => (es.filter fun e => !decide (e.1 = k)).filter (·.1 = j)) =
        ks.flatMap fun j => es.filter (·.1 = j) := by
      refine List.flatMap_congr fun j hj => ?_
      rw [List.filter_filter]
      refine List.filter_congr fun e _ => ?_
      have hjk : j ≠ k := fun h => hks.1 (h ▸ hj)
      by_cases he : e.1 = j
      · simp [he, hjk]
      · simp [he]
    rw [List.flatMap_cons, ← hsame]
    exact ((ih hks.2 hrest).append_left _).trans (List.filter_append_perm _ es)

/-- Pairs of strings are the values of the pairs that they hold. -/
theorem map_filterMap_pair? {ss : List Scalar} (h : ∀ s ∈ ss, ∃ u v, s = .pair u v) :
    (ss.filterMap Scalar.pair?).map (fun u => .pair u.1 u.2) = ss := by
  rw [List.map_filterMap]
  refine (List.filterMap_congr fun s hs => ?_).trans List.filterMap_some
  obtain ⟨u, v, rfl⟩ := h s hs
  rfl

/-- The entries of a kind are those with its values. -/
theorem map_mk_valuesOf : (valuesOf k es).map (Prod.mk k) = es.filter (·.1 = k) := by
  rw [valuesOf, List.map_map]
  refine (List.map_congr_left fun e he => ?_).trans (List.map_id _)
  have hk : e.1 = k := by simpa using (List.mem_filter.mp he).2
  exact Prod.ext hk.symm rfl

/-- The entries that a block is written in are those that it was read from, put together by their
    kinds, and the user properties behind them. -/
theorem Gathers.wireEntries_eq (h : Gathers es p)
    (hpair : ∀ s ∈ valuesOf .userProperty es, ∃ u v, s = .pair u v) :
    p.wireEntries =
      (kindsOf es).flatMap (fun k => es.filter (·.1 = k)) ++ es.filter (·.1 = .userProperty) := by
  have htable : spread p.table.entries = p.table.keys.flatMap fun k => es.filter (·.1 = k) := by
    rw [spread, PropertyTable.keys, List.flatMap_map]
    refine List.flatMap_congr fun e he => ?_
    rw [← map_mk_valuesOf, ← h.scalars_eq he]
  have huser : (p.user.map fun u => (PropertyKind.userProperty, Scalar.pair u.1 u.2)) =
      es.filter (·.1 = .userProperty) := by
    rw [← map_mk_valuesOf, ← map_filterMap_pair? hpair, List.map_map, h.user]
    rfl
  rw [wireEntries, htable, huser, h.keys]

/-- The entries that a block is written in are those that it was read from, in another order. -/
theorem Gathers.wireEntries_perm (h : Gathers es p)
    (hpair : ∀ s ∈ valuesOf .userProperty es, ∃ u v, s = .pair u v) : p.wireEntries.Perm es := by
  -- The kinds of the table and the user properties are all kinds of the entries, each once.
  have hnodup : (p.table.keys ++ [PropertyKind.userProperty]).Nodup := by
    rw [List.nodup_append]
    refine ⟨p.table.nodup, by simp, ?_⟩
    intro k hk j hj
    rw [List.mem_singleton] at hj
    rw [hj]
    exact (h.mem_keys_iff.mp hk).1
  have hall : ∀ e ∈ es, e.1 ∈ p.table.keys ++ [PropertyKind.userProperty] := by
    intro e he
    rw [List.mem_append, List.mem_singleton, h.mem_keys_iff]
    by_cases huser : e.1 = .userProperty
    · exact Or.inr huser
    · refine Or.inl ⟨huser, ?_⟩
      have hmem : e.2 ∈ valuesOf e.1 es := List.mem_map_of_mem (List.mem_filter.mpr ⟨he, by simp⟩)
      exact List.ne_nil_of_mem hmem
  have hperm := flatMap_filter_perm hnodup hall
  rw [List.flatMap_append, List.flatMap_singleton, h.keys] at hperm
  rw [h.wireEntries_eq hpair]
  exact hperm

/-- A value of a kind in a block is in the range of the kind, has its format and may be carried. -/
theorem entry_of_mem_valuesOf {b : Bytes} (hes : Format.Words c.Entry b es) {s : Scalar}
    (hs : s ∈ valuesOf k es) : ∃ u, c.Entry u (k, s) := by
  obtain ⟨e, he, rfl⟩ := List.mem_map.mp hs
  rw [List.mem_filter, decide_eq_true_eq] at he
  obtain ⟨he, rfl⟩ := he
  exact hes.exists_of_mem he

/-- A user property in a block is a pair. -/
theorem exists_pair_of_mem_valuesOf {b : Bytes} (hes : Format.Words c.Entry b es) :
    ∀ s ∈ valuesOf .userProperty es, ∃ u v, s = .pair u v := by
  intro s hs
  obtain ⟨u, hu⟩ := entry_of_mem_valuesOf hes hs
  cases hu with
  | intro _ _ hform _ =>
    cases hform with
    | textPair _ => exact ⟨_, _, rfl⟩

/-- What the entries of a block say may be carried. -/
theorem Gathers.carried {b : Bytes} (h : Gathers es p) (hes : Format.Words c.Entry b es)
    (hno : NoRepeat c es) : Carried c p := by
  have hallows : ∀ k, valuesOf k es ≠ [] → c.allows k = true := by
    intro k hne
    obtain ⟨s, hs⟩ := List.exists_mem_of_ne_nil _ hne
    obtain ⟨u, hu⟩ := entry_of_mem_valuesOf hes hs
    cases hu with
    | intro hk _ _ _ => exact hk
  refine ⟨fun e he => ?_, fun e he hrep => ?_, fun hne => ?_⟩
  · exact hallows e.1 (h.mem_keys_iff.mp (List.mem_map_of_mem he)).2
  · rw [h.scalars_eq he]
    exact hno e.1 hrep
  · refine hallows .userProperty fun hnil => hne ?_
    rw [h.user, pairsOf, hnil]
    rfl

/-- What a block says is its own normal form. -/
theorem normal_of_block (h : c.Block w p) : p.normal = p := by
  cases h with
  | intro _ hes _ hp =>
    refine hp.normal_eq fun e he => ?_
    obtain ⟨u, hu⟩ := hes.exists_of_mem he
    cases hu with
    | intro _ _ hform _ => exact hform.normal_eq

/-- **What a block says can be written**, and in no more bytes than the block has: the entries are
    put together by their kinds, and no number is padded. -/
theorem fits_emit_of_block (h : c.Block w p) : (p.emit c).Fits w.length := by
  cases h with
  | @intro l b es p hl hes hno hp =>
    -- Written in the order in which they were read, the entries fit.
    obtain ⟨b', hb', hle⟩ : (Emission.concat (fun e => e.1.emitEntry e.2) es).Fits b.length :=
      Emission.fits_concat (fun _ _ => Carrier.Entry.fits_emitEntry) hes
    -- The writer groups them by kind, which does not change their size.
    have hsize := Emission.size?_concat_perm (f := fun e : PropertyKind × Scalar =>
      e.1.emitEntry e.2) (hp.wireEntries_perm (exists_pair_of_mem_valuesOf hes))
    rw [hb'] at hsize
    obtain ⟨b'', hb'', hlen⟩ := Emission.size?_eq_some_iff.mp hsize
    have hmax := hl.le_max
    refine ⟨_, emit_eq_done_iff.mpr ⟨hp.carried hes hno, b'', hb'', by omega, rfl⟩, ?_⟩
    -- A shorter block has no longer number in front of it.
    have hdigits := VarInt.length_digits_mono (m := b''.length) (n := b.length) (by omega)
    have hshort := hl.2.length_digits_le
    rw [List.length_append, List.length_append]
    omega

/-! ### Properties that are the same -/

/-- The flags of a value make no difference to the number of bytes. -/
theorem size?_emitValue_normal {v : PropertyValue} :
    (c.emitValue k v.normal).size? = (c.emitValue k v).size? := by
  refine congrArg (Option.map List.length) (Emission.complete?_congr fun w => ?_)
  rw [Carrier.emitValue_eq_done_iff, Carrier.emitValue_eq_done_iff, PropertyValue.scalars_normal,
    List.length_map, Emission.concat_map,
    Emission.concat_eq_done_iff_congr fun _ _ => PropertyKind.emitEntry_normal_eq_done_iff]

/-- **Properties that are the same** are written in the same number of bytes. -/
theorem size?_emit_of_same (h : p.same q = true) : (p.emit c).size? = (q.emit c).size? := by
  rw [same, Bool.and_eq_true, beq_iff_eq] at h
  obtain ⟨htable, huser⟩ := h
  have hnormal : ∀ t : PropertyTable,
      (Emission.concat (fun e => c.emitValue e.1 e.2) t.entries).size? =
        (Emission.concat (fun e => c.emitValue e.1 e.2)
          (t.entries.map fun e => (e.1, e.2.normal))).size? := by
    intro t
    rw [Emission.concat_map]
    exact Emission.size?_concat_congr fun e _ => size?_emitValue_normal.symm
  refine Emission.size?_headed_congr ?_ fun _ => rfl
  rw [emitEntries, emitEntries, huser]
  refine Emission.size?_append_congr ?_ rfl
  rw [hnormal, hnormal, Emission.size?_concat_perm (PropertyTable.perm_of_same htable)]

end Properties

namespace PropertyTable

variable {t u : PropertyTable}

/-- What a table reads back as depends on its entries without flags only. -/
theorem entries_normal_eq (t : PropertyTable) :
    t.normal.entries =
      ((t.entries.map fun e => (e.1, e.2.normal)).filter fun e =>
        e.1 ≠ .userProperty ∧ e.2.scalars ≠ []).map fun e => (e.1, e.1.normalValue e.2) := by
  simp [normal, List.filter_map, Function.comp_def, PropertyValue.scalars_normal,
    PropertyKind.normalValue_normal]

/-- Tables that are the same read back as the same. -/
theorem same_normal_of_same (h : t.same u = true) : t.normal.same u.normal = true := by
  refine same_of_perm (List.Perm.map _ ?_)
  rw [entries_normal_eq, entries_normal_eq]
  exact ((perm_of_same h).filter _).map _

/-- Tables that are the same have the same values for each kind, flags being numbers. -/
theorem map_normal_get?_of_same (h : t.same u = true) (k : PropertyKind) :
    (t.get? k).map PropertyValue.normal = (u.get? k).map PropertyValue.normal := by
  have hentry : ∀ (t : PropertyTable) (v : PropertyValue),
      (t.get? k).map PropertyValue.normal = some v ↔
        (k, v) ∈ t.entries.map fun e => (e.1, e.2.normal) := by
    intro t v
    rw [Option.map_eq_some_iff, List.mem_map]
    constructor
    · rintro ⟨w, hw, rfl⟩
      exact ⟨(k, w), get?_eq_some_iff.mp hw, rfl⟩
    · rintro ⟨e, he, heq⟩
      obtain ⟨rfl, rfl⟩ := Prod.mk.inj heq
      exact ⟨e.2, get?_eq_some_iff.mpr he, rfl⟩
  refine Option.ext fun v => ?_
  rw [hentry, hentry, (perm_of_same h).mem_iff]

/-- Tables that are the same have the same single values under each kind, flags being numbers. -/
theorem map_normal_scalarsOf_of_same (h : t.same u = true) (k : PropertyKind) :
    (t.scalarsOf k).map Scalar.normal = (u.scalarsOf k).map Scalar.normal := by
  have hscalars : ∀ t : PropertyTable, (t.scalarsOf k).map Scalar.normal =
      (((t.get? k).map PropertyValue.normal).map PropertyValue.scalars).getD [] := by
    intro t
    rw [scalarsOf]
    cases t.get? k with
    | none => rfl
    | some v => exact (PropertyValue.scalars_normal v).symm
  rw [hscalars, hscalars, map_normal_get?_of_same h]

end PropertyTable

/-- **Properties that are the same** read back as the same. -/
theorem Properties.same_normal_of_same {p q : Properties} (h : p.same q = true) :
    p.normal.same q.normal = true := by
  rw [same, Bool.and_eq_true, beq_iff_eq] at h ⊢
  obtain ⟨htable, huser⟩ := h
  refine ⟨PropertyTable.same_normal_of_same htable, ?_⟩
  show (p.table.scalarsOf .userProperty).filterMap Scalar.pair? ++ p.user = _
  rw [← Scalar.filterMap_pair?_map_normal, PropertyTable.map_normal_scalarsOf_of_same htable,
    Scalar.filterMap_pair?_map_normal, huser]
  rfl

end Mqtt
