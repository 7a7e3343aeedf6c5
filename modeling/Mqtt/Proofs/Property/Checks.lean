import Mqtt.Proofs.Property.Atomic

/-!
# The checks of properties, when writing and when reading

The writer of a block asks of each property whether the carrier may carry it, whether it may carry
as many values, and then of each value whether it is in range. The reader asks of each entry whether
the carrier may carry it, whether its value is in range, and whether the kind is there already.

* `Carrier.admits` is what both ask for, and `Properties.offence?` is the first kind that does not
  meet it.
* `Properties.unchecked` is the block without any of these checks.
* `emitEntries_eq_done_iff_admits`: the writer writes the block if all properties meet the checks.
* `addEntries_of_unchecked`: on entries that were written without checks the reader does one `store`
  after the other.
* `emit_agrees_with_read`: writer and reader refuse the same properties, for the same kind.
-/

namespace Mqtt

/-- The property that the error is about. -/
def Error.property? : Error → Option PropertyKind
  | notBoolean k _ | zeroProperty k | unsupportedProperty k _ | duplicateProperty k _ => some k
  | _ => none

/-- Whether the error says that a property of this kind violates the protocol. -/
def Error.IsAbout (e : Error) (k : PropertyKind) : Prop :=
  e.kind.isA .protocol = true ∧ e.property? = some k

namespace PropertyKind

variable {k : PropertyKind} {s : Scalar} {w : Bytes}

instance : Decidable (k.InRange s) :=
  inferInstanceAs (Decidable ((k.isBoolean = true → s.number? = some 0 ∨ s.number? = some 1) ∧
    (k.isNonZero = true → s.number? ≠ some 0)))

/-- A value out of range is an error about its kind. -/
theorem isAbout_of_check_eq_error {v : PropertyValue} {e : Error} (h : k.check v = .error e) :
    e.IsAbout k := by
  rcases eq_of_check_eq_error h with rfl | rfl
  · exact ⟨rfl, rfl⟩
  · exact ⟨rfl, rfl⟩

/-- An entry, whether the value is in range or not. -/
def emitUnchecked (k : PropertyKind) (s : Scalar) : Emission :=
  VarInt.emit k.identifier ++ k.format.emit s

/-- An entry is written without checks if the value has a form. -/
theorem emitUnchecked_eq_done_iff :
    k.emitUnchecked s = .done w ↔
      ∃ v, k.format.emit s = .done v ∧ w = VarInt.digits k.identifier ++ v := by
  rw [emitUnchecked, VarInt.emit_natCast k.identifier_le_max, Emission.append_eq_done]
  constructor
  · rintro ⟨_, v, ⟨⟩, hv, rfl⟩
    exact ⟨v, hv, rfl⟩
  · rintro ⟨v, hv, rfl⟩
    exact ⟨_, v, rfl, hv, rfl⟩

end PropertyKind

/-! ### What both sides ask for -/

namespace Carrier

variable {c : Carrier} {k : PropertyKind} {v : PropertyValue} {w : Bytes}

/-- Whether the carrier may carry the kind, and with as many values, and these are in range. -/
def admits (c : Carrier) (k : PropertyKind) (v : PropertyValue) : Bool :=
  c.allows k && (c.repeats k || v.scalars.length ≤ 1) && v.scalars.all fun s => k.InRange s

/-- The parts of `admits`. -/
theorem admits_iff :
    c.admits k v = true ↔
      c.allows k = true ∧ (c.repeats k = false → v.scalars.length ≤ 1) ∧
        ∀ s ∈ v.scalars, k.InRange s := by
  unfold admits
  cases c.repeats k <;> simp [and_assoc]

/-- The values of a kind are written as they are without checks, if they are admitted. -/
theorem emitValue_eq_done_iff_admits :
    c.emitValue k v = .done w ↔
      c.admits k v = true ∧ Emission.concat k.emitUnchecked v.scalars = .done w := by
  have hentry : ∀ s u, k.emitEntry s = .done u ↔ k.InRange s ∧ k.emitUnchecked s = .done u := by
    intro s u
    rw [PropertyKind.emitEntry_eq_done_iff, PropertyKind.emitUnchecked_eq_done_iff]
  rw [emitValue_eq_done_iff, Emission.concat_eq_done_iff_of_guard hentry, admits_iff]
  simp only [and_assoc]

/-- Values that have forms but are not admitted fail, and the error is about their kind. -/
theorem emitValue_of_not_admits (hv : Emission.concat k.emitUnchecked v.scalars = .done w)
    (h : c.admits k v = false) : ∃ bs e, c.emitValue k v = .failed bs e ∧ e.IsAbout k := by
  have hvalue : ∀ s ∈ v.scalars, (k.format.emit s).FailsWith fun e => e.IsAbout k := by
    intro s hs
    obtain ⟨u, hu⟩ := Emission.exists_concat_eq_done_iff.mp ⟨w, hv⟩ s hs
    obtain ⟨u', hu', -⟩ := PropertyKind.emitUnchecked_eq_done_iff.mp hu
    rw [hu']
    exact (Emission.whole_done u').failsWith
  have hfails : (c.emitValue k v).FailsWith fun e => e.IsAbout k :=
    failsWith_emitValue ⟨rfl, rfl⟩ ⟨rfl, rfl⟩ fun s hs =>
      PropertyKind.failsWith_emitEntry (fun _ => PropertyKind.isAbout_of_check_eq_error)
        (hvalue s hs)
  cases hemit : c.emitValue k v with
  | failed bs e => exact ⟨bs, e, rfl, hfails hemit⟩
  | done bs =>
    have hadmits := (emitValue_eq_done_iff_admits.mp hemit).1
    rw [h] at hadmits
    cases hadmits

end Carrier

namespace Properties

variable {c : Carrier} {p q : Properties} {k : PropertyKind} {b : Bytes}
  {es fs : List (PropertyKind × Scalar)}

/-- The kind of the first group that the carrier does not admit. -/
def offence? (c : Carrier) (p : Properties) : Option PropertyKind :=
  (p.groups.find? fun g => !c.admits g.1 g.2).map Prod.fst

/-- The entries of a block, written without checks. -/
def uncheckedEntries (p : Properties) : Emission :=
  .concat (fun e => e.1.emitUnchecked e.2) p.wireEntries

/-- A block that is written without checks. -/
def unchecked (p : Properties) : Emission :=
  p.uncheckedEntries.headed fun length => VarInt.emit length

/-- No group is without a value, if no property is. -/
theorem scalars_ne_nil_of_mem_groups (hne : ∀ e ∈ p.table.entries, e.2.scalars ≠ [])
    {g : PropertyKind × PropertyValue} (hg : g ∈ p.groups) : g.2.scalars ≠ [] := by
  rcases List.mem_append.mp hg with hg | hg
  · exact hne g hg
  · split at hg
    case isTrue => cases hg
    case isFalse huser =>
      obtain rfl := List.mem_singleton.mp hg
      simpa [PropertyValue.scalars] using huser

/-! ### Writing -/

/-- Without checks, too, a block is written group by group. -/
theorem uncheckedEntries_eq_concat (p : Properties) :
    p.uncheckedEntries =
      .concat (fun g => .concat g.1.emitUnchecked g.2.scalars) p.groups := by
  rw [uncheckedEntries, ← spread_groups, spread, Emission.concat_flatMap]
  simp only [Emission.concat_map]

/-- A block is written as it is without checks, if all properties are admitted. -/
theorem emitEntries_eq_done_iff_admits :
    p.emitEntries c = .done b ↔
      (∀ g ∈ p.groups, c.admits g.1 g.2 = true) ∧ p.uncheckedEntries = .done b := by
  rw [emitEntries_eq_concat, uncheckedEntries_eq_concat]
  exact Emission.concat_eq_done_iff_of_guard fun g u => Carrier.emitValue_eq_done_iff_admits

/-- The first property that is not admitted stops the writer, and the error is about its kind. -/
theorem emit_of_offence {pre post : List (PropertyKind × PropertyValue)} {v : PropertyValue}
    (hb : p.uncheckedEntries = .done b) (hgroups : p.groups = pre ++ (k, v) :: post)
    (hpre : ∀ g ∈ pre, c.admits g.1 g.2 = true) (hv : c.admits k v = false) :
    ∃ e, p.emit c = .fail e ∧ e.IsAbout k := by
  rw [uncheckedEntries_eq_concat, hgroups, Emission.concat_append, Emission.append_eq_done] at hb
  obtain ⟨u, _, hu, hrest, -⟩ := hb
  rw [Emission.concat_cons, Emission.append_eq_done] at hrest
  obtain ⟨u', _, hu', -, -⟩ := hrest
  -- What stands before the property is written, and then its own writing fails.
  have hbefore : Emission.concat (fun g => c.emitValue g.1 g.2) pre = .done u :=
    (Emission.concat_eq_done_iff_of_guard fun g u =>
      Carrier.emitValue_eq_done_iff_admits).mpr ⟨hpre, hu⟩
  obtain ⟨bs, e, hfail, he⟩ := Carrier.emitValue_of_not_admits hu' hv
  refine ⟨e, ?_, he⟩
  rw [emit, emitEntries_eq_concat, hgroups, Emission.concat_append, Emission.concat_cons, hbefore,
    hfail]
  rfl

/-! ### Reading -/

/-- Stores what an entry says, if the carrier may carry it and its value is in range. -/
def store (c : Carrier) (p : Properties) (e : PropertyKind × Scalar) : Except Error Properties :=
  if c.allows e.1 then
    (e.1.check (.one e.2)).bind fun _ => p.add c e.1 e.2
  else
    .error (.unsupportedProperty e.1 c)

/-- Stores what the entries of a list say, one after the other. -/
def storeAll (c : Carrier) (p : Properties) (es : List (PropertyKind × Scalar)) :
    Except Error Properties :=
  es.foldlM (store c) p

/-- Only a second entry of a kind cannot be added. -/
theorem eq_of_add_eq_error {s : Scalar} {e : Error} (h : p.add c k s = .error e) :
    e = .duplicateProperty k c := by
  unfold add at h
  split at h
  case isTrue => cases h
  case isFalse =>
    split at h
    case isTrue => exact (Except.error.inj h).symm
    case isFalse => split at h <;> cases h

/-- The entries of two lists are stored one list after the other. -/
theorem storeAll_append :
    storeAll c p (es ++ fs) = (storeAll c p es).bind fun q => storeAll c q fs :=
  List.foldlM_append

/-- An entry is stored if its kind and its value are admitted and it can be added. -/
theorem store_eq_ok_iff {e : PropertyKind × Scalar} :
    store c p e = .ok q ↔ (c.allows e.1 = true ∧ e.1.InRange e.2) ∧ p.add c e.1 e.2 = .ok q := by
  unfold store
  split
  case isTrue h =>
    rw [h, ← PropertyKind.check_eq_ok_iff]
    simp only [true_and]
    exact Except.seq_eq_ok_iff
  case isFalse h => simp [h]

/-- An entry that is not stored is an error about its own kind. -/
theorem isAbout_of_store_eq_error {e : PropertyKind × Scalar} {x : Error}
    (h : store c p e = .error x) : x.IsAbout e.1 := by
  unfold store at h
  split at h
  case isFalse =>
    obtain rfl := Except.error.inj h
    exact ⟨rfl, rfl⟩
  case isTrue =>
    cases hcheck : e.1.check (.one e.2) with
    | error y =>
      rw [hcheck] at h
      obtain rfl := Except.error.inj h
      exact PropertyKind.isAbout_of_check_eq_error hcheck
    | ok _ =>
      rw [hcheck] at h
      obtain rfl := eq_of_add_eq_error h
      exact ⟨rfl, rfl⟩

/-- All entries are stored if each is admitted and they can be added. -/
theorem storeAll_eq_ok_iff :
    storeAll c p es = .ok q ↔
      (∀ e ∈ es, c.allows e.1 = true ∧ e.1.InRange e.2) ∧ addAll c p es = .ok q := by
  induction es generalizing p with
  | nil => simp [storeAll, addAll]
  | cons e es ih =>
    rw [storeAll, addAll, List.foldlM_cons, List.foldlM_cons, Except.bind_eq_ok_iff,
      Except.bind_eq_ok_iff, List.forall_mem_cons]
    simp only [store_eq_ok_iff]
    constructor
    · rintro ⟨p', ⟨he, hadd⟩, hall⟩
      obtain ⟨hes, hall⟩ := ih.mp hall
      exact ⟨⟨he, hes⟩, p', hadd, hall⟩
    · rintro ⟨⟨he, hes⟩, p', hadd, hall⟩
      exact ⟨p', ⟨he, hadd⟩, ih.mpr ⟨hes, hall⟩⟩

/-- Entries that are not stored are an error about the kind of one of them. -/
theorem exists_isAbout_of_storeAll_eq_error {x : Error} (h : storeAll c p es = .error x) :
    ∃ e ∈ es, x.IsAbout e.1 := by
  induction es generalizing p with
  | nil => cases h
  | cons e es ih =>
    rw [storeAll, List.foldlM_cons] at h
    cases hstore : store c p e with
    | error y =>
      rw [hstore] at h
      obtain rfl := Except.error.inj h
      exact ⟨e, by simp, isAbout_of_store_eq_error hstore⟩
    | ok p' =>
      rw [hstore] at h
      obtain ⟨e', he', hx⟩ := ih h
      exact ⟨e', by simp [he'], hx⟩

/-- Entries that are admitted one by one are stored, if none is repeated. -/
theorem exists_storeAll (hes : ∀ e ∈ es, c.allows e.1 = true ∧ e.1.InRange e.2)
    (hno : NoRepeat c es) : ∃ q, storeAll c {} es = .ok q := by
  refine ⟨gathered es, storeAll_eq_ok_iff.mpr ⟨hes, ?_⟩⟩
  rw [addAll_eq_ok_iff gathers_nil fun _ _ => Nat.zero_le 1]
  exact ⟨hno, (gathers_iff_eq_gathered hno).mpr rfl⟩

/-- The kind of an identifier is found, and may be carried or not. -/
theorem kindOf_identifier (c : Carrier) (k : PropertyKind) :
    c.kindOf k.identifier =
      if c.allows k then .ok k else .error (.unsupportedProperty k c) := by
  unfold Carrier.kindOf PropertyKind.ofIdentifier
  rw [PropertyKind.ofIdentifier?_identifier]
  rfl

/-- The reader checks an entry that was written without checks, and does so kind first. -/
theorem readEntry_append_of_unchecked {s : Scalar} {w : Bytes} (h : k.emitUnchecked s = .done w)
    (t : Bytes) :
    c.readEntry (w ++ t) =
      if c.allows k then (k.check (.one s.normal)).map fun _ => ((k, s.normal), t)
      else .error (.unsupportedProperty k c) := by
  obtain ⟨v, hv, rfl⟩ := PropertyKind.emitUnchecked_eq_done_iff.mp h
  have hform := VarInt.form_digits k.identifier_le_max
  have hidentifier := VarInt.reads_form.read_append hform (v ++ t)
  have hvalue := (ValueFormat.reads_form k.format).read_append (ValueFormat.form_of_emit hv) t
  unfold Carrier.readEntry
  rw [List.append_assoc, Reader.bind_of_ok hidentifier, kindOf_identifier]
  split
  case isFalse => rfl
  case isTrue =>
    rw [Reader.bind_of_ok (Reader.lift_eq_ok_iff.mpr ⟨rfl, rfl⟩), Reader.bind_of_ok hvalue]
    cases k.check (.one s.normal) <;> rfl

/-- An entry that was written without checks is stored before what follows it. -/
theorem addEntries_append_of_unchecked {s : Scalar} {w : Bytes} (h : k.emitUnchecked s = .done w)
    (t : Bytes) :
    addEntries c p (w ++ t) = (store c p (k, s.normal)).bind fun q => addEntries c q t := by
  have hne : w ++ t ≠ [] := by
    obtain ⟨v, -, rfl⟩ := PropertyKind.emitUnchecked_eq_done_iff.mp h
    have hpos := (VarInt.form_digits k.identifier_le_max).length_pos
    apply List.ne_nil_of_length_pos
    rw [List.length_append, List.length_append]
    omega
  rw [addEntries_eq_bind hne, readEntry_append_of_unchecked h, store]
  split
  case isFalse => rfl
  case isTrue => cases k.check (.one s.normal) <;> rfl

/-- Entries that were written without checks are stored one after the other. -/
theorem addEntries_of_unchecked
    (h : Emission.concat (fun e => e.1.emitUnchecked e.2) es = .done b) :
    addEntries c p b = storeAll c p (es.map fun e => (e.1, e.2.normal)) := by
  induction es generalizing p b with
  | nil =>
    obtain rfl := Emission.done.inj h
    rw [addEntries]
    rfl
  | cons e es ih =>
    obtain ⟨w, t, hw, ht, rfl⟩ := Emission.append_eq_done.mp h
    rw [addEntries_append_of_unchecked hw, List.map_cons, storeAll, List.foldlM_cons]
    exact congrArg (store c p (e.1, e.2.normal)).bind (funext fun q => ih ht)

/-- The reader of a block that was written without checks is up to its entries. -/
theorem read_of_unchecked (hb : p.uncheckedEntries = .done b) (hmax : b.length ≤ VarInt.max) :
    read c (VarInt.digits b.length ++ b) =
      ((storeAll c {} p.normalEntries).mapError fun e =>
        if e = .insufficientData then .propertyOverrun c else e).map (·, []) := by
  have hblock : takeBlock c b.length b = .ok (b, []) := by
    have hread := (reads_takeBlock c b.length).read_append (w := b) ⟨rfl, rfl⟩ []
    rwa [List.append_nil] at hread
  unfold read
  rw [Reader.bind_of_ok (VarInt.reads_form.read_append (VarInt.form_digits hmax) b),
    Reader.bind_of_ok hblock]
  show (ofBlock c b >>= fun q => Except.ok (q, [])) = _
  rw [ofBlock, addEntries_of_unchecked hb]
  rfl

/-! ### Both sides -/

/-- No kind comes twice among the properties in front of another one. -/
theorem nodup_of_groups_eq {pre post : List (PropertyKind × PropertyValue)} {v : PropertyValue}
    (h : p.groups = pre ++ (k, v) :: post) : (pre.map Prod.fst).Nodup := by
  have hpre : pre <+: p.groups := ⟨(k, v) :: post, h.symm⟩
  have htable : p.table.entries <+: p.groups := List.prefix_append _ _
  have hle : pre.length ≤ p.table.entries.length := by
    have hlen := congrArg List.length h
    -- At most the user properties are not in the table.
    have huser : p.groups.length ≤ p.table.entries.length + 1 := by
      unfold groups
      rw [List.length_append]
      split <;> simp
    rw [List.length_append, List.length_cons] at hlen
    omega
  have hfront : pre <+: p.table.entries := List.prefix_of_prefix_length_le hpre htable hle
  exact p.table.nodup.sublist (hfront.sublist.map Prod.fst)

/-- The entries of a list of properties repeat nothing, if none has more values than it may. -/
theorem noRepeat_spread {gs : List (PropertyKind × PropertyValue)} (hgs : (gs.map Prod.fst).Nodup)
    (h : ∀ g ∈ gs, c.repeats g.1 = false → g.2.scalars.length ≤ 1) : NoRepeat c (spread gs) := by
  intro k hk
  rw [valuesOf_spread hgs]
  cases hv : gs.lookup k with
  | none => exact Nat.zero_le 1
  | some v =>
    obtain ⟨_, _, rfl, -⟩ := List.lookup_eq_some_iff.mp hv
    exact h (k, v) (by simp) hk

/-- Properties that are all admitted are stored from the entries that they are written in. -/
theorem exists_storeAll_spread {gs : List (PropertyKind × PropertyValue)}
    (hgs : (gs.map Prod.fst).Nodup) (h : ∀ g ∈ gs, c.admits g.1 g.2 = true) :
    ∃ q, storeAll c {} ((spread gs).map fun e => (e.1, e.2.normal)) = .ok q := by
  apply exists_storeAll
  · intro e he
    obtain ⟨_, hmem, rfl⟩ := List.mem_map.mp he
    obtain ⟨g, hg, hspread⟩ := List.mem_flatMap.mp hmem
    obtain ⟨s, hs, rfl⟩ := List.mem_map.mp hspread
    obtain ⟨hallows, -, hrange⟩ := Carrier.admits_iff.mp (h g hg)
    exact ⟨hallows, PropertyKind.inRange_normal_iff.mpr (hrange s hs)⟩
  · have hno : NoRepeat c (spread gs) :=
      noRepeat_spread hgs fun g hg => (Carrier.admits_iff.mp (h g hg)).2.1
    intro k hk
    rw [valuesOf_map_normal, List.length_map]
    exact hno k hk

/-- Of a property that is not admitted some entry is not stored, and the error is about its kind. -/
theorem storeAll_of_not_admits {v : PropertyValue} (hv : c.admits k v = false)
    (hne : v.scalars ≠ []) (hes : storeAll c {} es = .ok p) :
    ∃ e, storeAll c p ((v.scalars.map Scalar.normal).map (Prod.mk k)) = .error e ∧
      e.IsAbout k := by
  cases hstore : storeAll c p ((v.scalars.map Scalar.normal).map (Prod.mk k)) with
  | error e =>
    obtain ⟨_, hmem, he⟩ := exists_isAbout_of_storeAll_eq_error hstore
    obtain ⟨s, -, rfl⟩ := List.mem_map.mp hmem
    exact ⟨e, rfl, he⟩
  | ok q =>
    -- If all entries are stored, then the property meets all that `admits` asks for.
    have hall : storeAll c {} (es ++ (v.scalars.map Scalar.normal).map (Prod.mk k)) = .ok q := by
      rw [storeAll_append, hes]
      exact hstore
    obtain ⟨hentries, hadd⟩ := storeAll_eq_ok_iff.mp hall
    have hno := ((addAll_eq_ok_iff gathers_nil fun _ _ => Nat.zero_le 1).mp hadd).1
    have hentry : ∀ s ∈ v.scalars, c.allows k = true ∧ k.InRange s := by
      intro s hs
      have hmem : (k, s.normal) ∈ (v.scalars.map Scalar.normal).map (Prod.mk k) :=
        List.mem_map_of_mem (List.mem_map_of_mem hs)
      have h := hentries (k, s.normal) (List.mem_append_right _ hmem)
      exact ⟨h.1, PropertyKind.inRange_normal_iff.mp h.2⟩
    have honce : c.repeats k = false → v.scalars.length ≤ 1 := by
      intro hk
      have hle := hno k hk
      rw [List.nil_append, valuesOf_append, valuesOf_map_mk, List.length_append,
        List.length_map] at hle
      omega
    obtain ⟨s, hs⟩ := List.exists_mem_of_ne_nil _ hne
    have hadmits := Carrier.admits_iff.mpr
      ⟨(hentry s hs).1, honce, fun s hs => (hentry s hs).2⟩
    rw [hv] at hadmits
    cases hadmits

/-- The first property that is not admitted stops the reader, and the error is about its kind. -/
theorem read_of_offence {pre post : List (PropertyKind × PropertyValue)} {v : PropertyValue}
    (hb : p.uncheckedEntries = .done b) (hmax : b.length ≤ VarInt.max)
    (hgroups : p.groups = pre ++ (k, v) :: post) (hpre : ∀ g ∈ pre, c.admits g.1 g.2 = true)
    (hv : c.admits k v = false) (hne : v.scalars ≠ []) :
    ∃ e, read c (VarInt.digits b.length ++ b) = .error e ∧ e.IsAbout k := by
  obtain ⟨q, hq⟩ := exists_storeAll_spread (nodup_of_groups_eq hgroups) hpre
  obtain ⟨e, hstore, he⟩ := storeAll_of_not_admits hv hne hq
  have hentries : p.normalEntries = (spread pre).map (fun e => (e.1, e.2.normal)) ++
      ((v.scalars.map Scalar.normal).map (Prod.mk k) ++
        (spread post).map fun e => (e.1, e.2.normal)) := by
    rw [normalEntries, ← spread_groups, hgroups]
    simp [spread]
  have hstop : storeAll c {} p.normalEntries = .error e := by
    rw [hentries, storeAll_append, hq]
    show storeAll c q _ = _
    rw [storeAll_append, hstore]
    rfl
  refine ⟨e, ?_, he⟩
  have hnot : e ≠ .insufficientData := by
    rintro rfl
    cases he.2
  rw [read_of_unchecked hb hmax, hstop]
  exact congrArg Except.error (if_neg hnot)

/-- **Writer and reader of a block make the same checks of properties.** Let no property be stored
    without a value, each value have a form on its own, and the forms not be too long together. Then
    there is a block that says just what is stored, in order. Either it is what the writer writes
    and the reader reads it, or neither does: both report a violation of the protocol by the first
    property that the carrier may not carry, or not as often, or of which a value is out of range.
    The writer leaves nothing behind then. Of such a property, the two may name different faults. -/
theorem emit_agrees_with_read (c : Carrier) (hne : ∀ e ∈ p.table.entries, e.2.scalars ≠ [])
    (hvalues : ∀ e ∈ p.wireEntries, ∃ w, e.1.format.emit e.2 = .done w)
    (hsize : p.uncheckedEntries.bytes.length ≤ 268435455) :
    ∃ u, p.unchecked = .done u ∧
      ((p.offence? c = none ∧ p.emit c = .done u ∧ read c u = .ok (p.normal, [])) ∨
        ∃ k e e', p.offence? c = some k ∧ p.emit c = .fail e ∧ read c u = .error e' ∧
          e.IsAbout k ∧ e'.IsAbout k) := by
  obtain ⟨b, hb⟩ : ∃ b, p.uncheckedEntries = .done b := by
    refine Emission.exists_concat_eq_done_iff.mpr fun e he => ?_
    obtain ⟨w, hw⟩ := hvalues e he
    exact ⟨_, PropertyKind.emitUnchecked_eq_done_iff.mpr ⟨w, hw, rfl⟩⟩
  rw [hb] at hsize
  have hmax : b.length ≤ VarInt.max := hsize
  have hunchecked : p.unchecked = .done (VarInt.digits b.length ++ b) := by
    rw [unchecked, hb]
    show VarInt.emit b.length ++ .done b = _
    rw [VarInt.emit_natCast hmax]
    rfl
  refine ⟨_, hunchecked, ?_⟩
  unfold offence?
  cases hfind : p.groups.find? fun g => !c.admits g.1 g.2 with
  | none =>
    have hadmits : ∀ g ∈ p.groups, c.admits g.1 g.2 = true := by
      intro g hg
      simpa using List.find?_eq_none.mp hfind g hg
    have hemit : p.emit c = .done (VarInt.digits b.length ++ b) := by
      rw [emit, emitEntries_eq_done_iff_admits.mpr ⟨hadmits, hb⟩, ← hb]
      exact hunchecked
    have hread := (reads_block c).read_append (block_of_emit hemit) []
    rw [List.append_nil] at hread
    exact Or.inl ⟨rfl, hemit, hread⟩
  | some g =>
    obtain ⟨k, v⟩ := g
    obtain ⟨hbad, pre, post, hgroups, hgood⟩ := List.find?_eq_some_iff_append.mp hfind
    have hpre : ∀ g ∈ pre, c.admits g.1 g.2 = true := by
      intro g hg
      simpa using hgood g hg
    have hv : c.admits k v = false := by simpa using hbad
    have hmem : (k, v) ∈ p.groups := List.mem_of_find?_eq_some hfind
    have hvne : v.scalars ≠ [] := scalars_ne_nil_of_mem_groups hne hmem
    obtain ⟨e, hemit, he⟩ := emit_of_offence hb hgroups hpre hv
    obtain ⟨e', hread, he'⟩ := read_of_offence hb hmax hgroups hpre hv hvne
    exact Or.inr ⟨k, e, e', rfl, hemit, hread, he, he'⟩

/-- Properties of a PUBLISH of which the second one is given twice and out of range. -/
def twiceZero : Properties where
  table := ⟨[(.contentType, .one (.text (Text.ofChars ['t']))),
    (.topicAlias, .many [.number 5, .number 0]), (.serverKeepAlive, .one (.number 1))], by decide⟩
  user := [(Text.ofChars ['k'], Text.ofChars ['v'])]

/-- The writer reports the repetition and the reader the value out of range, before either comes to
    the third property. -/
theorem emit_agrees_with_read_twiceZero :
    let c : Carrier := .packet .publish
    let u : Bytes := [20, 3, 0, 1, 116, 35, 0, 5, 35, 0, 0, 19, 0, 1, 38, 0, 1, 107, 0, 1, 118]
    (∀ e ∈ twiceZero.table.entries, e.2.scalars ≠ []) ∧
      (∀ e ∈ twiceZero.wireEntries, ∃ w, e.1.format.emit e.2 = .done w) ∧
      twiceZero.uncheckedEntries.bytes.length ≤ 268435455 ∧
      twiceZero.unchecked = .done u ∧
      twiceZero.emit c = .fail (.duplicateProperty .topicAlias c) ∧
      read c u = .error (.zeroProperty .topicAlias) ∧
      ∃ u, twiceZero.unchecked = .done u ∧
        ((twiceZero.offence? c = none ∧ twiceZero.emit c = .done u ∧
            read c u = .ok (twiceZero.normal, [])) ∨
          ∃ k e e', twiceZero.offence? c = some k ∧ twiceZero.emit c = .fail e ∧
            read c u = .error e' ∧ e.IsAbout k ∧ e'.IsAbout k) := by
  intro c u
  have hne : ∀ e ∈ twiceZero.table.entries, e.2.scalars ≠ [] := by decide
  have hvalues : ∀ e ∈ twiceZero.wireEntries, ∃ w, e.1.format.emit e.2 = .done w := by
    intro e he
    have hall : ∀ e ∈ twiceZero.wireEntries, (e.1.format.emit e.2).complete?.isSome = true := by
      decide +kernel
    obtain ⟨w, hw⟩ := Option.isSome_iff_exists.mp (hall e he)
    exact ⟨w, Emission.complete?_eq_some_iff.mp hw⟩
  have hsize : twiceZero.uncheckedEntries.bytes.length ≤ 268435455 := by decide +kernel
  exact ⟨hne, hvalues, hsize, by decide +kernel, by decide +kernel, by decide +kernel,
    emit_agrees_with_read c hne hvalues hsize⟩

end Properties

end Mqtt
