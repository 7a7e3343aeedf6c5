import Mathlib.Data.List.Induction
import Mathlib.Tactic.ByContra
import Mqtt.Property.Block

/-!
# What the entries of a block say together

* `valuesOf`, `kindsOf` and `pairsOf` take a list of entries apart: the values of a kind, the kinds
  in the order in which they first come, and the user properties.
* `Gathers es p`: the properties `p` are those that the entries `es` say. `gathered es` are these
  properties, put together at once.
* `NoRepeat c es`: no kind that the carrier `c` may carry once stands twice among the entries.
* `addAll_eq_ok_iff`: storing the entries one by one succeeds exactly without such a repetition, and
  then gives the properties that the entries say.
-/

namespace Mqtt

/-! ### Tables -/

namespace PropertyTable

variable {t u : PropertyTable} {j k : PropertyKind} {v : PropertyValue}

/-- Storing under a kind adds that kind. -/
theorem mem_keys_insert_iff : j ∈ (t.insert k v).keys ↔ j ∈ t.keys ∨ j = k := by
  by_cases h : k ∈ t.keys
  · rw [keys_insert_of_mem v h]
    constructor
    · exact Or.inl
    · rintro (hj | rfl)
      · exact hj
      · exact h
  · rw [keys_insert_of_not_mem v h, List.mem_append, List.mem_singleton]

/-- What is found under a kind is its entry. -/
theorem get?_eq_some_iff : t.get? k = some v ↔ (k, v) ∈ t.entries := by
  obtain ⟨es, hes⟩ := t
  show es.lookup k = some v ↔ (k, v) ∈ es
  induction es with
  | nil => simp
  | cons e es ih =>
    obtain ⟨j, w⟩ := e
    rw [List.map_cons, List.nodup_cons] at hes
    rw [List.lookup_cons, List.mem_cons, Prod.mk.injEq]
    by_cases hk : k = j
    · subst hk
      have hnot : (k, v) ∉ es := fun h =>
        hes.1 (List.mem_map.mpr ⟨(k, v), h, rfl⟩)
      simp [hnot, eq_comm]
    · have hbeq : (k == j) = false := beq_eq_false_iff_ne.mpr hk
      simp only [hbeq, hk, false_and, false_or]
      exact ih hes.2

/-- A kind of the table has a value. -/
theorem exists_get?_of_mem (h : k ∈ t.keys) : ∃ v, t.get? k = some v :=
  Option.isSome_iff_exists.mp (get?_isSome_iff.mpr h)

/-- Lists with the same kinds in the same order and the same values are equal. -/
private theorem eq_of_lookup_eq {es fs : List (PropertyKind × PropertyValue)}
    (hes : (es.map Prod.fst).Nodup) (hkeys : es.map Prod.fst = fs.map Prod.fst)
    (hget : ∀ k ∈ es.map Prod.fst, es.lookup k = fs.lookup k) : es = fs := by
  induction es generalizing fs with
  | nil => exact (List.map_eq_nil_iff.mp hkeys.symm).symm
  | cons e es ih =>
    cases fs with
    | nil => simp at hkeys
    | cons f fs =>
      obtain ⟨k, v⟩ := e
      obtain ⟨j, w⟩ := f
      simp only [List.map_cons, List.cons.injEq] at hkeys
      obtain ⟨rfl, hkeys⟩ := hkeys
      have hv : v = w := by
        have hk := hget k (by simp)
        simpa using hk
      rw [List.map_cons, List.nodup_cons] at hes
      have htail : es = fs := by
        refine ih hes.2 hkeys fun i hi => ?_
        have hik : (i == k) = false := beq_eq_false_iff_ne.mpr fun h => hes.1 (h ▸ hi)
        have hlookup := hget i (List.mem_cons_of_mem _ hi)
        simpa only [List.lookup_cons, hik] using hlookup
      rw [hv, htail]

/-- Tables with the same kinds in the same order and the same values are equal. -/
theorem ext_get? (hkeys : t.keys = u.keys) (hget : ∀ k ∈ t.keys, t.get? k = u.get? k) : t = u :=
  PropertyTable.ext (eq_of_lookup_eq t.nodup hkeys hget)

end PropertyTable

/-! ### Lists of entries -/

namespace Properties

/-- The values of a kind, in order. -/
def valuesOf (k : PropertyKind) (es : List (PropertyKind × Scalar)) : List Scalar :=
  (es.filter (·.1 = k)).map Prod.snd

/-- The kinds in the order in which they first come. User properties are kept apart. -/
def kindsOf (es : List (PropertyKind × Scalar)) : List PropertyKind :=
  ((es.map Prod.fst).filter (· ≠ .userProperty)).eraseDups

/-- The user properties, in order. -/
def pairsOf (es : List (PropertyKind × Scalar)) : List (Text × Text) :=
  (valuesOf .userProperty es).filterMap Scalar.pair?

/-- The properties that some entries say: the kinds in the order in which they first come, each with
    its one value or, if the kind is listed, with the list of its values; and the user properties.
    -/
structure Gathers (es : List (PropertyKind × Scalar)) (p : Properties) : Prop where
  keys : p.table.keys = kindsOf es
  listed : ∀ k ∈ p.table.keys, k.isListed = true → p.table.get? k = some (.many (valuesOf k es))
  single : ∀ k ∈ p.table.keys, k.isListed = false →
    ∃ s, valuesOf k es = [s] ∧ p.table.get? k = some (.one s)
  user : p.user = pairsOf es

/-- The value that a kind gets: the list of its values if it is listed, and else its one value. -/
def valueOf (k : PropertyKind) (es : List (PropertyKind × Scalar)) : PropertyValue :=
  match k.isListed, valuesOf k es with
  | false, [s] => .one s
  | _, ss => .many ss

/-- No kind that the carrier may carry only once stands twice. -/
def NoRepeat (c : Carrier) (es : List (PropertyKind × Scalar)) : Prop :=
  ∀ k, c.repeats k = false → (valuesOf k es).length ≤ 1

variable {c : Carrier} {k : PropertyKind} {s : Scalar} {es fs : List (PropertyKind × Scalar)}
  {p q : Properties}

/-- The values of a kind in two lists are those in the one and then those in the other. -/
theorem valuesOf_append : valuesOf k (es ++ fs) = valuesOf k es ++ valuesOf k fs := by
  simp only [valuesOf, List.filter_append, List.map_append]

/-- The value of an entry is one of its own kind. -/
theorem valuesOf_singleton_self : valuesOf k [(k, s)] = [s] := by
  simp [valuesOf]

/-- The value of an entry is none of another kind. -/
theorem valuesOf_singleton_of_ne {j : PropertyKind} (h : j ≠ k) : valuesOf k [(j, s)] = [] := by
  simp [valuesOf, h]

/-- The values of entries of one kind are all of that kind. -/
theorem valuesOf_map_mk (ss : List Scalar) : valuesOf k (ss.map (Prod.mk k)) = ss := by
  simp [valuesOf, List.filter_map, Function.comp_def]

/-- A kind is among the entries if it is no user property and some entry is of it. -/
theorem mem_kindsOf_iff : k ∈ kindsOf es ↔ k ≠ .userProperty ∧ valuesOf k es ≠ [] := by
  have hne : valuesOf k es ≠ [] ↔ k ∈ es.map Prod.fst := by
    constructor
    · intro h
      obtain ⟨x, hx⟩ := List.exists_mem_of_ne_nil _ h
      obtain ⟨e, he, -⟩ := List.mem_map.mp hx
      rw [List.mem_filter, decide_eq_true_eq] at he
      exact he.2 ▸ List.mem_map_of_mem he.1
    · intro h
      obtain ⟨e, he, rfl⟩ := List.mem_map.mp h
      have hmem : e.2 ∈ valuesOf e.1 es := List.mem_map_of_mem (List.mem_filter.mpr ⟨he, by simp⟩)
      exact List.ne_nil_of_mem hmem
  rw [kindsOf, List.mem_eraseDups, List.mem_filter, hne]
  simp [and_comm]

/-- A user property and a kind that is there already add no kind. -/
theorem kindsOf_append_of_mem (h : k = .userProperty ∨ k ∈ kindsOf es) :
    kindsOf (es ++ [(k, s)]) = kindsOf es := by
  unfold kindsOf at h ⊢
  rw [List.map_append, List.filter_append, List.eraseDups_append]
  rcases h with rfl | hmem
  · simp [List.removeAll]
  · rw [List.mem_eraseDups] at hmem
    have hremove : ([(k, s)].map Prod.fst |>.filter (· ≠ .userProperty)).removeAll
        ((es.map Prod.fst).filter (· ≠ .userProperty)) = [] := by
      rw [List.removeAll, List.filter_eq_nil_iff]
      intro j hj
      obtain rfl : j = k := by simpa using (List.mem_filter.mp hj).1
      simpa using hmem
    rw [hremove, List.eraseDups_nil, List.append_nil]

/-- A new kind comes last. -/
theorem kindsOf_append_of_not_mem (huser : k ≠ .userProperty) (h : k ∉ kindsOf es) :
    kindsOf (es ++ [(k, s)]) = kindsOf es ++ [k] := by
  unfold kindsOf at h ⊢
  rw [List.map_append, List.filter_append, List.eraseDups_append]
  rw [List.mem_eraseDups] at h
  have hremove : ([(k, s)].map Prod.fst |>.filter (· ≠ .userProperty)).removeAll
      ((es.map Prod.fst).filter (· ≠ .userProperty)) = [k] := by
    have hk : ([(k, s)].map Prod.fst).filter (· ≠ .userProperty) = [k] := by simp [huser]
    rw [hk, List.removeAll, List.filter_eq_self]
    intro j hj
    obtain rfl := List.mem_singleton.mp hj
    simpa using h
  rw [hremove]
  rfl

/-- No kind comes twice among the kinds. -/
theorem nodup_kindsOf (es : List (PropertyKind × Scalar)) : (kindsOf es).Nodup := by
  induction es using List.reverseRecOn with
  | nil => exact List.nodup_nil
  | append_singleton es e ih =>
    obtain ⟨k, s⟩ := e
    by_cases hold : k = .userProperty ∨ k ∈ kindsOf es
    · rw [kindsOf_append_of_mem hold]
      exact ih
    · obtain ⟨huser, hk⟩ := not_or.mp hold
      rw [kindsOf_append_of_not_mem huser hk]
      refine List.nodup_append.mpr ⟨ih, List.pairwise_singleton _ k, fun i hi j hj => ?_⟩
      rw [List.mem_singleton.mp hj]
      rintro rfl
      exact hk hi

/-- A user property more is a user property at the end. -/
theorem pairsOf_append_singleton :
    pairsOf (es ++ [(k, s)]) =
      pairsOf es ++ if k = .userProperty then s.pair?.toList else [] := by
  unfold pairsOf
  rw [valuesOf_append, List.filterMap_append]
  by_cases huser : k = .userProperty
  · subst huser
    rw [valuesOf_singleton_self, if_pos rfl]
    cases h : s.pair? <;> simp [h]
  · rw [valuesOf_singleton_of_ne huser, if_neg huser, List.filterMap_nil]

/-! ### The properties that entries say -/

/-- No entries say no properties. -/
theorem gathers_nil : Gathers [] {} where
  keys := rfl
  listed := fun _ hk => absurd hk List.not_mem_nil
  single := fun _ hk => absurd hk List.not_mem_nil
  user := rfl

/-- The same entries say the same properties. -/
theorem Gathers.unique (hp : Gathers es p) (hq : Gathers es q) : p = q := by
  have hkeys : p.table.keys = q.table.keys := hp.keys.trans hq.keys.symm
  have htable : p.table = q.table := by
    refine PropertyTable.ext_get? hkeys fun k hk => ?_
    cases hlisted : k.isListed with
    | true => rw [hp.listed k hk hlisted, hq.listed k (hkeys ▸ hk) hlisted]
    | false =>
      obtain ⟨s, hs, hps⟩ := hp.single k hk hlisted
      obtain ⟨s', hs', hqs⟩ := hq.single k (hkeys ▸ hk) hlisted
      rw [hs, List.cons.injEq] at hs'
      rw [hps, hqs, hs'.1]
  have huser : p.user = q.user := hp.user.trans hq.user.symm
  cases p
  cases q
  simp_all

/-- A table holds the kinds that the entries are of, user properties apart. -/
theorem Gathers.mem_keys_iff (h : Gathers es p) :
    k ∈ p.table.keys ↔ k ≠ .userProperty ∧ valuesOf k es ≠ [] := by
  rw [h.keys, mem_kindsOf_iff]

/-- The properties that some entries say, put together at once. -/
def gathered (es : List (PropertyKind × Scalar)) : Properties where
  table :=
    { entries := (kindsOf es).map fun k => (k, valueOf k es)
      nodup := by simpa [List.map_map, Function.comp_def] using nodup_kindsOf es }
  user := pairsOf es

/-- Each kind has its value in the properties that are put together. -/
theorem get?_gathered (h : k ∈ kindsOf es) : (gathered es).table.get? k = some (valueOf k es) :=
  PropertyTable.get?_eq_some_iff.mpr (List.mem_map.mpr ⟨k, h, rfl⟩)

/-- A kind that is not listed and no user property may stand once only. -/
theorem repeats_eq_false (hlisted : k.isListed = false) (huser : k ≠ .userProperty) :
    c.repeats k = false := by
  rw [← Bool.not_eq_true]
  intro hrep
  have hmem : k ∈ c.repeatable := by simpa [Carrier.repeats] using hrep
  unfold Carrier.repeatable at hmem
  split at hmem
  · rcases List.mem_cons.mp hmem with rfl | hmem
    · cases hlisted
    · exact absurd (List.mem_singleton.mp hmem) huser
  · exact absurd (List.mem_singleton.mp hmem) huser

/-- Without a repetition, the properties that the entries say are those that are put together. -/
theorem gathers_iff_eq_gathered (h : NoRepeat c es) : Gathers es p ↔ p = gathered es := by
  have hkeys : (gathered es).table.keys = kindsOf es := by
    simp [gathered, PropertyTable.keys, Function.comp_def]
  have hgathered : Gathers es (gathered es) := by
    refine ⟨hkeys, fun k hk hlisted => ?_, fun k hk hlisted => ?_, rfl⟩
    · rw [hkeys] at hk
      rw [get?_gathered hk, valueOf, hlisted]
    · rw [hkeys] at hk
      obtain ⟨huser, hne⟩ := mem_kindsOf_iff.mp hk
      have hone : (valuesOf k es).length = 1 :=
        Nat.le_antisymm (h k (repeats_eq_false hlisted huser)) (List.length_pos_iff.mpr hne)
      obtain ⟨s, hs⟩ := List.length_eq_one_iff.mp hone
      refine ⟨s, hs, ?_⟩
      rw [get?_gathered hk, valueOf, hlisted, hs]
  constructor
  · exact fun hp => hp.unique hgathered
  · rintro rfl
    exact hgathered

/-- Storing the value of an entry under its kind keeps up with the entries. -/
theorem Gathers.insert (h : Gathers es p) (huser : k ≠ .userProperty) {v : PropertyValue}
    (hmany : k.isListed = true → v = .many (valuesOf k es ++ [s]))
    (hone : k.isListed = false → valuesOf k es = [] ∧ v = .one s) :
    Gathers (es ++ [(k, s)]) { p with table := p.table.insert k v } where
  keys := by
    by_cases hk : k ∈ p.table.keys
    · rw [PropertyTable.keys_insert_of_mem v hk, h.keys,
        kindsOf_append_of_mem (Or.inr (h.keys ▸ hk))]
    · rw [PropertyTable.keys_insert_of_not_mem v hk, h.keys,
        kindsOf_append_of_not_mem huser (h.keys ▸ hk)]
  listed := by
    intro j hj hlisted
    rw [valuesOf_append]
    by_cases hjk : j = k
    · subst hjk
      rw [valuesOf_singleton_self, PropertyTable.get?_insert_self, hmany hlisted]
    -- The other kinds keep their values, and the entry adds none to them.
    · rw [valuesOf_singleton_of_ne (Ne.symm hjk), List.append_nil,
        PropertyTable.get?_insert_of_ne _ _ hjk]
      exact h.listed j ((PropertyTable.mem_keys_insert_iff.mp hj).resolve_right hjk) hlisted
  single := by
    intro j hj hlisted
    rw [valuesOf_append]
    by_cases hjk : j = k
    · subst hjk
      refine ⟨s, ?_, ?_⟩
      · rw [valuesOf_singleton_self, (hone hlisted).1, List.nil_append]
      · rw [PropertyTable.get?_insert_self, (hone hlisted).2]
    · rw [valuesOf_singleton_of_ne (Ne.symm hjk), List.append_nil,
        PropertyTable.get?_insert_of_ne _ _ hjk]
      exact h.single j ((PropertyTable.mem_keys_insert_iff.mp hj).resolve_right hjk) hlisted
  user := by
    rw [pairsOf_append_singleton, if_neg huser, List.append_nil]
    exact h.user

/-- Appending a user property keeps up with the entries. -/
theorem Gathers.addUser (h : Gathers es p) :
    Gathers (es ++ [(.userProperty, s)]) { p with user := p.user ++ s.pair?.toList } where
  keys := by
    rw [kindsOf_append_of_mem (Or.inl rfl)]
    exact h.keys
  listed := by
    intro j hj hlisted
    have hne : PropertyKind.userProperty ≠ j := by rintro rfl; cases hlisted
    rw [valuesOf_append, valuesOf_singleton_of_ne hne, List.append_nil]
    exact h.listed j hj hlisted
  single := by
    intro j hj hlisted
    have hne : PropertyKind.userProperty ≠ j := (h.mem_keys_iff.mp hj).1.symm
    rw [valuesOf_append, valuesOf_singleton_of_ne hne, List.append_nil]
    exact h.single j hj hlisted
  user := by
    rw [pairsOf_append_singleton, if_pos rfl, ← h.user]

/-- An entry is stored unless its kind is there already and may not be repeated. -/
theorem Gathers.exists_add (h : Gathers es p)
    (hnew : k ≠ .userProperty → c.repeats k = false → valuesOf k es = []) :
    ∃ q, p.add c k s = .ok q ∧ Gathers (es ++ [(k, s)]) q := by
  unfold add
  by_cases huser : k = .userProperty
  · subst huser
    rw [if_pos rfl]
    exact ⟨_, rfl, h.addUser⟩
  -- The check for a repetition passes.
  have hcontains : (p.table.contains k && !c.repeats k) = false := by
    cases hrep : c.repeats k with
    | true => simp
    | false =>
      rw [Bool.not_false, Bool.and_true, ← Bool.not_eq_true, PropertyTable.contains_iff,
        h.mem_keys_iff]
      exact fun hk => hk.2 (hnew huser hrep)
  rw [if_neg huser, hcontains, if_neg (by decide)]
  cases hlisted : k.isListed with
  | true =>
    -- The value goes behind those that the kind has, which may be none.
    have hpush : p.table.push k s = p.table.insert k (.many (valuesOf k es ++ [s])) := by
      unfold PropertyTable.push
      by_cases hk : k ∈ p.table.keys
      · rw [h.listed k hk hlisted]
        rfl
      · have hnone : p.table.get? k = none := by
          rw [← Option.not_isSome_iff_eq_none, PropertyTable.get?_isSome_iff]
          exact hk
        have hvalues : valuesOf k es = [] := by
          by_contra hne
          exact hk (h.mem_keys_iff.mpr ⟨huser, hne⟩)
        rw [hnone, hvalues]
        rfl
    rw [if_pos rfl, hpush]
    exact ⟨_, rfl, h.insert huser (fun _ => rfl) fun hl => absurd hl (by simp [hlisted])⟩
  | false =>
    rw [if_neg (by decide)]
    exact ⟨_, rfl, h.insert huser (fun hl => absurd hl (by simp [hlisted]))
      fun _ => ⟨hnew huser (repeats_eq_false hlisted huser), rfl⟩⟩

/-- A second entry of a kind that may stand once is refused. -/
theorem Gathers.add_eq_error (h : Gathers es p) (huser : k ≠ .userProperty)
    (hrep : c.repeats k = false) (hold : valuesOf k es ≠ []) :
    p.add c k s = .error (.duplicateProperty k c) := by
  have hcontains : p.table.contains k = true :=
    PropertyTable.contains_iff.mpr (h.mem_keys_iff.mpr ⟨huser, hold⟩)
  rw [add, if_neg huser, hcontains, hrep, if_pos (by decide)]

/-! ### All entries -/

/-- Stores what the entries of a list say, one after the other. -/
def addAll (c : Carrier) (p : Properties) (es : List (PropertyKind × Scalar)) :
    Except Error Properties :=
  es.foldlM (fun p e => p.add c e.1 e.2) p

/-- One more entry repeats nothing if it is the first of its kind or its kind may be repeated. -/
theorem noRepeat_append_singleton_iff :
    NoRepeat c (es ++ [(k, s)]) ↔
      NoRepeat c es ∧ (c.repeats k = false → valuesOf k es = []) := by
  constructor
  · intro h
    refine ⟨fun j hj => ?_, fun hk => ?_⟩
    · have hle := h j hj
      rw [valuesOf_append, List.length_append] at hle
      omega
    · have hle := h k hk
      rw [valuesOf_append, valuesOf_singleton_self, List.length_append] at hle
      exact List.eq_nil_of_length_eq_zero (by simpa using hle)
  · rintro ⟨h, hk⟩ j hj
    rw [valuesOf_append]
    by_cases hjk : j = k
    · subst hjk
      rw [hk hj, valuesOf_singleton_self]
      exact Nat.le_refl 1
    · rw [valuesOf_singleton_of_ne (Ne.symm hjk), List.append_nil]
      exact h j hj

/-- A repetition does not go away with more entries. -/
theorem NoRepeat.of_append (h : NoRepeat c (es ++ fs)) : NoRepeat c es := by
  intro k hk
  have hle := h k hk
  rw [valuesOf_append, List.length_append] at hle
  omega

/-- All carriers may carry user properties more than once. -/
theorem repeats_userProperty (c : Carrier) : c.repeats .userProperty = true := by
  unfold Carrier.repeats Carrier.repeatable
  split <;> rfl

/-- **Storing the entries one by one** succeeds exactly if no kind is repeated that may not be, and
    gives the properties that all entries together say. -/
theorem addAll_eq_ok_iff (hp : Gathers es p) (hes : NoRepeat c es) :
    addAll c p fs = .ok q ↔ NoRepeat c (es ++ fs) ∧ Gathers (es ++ fs) q := by
  -- `es` are the entries that are stored already.
  induction fs generalizing es p with
  | nil =>
    rw [addAll, List.foldlM_nil, List.append_nil]
    constructor
    · rintro ⟨⟩; exact ⟨hes, hp⟩
    · rintro ⟨-, hq⟩; rw [hp.unique hq]; rfl
  | cons e fs ih =>
    obtain ⟨k, s⟩ := e
    have hsplit : es ++ (k, s) :: fs = (es ++ [(k, s)]) ++ fs := by simp
    rw [addAll, List.foldlM_cons]
    by_cases hnew : c.repeats k = false → valuesOf k es = []
    · obtain ⟨p', hp', hgathers⟩ := hp.exists_add (s := s) fun _ hrep => hnew hrep
      rw [hp', hsplit]
      exact ih hgathers (noRepeat_append_singleton_iff.mpr ⟨hes, hnew⟩)
    · rw [Classical.not_imp] at hnew
      obtain ⟨hrep, hold⟩ := hnew
      have huser : k ≠ .userProperty := by
        rintro rfl
        rw [repeats_userProperty] at hrep
        cases hrep
      rw [hp.add_eq_error huser hrep hold]
      simp only [bind, Except.bind, reduceCtorEq, false_iff]
      rintro ⟨hno, -⟩
      rw [hsplit] at hno
      exact hold ((noRepeat_append_singleton_iff.mp hno.of_append).2 hrep)

end Properties

end Mqtt
