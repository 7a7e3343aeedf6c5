import Mqtt.Proofs.Property.Canonical

/-!
# Blocks that are written as they were read

* `ValueFormat.TightForm` and `Carrier.TightEntry` are the words of values and entries in which no
  variable byte integer has a digit to spare.
* `Properties.UserLast`: all user properties come behind all other entries; `Properties.Together k`:
  no entry of another kind comes between two entries of the kind `k`.
* `Carrier.TightBlock` are the blocks without any such slack.
* `Properties.Gathers.wireEntries_eq_self`: entries that are put together by their kinds, with user
  properties last, are written in the order in which they were read.
* `Carrier.Block.emit_eq_done_iff`: what a block says is written as just that block exactly if the
  block is tight.
-/

namespace Mqtt

/-! ### What is tight -/

/-- The words of single values in which a variable byte integer is in its shortest form. -/
def ValueFormat.TightForm (f : ValueFormat) : Format Scalar := fun w s =>
  f.Form w s ∧ (f = .varInt → ∀ n : Nat, s = .number n → VarInt.Shortest w n)

/-- An entry that the carrier may carry, with identifier and value in their shortest forms. -/
inductive Carrier.TightEntry (c : Carrier) : Format (PropertyKind × Scalar)
  | intro {u v : Bytes} {k : PropertyKind} {s : Scalar} :
      c.allows k = true → VarInt.Shortest u k.identifier → k.format.TightForm v s →
      k.InRange s → TightEntry c (u ++ v) (k, s)

namespace Properties

variable {c : Carrier} {k : PropertyKind} {es fs : List (PropertyKind × Scalar)} {p : Properties}

/-- All user properties come behind all other entries. -/
def UserLast (es : List (PropertyKind × Scalar)) : Prop :=
  es.Pairwise fun e f => e.1 = .userProperty → f.1 = .userProperty

/-- No entry of another kind comes between two entries of the kind. -/
def Together (k : PropertyKind) (es : List (PropertyKind × Scalar)) : Prop :=
  ∀ e f g, [e, f, g].Sublist es → e.1 = k → g.1 = k → f.1 = k

end Properties

/-- A property block without slack: its length is in its shortest form, and so are all variable byte
    integers in its entries; the user properties come last, and the subscription identifiers next to
    each other. -/
inductive Carrier.TightBlock (c : Carrier) : Bytes → Prop
  | intro {l b : Bytes} {es : List (PropertyKind × Scalar)} :
      VarInt.Shortest l b.length → Format.Words c.TightEntry b es → Properties.UserLast es →
      Properties.Together .subscriptionIdentifier es → TightBlock c (l ++ b)

/-! ### Values and entries -/

/-- A value is written as the word that it was read from exactly if that is tight. -/
theorem ValueFormat.Form.emit_eq_done_iff {f : ValueFormat} {w : Bytes} {s : Scalar}
    (h : f.Form w s) : f.emit s = .done w ↔ f.TightForm w s := by
  -- Only variable byte integers have several words.
  cases h with
  | fixed hw =>
    have hemit := Integer.emit_natCast_eq_done_iff.mpr hw
    exact iff_of_true hemit ⟨.fixed hw, nofun⟩
  | @varInt n w hw =>
    have hemit : (ValueFormat.varInt).emit (.number n) = .done (VarInt.digits n) :=
      VarInt.emit_natCast hw.le_max
    rw [hemit, Emission.done.injEq]
    constructor
    · rintro rfl
      refine ⟨.varInt hw, fun _ m hm => ?_⟩
      obtain rfl := Int.ofNat_inj.mp (Scalar.number.inj hm)
      exact VarInt.shortest_iff.mpr ⟨hw.le_max, rfl⟩
    · rintro ⟨-, htight⟩
      exact (VarInt.shortest_iff.mp (htight rfl n rfl)).2.symm
  | text hw => exact iff_of_true (Text.emit_eq_done_iff.mpr hw) ⟨.text hw, nofun⟩
  | binary hw => exact iff_of_true (Binary.emit_eq_done_iff.mpr hw) ⟨.binary hw, nofun⟩
  | textPair hw => exact iff_of_true (TextPair.emit_eq_done_iff.mpr hw) ⟨.textPair hw, nofun⟩

namespace Carrier

variable {c : Carrier} {w : Bytes} {e : PropertyKind × Scalar}

/-- An entry without padding is an entry. -/
theorem TightEntry.entry (h : c.TightEntry w e) : c.Entry w e := by
  cases h with
  | intro hk hu hv hr => exact .intro hk hu.1 hv.1 hr

/-- An entry is written as the word that it was read from exactly if that is tight. -/
theorem Entry.emitEntry_eq_done_iff (h : c.Entry w e) :
    e.1.emitEntry e.2 = .done w ↔ c.TightEntry w e := by
  constructor
  · intro hemit
    cases h with
    | @intro u v k s hk hu hv hr =>
      obtain ⟨-, v', hv', hw⟩ := PropertyKind.emitEntry_eq_done_iff.mp hemit
      -- The identifier ends where its digits say so, and the value stands behind it.
      have hdigits := VarInt.form_digits k.identifier_le_max
      obtain ⟨rfl, -, rfl⟩ := VarInt.reads_form.unique hu hdigits hw
      exact .intro hk (VarInt.shortest_iff.mpr ⟨k.identifier_le_max, rfl⟩)
        (hv.emit_eq_done_iff.mp hv') hr
  · intro htight
    cases htight with
    | @intro u v k s hk hu hv hr =>
      obtain ⟨-, rfl⟩ := VarInt.shortest_iff.mp hu
      exact PropertyKind.emitEntry_eq_done_iff.mpr ⟨hr, v, hv.1.emit_eq_done_iff.mpr hv, rfl⟩

/-- What is written as the entries of a block are entries without padding. -/
theorem words_tightEntry_of_concat {b : Bytes} {es : List (PropertyKind × Scalar)}
    (hes : ∀ e ∈ es, ∃ u, c.Entry u e)
    (h : Emission.concat (fun e => e.1.emitEntry e.2) es = .done b) :
    Format.Words c.TightEntry b es := by
  have htight : ∀ e ∈ es, ∀ u, e.1.emitEntry e.2 = .done u → c.TightEntry u e := by
    rintro ⟨k, s⟩ he u hu
    obtain ⟨u', hentry⟩ := hes _ he
    cases hentry with
    | intro hk _ hv _ =>
      have hentry' := entry_of_emitEntry hk hu
      rw [hv.normal_eq] at hentry'
      exact hentry'.emitEntry_eq_done_iff.mp hu
  have hwords : Format.Words c.TightEntry b (es.map id) := Emission.words_of_concat htight h
  rwa [List.map_id] at hwords

/-- Entries without padding are written as their words. -/
theorem concat_of_words_tightEntry {b : Bytes} {es : List (PropertyKind × Scalar)}
    (h : Format.Words c.TightEntry b es) :
    Emission.concat (fun e => e.1.emitEntry e.2) es = .done b :=
  Emission.concat_of_words (fun _ _ he => he.entry.emitEntry_eq_done_iff.mpr he) h

end Carrier

/-! ### The order of entries -/

namespace Properties

variable {c : Carrier} {k : PropertyKind} {es fs : List (PropertyKind × Scalar)} {p : Properties}

/-- The entries of each kind stand together. -/
def Grouped (es : List (PropertyKind × Scalar)) : Prop :=
  ∀ e f g, [e, f, g].Sublist es → e.1 = g.1 → f.1 = e.1

/-- Some of the entries stand together if all do. -/
theorem Grouped.sublist (h : Grouped es) (hsub : fs.Sublist es) : Grouped fs :=
  fun e f g hefg => h e f g (hefg.trans hsub)

/-- Entries of other kinds may stand behind. -/
theorem Grouped.append (hes : Grouped es) (hfs : Grouped fs)
    (hdisjoint : ∀ e ∈ es, ∀ f ∈ fs, e.1 ≠ f.1) : Grouped (es ++ fs) := by
  intro e f g hsub heq
  obtain ⟨l, r, hlr, hl, hr⟩ := List.sublist_append_iff.mp hsub
  -- Either all three entries stand in the same part, or the first and the last differ in kind.
  rcases l with _ | ⟨a, _ | ⟨b, _ | ⟨d, l⟩⟩⟩ <;>
    simp only [List.nil_append, List.cons_append, List.cons.injEq] at hlr
  · exact hfs e f g (hlr ▸ hr) heq
  · obtain ⟨rfl, rfl⟩ := hlr
    exact absurd heq (hdisjoint _ (hl.subset (by simp)) _ (hr.subset (by simp)))
  · obtain ⟨rfl, rfl, rfl⟩ := hlr
    exact absurd heq (hdisjoint _ (hl.subset (by simp)) _ (hr.subset (by simp)))
  · obtain ⟨rfl, rfl, rfl, hnil⟩ := hlr
    obtain ⟨rfl, -⟩ := List.append_eq_nil_iff.mp hnil.symm
    exact hes e f g hl heq

/-- Entries of one kind stand together. -/
theorem grouped_of_forall (h : ∀ e ∈ es, e.1 = k) : Grouped es := by
  intro e f g hsub _
  rw [h e (hsub.subset (by simp)), h f (hsub.subset (by simp))]

/-- The entries of a table stand together. -/
theorem grouped_spread {ts : List (PropertyKind × PropertyValue)}
    (hts : (ts.map Prod.fst).Nodup) : Grouped (spread ts) := by
  induction ts with
  | nil => exact grouped_of_forall (k := .userProperty) (fun e he => absurd he List.not_mem_nil)
  | cons t ts ih =>
    rw [List.map_cons, List.nodup_cons] at hts
    have hkind : ∀ e ∈ t.2.scalars.map (Prod.mk t.1), e.1 = t.1 := by
      intro e he
      obtain ⟨s, -, rfl⟩ := List.mem_map.mp he
      rfl
    refine Grouped.append (grouped_of_forall hkind) (ih hts.2) fun e he f hf => ?_
    rw [hkind e he]
    -- The kind does not come again in the table.
    obtain ⟨t', ht', hf⟩ := List.mem_flatMap.mp hf
    obtain ⟨s, -, rfl⟩ := List.mem_map.mp hf
    intro heq
    exact hts.1 (heq ▸ List.mem_map_of_mem ht')

/-- The entries that properties are written in stand together, with the user properties last, if
    these are kept apart. -/
theorem grouped_wireEntries (hp : ∀ e ∈ p.table.entries, e.1 ≠ .userProperty) :
    Grouped p.wireEntries ∧ UserLast p.wireEntries := by
  have htable : ∀ e ∈ spread p.table.entries, e.1 ≠ .userProperty := by
    intro e he
    obtain ⟨t, ht, he⟩ := List.mem_flatMap.mp he
    obtain ⟨s, -, rfl⟩ := List.mem_map.mp he
    exact hp t ht
  have huser : ∀ e ∈ p.user.map fun u => (PropertyKind.userProperty, Scalar.pair u.1 u.2),
      e.1 = .userProperty := by
    intro e he
    obtain ⟨u, -, rfl⟩ := List.mem_map.mp he
    rfl
  refine ⟨(grouped_spread p.table.nodup).append (grouped_of_forall huser) ?_, ?_⟩
  · intro e he f hf
    rw [huser f hf]
    exact htable e he
  · refine List.pairwise_append.mpr ⟨?_, ?_, fun e _ f hf _ => huser f hf⟩
    · exact List.pairwise_of_forall_mem_list fun e he f _ h => absurd h (htable e he)
    · exact List.pairwise_of_forall_mem_list fun e _ f hf _ => huser f hf

/-- The entries of a carrier stand together if its subscription identifiers do and its user
    properties are last, since no other kind may be repeated. -/
theorem grouped_of_together (hno : NoRepeat c es) (hlast : UserLast es)
    (htogether : Together .subscriptionIdentifier es) : Grouped es := by
  intro e f g hsub heq
  by_cases huser : e.1 = .userProperty
  · have hpair : [e, f].Sublist es := (List.sublist_append_left [e, f] [g]).trans hsub
    have hef := hlast.sublist hpair
    rw [huser]
    exact List.rel_of_pairwise_cons hef List.mem_cons_self huser
  · by_cases hlisted : e.1 = .subscriptionIdentifier
    · rw [hlisted]
      exact htogether e f g hsub hlisted (heq ▸ hlisted)
    · -- The two entries of the kind would be a repetition.
      have hkind : e.1.isListed = false := by
        cases hk : e.1 <;> first | rfl | exact absurd hk hlisted
      have hone := hno e.1 (repeats_eq_false hkind huser)
      have htwo : [e, g].Sublist (es.filter (·.1 = e.1)) := by
        have hpair : [e, g].Sublist es := by
          refine List.Sublist.trans ?_ hsub
          exact (List.sublist_cons_self f [g]).cons_cons e
        have hfilter := hpair.filter (fun x => decide (x.1 = e.1))
        rwa [List.filter_eq_self.mpr] at hfilter
        intro x hx
        rcases List.mem_cons.mp hx with rfl | hx
        · simp
        · obtain rfl := List.mem_singleton.mp hx
          simp [heq]
      have hlen := htwo.length_le
      rw [valuesOf, List.length_map] at hone
      simp only [List.length_cons, List.length_nil] at hlen
      omega

/-- If the entries behind the first one hold one of its kind, then such an entry comes next. -/
theorem Grouped.eq_of_mem {e f : PropertyKind × Scalar} (h : Grouped (e :: f :: es))
    (hmem : e.1 ∈ (f :: es).map Prod.fst) : f.1 = e.1 := by
  obtain ⟨g, hg, hkind⟩ := List.mem_map.mp hmem
  rcases List.mem_cons.mp hg with rfl | hg
  · exact hkind
  · have hsub : [e, f, g].Sublist (e :: f :: es) :=
      ((List.singleton_sublist.mpr hg).cons_cons f).cons_cons e
    exact h e f g hsub hkind.symm

/-- Entries that stand together are those of the first kind, and then those of the others. -/
theorem Grouped.flatMap_filter_eq (h : Grouped es) :
    ((es.map Prod.fst).eraseDups.flatMap fun k => es.filter (·.1 = k)) = es := by
  induction es with
  | nil => rfl
  | cons e es ih =>
    have hrest := ih (h.sublist (List.sublist_cons_self e es))
    -- Of the first entry, the other kinds know nothing.
    have hothers : ∀ ks : List PropertyKind,
        ((ks.filter fun k => !k == e.1).eraseDups.flatMap fun k => (e :: es).filter (·.1 = k)) =
          (ks.filter fun k => !k == e.1).eraseDups.flatMap fun k => es.filter (·.1 = k) := by
      intro ks
      refine List.flatMap_congr fun k hk => ?_
      rw [List.mem_eraseDups, List.mem_filter] at hk
      have hne : ¬e.1 = k := fun h => by simp [h] at hk
      rw [List.filter_cons_of_neg (by simpa using hne)]
    rw [List.map_cons, List.eraseDups_cons, List.flatMap_cons, hothers,
      List.filter_cons_of_pos (by simp), List.cons_append]
    refine congrArg (e :: ·) ?_
    by_cases hmem : e.1 ∈ es.map Prod.fst
    · cases es with
      | nil => exact absurd hmem List.not_mem_nil
      | cons f es =>
        -- The next entry is of the same kind, so it is the first one of its kind behind `e`.
        have hf := h.eq_of_mem hmem
        rw [List.map_cons, List.eraseDups_cons, List.flatMap_cons, hf] at hrest
        have hskip : ((f :: es).map Prod.fst).filter (fun k => !k == e.1) =
            (es.map Prod.fst).filter fun k => !k == e.1 := by
          rw [List.map_cons, List.filter_cons_of_neg (by simp [hf])]
        rw [hskip]
        exact hrest
    · have hnone : es.filter (·.1 = e.1) = [] := by
        rw [List.filter_eq_nil_iff]
        intro f hf
        have hne : f.1 ≠ e.1 := fun h => hmem (h ▸ List.mem_map_of_mem hf)
        simpa using hne
      have hall : (es.map Prod.fst).filter (fun k => !k == e.1) = es.map Prod.fst := by
        rw [List.filter_eq_self]
        intro k hk
        have hne : k ≠ e.1 := fun h => hmem (h ▸ hk)
        simpa using hne
      rw [hnone, hall, List.nil_append]
      exact hrest

/-- Entries with the user properties last are the others and then these. -/
theorem UserLast.filter_append_filter (h : UserLast es) :
    es.filter (·.1 ≠ .userProperty) ++ es.filter (·.1 = .userProperty) = es := by
  induction es with
  | nil => rfl
  | cons e es ih =>
    obtain ⟨hfirst, hrest⟩ := List.pairwise_cons.mp h
    by_cases he : e.1 = .userProperty
    · have hall : (e :: es).filter (·.1 = .userProperty) = e :: es := by
        rw [List.filter_eq_self]
        intro f hf
        rcases List.mem_cons.mp hf with rfl | hf
        · simpa using he
        · simpa using hfirst f hf he
      have hnone : (e :: es).filter (·.1 ≠ .userProperty) = [] := by
        rw [List.filter_eq_nil_iff]
        intro f hf
        rcases List.mem_cons.mp hf with rfl | hf
        · simpa using he
        · simpa using hfirst f hf he
      rw [hall, hnone, List.nil_append]
    · rw [List.filter_cons_of_pos (by simpa using he), List.filter_cons_of_neg (by simpa using he),
        List.cons_append, ih hrest]

/-- **Entries in order are written in order.** If the entries of each kind stand together, with the
    user properties last, then they are the entries that what they say is written in. -/
theorem Gathers.wireEntries_eq_self (h : Gathers es p)
    (hpair : ∀ s ∈ valuesOf .userProperty es, ∃ u v, s = .pair u v) (hgrouped : Grouped es)
    (hlast : UserLast es) : p.wireEntries = es := by
  let front := es.filter (·.1 ≠ .userProperty)
  have hkinds : kindsOf es = (front.map Prod.fst).eraseDups := by
    rw [kindsOf, List.filter_map]
    rfl
  have hfront : ∀ k ∈ kindsOf es, es.filter (·.1 = k) = front.filter (·.1 = k) := by
    intro k hk
    obtain ⟨huser, -⟩ := mem_kindsOf_iff.mp hk
    rw [List.filter_filter]
    refine List.filter_congr fun e _ => ?_
    by_cases he : e.1 = k
    · simp [he, huser]
    · simp [he]
  have hgroups : (kindsOf es).flatMap (fun k => es.filter (·.1 = k)) = front := by
    rw [List.flatMap_congr hfront, hkinds]
    exact (hgrouped.sublist List.filter_sublist).flatMap_filter_eq
  rw [h.wireEntries_eq hpair, hgroups]
  exact hlast.filter_append_filter

end Properties

/-! ### Blocks -/

/-- **Blocks that are written as they were read.** What a block says is written as just that block
    exactly if the block is tight. -/
theorem Carrier.Block.emit_eq_done_iff {c : Carrier} {w : Bytes} {p : Properties}
    (h : c.Block w p) : p.emit c = .done w ↔ c.TightBlock w := by
  cases h with
  | @intro l b es p hl hes hno hp =>
    have hpair := Properties.exists_pair_of_mem_valuesOf hes
    rw [Properties.emit_eq_done_iff]
    constructor
    · rintro ⟨-, b', hb', hmax, hw⟩
      -- The length ends where its digits say so, and the entries stand behind it.
      obtain ⟨rfl, -, rfl⟩ := VarInt.reads_form.unique hl (VarInt.form_digits hmax) hw
      have hmem : ∀ e ∈ p.wireEntries, ∃ u, c.Entry u e := fun e he =>
        hes.exists_of_mem ((hp.wireEntries_perm hpair).subset he)
      have htight := words_tightEntry_of_concat hmem hb'
      -- The entries that are written are those that were read, in the same order.
      have hentries : es = p.wireEntries :=
        (reads_entry c).words_unique c.consumes_readEntry hes
          (htight.mono fun _ _ => TightEntry.entry)
      obtain ⟨hgrouped, hlast⟩ := Properties.grouped_wireEntries hp.documented.apart
      rw [← hentries] at htight hgrouped hlast
      refine .intro (VarInt.shortest_iff.mpr ⟨hmax, rfl⟩) htight hlast ?_
      intro e f g hsub he hg
      rw [hgrouped e f g hsub (he.trans hg.symm), he]
    · intro htight
      generalize hw : l ++ b = w at htight
      cases htight with
      | @intro l' b' es' hl' hes' hlast htogether =>
        obtain ⟨rfl, -, rfl⟩ := VarInt.reads_form.unique hl hl'.1 hw
        have hentries : Format.Words c.Entry b es' := hes'.mono fun _ _ => TightEntry.entry
        obtain rfl := (reads_entry c).words_unique c.consumes_readEntry hes hentries
        have hgrouped := Properties.grouped_of_together hno hlast htogether
        obtain ⟨hmax, rfl⟩ := VarInt.shortest_iff.mp hl'
        refine ⟨hp.carried hes hno, b, ?_, hmax, rfl⟩
        rw [hp.wireEntries_eq_self hpair hgrouped hlast]
        exact concat_of_words_tightEntry hes'

end Mqtt
