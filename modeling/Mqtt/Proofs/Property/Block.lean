import Mqtt.Proofs.Property.Entry
import Mqtt.Proofs.Property.Gathered

/-!
# Property blocks, as a format

* `Carrier.Block c` is the format of the property block of a carrier: the length of the block, which
  may be padded, and entries that the carrier may carry, none of them repeated against its rules.
* `Properties.reads_block`: the reader takes exactly such blocks, and the properties that it gives
  are those that the entries say. `Properties.read_eq_ok_iff_entries` spells this out.
* `Properties.read_eq_insufficientData_iff`: the reader asks for more bytes only for the sake of the
  length of the block.
-/

namespace Mqtt

/-- The property block of a carrier. -/
inductive Carrier.Block (c : Carrier) : Format Properties
  | intro {l b : Bytes} {es : List (PropertyKind × Scalar)} {p : Properties} :
      VarInt.Form l b.length → Format.Words c.Entry b es → Properties.NoRepeat c es →
      Properties.Gathers es p → Block c (l ++ b) p

namespace Properties

variable {c : Carrier} {p q : Properties} {s t : Bytes} {es : List (PropertyKind × Scalar)}

/-! ### The entries of a block -/

/-- An entry that is read is stored before the entries behind it. -/
theorem addEntries_of_ok {b : UInt8} {e : PropertyKind × Scalar}
    (h : c.readEntry (b :: s) = .ok (e, t)) :
    addEntries c p (b :: s) = (p.add c e.1 e.2).bind fun q => addEntries c q t := by
  rw [addEntries]
  split
  · rename_i he; rw [h] at he; cases he
  · rename_i he
    rw [h] at he
    cases he
    cases p.add c _ _ <;> rfl

/-- An entry that cannot be read is the end. -/
theorem addEntries_of_error {b : UInt8} {e : Error} (h : c.readEntry (b :: s) = .error e) :
    addEntries c p (b :: s) = .error e := by
  rw [addEntries]
  split
  · rename_i he; rw [h] at he; cases he; rfl
  · rename_i he; rw [h] at he; cases he

/-- As long as bytes are there, an entry is read, and stored before the entries behind it. -/
theorem addEntries_eq_bind (h : s ≠ []) :
    addEntries c p s =
      (c.readEntry s).bind fun r => (p.add c r.1.1 r.1.2).bind fun q => addEntries c q r.2 := by
  obtain ⟨b, s, rfl⟩ := List.exists_cons_of_ne_nil h
  cases hread : c.readEntry (b :: s) with
  | error e => exact addEntries_of_error hread
  | ok r => exact addEntries_of_ok hread

/-- What is stored from bytes is what is stored from the entries that they hold. -/
theorem addEntries_eq_ok_iff :
    addEntries c p s = .ok q ↔ ∃ es, Format.Words c.Entry s es ∧ addAll c p es = .ok q := by
  have hne : ∀ u e, c.Entry u e → u ≠ [] := fun u e =>
    (Carrier.reads_entry c).ne_nil (c.consumes_readEntry)
  -- The recursion is on the bytes behind the entry that is stored.
  induction hn : s.length using Nat.strongRecOn generalizing s p with
  | ind n ih =>
  subst hn
  cases s with
  | nil =>
    rw [addEntries]
    constructor
    · intro h; exact ⟨[], .nil, h⟩
    · rintro ⟨es, hes, h⟩
      rw [hes.eq_nil hne] at h
      exact h
  | cons b s =>
    cases hread : c.readEntry (b :: s) with
    | error e =>
      rw [addEntries_of_error hread]
      simp only [reduceCtorEq, false_iff]
      rintro ⟨es, hes, -⟩
      exact (Carrier.reads_entry c).not_words_of_error hread hes
    | ok r =>
      obtain ⟨e, t⟩ := r
      have hlt : t.length < (b :: s).length := c.consumes_readEntry hread
      simp only [addEntries_of_ok hread, (Carrier.reads_entry c).words_iff_of_ok hread]
      cases hadd : p.add c e.1 e.2 with
      | error _ =>
        constructor
        · intro h
          cases h
        · rintro ⟨_, ⟨es, rfl, -⟩, hall⟩
          rw [addAll, List.foldlM_cons, hadd] at hall
          cases hall
      | ok p' =>
        refine (ih _ hlt rfl).trans ⟨?_, ?_⟩
        · rintro ⟨es, hes, hall⟩
          refine ⟨_, ⟨es, rfl, hes⟩, ?_⟩
          rw [addAll, List.foldlM_cons, hadd]
          exact hall
        · rintro ⟨_, ⟨es, rfl, hes⟩, hall⟩
          rw [addAll, List.foldlM_cons, hadd] at hall
          exact ⟨es, hes, hall⟩

/-- The bytes of a block hold entries without a forbidden repetition, and give the properties that
    these say. -/
theorem ofBlock_eq_ok_iff :
    ofBlock c s = .ok p ↔
      ∃ es, Format.Words c.Entry s es ∧ NoRepeat c es ∧ Gathers es p := by
  have hmap : ofBlock c s = .ok p ↔ addEntries c {} s = .ok p := Except.mapError_eq_ok_iff
  have hnil : NoRepeat c [] := fun k _ => Nat.zero_le _
  rw [hmap, addEntries_eq_ok_iff]
  simp only [addAll_eq_ok_iff gathers_nil hnil, List.nil_append]

/-! ### Blocks -/

/-- A block is all the bytes that its length announces. -/
theorem reads_takeBlock (c : Carrier) (n : Nat) :
    (takeBlock c n).Reads fun w bs => bs = w ∧ w.length = n := by
  intro s bs t
  rw [← Binary.reads_bytes n]
  unfold takeBlock Reader.bytes
  dsimp only
  split <;> simp

/-- **The reader of a block takes exactly the words of the format.** -/
theorem reads_block (c : Carrier) : (read c).Reads c.Block := by
  intro s p t
  unfold read
  simp only [VarInt.reads_form.bind_eq_ok_iff, (reads_takeBlock c _).bind_eq_ok_iff,
    Reader.lift_eq_ok_iff, ofBlock_eq_ok_iff]
  constructor
  · rintro ⟨n, l, _, hl, rfl, b, _, _, ⟨rfl, rfl⟩, rfl, ⟨es, hes, hno, hp⟩, rfl⟩
    exact ⟨l ++ b, .intro hl hes hno hp, (List.append_assoc _ _ _).symm⟩
  · rintro ⟨w, hw, rfl⟩
    cases hw with
    | intro hl hes hno hp =>
      exact ⟨_, _, _, hl, List.append_assoc _ _ _, _, _, t, ⟨rfl, rfl⟩, rfl, ⟨_, hes, hno, hp⟩,
        rfl⟩

/-- An entry that needs more bytes than the block has does not ask for more. -/
theorem ofBlock_ne_insufficientData : ofBlock c s ≠ .error .insufficientData := by
  unfold ofBlock
  cases addEntries c {} s with
  | ok p => exact fun h => by cases h
  | error e =>
    show Except.error (if e = .insufficientData then _ else e) ≠ _
    by_cases he : e = .insufficientData
    · rw [if_pos he]
      exact fun h => by cases h
    · rw [if_neg he]
      exact fun h => he (Except.error.inj h)

/-- More bytes are asked for only while the length of the block is not there to its end. -/
theorem read_eq_insufficientData_iff :
    read c s = .error .insufficientData ↔ VarInt.read s = .error .insufficientData := by
  show (VarInt.read s >>= fun r => (takeBlock c r.1 >>= fun b => liftM (ofBlock c b)) r.2) = _ ↔ _
  cases VarInt.read s with
  | error e =>
    show Except.error e = _ ↔ _
    rw [Except.error.injEq, Except.error.injEq]
  | ok r =>
    obtain ⟨n, t⟩ := r
    show (takeBlock c n t >>= fun r => ofBlock c r.1 >>= fun p => Except.ok (p, r.2)) = _ ↔ _
    simp only [reduceCtorEq, iff_false]
    unfold takeBlock
    dsimp only
    split
    case isTrue => exact fun h => by cases h
    case isFalse =>
      show (ofBlock c (t.take n) >>= _) ≠ _
      cases hblock : ofBlock c (t.take n) with
      | ok p => exact fun h => by cases h
      | error e =>
        intro h
        obtain rfl := Except.error.inj h
        exact ofBlock_ne_insufficientData hblock

/-- **The reader takes exactly the blocks of the carrier and loses nothing of them.** A block is the
    length of what follows, which may be padded, and entries without a forbidden repetition. The
    properties that are read are those that the entries say: the kinds in the order in which they
    first come, each with its one value or the list of its values, and the user properties in their
    order. Once the length is there the reader does not ask for more bytes. -/
theorem read_eq_ok_iff_entries (c : Carrier) (s : Bytes) :
    (∀ p t, read c s = .ok (p, t) ↔
      ∃ l b es, VarInt.Form l b.length ∧ Format.Words c.Entry b es ∧ NoRepeat c es ∧
        p = gathered es ∧ s = l ++ b ++ t) ∧
    ∀ l n t, VarInt.Form l n → s = l ++ t → read c s ≠ .error .insufficientData := by
  refine ⟨fun p t => ?_, ?_⟩
  · rw [reads_block c]
    constructor
    · rintro ⟨w, hw, rfl⟩
      cases hw with
      | @intro l b es _ hl hes hno hp =>
        exact ⟨l, b, es, hl, hes, hno, (gathers_iff_eq_gathered hno).mp hp, rfl⟩
    · rintro ⟨l, b, es, hl, hes, hno, hp, rfl⟩
      exact ⟨l ++ b, .intro hl hes hno ((gathers_iff_eq_gathered hno).mpr hp), rfl⟩
  · rintro l n t hl rfl hread
    rw [read_eq_insufficientData_iff, VarInt.reads_form.read_append hl t] at hread
    cases hread

end Properties

end Mqtt
