import Mqtt.Proofs.Wire.Format
import Mqtt.Wire.Emission

/-!
# Emissions in a row

* `complete?` is what a complete emission has written.
* `size?` is the number of bytes of a complete emission. It does not depend on the order in which
  values are emitted (`size?_concat_perm`), nor on what is emitted for them as long as the sizes
  agree (`size?_concat_congr`).
* `words_of_concat`: what the values of a list emit are the words of the list, if what each of them
  emits is its word. `concat_of_words` is the converse.
* `concat_eq_done_iff_of_guard`: tests of single values may be made of all of them first.
* `Fits k`: the emission is complete, in at most `k` bytes.
-/

namespace Mqtt.Emission

variable {α β : Type} {m n : Emission} {f g : α → Emission}

/-! ### Bytes -/

/-- The bytes of a complete emission. -/
def complete? : Emission → Option Bytes
  | done bs => some bs
  | failed _ _ => none

/-- An emission with bytes is complete. -/
theorem complete?_eq_some_iff {w : Bytes} : m.complete? = some w ↔ m = done w := by
  cases m <;> simp [complete?]

/-- An emission results in bytes if it is complete with them. -/
theorem result_eq_ok_iff {w : Bytes} : m.result = .ok w ↔ m = done w := by
  cases m <;> simp [result]

/-- Emissions that are complete with the same bytes have the same bytes. -/
theorem complete?_congr (h : ∀ w, m = done w ↔ n = done w) : m.complete? = n.complete? := by
  refine Option.ext fun w => ?_
  rw [complete?_eq_some_iff, complete?_eq_some_iff, h]

/-- Emissions in a row are complete with the bytes of both. -/
theorem complete?_append :
    (m ++ n).complete? = m.complete?.bind fun u => n.complete?.map fun v => u ++ v := by
  cases m <;> cases n <;> simp [complete?]

/-- A headed emission is complete with the bytes of its header and its own. -/
theorem complete?_headed {header : Nat → Emission} :
    (m.headed header).complete? =
      m.complete?.bind fun b => (header b.length).complete?.map fun l => l ++ b := by
  cases m with
  | failed bs e => rfl
  | done bs =>
    show (header bs.length ++ done bs).complete? = _
    cases hl : header bs.length <;> simp [complete?, hl]

/-! ### Sizes -/

/-- How many bytes a complete emission has. -/
def size? (m : Emission) : Option Nat := m.complete?.map List.length

/-- An emission with a size is complete. -/
theorem size?_eq_some_iff {k : Nat} : m.size? = some k ↔ ∃ w, m = done w ∧ w.length = k := by
  cases m <;> simp [size?, complete?]

/-- Emissions in a row have the sum of their sizes. -/
theorem size?_append : (m ++ n).size? = m.size?.bind fun j => n.size?.map fun k => j + k := by
  cases m <;> cases n <;> simp [size?, complete?]

/-- The order of two emissions makes no difference to their size. -/
theorem size?_append_comm : (m ++ n).size? = (n ++ m).size? := by
  cases m <;> cases n <;> simp [size?, complete?, Nat.add_comm]

/-- Emissions of the same sizes have the same size in a row. -/
theorem size?_append_congr {m' n' : Emission} (hm : m.size? = m'.size?) (hn : n.size? = n'.size?) :
    (m ++ n).size? = (m' ++ n').size? := by
  rw [size?_append, size?_append, hm, hn]

/-- Emissions of the same size have headers of the same size. -/
theorem size?_headed_congr {header header' : Nat → Emission} (hm : m.size? = n.size?)
    (hheader : ∀ k, (header k).size? = (header' k).size?) :
    (m.headed header).size? = (n.headed header').size? := by
  cases m with
  | failed bs e =>
    cases n with
    | failed bs' e' => rfl
    | done bs' => cases hm
  | done bs =>
    cases n with
    | failed bs' e' => cases hm
    | done bs' =>
      have hlen : bs.length = bs'.length := Option.some.inj hm
      show (header bs.length ++ done bs).size? = (header' bs'.length ++ done bs').size?
      rw [size?_append, size?_append, hheader, hm, hlen]

/-- Lists of values whose emissions have the same sizes have emissions of the same size. -/
theorem size?_concat_congr {xs : List α} (h : ∀ x ∈ xs, (f x).size? = (g x).size?) :
    (concat f xs).size? = (concat g xs).size? := by
  induction xs with
  | nil => rfl
  | cons x xs ih =>
    rw [concat_cons, concat_cons]
    exact size?_append_congr (h x (by simp)) (ih fun y hy => h y (by simp [hy]))

/-- The order of values makes no difference to the size of what they emit. -/
theorem size?_concat_perm {xs ys : List α} (h : xs.Perm ys) :
    (concat f xs).size? = (concat f ys).size? := by
  induction h with
  | nil => rfl
  | cons x _ ih =>
    rw [concat_cons, concat_cons]
    exact size?_append_congr rfl ih
  | swap x y xs =>
    simp only [concat_cons, ← Emission.append_assoc]
    exact size?_append_congr size?_append_comm rfl
  | trans _ _ ih₁ ih₂ => rw [ih₁, ih₂]

/-! ### Words -/

/-- The emissions of changed values are the changed emissions of the values. -/
theorem concat_map (h : β → α) (xs : List β) :
    concat f (xs.map h) = concat (fun x => f (h x)) xs := by
  simp only [concat, List.foldr_map]

/-- What a changed optional value emits is the changed emission of the value. -/
theorem option_map {h : β → α} {o : Option β} :
    option f (o.map h) = option (fun x => f (h x)) o := by
  cases o <;> rfl

/-- What lists of values emit, one list after the other, their values emit one after the other. -/
theorem concat_flatMap (h : β → List α) (xs : List β) :
    concat f (xs.flatMap h) = concat (fun x => concat f (h x)) xs := by
  induction xs with
  | nil => rfl
  | cons x xs ih => rw [List.flatMap_cons, concat_append, ih, concat_cons]

/-- The emission of a list of values is complete if that of each of them is. -/
theorem exists_concat_eq_done_iff {xs : List α} :
    (∃ w, concat f xs = done w) ↔ ∀ x ∈ xs, ∃ u, f x = done u := by
  induction xs with
  | nil => simp
  | cons x xs ih =>
    rw [concat_cons, List.forall_mem_cons, ← ih]
    constructor
    · rintro ⟨w, hw⟩
      obtain ⟨u, v, hu, hv, -⟩ := append_eq_done.mp hw
      exact ⟨⟨u, hu⟩, v, hv⟩
    · rintro ⟨⟨u, hu⟩, v, hv⟩
      exact ⟨u ++ v, append_eq_done.mpr ⟨u, v, hu, hv, rfl⟩⟩

/-- If each value emits what another writer emits for it, once the value passes a test, then all of
    them do, once all pass. -/
theorem concat_eq_done_iff_of_guard {P : α → Prop} {xs : List α} {w : Bytes}
    (h : ∀ x u, f x = done u ↔ P x ∧ g x = done u) :
    concat f xs = done w ↔ (∀ x ∈ xs, P x) ∧ concat g xs = done w := by
  induction xs generalizing w with
  | nil => simp
  | cons x xs ih =>
    rw [concat_cons, concat_cons, append_eq_done, append_eq_done, List.forall_mem_cons]
    constructor
    · rintro ⟨u, v, hu, hv, rfl⟩
      obtain ⟨hx, hu'⟩ := (h x u).mp hu
      obtain ⟨hxs, hv'⟩ := ih.mp hv
      exact ⟨⟨hx, hxs⟩, u, v, hu', hv', rfl⟩
    · rintro ⟨⟨hx, hxs⟩, u, v, hu, hv, rfl⟩
      exact ⟨u, v, (h x u).mpr ⟨hx, hu⟩, ih.mpr ⟨hxs, hv⟩, rfl⟩

/-- If each value emits what another writer emits for it, then all of them do. -/
theorem concat_eq_done_iff_congr {xs : List α} {w : Bytes}
    (h : ∀ x u, f x = done u ↔ g x = done u) : concat f xs = done w ↔ concat g xs = done w := by
  have hguard : ∀ x u, f x = done u ↔ True ∧ g x = done u := fun x u => by rw [h, true_and]
  rw [concat_eq_done_iff_of_guard hguard]
  exact ⟨fun hw => hw.2, fun hw => ⟨fun _ _ => trivial, hw⟩⟩

/-- If what each value emits is the word of its image, then what all of them emit are the words of
    their images. -/
theorem words_of_concat {F : Format β} {h : α → β} {xs : List α} {w : Bytes}
    (hF : ∀ x ∈ xs, ∀ u, f x = done u → F u (h x)) (hw : concat f xs = done w) :
    Format.Words F w (xs.map h) := by
  induction xs generalizing w with
  | nil =>
    obtain rfl := done.inj hw
    exact .nil
  | cons x xs ih =>
    rw [concat_cons, append_eq_done] at hw
    obtain ⟨u, v, hu, hv, rfl⟩ := hw
    rw [List.map_cons]
    exact .cons (hF x (by simp) u hu) (ih (fun y hy => hF y (by simp [hy])) hv)

/-- If each value emits its words, then all of them emit their words. -/
theorem concat_of_words {F : Format α} {xs : List α} {w : Bytes}
    (hF : ∀ u x, F u x → f x = done u) (h : Format.Words F w xs) : concat f xs = done w := by
  induction h with
  | nil => rfl
  | cons hu _ ih => rw [concat_cons, hF _ _ hu, ih, done_append_done]

/-- If a value emits its words, then an optional one emits its optional words. -/
theorem option_of_optional {F : Format α} {present : Bool} {o : Option α} {w : Bytes}
    (hF : ∀ u x, F u x → f x = done u) (h : Format.Optional F present w o) :
    option f o = done w := by
  cases h with
  | absent => rfl
  | present hw => exact hF _ _ hw

/-- Behind a complete emission, an emission is complete with just the bytes that are left for it. -/
theorem behind_eq_done_iff {u w : Bytes} : done u ++ m = done (u ++ w) ↔ m = done w := by
  cases m with
  | done bs => simp
  | failed bs e => simp

/-- Between complete emissions, an emission is complete with just the bytes that are left for it. -/
theorem surrounded_eq_done_iff {u v w : Bytes} :
    done u ++ m ++ done v = done (u ++ w ++ v) ↔ m = done w := by
  cases m with
  | done bs => simp
  | failed bs e => simp

/-! ### Bounds -/

/-- The emission is complete, in at most `k` bytes. -/
def Fits (m : Emission) (k : Nat) : Prop := ∃ w, m = done w ∧ w.length ≤ k

/-- A complete emission has as many bytes as it has. -/
theorem fits_of_eq_done {w : Bytes} (h : m = done w) : m.Fits w.length :=
  ⟨w, h, Nat.le_refl _⟩

/-- A bound may be raised. -/
theorem Fits.mono {j k : Nat} (h : m.Fits j) (hjk : j ≤ k) : m.Fits k := by
  obtain ⟨w, hw, hle⟩ := h
  exact ⟨w, hw, Nat.le_trans hle hjk⟩

/-- Emissions in a row keep to the sum of their bounds. -/
theorem Fits.append {j k : Nat} (hm : m.Fits j) (hn : n.Fits k) : (m ++ n).Fits (j + k) := by
  obtain ⟨u, rfl, hu⟩ := hm
  obtain ⟨v, rfl, hv⟩ := hn
  refine ⟨u ++ v, done_append_done u v, ?_⟩
  rw [List.length_append]
  omega

/-- A headed emission keeps to the sum of its own bound and that of its header. -/
theorem Fits.headed {header : Nat → Emission} {j k : Nat} (hm : m.Fits k)
    (hheader : ∀ i ≤ k, (header i).Fits j) : (m.headed header).Fits (j + k) := by
  obtain ⟨w, rfl, hw⟩ := hm
  exact (hheader w.length hw).append ((fits_of_eq_done rfl).mono hw)

/-- Values that each keep to the bound of their words keep to that of all their words. -/
theorem fits_concat {F : Format α} {xs : List α} {w : Bytes}
    (hF : ∀ u x, F u x → (f x).Fits u.length) (hw : Format.Words F w xs) :
    (concat f xs).Fits w.length := by
  induction hw with
  | nil => exact fits_of_eq_done rfl
  | cons hu _ ih =>
    rw [concat_cons, List.length_append]
    exact (hF _ _ hu).append ih

/-- An optional value keeps to the bound of its word. -/
theorem fits_option {F : Format α} {present : Bool} {o : Option α} {w : Bytes}
    (hF : ∀ u x, F u x → (f x).Fits u.length) (hw : Format.Optional F present w o) :
    (option f o).Fits w.length := by
  cases hw with
  | absent => exact fits_of_eq_done rfl
  | present hu => exact hF _ _ hu

end Mqtt.Emission
