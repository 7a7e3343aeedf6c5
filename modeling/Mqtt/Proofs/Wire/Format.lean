import Mqtt.Except
import Mqtt.Wire.Reader

/-!
# Formats

A `Format` says which bytes stand for which value. It knows neither readers nor writers, so that it
can be the other side of the comparison for both.

* `Format.Words F` is the format of a list: words of `F`, one behind the other.
* `Reader.Reads r F`: off the front of any bytes, `r` takes exactly the words of `F`.
* `Reader.ReadsAll r F`: the bytes that `r` takes to their end are exactly the words of `F`. This is
  what can be said of a reader that looks for the end of the bytes (`readsAll_toEnd`,
  `readsAll_orAtEnd`, `readsAll_rest`).
-/

namespace Mqtt

/-- Which bytes stand for which value. -/
abbrev Format (α : Type) := Bytes → α → Prop

namespace Format

variable {α : Type} {F : Format α}

/-- Words of `F`, one behind the other. -/
inductive Words (F : Format α) : Format (List α)
  | nil : Words F [] []
  | cons {u v : Bytes} {a : α} {as : List α} :
      F u a → Words F v as → Words F (u ++ v) (a :: as)

/-- A word of `F` if a flag says so, and else nothing. -/
inductive Optional (F : Format α) : Bool → Format (Option α)
  | absent : Optional F false [] none
  | present {w : Bytes} {a : α} : F w a → Optional F true w (some a)

/-- There is a value exactly if the flag says so. -/
theorem Optional.isSome_eq {present : Bool} {w : Bytes} {o : Option α}
    (h : Optional F present w o) : o.isSome = present := by
  cases h <;> rfl

/-- What leaves the values of words alone leaves an optional one alone. -/
theorem Optional.map_eq_self {present : Bool} {w : Bytes} {o : Option α} {g : α → α}
    (h : Optional F present w o) (hF : ∀ u a, F u a → g a = a) : o.map g = o := by
  cases h with
  | absent => rfl
  | present hw => exact congrArg some (hF _ _ hw)

/-- Only the empty list stands in no bytes, if no word of `F` is empty. -/
theorem Words.eq_nil (hF : ∀ u a, F u a → u ≠ []) {as : List α} (h : Words F [] as) :
    as = [] := by
  generalize hw : ([] : Bytes) = w at h
  cases h with
  | nil => rfl
  | cons hu _ => exact absurd (List.append_eq_nil_iff.mp hw.symm).1 (hF _ _ hu)

/-- Words of one format are words of a wider one. -/
theorem Words.mono {G : Format α} (hFG : ∀ u a, F u a → G u a) {w : Bytes} {as : List α}
    (h : Words F w as) : Words G w as := by
  induction h with
  | nil => exact .nil
  | cons hu _ ih => exact .cons (hFG _ _ hu) ih

/-- Each value of a list has its word. -/
theorem Words.exists_of_mem {w : Bytes} {as : List α} (h : Words F w as) {a : α} (ha : a ∈ as) :
    ∃ u, F u a := by
  induction h with
  | nil => simp at ha
  | cons hF _ ih =>
    rcases List.mem_cons.mp ha with rfl | ha
    · exact ⟨_, hF⟩
    · exact ih ha

end Format

namespace Reader

variable {α β : Type} {F : Format α} {s t : Bytes} {a : α} {b : β}

/-! ### What a composed reader takes -/

/-- Two readers in a row succeed exactly when the first does and then the second on the rest. -/
theorem bind_eq_ok_iff {r : Reader α} {f : α → Reader β} :
    (r >>= f) s = .ok (b, t) ↔ ∃ a u, r s = .ok (a, u) ∧ f a u = .ok (b, t) := by
  constructor
  · exact bind_eq_ok
  · rintro ⟨a, u, hr, hf⟩
    show (r s >>= fun p => f p.1 p.2) = _
    rw [hr]
    exact hf

/-- Behind a reader that succeeds, the rest is up to the next one. -/
theorem bind_of_ok {r : Reader α} {f : α → Reader β} (h : r s = .ok (a, t)) :
    (r >>= f) s = f a t := by
  show (r s >>= fun x => f x.1 x.2) = _
  rw [h]
  rfl

/-- Behind a reader that fails, nothing is read. -/
theorem bind_of_error {r : Reader α} {f : α → Reader β} {e : Error} (h : r s = .error e) :
    (r >>= f) s = .error e := by
  show (r s >>= fun x => f x.1 x.2) = _
  rw [h]
  rfl

/-- A value that is there already takes nothing. -/
theorem pure_eq_ok_iff {a' : α} : (pure a' : Reader α) s = .ok (a, t) ↔ a' = a ∧ s = t := by
  show Except.ok (a', s) = Except.ok (a, t) ↔ _
  rw [Except.ok.injEq, Prod.mk.injEq]

/-- A check takes nothing. -/
theorem lift_eq_ok_iff {x : Except Error α} :
    (liftM x : Reader α) s = .ok (a, t) ↔ x = .ok a ∧ s = t := by
  show (x >>= fun a => Except.ok (a, s)) = _ ↔ _
  rw [Except.bind_eq_ok_iff]
  simp only [Except.ok.injEq, Prod.mk.injEq]
  constructor
  · rintro ⟨_, hx, rfl, hs⟩
    exact ⟨hx, hs⟩
  · rintro ⟨hx, hs⟩
    exact ⟨a, hx, rfl, hs⟩

/-- A check before a reader leaves the bytes to the reader. -/
theorem lift_bind_eq_ok_iff {x : Except Error α} {f : α → Reader β} :
    ((liftM x : Reader α) >>= f) s = .ok (b, t) ↔ ∃ a, x = .ok a ∧ f a s = .ok (b, t) := by
  rw [bind_eq_ok_iff]
  constructor
  · rintro ⟨a, u, hlift, hf⟩
    obtain ⟨hx, rfl⟩ := lift_eq_ok_iff.mp hlift
    exact ⟨a, hx, hf⟩
  · rintro ⟨a, hx, hf⟩
    exact ⟨a, s, lift_eq_ok_iff.mpr ⟨hx, rfl⟩, hf⟩

/-- A check of what was read has to pass. -/
theorem check_bind_eq_ok_iff {x : Except Error Unit} {f : Unit → Reader β} :
    ((liftM x : Reader Unit) >>= f) s = .ok (b, t) ↔ x = .ok () ∧ f () s = .ok (b, t) := by
  rw [lift_bind_eq_ok_iff]
  constructor
  · rintro ⟨_, hx, hf⟩; exact ⟨hx, hf⟩
  · rintro ⟨hx, hf⟩; exact ⟨(), hx, hf⟩

/-- Changing the value takes what the reader takes. -/
theorem map_eq_ok_iff {r : Reader α} {g : α → β} :
    (g <$> r) s = .ok (b, t) ↔ ∃ a, r s = .ok (a, t) ∧ g a = b := by
  show (r s >>= fun p => Except.ok (g p.1, p.2)) = _ ↔ _
  rw [Except.bind_eq_ok_iff]
  constructor
  · rintro ⟨⟨a, u⟩, hread, hvalue⟩
    obtain ⟨rfl, rfl⟩ := Prod.mk.inj (Except.ok.inj hvalue)
    exact ⟨a, hread, rfl⟩
  · rintro ⟨a, hread, rfl⟩
    exact ⟨_, hread, rfl⟩

/-- All bytes are taken as the last value. -/
theorem rest_eq_ok_iff {bs : Bytes} : rest s = .ok (bs, t) ↔ bs = s ∧ t = [] := by
  show Except.ok (s, []) = Except.ok (bs, t) ↔ _
  rw [Except.ok.injEq, Prod.mk.injEq, eq_comm, @eq_comm _ [] t]

/-! ### Readers of a format -/

/-- Off the front of any bytes, the reader takes exactly the words of `F`. -/
def Reads (r : Reader α) (F : Format α) : Prop :=
  ∀ ⦃s a t⦄, r s = .ok (a, t) ↔ ∃ w, F w a ∧ s = w ++ t

/-- The bytes that the reader takes to their end are exactly the words of `F`. -/
def ReadsAll (r : Reader α) (F : Format α) : Prop :=
  ∀ ⦃s a⦄, r s = .ok (a, []) ↔ F s a

/-- A word is read, whatever follows it. -/
theorem Reads.read_append {r : Reader α} (hr : r.Reads F) {w : Bytes} (hw : F w a) (t : Bytes) :
    r (w ++ t) = .ok (a, t) :=
  hr.mpr ⟨w, hw, rfl⟩

/-- No word is the beginning of another word, and no word has two values. -/
theorem Reads.unique {r : Reader α} (hr : r.Reads F) {w w' : Bytes} {a' : α} {t t' : Bytes}
    (hw : F w a) (hw' : F w' a') (h : w ++ t = w' ++ t') : w = w' ∧ a = a' ∧ t = t' := by
  -- Both words are read off the front of the same bytes, and reading has one outcome.
  have hread := hr.read_append hw t
  rw [h, hr.read_append hw' t', Except.ok.injEq, Prod.mk.injEq] at hread
  obtain ⟨rfl, rfl⟩ := hread
  exact ⟨List.append_cancel_right h, rfl, rfl⟩

/-- A reader of a format takes the whole of the bytes exactly when they are a word. -/
theorem Reads.readsAll {r : Reader α} (hr : r.Reads F) : r.ReadsAll F := by
  intro s a
  rw [hr]
  constructor
  · rintro ⟨w, hw, rfl⟩
    rwa [List.append_nil]
  · intro hs
    exact ⟨s, hs, (List.append_nil s).symm⟩

/-- A reader of a format in front of another reader takes a word off the front. -/
theorem Reads.bind_eq_ok_iff {r : Reader α} (hr : r.Reads F) {f : α → Reader β} :
    (r >>= f) s = .ok (b, t) ↔ ∃ a u v, F u a ∧ s = u ++ v ∧ f a v = .ok (b, t) := by
  rw [Reader.bind_eq_ok_iff]
  constructor
  · rintro ⟨a, v, hread, hf⟩
    obtain ⟨u, hu, hs⟩ := hr.mp hread
    exact ⟨a, u, v, hu, hs, hf⟩
  · rintro ⟨a, u, v, hu, hs, hf⟩
    exact ⟨a, v, hr.mpr ⟨u, hu, hs⟩, hf⟩

/-- Two names of one format. -/
theorem Reads.congr {r : Reader α} {G : Format α} (hr : r.Reads F) (h : ∀ w a, F w a ↔ G w a) :
    r.Reads G := by
  intro s a t
  rw [hr]
  simp only [h]

/-- Changing the value of a word. -/
theorem Reads.bind_pure {r : Reader α} (hr : r.Reads F) (g : α → β) :
    (r >>= fun a => pure (g a)).Reads fun w b => ∃ a, F w a ∧ g a = b := by
  intro s b t
  rw [hr.bind_eq_ok_iff]
  simp only [pure_eq_ok_iff]
  constructor
  · rintro ⟨a, w, _, hw, rfl, hb, rfl⟩; exact ⟨w, ⟨a, hw, hb⟩, rfl⟩
  · rintro ⟨w, ⟨a, hw, hb⟩, rfl⟩; exact ⟨a, w, t, hw, rfl, hb, rfl⟩

/-- A reader to the end, in front of a step that takes nothing. -/
theorem ReadsAll.bind_eq_ok_iff {r : Reader α} (hr : r.ReadsAll F) {f : α → Reader β}
    {P : α → Prop} (hf : ∀ a u, f a u = .ok (b, []) ↔ P a ∧ u = []) :
    (r >>= f) s = .ok (b, []) ↔ ∃ a, F s a ∧ P a := by
  simp only [Reader.bind_eq_ok_iff, hf]
  constructor
  · rintro ⟨a, _, hread, hP, rfl⟩
    exact ⟨a, hr.mp hread, hP⟩
  · rintro ⟨a, hs, hP⟩
    exact ⟨a, [], hr.mpr hs, hP, rfl⟩

/-- A value that is made of the last one. -/
theorem ReadsAll.bind_pure_eq_ok_iff {r : Reader α} (hr : r.ReadsAll F) {g : α → β} :
    (r >>= fun a => pure (g a)) s = .ok (b, []) ↔ ∃ a, F s a ∧ g a = b :=
  hr.bind_eq_ok_iff fun _ _ => pure_eq_ok_iff

/-- A value that is made of the last one, if it passes a check. -/
theorem ReadsAll.bind_check_eq_ok_iff {r : Reader α} (hr : r.ReadsAll F)
    {x : α → Except Error Unit} {g : α → β} :
    (r >>= fun a => do x a; return g a) s = .ok (b, []) ↔
      ∃ a, F s a ∧ x a = .ok () ∧ g a = b := by
  refine hr.bind_eq_ok_iff fun a u => ?_
  simp only [check_bind_eq_ok_iff, pure_eq_ok_iff, and_assoc]

/-- A reader to the end, and another name for its values. -/
theorem ReadsAll.map {r : Reader α} (hr : r.ReadsAll F) {g : α → β} {G : Format β}
    (hto : ∀ w a, F w a → G w (g a)) (hfrom : ∀ w b, G w b → ∃ a, F w a ∧ g a = b) :
    (g <$> r).ReadsAll G := by
  intro s b
  rw [map_eq_ok_iff]
  constructor
  · rintro ⟨a, hread, rfl⟩
    exact hto s a (hr.mp hread)
  · intro h
    obtain ⟨a, hF, rfl⟩ := hfrom s b h
    exact ⟨a, hr.mpr hF, rfl⟩

/-- A value that a flag announces is read as an optional word. -/
theorem reads_optional {r : Reader α} (hr : r.Reads F) (present : Bool) :
    (optional present r).Reads (Format.Optional F present) := by
  intro s a t
  unfold optional
  cases present
  case false =>
    rw [if_neg (by decide), pure_eq_ok_iff]
    constructor
    · rintro ⟨rfl, rfl⟩
      exact ⟨[], .absent, rfl⟩
    · rintro ⟨w, ⟨⟩, rfl⟩
      exact ⟨rfl, rfl⟩
  case true =>
    rw [if_pos rfl, map_eq_ok_iff]
    constructor
    · rintro ⟨a, hread, rfl⟩
      obtain ⟨w, hw, hs⟩ := hr.mp hread
      exact ⟨w, .present hw, hs⟩
    · rintro ⟨w, hw, hs⟩
      cases hw with
      | present hw => exact ⟨_, hr.mpr ⟨w, hw, hs⟩, rfl⟩

/-- A value that may be left out at the end is read as nothing at all or as a word. -/
theorem readsAll_orAtEnd {r : Reader α} (hr : r.ReadsAll F) (default : α) :
    (orAtEnd default r).ReadsAll fun w a => (w = [] ∧ a = default) ∨ (w ≠ [] ∧ F w a) := by
  intro s a
  unfold orAtEnd
  cases s with
  | nil => simp [eq_comm]
  | cons b s => simpa using @hr (b :: s) a

/-- A reader that takes bytes each time knows no empty word. -/
theorem Reads.ne_nil {r : Reader α} (hr : r.Reads F) (hc : r.Consumes 1) {w : Bytes}
    (hw : F w a) : w ≠ [] := by
  rintro rfl
  have hlt := hc (hr.read_append hw [])
  simp at hlt

/-- Bytes of which no word can be read are no list of words. -/
theorem Reads.not_words_of_error {r : Reader α} (hr : r.Reads F) {b : UInt8} {e : Error}
    {as : List α} (h : r (b :: s) = .error e) : ¬Format.Words F (b :: s) as := by
  intro has
  generalize hw : b :: s = w at has
  cases has with
  | nil => cases hw
  | cons hu _ => rw [hw, hr.read_append hu] at h; cases h

/-- The first of the words of a list is the one that is read. -/
theorem Reads.words_iff_of_ok {r : Reader α} (hr : r.Reads F) {b : UInt8} {as : List α}
    (h : r (b :: s) = .ok (a, t)) :
    Format.Words F (b :: s) as ↔ ∃ tail, as = a :: tail ∧ Format.Words F t tail := by
  obtain ⟨u, hu, hs⟩ := hr.mp h
  constructor
  · intro has
    generalize hw : b :: s = w at has
    cases has with
    | nil => cases hw
    | cons hu' htail =>
      -- No other word stands at the front of these bytes.
      obtain ⟨rfl, rfl, rfl⟩ := hr.unique hu hu' (hs.symm.trans hw)
      exact ⟨_, rfl, htail⟩
  · rintro ⟨tail, rfl, htail⟩
    rw [hs]
    exact .cons hu htail

/-- A value that is read goes in front of those that are read from the rest. -/
theorem takeAll_of_ok {r : Reader α} (hc : r.Consumes 1) {b : UInt8}
    (h : r (b :: s) = .ok (a, t)) : takeAll r hc (b :: s) = (takeAll r hc t).map (a :: ·) := by
  rw [takeAll]
  split
  · rename_i he; rw [h] at he; cases he
  · rename_i ha; rw [h] at ha; cases ha; rfl

/-- A failure ends the repetition. -/
theorem takeAll_of_error {r : Reader α} (hc : r.Consumes 1) {b : UInt8} {e : Error}
    (h : r (b :: s) = .error e) : takeAll r hc (b :: s) = .error e := by
  rw [takeAll]
  split
  · rename_i he; rw [h] at he; cases he; rfl
  · rename_i ha; rw [h] at ha; cases ha

/-- The values that a repeated reader takes are those of a list of words. -/
theorem takeAll_eq_ok_iff {r : Reader α} (hr : r.Reads F) (hc : r.Consumes 1) {as : List α} :
    takeAll r hc s = .ok as ↔ Format.Words F s as := by
  -- The recursion is on what a single reading leaves.
  induction s using takeAll.induct r hc generalizing as with
  | case1 =>
    rw [takeAll, Except.ok.injEq]
    constructor
    · rintro rfl; exact .nil
    · intro h; exact (h.eq_nil fun u a hu => hr.ne_nil hc hu).symm
  | case2 b s e he =>
    rw [takeAll_of_error hc he]
    simp only [reduceCtorEq, false_iff]
    exact hr.not_words_of_error he
  | case3 b s a t hread _ ih =>
    rw [takeAll_of_ok hc hread, hr.words_iff_of_ok hread]
    simp only [← ih]
    rw [Except.map_eq_ok_iff]
    exact exists_congr fun tail => and_comm.trans (and_congr_left' eq_comm)

/-- No bytes are the words of two lists, if the reader takes bytes each time. -/
theorem Reads.words_unique {r : Reader α} (hr : r.Reads F) (hc : r.Consumes 1) {as bs : List α}
    (h : Format.Words F s as) (h' : Format.Words F s bs) : as = bs := by
  have has := (takeAll_eq_ok_iff hr hc).mpr h
  rw [(takeAll_eq_ok_iff hr hc).mpr h'] at has
  exact (Except.ok.inj has).symm

/-- Repeated to the end, a reader of a format takes a list of words. -/
theorem readsAll_toEnd {r : Reader α} (hr : r.Reads F) (hc : r.Consumes 1) :
    (toEnd r hc).ReadsAll (Format.Words F) := by
  intro s as
  rw [← takeAll_eq_ok_iff hr hc]
  show (takeAll r hc s).map (·, ([] : Bytes)) = _ ↔ _
  simp [Except.map_eq_ok_iff]

/-- All that is left is read as it stands. -/
theorem readsAll_rest : rest.ReadsAll fun w bs => bs = w := by
  intro s bs
  rw [rest_eq_ok_iff]
  exact ⟨fun h => h.1, fun h => ⟨h, rfl⟩⟩

end Reader

end Mqtt
