import Mathlib.Computability.MyhillNerode
import Mathlib.Order.CompletePartialOrder

/-!
# Words: mingling and relabelling

An interleaving allows the words of its members mingled in any way.  Mathlib's `Language` has union,
concatenation and Kleene star, but no shuffle, so it is defined here.

* `Mingled` — a word mingles two others: each of its letters is taken from the front of one of them.
* `shuffle` — the words that mingle a word of one language with a word of another, in any order of
  several languages (`foldl_shuffle_perm`).
* **`cons_mem_shuffle`** — the first letter of a shuffle comes from one side or the other.  Beside
  `cons_mem_mul` and `cons_mem_kstar`, this is what a derivative of content models rests on.
* `spelledBy` — the words over some letters, closed under all operations.
* `relabel` — the words got from those of a language by putting a related letter for each letter.
  It commutes with all operations (`relabel_mul`, `relabel_kstar`, `relabel_shuffle`, …), because
  each of them works letter by letter.
-/

namespace XmlAdvisor

open scoped Computability

variable {α β : Type} {l m : Language α} {a : α} {w : List α}

/-! ## Mingling two words -/

/-- The third word mingles the first two. -/
inductive Mingled : List α → List α → List α → Prop
  | nil : Mingled [] [] []
  | left (a : α) {u v w : List α} : Mingled u v w → Mingled (a :: u) v (a :: w)
  | right (a : α) {u v w : List α} : Mingled u v w → Mingled u (a :: v) (a :: w)

namespace Mingled

lemma nil_left (v : List α) : Mingled [] v v := by
  induction v with
  | nil => exact .nil
  | cons a v ih => exact .right a ih

lemma nil_right (u : List α) : Mingled u [] u := by
  induction u with
  | nil => exact .nil
  | cons a u ih => exact .left a ih

lemma append (u v : List α) : Mingled u v (u ++ v) := by
  induction u with
  | nil => exact nil_left v
  | cons a u ih => exact .left a ih

lemma nil_left_iff {v w : List α} : Mingled [] v w ↔ v = w := by
  constructor
  · intro h
    induction v generalizing w with
    | nil => cases h; rfl
    | cons a v ih =>
        cases h with
        | right _ h => rw [ih h]
  · rintro rfl
    exact nil_left v

lemma nil_right_iff {u w : List α} : Mingled u [] w ↔ u = w := by
  constructor
  · intro h
    induction u generalizing w with
    | nil => cases h; rfl
    | cons a u ih =>
        cases h with
        | left _ h => rw [ih h]
  · rintro rfl
    exact nil_right u

lemma symm {u v w : List α} (h : Mingled u v w) : Mingled v u w := by
  induction h with
  | nil => exact .nil
  | left a _ ih => exact .right a ih
  | right a _ ih => exact .left a ih

/-- Of three mingled words the last two can be mingled first. -/
lemma assoc {u v w x y : List α} (hx : Mingled x w y) (huv : Mingled u v x) :
    ∃ z, Mingled v w z ∧ Mingled u z y := by
  induction hx generalizing u v with
  | nil =>
      cases huv
      exact ⟨[], .nil, .nil⟩
  | left a _ ih =>
      cases huv with
      | left _ huv =>
          obtain ⟨z, hz, hy⟩ := ih huv
          exact ⟨z, hz, .left a hy⟩
      | right _ huv =>
          obtain ⟨z, hz, hy⟩ := ih huv
          exact ⟨a :: z, .left a hz, .right a hy⟩
  | right a _ ih =>
      obtain ⟨z, hz, hy⟩ := ih huv
      exact ⟨a :: z, .right a hz, .right a hy⟩

lemma mem_iff {u v w : List α} (h : Mingled u v w) : a ∈ w ↔ a ∈ u ∨ a ∈ v := by
  induction h with
  | nil => simp
  | left b _ ih => simp [ih, or_assoc]
  | right b _ ih => simp [ih, or_left_comm]

/-- Mingling keeps what is in two words. -/
lemma perm {u v w : List α} (h : Mingled u v w) : (u ++ v).Perm w := by
  induction h with
  | nil => exact .refl _
  | left b _ ih => exact ih.cons b
  | right b _ ih => exact List.perm_middle.trans (ih.cons b)

end Mingled

/-! ## Shuffling two languages -/

/-- The words that mingle a word of one language with a word of another. -/
def shuffle (l m : Language α) : Language α :=
  {w | ∃ u ∈ l, ∃ v ∈ m, Mingled u v w}

lemma mem_shuffle : w ∈ shuffle l m ↔ ∃ u ∈ l, ∃ v ∈ m, Mingled u v w := Iff.rfl

@[simp] lemma zero_shuffle : shuffle 0 m = 0 := by
  ext w
  simp [mem_shuffle]

@[simp] lemma shuffle_zero : shuffle l 0 = 0 := by
  ext w
  simp [mem_shuffle]

@[simp] lemma one_shuffle : shuffle 1 m = m := by
  ext w
  simp [mem_shuffle, Language.mem_one, Mingled.nil_left_iff]

@[simp] lemma shuffle_one : shuffle l 1 = l := by
  ext w
  simp [mem_shuffle, Language.mem_one, Mingled.nil_right_iff]

lemma shuffle_mono {l' m' : Language α} (hl : l ≤ l') (hm : m ≤ m') :
    shuffle l m ≤ shuffle l' m' := by
  rintro w ⟨u, hu, v, hv, h⟩
  exact ⟨u, hl hu, v, hm hv, h⟩

lemma shuffle_comm (l m : Language α) : shuffle l m = shuffle m l := by
  ext w
  constructor
  · rintro ⟨u, hu, v, hv, h⟩
    exact ⟨v, hv, u, hu, h.symm⟩
  · rintro ⟨u, hu, v, hv, h⟩
    exact ⟨v, hv, u, hu, h.symm⟩

lemma shuffle_assoc_le (l m k : Language α) :
    shuffle (shuffle l m) k ≤ shuffle l (shuffle m k) := by
  rintro y ⟨x, ⟨u, hu, v, hv, huv⟩, w, hw, hx⟩
  obtain ⟨z, hz, hy⟩ := hx.assoc huv
  exact ⟨u, hu, z, ⟨v, hv, w, hw, hz⟩, hy⟩

lemma shuffle_assoc (l m k : Language α) : shuffle (shuffle l m) k = shuffle l (shuffle m k) := by
  refine le_antisymm (shuffle_assoc_le l m k) ?_
  calc shuffle l (shuffle m k) = shuffle (shuffle k m) l := by rw [shuffle_comm l, shuffle_comm m]
    _ ≤ shuffle k (shuffle m l) := shuffle_assoc_le k m l
    _ = shuffle (shuffle l m) k := by rw [shuffle_comm k, shuffle_comm m]

/-- What is shuffled may come in any order. -/
lemma foldl_shuffle_perm {ls ms : List (Language α)} (h : ls.Perm ms) (k : Language α) :
    ls.foldl shuffle k = ms.foldl shuffle k := by
  have : RightCommutative (shuffle (α := α)) := ⟨fun l m k => by
    rw [shuffle_assoc, shuffle_comm m, ← shuffle_assoc]⟩
  exact h.foldl_eq k

/-! ## The empty word and the first letter -/

lemma nil_mem_mul : [] ∈ l * m ↔ [] ∈ l ∧ [] ∈ m := by
  simp [Language.mem_mul]

lemma nil_mem_shuffle : [] ∈ shuffle l m ↔ [] ∈ l ∧ [] ∈ m := by
  constructor
  · rintro ⟨u, hu, v, hv, h⟩
    cases h
    exact ⟨hu, hv⟩
  · rintro ⟨hl, hm⟩
    exact ⟨[], hl, [], hm, .nil⟩

/-- The first letter of a concatenation is that of its first part, unless that part is empty. -/
lemma cons_mem_mul :
    a :: w ∈ l * m ↔ w ∈ l.leftQuotient [a] * m ∨ [] ∈ l ∧ a :: w ∈ m := by
  simp only [Language.mem_mul, Language.mem_leftQuotient, List.singleton_append]
  constructor
  · rintro ⟨u, hu, v, hv, h⟩
    cases u with
    | nil => exact Or.inr ⟨hu, by rwa [← h]⟩
    | cons b u =>
        obtain ⟨rfl, rfl⟩ := List.cons.inj h
        exact Or.inl ⟨u, hu, v, hv, rfl⟩
  · rintro (⟨u, hu, v, hv, rfl⟩ | ⟨hl, hm⟩)
    · exact ⟨a :: u, hu, v, hv, rfl⟩
    · exact ⟨[], hl, a :: w, hm, rfl⟩

/-- The first letter of a repetition is that of its first repeated word that is not empty. -/
lemma cons_mem_kstar : a :: w ∈ l∗ ↔ w ∈ l.leftQuotient [a] * l∗ := by
  constructor
  · rw [Language.mem_kstar_iff_exists_nonempty]
    rintro ⟨parts, h, hparts⟩
    cases parts with
    | nil => simp at h
    | cons u parts =>
        obtain ⟨hu, hne⟩ := hparts u (by simp)
        obtain ⟨b, u, rfl⟩ := List.exists_cons_of_ne_nil hne
        obtain ⟨rfl, rfl⟩ := List.cons.inj (h.trans List.flatten_cons)
        have hrest : parts.flatten ∈ l∗ :=
          Language.join_mem_kstar fun v hv => (hparts v (by simp [hv])).1
        exact Language.append_mem_mul (show u ∈ l.leftQuotient [a] from hu) hrest
  · intro h
    obtain ⟨u, hu, v, hv, rfl⟩ := Language.mem_mul.mp h
    have hmul : a :: (u ++ v) ∈ l * l∗ := Language.append_mem_mul (a := a :: u) hu hv
    rw [← Language.one_add_self_mul_kstar_eq_kstar]
    exact Or.inr hmul

/-- Once or more often: the first letter opens one repetition, any number follow. -/
lemma cons_mem_mul_kstar : a :: w ∈ l * l∗ ↔ w ∈ l.leftQuotient [a] * l∗ := by
  rw [cons_mem_mul, cons_mem_kstar]
  tauto

/-- The first letter of a shuffle comes from one side or from the other. -/
lemma cons_mem_shuffle :
    a :: w ∈ shuffle l m ↔
      w ∈ shuffle (l.leftQuotient [a]) m ∨ w ∈ shuffle l (m.leftQuotient [a]) := by
  constructor
  · rintro ⟨u, hu, v, hv, h⟩
    cases h with
    | left _ h => exact Or.inl ⟨_, hu, v, hv, h⟩
    | right _ h => exact Or.inr ⟨u, hu, _, hv, h⟩
  · rintro (⟨u, hu, v, hv, h⟩ | ⟨u, hu, v, hv, h⟩)
    · exact ⟨a :: u, hu, v, hv, .left a h⟩
    · exact ⟨u, hu, a :: v, hv, .right a h⟩

/-! ## Words over some letters -/

/-- The words all of whose letters have a property. -/
def spelledBy (P : α → Prop) : Language α :=
  {w | ∀ b ∈ w, P b}

section SpelledBy

variable {P : α → Prop}

lemma one_le_spelledBy : 1 ≤ spelledBy P := by
  intro w hw b hb
  rw [(Language.mem_one w).mp hw] at hb
  cases hb

lemma zero_le_spelledBy : 0 ≤ spelledBy P := by
  rintro w ⟨⟩

lemma mul_le_spelledBy (hl : l ≤ spelledBy P) (hm : m ≤ spelledBy P) : l * m ≤ spelledBy P := by
  intro w hw b hb
  obtain ⟨u, hu, v, hv, rfl⟩ := Language.mem_mul.mp hw
  rcases List.mem_append.mp hb with hb | hb
  · exact hl hu b hb
  · exact hm hv b hb

lemma kstar_le_spelledBy (hl : l ≤ spelledBy P) : l∗ ≤ spelledBy P := by
  intro w hw b hb
  obtain ⟨parts, rfl, hparts⟩ := Language.mem_kstar.mp hw
  obtain ⟨u, hu, hbu⟩ := List.mem_flatten.mp hb
  exact hl (hparts u hu) b hbu

lemma shuffle_le_spelledBy (hl : l ≤ spelledBy P) (hm : m ≤ spelledBy P) :
    shuffle l m ≤ spelledBy P := by
  rintro w ⟨u, hu, v, hv, h⟩ b hb
  rcases h.mem_iff.mp hb with hb | hb
  · exact hl hu b hb
  · exact hm hv b hb

lemma sum_le_spelledBy {ls : List (Language α)} (h : ∀ k ∈ ls, k ≤ spelledBy P) :
    ls.sum ≤ spelledBy P := by
  induction ls with
  | nil => exact zero_le_spelledBy
  | cons k ls ih =>
      obtain ⟨hk, hls⟩ := List.forall_mem_cons.mp h
      rw [List.sum_cons]
      rintro w (hw | hw)
      · exact hk hw
      · exact ih hls hw

lemma prod_le_spelledBy {ls : List (Language α)} (h : ∀ k ∈ ls, k ≤ spelledBy P) :
    ls.prod ≤ spelledBy P := by
  induction ls with
  | nil => exact one_le_spelledBy
  | cons k ls ih =>
      obtain ⟨hk, hls⟩ := List.forall_mem_cons.mp h
      rw [List.prod_cons]
      exact mul_le_spelledBy hk (ih hls)

lemma foldl_shuffle_le_spelledBy {ls : List (Language α)} (hl : l ≤ spelledBy P)
    (h : ∀ k ∈ ls, k ≤ spelledBy P) : ls.foldl shuffle l ≤ spelledBy P := by
  induction ls generalizing l with
  | nil => exact hl
  | cons k ls ih =>
      obtain ⟨hk, hls⟩ := List.forall_mem_cons.mp h
      rw [List.foldl_cons]
      exact ih (shuffle_le_spelledBy hl hk) hls

end SpelledBy

/-! ## Relabelling -/

/-- The words got from those of a language by putting a related letter for each letter. -/
def relabel (R : α → β → Prop) (l : Language α) : Language β :=
  {w | ∃ v ∈ l, List.Forall₂ R v w}

variable {R : α → β → Prop}

lemma mem_relabel {w : List β} : w ∈ relabel R l ↔ ∃ v ∈ l, List.Forall₂ R v w := Iff.rfl

/-- The words that can only be relabelled into a given language. -/
def unlabel (R : α → β → Prop) (k : Language β) : Language α :=
  {v | ∀ w, List.Forall₂ R v w → w ∈ k}

lemma relabel_le_iff {k : Language β} : relabel R l ≤ k ↔ l ≤ unlabel R k :=
  ⟨fun h _ hv _ hw => h ⟨_, hv, hw⟩, fun h _ ⟨_, hv, hw⟩ => h hv _ hw⟩

@[simp] lemma relabel_zero : relabel R 0 = 0 := by
  ext
  simp [mem_relabel]

@[simp] lemma relabel_one : relabel R 1 = 1 := by
  ext
  simp [mem_relabel, Language.mem_one]

lemma relabel_add : relabel R (l + m) = relabel R l + relabel R m := by
  ext w
  simp only [mem_relabel, Language.mem_add, or_and_right, exists_or]

lemma relabel_mul : relabel R (l * m) = relabel R l * relabel R m := by
  ext w
  constructor
  · rintro ⟨x, hx, h⟩
    obtain ⟨u, hu, v, hv, rfl⟩ := Language.mem_mul.mp hx
    have htake := List.forall₂_take_append w u v h.flip
    have hdrop := List.forall₂_drop_append w u v h.flip
    rw [← List.take_append_drop u.length w]
    exact Language.append_mem_mul ⟨u, hu, htake.flip⟩ ⟨v, hv, hdrop.flip⟩
  · intro h
    obtain ⟨_, ⟨u, hu, hru⟩, _, ⟨v, hv, hrv⟩, rfl⟩ := Language.mem_mul.mp h
    exact ⟨u ++ v, Language.append_mem_mul hu hv, List.rel_append hru hrv⟩

lemma relabel_pow (n : ℕ) : relabel R (l ^ n) = relabel R l ^ n := by
  induction n with
  | zero => rw [pow_zero, pow_zero, relabel_one]
  | succ n ih => rw [pow_succ, pow_succ, relabel_mul, ih]

lemma relabel_kstar : relabel R l∗ = (relabel R l)∗ := by
  ext w
  simp only [Language.kstar_eq_iSup_pow, Language.mem_iSup, mem_relabel, ← relabel_pow]
  exact ⟨fun ⟨v, ⟨n, hv⟩, h⟩ => ⟨n, v, hv, h⟩, fun ⟨n, v, hv, h⟩ => ⟨v, ⟨n, hv⟩, h⟩⟩

/-- Related letters of a mingled word can be put back to where they come from. -/
lemma Mingled.relabel_split {u v x : List α} (h : Mingled u v x) :
    ∀ {w : List β}, List.Forall₂ R x w →
      ∃ u' v', List.Forall₂ R u u' ∧ List.Forall₂ R v v' ∧ Mingled u' v' w := by
  induction h with
  | nil =>
      intro w hw
      cases hw
      exact ⟨[], [], .nil, .nil, .nil⟩
  | left a _ ih =>
      rintro _ ⟨⟩
      rename_i b w hb hw
      obtain ⟨u', v', hu, hv, h⟩ := ih hw
      exact ⟨b :: u', v', .cons hb hu, hv, .left b h⟩
  | right a _ ih =>
      rintro _ ⟨⟩
      rename_i b w hb hw
      obtain ⟨u', v', hu, hv, h⟩ := ih hw
      exact ⟨u', b :: v', hu, .cons hb hv, .right b h⟩

lemma Mingled.relabel_join {u' v' w : List β} (h : Mingled u' v' w) :
    ∀ {u v : List α}, List.Forall₂ R u u' → List.Forall₂ R v v' →
      ∃ x, Mingled u v x ∧ List.Forall₂ R x w := by
  induction h with
  | nil =>
      rintro _ _ ⟨⟩ ⟨⟩
      exact ⟨[], .nil, .nil⟩
  | left b _ ih =>
      rintro _ v ⟨⟩ hv
      rename_i a u ha hu
      obtain ⟨x, h, hx⟩ := ih hu hv
      exact ⟨a :: x, .left a h, .cons ha hx⟩
  | right b _ ih =>
      rintro u _ hu ⟨⟩
      rename_i a v ha hv
      obtain ⟨x, h, hx⟩ := ih hu hv
      exact ⟨a :: x, .right a h, .cons ha hx⟩

lemma relabel_shuffle : relabel R (shuffle l m) = shuffle (relabel R l) (relabel R m) := by
  ext w
  constructor
  · rintro ⟨x, ⟨u, hu, v, hv, h⟩, hx⟩
    obtain ⟨u', v', hu', hv', h'⟩ := h.relabel_split hx
    exact ⟨u', ⟨u, hu, hu'⟩, v', ⟨v, hv, hv'⟩, h'⟩
  · rintro ⟨u', ⟨u, hu, hu'⟩, v', ⟨v, hv, hv'⟩, h'⟩
    obtain ⟨x, h, hx⟩ := h'.relabel_join hu' hv'
    exact ⟨x, ⟨u, hu, v, hv, h⟩, hx⟩

lemma relabel_sum (ls : List (Language α)) : relabel R ls.sum = (ls.map (relabel R)).sum := by
  induction ls with
  | nil => exact relabel_zero
  | cons l ls ih => rw [List.sum_cons, List.map_cons, List.sum_cons, relabel_add, ih]

lemma relabel_prod (ls : List (Language α)) : relabel R ls.prod = (ls.map (relabel R)).prod := by
  induction ls with
  | nil => exact relabel_one
  | cons l ls ih => rw [List.prod_cons, List.map_cons, List.prod_cons, relabel_mul, ih]

lemma relabel_foldl_shuffle (ls : List (Language α)) (l : Language α) :
    relabel R (ls.foldl shuffle l) = (ls.map (relabel R)).foldl shuffle (relabel R l) := by
  induction ls generalizing l with
  | nil => rfl
  | cons k ls ih => rw [List.foldl_cons, List.map_cons, List.foldl_cons, ih, relabel_shuffle]

end XmlAdvisor
