import XmlAdvisor.Proofs.ContentCheck
import XmlAdvisor.Proofs.Reachability

/-!
# Which elements can and must come next

A residual is asked for the elements that can come next (`first`) and for those of which one has to
come (`requiredFirst`).  Both collect element patterns depth first; the second passes over what may
be left out.

* `Residual.Live` — a residual in which nothing is known to be impossible, over patterns with a
  given property.  What the simplifying constructors put together is live, or allows nothing as a
  whole.
* **`derivativeWithin_ne_notAllowed_iff`** — a name leaves something exactly if it belongs to one of
  the first elements.
* `mem_firstWithin_of_required` — what must come next can come next.
* **`required_hits`** — if a residual is not nullable, each of its words has a name of one of the
  required elements.
-/

namespace XmlAdvisor

open scoped Computability

/-! ## Live residuals -/

namespace Residual

/-- Whether nothing in a residual is known to be impossible and its patterns have a property. -/
def Live (P : Nat → Prop) : Residual → Prop
  | .empty => True
  | .notAllowed => False
  | .pattern id => P id
  | .choice a b | .group a b | .interleave a b => a.Live P ∧ b.Live P
  | .oneOrMore a => a.Live P

/-- Whether a residual is live, or allows nothing as a whole. -/
def Sound (P : Nat → Prop) (r : Residual) : Prop :=
  r = .notAllowed ∨ r.Live P

variable {P : Nat → Prop} {a b : Residual}

lemma Live.ne_notAllowed (h : a.Live P) : a ≠ .notAllowed := by
  rintro rfl
  exact h

lemma Sound.live (h : a.Sound P) (hne : a ≠ .notAllowed) : a.Live P :=
  h.resolve_left hne

lemma either_eq_notAllowed_iff : a.either b = .notAllowed ↔ a = .notAllowed ∧ b = .notAllowed := by
  unfold either
  split
  · simp
  · simp
  · split_ifs <;> simp_all

lemma followedBy_eq_notAllowed_iff :
    a.followedBy b = .notAllowed ↔ a = .notAllowed ∨ b = .notAllowed := by
  unfold followedBy
  split <;> simp_all

lemma mingledWith_eq_notAllowed_iff :
    a.mingledWith b = .notAllowed ↔ a = .notAllowed ∨ b = .notAllowed := by
  unfold mingledWith
  split <;> simp_all

lemma Sound.either (ha : a.Sound P) (hb : b.Sound P) : (a.either b).Sound P := by
  unfold Residual.either
  split
  · exact hb
  · exact ha
  · rename_i hna hnb
    split_ifs
    · exact ha
    · exact .inr ⟨ha.live hna, hb.live hnb⟩

lemma Sound.followedBy (ha : a.Sound P) (hb : b.Sound P) : (a.followedBy b).Sound P := by
  unfold Residual.followedBy
  split
  · exact .inl rfl
  · exact .inl rfl
  · exact hb
  · exact ha
  · rename_i hna _ hnb _
    exact .inr ⟨ha.live hna, hb.live hnb⟩

lemma Sound.mingledWith (ha : a.Sound P) (hb : b.Sound P) : (a.mingledWith b).Sound P := by
  unfold Residual.mingledWith
  split
  · exact .inl rfl
  · exact .inl rfl
  · exact hb
  · exact ha
  · rename_i hna _ hnb _
    exact .inr ⟨ha.live hna, hb.live hnb⟩

lemma Sound.repeated (ha : a.Sound P) : a.repeated.Sound P := by
  unfold Residual.repeated
  split
  · exact .inl rfl
  · exact ha
  · rename_i hna _
    exact .inr (ha.live hna)

/-- Members of a pattern put together one by one. -/
lemma Sound.foldl {op : Residual → Residual → Residual}
    (hop : ∀ {a b : Residual}, a.Sound P → b.Sound P → (op a b).Sound P) (ids : List Nat)
    {r : Residual} (hr : r.Sound P) (hids : ∀ m ∈ ids, P m) :
    (ids.foldl (fun acc m => op acc (.pattern m)) r).Sound P := by
  induction ids generalizing r with
  | nil => exact hr
  | cons id ids ih =>
      have hid : (Residual.pattern id).Sound P := .inr (hids id (List.mem_cons_self ..))
      exact ih (hop hr hid) fun m hm => hids m (List.mem_cons_of_mem id hm)

end Residual

namespace Schema

variable (s : Schema) {P : Nat → Prop}

/-! ## Steps keep residuals live -/

/-- Writing out a pattern whose parts have the property. -/
lemma sound_expand {id : Nat} (hid : P id) (hparts : ∀ m ∈ s.parts true id, P m) :
    (s.expand id).Sound P := by
  rw [parts] at hparts
  rw [expand]
  cases hp : s.pattern id with
  | element name content documentation => exact .inr hid
  | notAllowed => exact .inl rfl
  | choice members =>
      rw [hp] at hparts
      exact .foldl (fun ha hb => ha.either hb) members (.inl rfl) hparts
  | group members =>
      rw [hp] at hparts
      exact .foldl (fun ha hb => ha.followedBy hb) members (.inr trivial) hparts
  | interleave members =>
      rw [hp] at hparts
      exact .foldl (fun ha hb => ha.mingledWith hb) members (.inr trivial) hparts
  | oneOrMore body =>
      rw [hp] at hparts
      exact Residual.Sound.repeated (.inr (hparts body (by simp)))
  | ref d =>
      rw [hp] at hparts
      dsimp only at hparts ⊢
      cases hb : s.body? d with
      | none => exact .inl rfl
      | some body => exact .inr (hparts body (by simp [hb]))
  | _ => exact .inr trivial

/-- What is left of a live residual is live, or allows nothing as a whole. -/
lemma sound_derivativeWithin (hparts : ∀ id, P id → ∀ m ∈ s.parts true id, P m) (ns l : String)
    (depth : Nat) {r : Residual} (hr : r.Sound P) : (s.derivativeWithin ns l depth r).Sound P := by
  induction depth generalizing r with
  | zero => exact .inl rfl
  | succ depth ih =>
      rcases hr with rfl | hr
      · exact .inl rfl
      cases r with
      | empty => exact .inl rfl
      | notAllowed => exact .inl rfl
      | pattern id =>
          rw [derivativeWithin]
          split
          · split_ifs
            · exact .inr trivial
            · exact .inl rfl
          · exact ih (s.sound_expand hr (hparts id hr))
      | choice a b => exact (ih (.inr hr.1)).either (ih (.inr hr.2))
      | group a b =>
          have ahead := (ih (.inr hr.1)).followedBy (.inr hr.2)
          rw [derivativeWithin]
          split_ifs
          · exact ahead.either (ih (.inr hr.2))
          · exact ahead
      | interleave a b =>
          exact ((ih (.inr hr.1)).mingledWith (.inr hr.2)).either
            (Residual.Sound.mingledWith (.inr hr.1) (ih (.inr hr.2)))
      | oneOrMore a =>
          have hbody : a.Sound P := .inr hr
          have hself : (Residual.oneOrMore a).Sound P := .inr hr
          have hnone : Residual.Sound P .empty := .inr trivial
          exact (ih hbody).followedBy (hself.either hnone)

/-! ## The elements that can come next -/

lemma mem_addOnce {found : List Nat} {id p : Nat} : p ∈ addOnce found id ↔ p ∈ found ∨ p = id := by
  rw [addOnce]
  split_ifs with h
  · constructor
    · exact .inl
    · rintro (hp | rfl)
      · exact hp
      · simpa using h
  · simp

/-- Collecting adds to what was found before. -/
lemma mem_firstWithin {p : Nat} (depth : Nat) (found : List Nat) (r : Residual) :
    p ∈ s.firstWithin depth found r ↔ p ∈ found ∨ p ∈ s.firstWithin depth [] r := by
  induction depth generalizing found r with
  | zero => simp [firstWithin]
  | succ depth ih =>
      cases r with
      | empty => simp [firstWithin]
      | notAllowed => simp [firstWithin]
      | pattern id =>
          by_cases he : s.isElement id = true
          · simp [firstWithin, he, mem_addOnce]
          · simp only [firstWithin, he]
            exact ih found _
      | choice a b =>
          simp only [firstWithin]
          rw [ih _ b, ih found a, ih (s.firstWithin depth [] a) b, or_assoc]
      | interleave a b =>
          simp only [firstWithin]
          rw [ih _ b, ih found a, ih (s.firstWithin depth [] a) b, or_assoc]
      | group a b =>
          by_cases hn : s.nullableWithin depth a = true
          · simp only [firstWithin, hn, if_true]
            rw [ih _ b, ih found a, ih (s.firstWithin depth [] a) b, or_assoc]
          · simp only [firstWithin, hn]
            exact ih found a
      | oneOrMore a => exact ih found a

lemma isElement_of_mem_firstWithin {p : Nat} (depth : Nat) {r : Residual}
    (h : p ∈ s.firstWithin depth [] r) : s.isElement p = true := by
  induction depth generalizing r with
  | zero => simp [firstWithin] at h
  | succ depth ih =>
      cases r with
      | empty => simp [firstWithin] at h
      | notAllowed => simp [firstWithin] at h
      | pattern id =>
          by_cases he : s.isElement id = true
          · simp only [firstWithin, he, if_true, mem_addOnce, List.not_mem_nil, false_or] at h
            rw [h, he]
          · simp only [firstWithin, he] at h
            exact ih h
      | choice a b => exact ((s.mem_firstWithin depth _ b).mp h).elim ih ih
      | interleave a b => exact ((s.mem_firstWithin depth _ b).mp h).elim ih ih
      | group a b =>
          simp only [firstWithin] at h
          split_ifs at h
          · exact ((s.mem_firstWithin depth _ b).mp h).elim ih ih
          · exact ih h
      | oneOrMore a => exact ih h

/-- What is collected behind other elements has a property if one side has it. -/
lemma exists_mem_firstWithin {Q : Nat → Prop} (depth : Nat) (found : List Nat) (r : Residual) :
    (∃ p ∈ s.firstWithin depth found r, Q p) ↔
      (∃ p ∈ found, Q p) ∨ ∃ p ∈ s.firstWithin depth [] r, Q p := by
  rw [← exists_or]
  refine exists_congr fun p => ?_
  rw [s.mem_firstWithin depth found r, or_and_right]

/-- **A name leaves something of a live residual exactly if one of the first elements has it.** -/
theorem derivativeWithin_ne_notAllowed_iff (hparts : ∀ id, P id → ∀ m ∈ s.parts true id, P m)
    (n : String × String) (depth : Nat) {r : Residual} (hr : r.Sound P) :
    s.derivativeWithin n.1 n.2 depth r ≠ .notAllowed ↔
      ∃ p ∈ s.firstWithin depth [] r, s.admits p n = true := by
  induction depth generalizing r with
  | zero => simp [derivativeWithin, firstWithin]
  | succ depth ih =>
      rcases hr with rfl | hr
      · simp [derivativeWithin, firstWithin]
      cases r with
      | empty => simp [derivativeWithin, firstWithin]
      | notAllowed => simp [derivativeWithin, firstWithin]
      | pattern id =>
          rw [derivativeWithin, firstWithin]
          cases hname : s.elementName? id with
          | none =>
              rw [s.elementName?_eq_none_iff.mp hname]
              exact ih (s.sound_expand hr (hparts id hr))
          | some c =>
              have he := s.isElement_of_elementName? hname
              simp [he, addOnce, admits, hname]
      | choice a b =>
          simp only [derivativeWithin, Ne, Residual.either_eq_notAllowed_iff, not_and_or]
          rw [firstWithin, s.exists_mem_firstWithin depth (s.firstWithin depth [] a) b,
            ← ih (.inr hr.1), ← ih (.inr hr.2)]
      | interleave a b =>
          have ha := Residual.Live.ne_notAllowed hr.1
          have hb := Residual.Live.ne_notAllowed hr.2
          simp only [derivativeWithin, Ne, Residual.either_eq_notAllowed_iff,
            Residual.mingledWith_eq_notAllowed_iff, ha, hb, or_false, false_or, not_and_or]
          rw [firstWithin, s.exists_mem_firstWithin depth (s.firstWithin depth [] a) b,
            ← ih (.inr hr.1), ← ih (.inr hr.2)]
      | group a b =>
          have hb := Residual.Live.ne_notAllowed hr.2
          by_cases hn : s.nullableWithin depth a = true
          · simp only [derivativeWithin, firstWithin, hn, if_true, Ne,
              Residual.either_eq_notAllowed_iff, Residual.followedBy_eq_notAllowed_iff, hb,
              or_false, not_and_or]
            rw [s.exists_mem_firstWithin depth (s.firstWithin depth [] a) b, ← ih (.inr hr.1),
              ← ih (.inr hr.2)]
          · simp only [derivativeWithin, firstWithin, hn, Bool.false_eq_true, if_false, Ne,
              Residual.followedBy_eq_notAllowed_iff, hb, or_false]
            exact ih (.inr hr.1)
      | oneOrMore a =>
          have hrest : (Residual.oneOrMore a).either .empty ≠ .notAllowed := by
            simp [Ne, Residual.either_eq_notAllowed_iff]
          simp only [derivativeWithin, Ne, Residual.followedBy_eq_notAllowed_iff, hrest, or_false]
          exact ih (.inr hr)

/-! ## The elements that must come next -/

lemma mem_requiredFirstWithin {p : Nat} (depth : Nat) (found : List Nat) (r : Residual) :
    p ∈ s.requiredFirstWithin depth found r ↔
      p ∈ found ∨ p ∈ s.requiredFirstWithin depth [] r := by
  induction depth generalizing found r with
  | zero => simp [requiredFirstWithin]
  | succ depth ih =>
      cases r with
      | empty => simp [requiredFirstWithin]
      | notAllowed => simp [requiredFirstWithin]
      | pattern id =>
          by_cases he : s.isElement id = true
          · simp [requiredFirstWithin, he, mem_addOnce]
          · simp only [requiredFirstWithin, he]
            exact ih found _
      | choice a b =>
          simp only [requiredFirstWithin]
          split_ifs
          · simp
          · rw [ih _ b, ih found a, ih (s.requiredFirstWithin depth [] a) b, or_assoc]
      | interleave a b =>
          simp only [requiredFirstWithin]
          rw [ih _ b, ih found a, ih (s.requiredFirstWithin depth [] a) b, or_assoc]
      | group a b =>
          simp only [requiredFirstWithin]
          split_ifs
          · exact ih found b
          · exact ih found a
      | oneOrMore a => exact ih found a

/-- What must come next can come next. -/
lemma mem_firstWithin_of_required {p : Nat} (depth : Nat) {r : Residual}
    (h : p ∈ s.requiredFirstWithin depth [] r) : p ∈ s.firstWithin depth [] r := by
  induction depth generalizing r with
  | zero => exact h
  | succ depth ih =>
      cases r with
      | empty => exact h
      | notAllowed => exact h
      | pattern id =>
          by_cases he : s.isElement id = true
          · simpa [requiredFirstWithin, firstWithin, he] using h
          · simp only [requiredFirstWithin, firstWithin, he] at h ⊢
            exact ih h
      | choice a b =>
          simp only [requiredFirstWithin] at h
          split_ifs at h
          · cases h
          · exact (s.mem_firstWithin depth _ b).mpr
              (((s.mem_requiredFirstWithin depth _ b).mp h).imp ih ih)
      | interleave a b =>
          exact (s.mem_firstWithin depth _ b).mpr
            (((s.mem_requiredFirstWithin depth _ b).mp h).imp ih ih)
      | group a b =>
          simp only [requiredFirstWithin, firstWithin] at h ⊢
          split_ifs at h ⊢
          · exact (s.mem_firstWithin depth _ b).mpr (.inr (ih h))
          · exact ih h
      | oneOrMore a => exact ih h

/-- Whether collecting the elements that must come next never runs out of depth. -/
def requiredFirstFits (s : Schema) : (depth : Nat) → Residual → Bool
  | 0, _ => false
  | depth + 1, r =>
    match r with
    | .empty | .notAllowed => true
    | .pattern id => s.isElement id || s.requiredFirstFits depth (s.expand id)
    | .choice a b =>
      s.nullableWithin depth a || s.nullableWithin depth b ||
        (s.requiredFirstFits depth a && s.requiredFirstFits depth b)
    | .interleave a b => s.requiredFirstFits depth a && s.requiredFirstFits depth b
    | .group a b =>
      if s.nullableWithin depth a then s.requiredFirstFits depth b
      else s.requiredFirstFits depth a
    | .oneOrMore a => s.requiredFirstFits depth a

/-- Whether a word has a name of one of some element patterns. -/
def Hits (s : Schema) (ids : List Nat) (w : List (String × String)) : Prop :=
  ∃ n ∈ w, ∃ p ∈ ids, s.admits p n = true

section Hits

variable {s} {ids ids' : List Nat} {u w : List (String × String)} {depth : Nat} {a b : Residual}

lemma Hits.mono (h : s.Hits ids u) (hids : ids ⊆ ids') : s.Hits ids' u := by
  obtain ⟨n, hn, p, hp, hadmits⟩ := h
  exact ⟨n, hn, p, hids hp, hadmits⟩

lemma Hits.mono_word (h : s.Hits ids u) (hw : ∀ n ∈ u, n ∈ w) : s.Hits ids w := by
  obtain ⟨n, hn, p, hp, hadmits⟩ := h
  exact ⟨n, hw n hn, p, hp, hadmits⟩

/-- What is hit by the elements required first is hit when more are collected behind them. -/
lemma Hits.requiredBefore (h : s.Hits (s.requiredFirstWithin depth [] a) u) :
    s.Hits (s.requiredFirstWithin depth (s.requiredFirstWithin depth [] a) b) u :=
  h.mono fun _ hp => (s.mem_requiredFirstWithin depth _ b).mpr (.inl hp)

/-- What is hit by the elements required last is hit when they are collected behind others. -/
lemma Hits.requiredBehind (h : s.Hits (s.requiredFirstWithin depth [] b) u) :
    s.Hits (s.requiredFirstWithin depth ids b) u :=
  h.mono fun _ hp => (s.mem_requiredFirstWithin depth ids b).mpr (.inr hp)

end Hits

/-- **What must come next is in every word of a residual that is not nullable.** -/
theorem required_hits (depth : Nat) (r : Residual) (hnull : s.nullableWithin depth r = false)
    (hfit : s.requiredFirstFits depth r = true) (w : List (String × String))
    (hw : w ∈ s.allowed r) : s.Hits (s.requiredFirstWithin depth [] r) w := by
  induction depth generalizing r w with
  | zero => simp [requiredFirstFits] at hfit
  | succ depth ih =>
      cases r with
      | empty => simp [nullableWithin] at hnull
      | notAllowed => exact absurd hw (Language.notMem_zero w)
      | pattern id =>
          by_cases he : s.isElement id = true
          · obtain ⟨n, hn, rfl⟩ := (s.mem_childNames_element he).mp hw
            refine ⟨n, by simp, id, ?_, hn⟩
            simp [requiredFirstWithin, he, addOnce]
          · simp only [nullableWithin, requiredFirstFits, requiredFirstWithin, he, Bool.false_or,
              Bool.false_eq_true, if_false] at hnull hfit ⊢
            exact ih _ hnull hfit w (by rwa [s.allowed_expand])
      | choice a b =>
          simp only [nullableWithin, Bool.or_eq_false_iff] at hnull
          obtain ⟨hna, hnb⟩ := hnull
          simp only [requiredFirstFits, hna, hnb, Bool.false_or, Bool.and_eq_true] at hfit
          simp only [requiredFirstWithin, hna, hnb, Bool.or_self, Bool.false_eq_true, if_false]
          rcases hw with hw | hw
          · exact (ih a hna hfit.1 w hw).requiredBefore
          · exact (ih b hnb hfit.2 w hw).requiredBehind
      | interleave a b =>
          simp only [nullableWithin, Bool.and_eq_false_iff] at hnull
          simp only [requiredFirstFits, Bool.and_eq_true] at hfit
          obtain ⟨u, hu, v, hv, hmingled⟩ := hw
          simp only [requiredFirstWithin]
          rcases hnull with hna | hnb
          · have hhit := ih a hna hfit.1 u hu
            exact hhit.requiredBefore.mono_word fun n hn => hmingled.mem_iff.mpr (.inl hn)
          · have hhit := ih b hnb hfit.2 v hv
            exact hhit.requiredBehind.mono_word fun n hn => hmingled.mem_iff.mpr (.inr hn)
      | group a b =>
          simp only [nullableWithin, Bool.and_eq_false_iff] at hnull
          obtain ⟨u, hu, v, hv, rfl⟩ := Language.mem_mul.mp hw
          by_cases hna : s.nullableWithin depth a = true
          · simp only [requiredFirstFits, requiredFirstWithin, hna, if_true] at hfit ⊢
            have hnb : s.nullableWithin depth b = false := by simpa [hna] using hnull
            exact (ih b hnb hfit v hv).mono_word fun n hn => List.mem_append_right u hn
          · rw [Bool.not_eq_true] at hna
            simp only [requiredFirstFits, requiredFirstWithin, hna, Bool.false_eq_true,
              if_false] at hfit ⊢
            exact (ih a hna hfit u hu).mono_word fun n hn => List.mem_append_left v hn
      | oneOrMore a =>
          simp only [nullableWithin, requiredFirstFits] at hnull hfit
          obtain ⟨u, hu, v, hv, rfl⟩ := Language.mem_mul.mp hw
          exact (ih a hnull hfit u hu).mono_word fun n hn => List.mem_append_left v hn

/-! ## Live residuals have words -/

/-- If each of its patterns has a word, a live residual has one. -/
lemma exists_mem_allowed (hP : ∀ id, P id → ∃ w, w ∈ s.childNames id) :
    ∀ {r : Residual}, r.Live P → ∃ w, w ∈ s.allowed r := by
  intro r
  induction r with
  | empty => exact fun _ => ⟨[], rfl⟩
  | notAllowed => exact False.elim
  | pattern id => exact hP id
  | choice a b iha _ =>
      rintro ⟨ha, -⟩
      obtain ⟨u, hu⟩ := iha ha
      exact ⟨u, .inl hu⟩
  | group a b iha ihb =>
      rintro ⟨ha, hb⟩
      obtain ⟨u, hu⟩ := iha ha
      obtain ⟨v, hv⟩ := ihb hb
      exact ⟨u ++ v, Language.append_mem_mul hu hv⟩
  | interleave a b iha ihb =>
      rintro ⟨ha, hb⟩
      obtain ⟨u, hu⟩ := iha ha
      obtain ⟨v, hv⟩ := ihb hb
      exact ⟨u ++ v, u, hu, v, hv, .append u v⟩
  | oneOrMore a iha =>
      intro ha
      obtain ⟨u, hu⟩ := iha ha
      exact ⟨u ++ [], Language.append_mem_mul hu (Language.nil_mem_kstar _)⟩

end Schema

end XmlAdvisor
