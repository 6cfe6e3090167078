import XmlAdvisor.Proofs.TagTokens

/-!
# What is built of texts that begin alike

A builder looks at the text itself only for the internal subset of the document type, and there at
what stands before its end.  So of the tokens up to a place the same is built in every text that
begins alike up to that place.

* `Builder.Steady.append` — tokens that follow one another, cut in two.
* `Builder.SubsetRead` — the invariant: an internal subset begins in what has been read.
* **`Builder.after_of_take`** — texts that begin alike are built alike.
-/

namespace XmlAdvisor

/-! ## A part of the tokens -/

/-- What comes behind an offset begins there or later. -/
lemma Follow.le_start {length now : Nat} {phase : Phase} {xs ys : List Token} {t : Token}
    (h : Follow length phase now (xs ++ t :: ys)) : now ≤ t.span.start := by
  induction xs generalizing phase now with
  | nil =>
      cases h with
      | cons next behind ordered read more => exact behind
  | cons x xs ih =>
      cases h with
      | cons next behind ordered read more =>
          exact Nat.le_trans (Nat.le_trans behind ordered) (ih more)

lemma Follow.le_length {length now : Nat} {phase : Phase} {tokens : List Token}
    (h : Follow length phase now tokens) : now ≤ length := by
  induction h with
  | nil inside => exact inside
  | cons next behind ordered read more ih => exact Nat.le_trans (Nat.le_trans behind ordered) ih

lemma Follow.of_append {length now : Nat} {phase : Phase} {xs ys : List Token}
    (h : Follow length phase now (xs ++ ys)) : Follow length phase now xs := by
  induction xs generalizing phase now with
  | nil => exact .nil h.le_length
  | cons x xs ih =>
      cases h with
      | cons next behind ordered read more => exact .cons next behind ordered read (ih more)

/-- What stands before an offset does not depend on what comes behind it. -/
lemma sliceChars_of_take {text text' : List Char} {a b n : Nat} (ha : a ≤ n) (hb : b ≤ n)
    (h : text.take n = text'.take n) : sliceChars text a b = sliceChars text' a b := by
  have hcut (text : List Char) :
      sliceChars text a b = ((text.take n).take (max a b)).drop (min a b) := by
    rw [sliceChars, List.take_take, Nat.min_eq_left (Nat.max_le.mpr ⟨ha, hb⟩), List.drop_take]
  rw [hcut text, hcut text', h]

namespace Builder

variable {b : Builder} {phase : Phase} {now : Nat} {text text' : List Char}

/-- What may follow in two parts keeps the builder steady in between. -/
lemma Steady.append {xs ys : List Token} (h : b.Steady phase now)
    (hfollow : Follow text.length phase now (xs ++ ys)) : ∃ phase' now',
      (xs.foldl (Builder.step text) b).Steady phase' now' ∧ Follow text.length phase' now' ys := by
  induction xs generalizing b phase now with
  | nil => exact ⟨phase, now, h, hfollow⟩
  | cons t xs ih =>
      cases hfollow with
      | cons next behind ordered read more => exact ih (h.step next behind ordered read) more

/-- Whether an internal subset whose end is not known begins in what has been read. -/
def SubsetRead (b : Builder) (now : Nat) : Prop :=
  ∀ start ∈ b.subsetStart, start ≤ now

lemma SubsetRead.mono {now' : Nat} (h : b.SubsetRead now) (hle : now ≤ now') : b.SubsetRead now' :=
  fun start hstart => Nat.le_trans (h start hstart) hle

lemma subsetStart_push (b : Builder) (kind : NodeKind) (span : Span) :
    (b.push kind span).subsetStart = b.subsetStart := by
  rw [push]
  split <;> rfl

lemma subsetStart_endAll (b : Builder) (unclosed : List OpenElement) (stop : Nat) :
    (b.endAll unclosed stop).subsetStart = b.subsetStart := by
  induction unclosed generalizing b with
  | nil => rfl
  | cons o unclosed ih => exact ih (b.endAt o.id stop)

lemma SubsetRead.step (h : b.SubsetRead now) {t : Token} (hle : now ≤ t.span.stop) :
    (b.step text t).SubsetRead t.span.stop := by
  have hkeeps {b' : Builder} (hsame : b'.subsetStart = b.subsetStart) :
      b'.SubsetRead t.span.stop := by
    intro start hstart
    rw [hsame] at hstart
    exact h.mono hle start hstart
  cases t with
  | doctype name external subset span =>
      rw [Builder.step, Builder.addDoctype]
      dsimp only
      split_ifs
      · rintro start ⟨⟩
        exact Nat.le_refl _
      · exact hkeeps (subsetStart_push _ _ _)
  | subsetEnd span =>
      rw [Builder.step, Builder.endSubset]
      split
      · exact hkeeps rfl
      · rintro start ⟨⟩
  | comment content span => exact hkeeps (subsetStart_push _ _ _)
  | instruction target data span => exact hkeeps (subsetStart_push _ _ _)
  | cdata content span => exact hkeeps (subsetStart_push _ _ _)
  | text content span => exact hkeeps (subsetStart_push _ _ _)
  | tagOpen name span => exact hkeeps (subsetStart_push _ _ _)
  | «attribute» name value nameSpan valueSpan span =>
      rw [Builder.step, Builder.addAttribute]
      split <;> exact hkeeps rfl
  | tagClose span =>
      rw [Builder.step, Builder.closeTag]
      split <;> exact hkeeps rfl
  | tagSelfClose span =>
      rw [Builder.step, Builder.selfCloseTag]
      split <;> exact hkeeps rfl
  | endTag name span =>
      rw [Builder.step, Builder.endTag]
      split
      · exact hkeeps rfl
      · exact hkeeps (subsetStart_endAll _ _ _)

/-- Only the end of an internal subset looks at the text, and only at what stands before it. -/
lemma step_of_take (h : b.SubsetRead now) {n : Nat} (hnow : now ≤ n) {t : Token}
    (ht : t.span.start ≤ n) (htake : text.take n = text'.take n) :
    b.step text t = b.step text' t := by
  cases t with
  | subsetEnd span =>
      rw [Builder.step, Builder.step, Builder.endSubset, Builder.endSubset]
      have hsubset : b.subsetStart.map (fun start => Span.slice ⟨start, span.start⟩ text) =
          b.subsetStart.map fun start => Span.slice ⟨start, span.start⟩ text' := by
        cases hstart : b.subsetStart with
        | none => rfl
        | some start =>
            have hbefore := Nat.le_trans (h start hstart) hnow
            exact congrArg (fun cs => some (String.ofList cs)) (sliceChars_of_take hbefore ht htake)
      rw [hsubset]
  | _ => rfl

/-- Texts that begin alike are built alike, as far as they do. -/
lemma foldl_step_of_take {length : Nat} {xs ys : List Token} {t : Token} (h : b.SubsetRead now)
    (hfollow : Follow length phase now (xs ++ t :: ys))
    (htake : text.take t.span.start = text'.take t.span.start) :
    xs.foldl (Builder.step text) b = xs.foldl (Builder.step text') b := by
  induction xs generalizing b phase now with
  | nil => rfl
  | cons x xs ih =>
      have hnow := hfollow.le_start
      cases hfollow with
      | cons next behind ordered read more =>
          have hx := Nat.le_trans ordered more.le_start
          rw [List.foldl_cons, List.foldl_cons, step_of_take h hnow hx htake]
          exact ih (h.step (Nat.le_trans behind ordered)) more

lemma subsetRead_empty : empty.SubsetRead 0 := by
  rintro start ⟨⟩

/-- **Texts that begin alike are built alike**, up to the first token that begins behind. -/
theorem after_of_take {before behind : List Token} {t : Token}
    (h : (scanAll text).1 = before ++ t :: behind)
    (htake : text.take t.span.start = text'.take t.span.start) :
    after text before = after text' before := by
  have hfollow := follow_scanAll text
  rw [h] at hfollow
  exact foldl_step_of_take subsetRead_empty hfollow htake

end Builder

end XmlAdvisor
