import XmlAdvisor.Proofs.TagTokens

/-!
# Where nodes begin

A token adds at most one node, which begins where the token does, and no token changes where a node
begins. So the nodes that are there when some tokens have been read are those that begin among these
tokens.

* `Builder.starts` — where the nodes of a builder begin, by their numbers.
* **`Builder.starts_step`** — what a token does to them.
* **`Builder.exists_start`** — every node begins where a token does.
-/

namespace XmlAdvisor

namespace Builder

variable {b : Builder} {text : List Char} {i : Nat}

/-- Where the node with a number begins. -/
def starts (b : Builder) (i : Nat) : Option Nat :=
  b.nodes[i]?.map (·.span.start)

lemma starts_isSome_iff : (b.starts i).isSome ↔ i < b.nodes.size := by
  simp [starts]

/-! ## Changes of nodes -/

lemma starts_onNode (b : Builder) (id : Nat) {f : Node → Node}
    (hf : ∀ n, (f n).span.start = n.span.start) :
    (b.onNode id f).starts = b.starts := by
  funext i
  rw [starts, getElem?_onNode, starts, Option.map_map]
  congr 1
  funext n
  rw [Function.comp_apply]
  split_ifs
  · exact hf n
  · rfl

lemma starts_endAt (b : Builder) (id stop : Nat) : (b.endAt id stop).starts = b.starts :=
  b.starts_onNode id fun _ => rfl

lemma starts_onElement (b : Builder) (id : Nat) (f : Element → Element) :
    (b.onElement id f).starts = b.starts := by
  rw [onElement_eq]
  exact b.starts_onNode id fun n => by rw [stop_changeElement]

lemma starts_resolve (b : Builder) (id : Nat) : (b.resolve id).starts = b.starts :=
  b.starts_onElement id _

lemma starts_endAll (b : Builder) (unclosed : List OpenElement) (stop : Nat) :
    (b.endAll unclosed stop).starts = b.starts := by
  induction unclosed generalizing b with
  | nil => rfl
  | cons o unclosed ih => exact (ih (b.endAt o.id stop)).trans (b.starts_endAt o.id stop)

lemma starts_push (b : Builder) (kind : NodeKind) (span : Span) :
    (b.push kind span).starts = Function.update b.starts b.nodes.size (some span.start) := by
  have hnew {b' : Builder} {parent : Option Nat}
      (h : b'.nodes = b.nodes.push ⟨parent, span, kind⟩) :
      b'.starts = Function.update b.starts b.nodes.size (some span.start) := by
    funext i
    rw [starts, h, Array.getElem?_push, Function.update_apply, starts]
    split_ifs <;> rfl
  rw [push]
  split
  · exact hnew rfl
  · rw [starts_onElement]
    exact hnew rfl

/-! ## Tokens -/

/-- **A token adds at most one node**, which begins where it does, and others begin where they
did. -/
theorem starts_step (b : Builder) (text : List Char) (t : Token) :
    (b.step text t).starts = b.starts ∨
    (b.step text t).starts = Function.update b.starts b.nodes.size (some t.span.start) := by
  cases t with
  | doctype name external subset span =>
      right
      rw [step, addDoctype]
      dsimp only
      split_ifs <;> exact b.starts_push _ span
  | subsetEnd span =>
      left
      rw [step, endSubset]
      split
      · rfl
      · rw [starts_onNode _ _ fun n => by split <;> rfl, starts_endAt]
        rfl
  | comment content span => exact .inr (b.starts_push _ span)
  | instruction target data span => exact .inr (b.starts_push _ span)
  | cdata content span => exact .inr (b.starts_push _ span)
  | text content span => exact .inr (b.starts_push _ span)
  | tagOpen name span => exact .inr (b.starts_push _ span)
  | «attribute» name value nameSpan valueSpan span =>
      left
      rw [step, addAttribute]
      split
      · rfl
      · rw [starts_onElement]
        exact starts_onNode _ _ fun _ => rfl
  | tagClose span =>
      left
      rw [step, closeTag]
      split
      · rfl
      · exact (starts_onElement _ _ _).trans ((starts_endAt _ _ _).trans (starts_resolve _ _))
  | tagSelfClose span =>
      left
      rw [step, selfCloseTag]
      split
      · rfl
      · exact (starts_onElement _ _ _).trans ((starts_endAt _ _ _).trans (starts_resolve _ _))
  | endTag name span =>
      left
      rw [step, endTag]
      split
      · rfl
      · exact (starts_onElement _ _ _).trans ((starts_endAt _ _ _).trans (starts_endAll _ _ _))

lemma size_le_of_starts {b' : Builder} (h : ∀ i, (b.starts i).isSome → (b'.starts i).isSome) :
    b.nodes.size ≤ b'.nodes.size := by
  by_contra hlt
  have hsome := h b'.nodes.size (starts_isSome_iff.mpr (Nat.lt_of_not_le hlt))
  exact Nat.lt_irrefl _ (starts_isSome_iff.mp hsome)

lemma starts_step_of_lt (hi : i < b.nodes.size) (t : Token) :
    (b.step text t).starts i = b.starts i := by
  rcases b.starts_step text t with h | h
  · rw [h]
  · rw [h, Function.update_of_ne (Nat.ne_of_lt hi)]

lemma size_le_step (b : Builder) (text : List Char) (t : Token) :
    b.nodes.size ≤ (b.step text t).nodes.size :=
  size_le_of_starts fun i hi => by rwa [starts_step_of_lt (starts_isSome_iff.mp hi)]

/-- The nodes that are there begin where they did when more has been read. -/
lemma starts_foldl_of_lt (tokens : List Token) (hi : i < b.nodes.size) :
    (tokens.foldl (Builder.step text) b).starts i = b.starts i := by
  induction tokens generalizing b with
  | nil => rfl
  | cons t tokens ih =>
      have hlt := Nat.lt_of_lt_of_le hi (b.size_le_step text t)
      exact (ih hlt).trans (starts_step_of_lt hi t)

/-- The nodes that are new begin where tokens do. -/
lemma exists_start_foldl {tokens : List Token} {start : Nat} (hi : b.nodes.size ≤ i)
    (h : (tokens.foldl (Builder.step text) b).starts i = some start) :
    ∃ t ∈ tokens, t.span.start = start := by
  induction tokens generalizing b with
  | nil =>
      have hlt := starts_isSome_iff.mp (Option.isSome_of_eq_some h)
      exact absurd hi (Nat.not_le_of_lt hlt)
  | cons t tokens ih =>
      by_cases hmore : (b.step text t).nodes.size ≤ i
      · obtain ⟨t', ht', hstart⟩ := ih hmore h
        exact ⟨t', List.mem_cons_of_mem _ ht', hstart⟩
      · refine ⟨t, List.mem_cons_self, ?_⟩
        rw [List.foldl_cons, starts_foldl_of_lt tokens (Nat.lt_of_not_le hmore)] at h
        rcases b.starts_step text t with hsame | hnew
        · rw [hsame] at h
          have hlt := starts_isSome_iff.mp (Option.isSome_of_eq_some h)
          exact absurd hi (Nat.not_le_of_lt hlt)
        · rw [hnew, Function.update_apply] at h
          split_ifs at h
          · cases h
            rfl
          · have hlt := starts_isSome_iff.mp (Option.isSome_of_eq_some h)
            exact absurd hi (Nat.not_le_of_lt hlt)

/-- **Every node begins where a token does.** -/
theorem exists_start {tokens : List Token} {start : Nat}
    (h : (after text tokens).starts i = some start) :
    ∃ t ∈ tokens, t.span.start = start :=
  exists_start_foldl (b := empty) (Nat.zero_le i) h

lemma starts_finish (b : Builder) (length : Nat) : (b.finish length).starts = b.starts := by
  rw [finish, starts_endAll]
  split
  · rfl
  · exact (starts_endAt _ _ _).trans (starts_resolve _ _)

end Builder

end XmlAdvisor
