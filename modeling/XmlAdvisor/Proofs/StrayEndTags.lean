import XmlAdvisor.Proofs.BuiltAlike
import XmlAdvisor.Proofs.MovedTrees
import XmlAdvisor.Proofs.StrayTokens

/-!
# Stray end tags

An end tag without an element to close leaves no trace in the tree, and what stands behind it is
moved by its length.  That is so as long as the scanner does not come to believe that the document
is over: it counts the end tag although it closes nothing, so an element must be open for the
scanner at that place, and one more wherever anything but a comment or an instruction comes behind.
Otherwise there is a fault, or blanks that were text are skipped.

* `Node.inserted`, `Tree.inserted` — what becomes of a node and of a tree where something is
  inserted that leaves no trace.
* `Builder.after_insert` — what is built behind a stray end tag.
* **`Tree.parse_insert_endTag_iff`** — when the tree of a text with a stray end tag is the tree of
  the text.
-/

namespace XmlAdvisor

/-! ## Insertions that leave no trace -/

/-- A node where `k` characters are inserted at an offset.  What begins there or behind is moved,
and what is open there ends further on. -/
def Node.inserted (o k : Nat) (isOpen : Bool) (n : Node) : Node :=
  if o ≤ n.span.start then n.moved k else if isOpen then n.endMoved k else n

/-- A tree where characters are inserted that leave no trace, inside the elements with the given
numbers. -/
def Tree.inserted (t : Tree) (o : Nat) (cs : List Char) (opened : List Nat) : Tree :=
  { t with
    text := insertAt o cs t.text
    nodes := t.nodes.mapIdx fun id n => n.inserted o cs.length (opened.contains id) }

section Insertion

variable {text tag : List Char} {before after : List Token} {name : QualifiedName}

lemma take_insertAt {o : Nat} (ho : o ≤ text.length) (cs : List Char) :
    (insertAt o cs text).take o = text.take o := by
  rw [insertAt, List.take_append_of_le_length (by rw [List.length_take]; omega), List.take_take,
    Nat.min_self]

lemma length_insertAt (o : Nat) (cs : List Char) :
    (insertAt o cs text).length = text.length + cs.length := by
  rw [insertAt, List.length_append, List.length_append, List.length_take, List.length_drop]
  omega

namespace Builder

/-- An end tag without an element to close is dropped. -/
lemma endTag_stray {b : Builder} (h : ∀ o ∈ b.opened, o.tag ≠ name.text) (span : Span) :
    b.endTag name span = b := by
  have hdrop : b.opened.dropWhile (fun o : OpenElement => o.tag != name.text) = [] :=
    List.dropWhile_eq_nil_iff.mpr fun o ho => bne_iff_ne.mpr (h o ho)
  rw [endTag, hdrop]

/-- Where no number is reached nothing is moved. -/
lemma moved_self (k : Nat) (b : Builder) : b.moved k b.nodes.size (endedSince b.openIds b) = b := by
  have hnodes : b.nodes.mapIdx (Node.carried k b.nodes.size (endedSince b.openIds b)) =
      b.nodes := by
    refine Array.ext_getElem? fun i => ?_
    rw [Array.getElem?_mapIdx]
    cases hn : b.nodes[i]? with
    | none => rfl
    | some n =>
        have hlt : ¬b.nodes.size ≤ i := Nat.not_le_of_lt (Array.getElem?_eq_some_iff.mp hn).1
        have hended : endedSince b.openIds b i = false := by
          rw [endedSince, Bool.and_not_self]
        rw [Option.map_some, Node.carried, if_neg hlt, hended, if_neg Bool.false_ne_true]
  rw [moved, hnodes]

lemma grownFrom_self {b : Builder} (h : b.pending = none) : b.GrownFrom b.nodes.size b.openIds := by
  refine ⟨Nat.le_refl _, ?_, fun o ho _ => List.mem_map_of_mem ho⟩
  rw [h]
  rintro p ⟨⟩

end Builder

/-! ## Where tokens stand -/

lemma Follow.stop_le_endOf {length now : Nat} {phase : Phase} {tokens : List Token}
    (h : Follow length phase now tokens) : ∀ t ∈ tokens, t.span.stop ≤ endOf tokens := by
  induction h with
  | nil inside => simp
  | @cons phase phase' now t rest next behind ordered read more ih =>
      cases rest with
      | nil =>
          rintro x hx
          cases List.mem_singleton.mp hx
          exact Nat.le_refl _
      | cons y rest =>
          have hend : endOf (t :: y :: rest) = endOf (y :: rest) := by
            rw [endOf, endOf, List.getLast?_cons_cons]
          have hy := ih y List.mem_cons_self
          rw [hend]
          intro x hx
          rcases List.mem_cons.mp hx with rfl | hx
          · cases more with
            | cons next behind ordered read more =>
                exact Nat.le_trans (Nat.le_trans behind ordered) hy
          · exact ih x hx

variable {s : ScanState} {steps : Nat}

/-- The tokens around a place between them. -/
lemma ScanState.StandsAt.around (h : StandsAt text before after s steps) :
    Follow text.length .body (endOf before) after ∧ (∀ t ∈ before, t.span.start < endOf before) ∧
      ∀ t ∈ after, endOf before ≤ t.span.start := by
  have hmode : s.mode.phase = .body := by
    rw [h.state]
    rfl
  have hplace : s.cursor.offset = endOf before := by rw [h.state]
  have hbehind : Follow text.length s.mode.phase s.cursor.offset (s.scan steps).1 :=
    follow_scan steps h.within
  rw [hmode, hplace, h.scan] at hbehind
  have hfollow := follow_scanAll text
  rw [h.tokens] at hfollow
  refine ⟨hbehind, fun t ht => ?_, fun t ht => ?_⟩
  · have hfilled := filled_of_mem_scanAll text t (by rw [h.tokens]; exact List.mem_append_left _ ht)
    exact Nat.lt_of_lt_of_le hfilled (hfollow.of_append.stop_le_endOf t ht)
  · obtain ⟨xs, ys, rfl⟩ := List.append_of_mem ht
    exact hbehind.le_start

/-! ## Builders -/

namespace Builder

/-- What is built behind a stray end tag: the same nodes further on. -/
lemma after_insert {xs ys more : List Token} (h : ScanState.StandsAt text before (xs ++ ys) s steps)
    (hcontent : (Builder.after text before).pending = none)
    (hstray : ∀ o ∈ (Builder.after text before).opened, o.tag ≠ name.text)
    (hinserted : (scanAll (insertAt (endOf before) tag text)).1 =
      before ++ .endTag name ⟨endOf before, endOf before + tag.length⟩ :: more) :
    (Builder.after text (before ++ xs)).GrownFrom (Builder.after text before).nodes.size
        (Builder.after text before).openIds ∧
      Builder.after (insertAt (endOf before) tag text) (before ++
          .endTag name ⟨endOf before, endOf before + tag.length⟩ :: xs.map (·.moved tag.length)) =
        (Builder.after text (before ++ xs)).moved tag.length (Builder.after text before).nodes.size
          (endedSince (Builder.after text before).openIds (Builder.after text (before ++ xs))) := by
  have hfollow := h.around.1
  have hmem {t : Token} (ht : t ∈ xs) : t ∈ (scanAll text).1 := by
    rw [h.tokens]
    exact List.mem_append_right _ (List.mem_append_left _ ht)
  -- the end tag is dropped from what is built alike before it
  have hbefore : Builder.after (insertAt (endOf before) tag text) before =
      Builder.after text before :=
    after_of_take hinserted (take_insertAt hfollow.le_length tag)
  have hdropped : Builder.after (insertAt (endOf before) tag text) (before ++
        .endTag name ⟨endOf before, endOf before + tag.length⟩ :: xs.map (·.moved tag.length)) =
      (xs.map (·.moved tag.length)).foldl (Builder.step (insertAt (endOf before) tag text))
        (Builder.after text before) := by
    rw [after_append, hbefore, List.foldl_cons, step, endTag_stray hstray]
  obtain ⟨hgrown, hmoved⟩ := moved_foldl (k := tag.length) (insertAt (endOf before) tag text)
    (grownFrom_self hcontent) h.steady h.tagged (by decide) hfollow.of_append
    (fun t ht => marked_of_mem_scanAll text t (hmem ht)) fun t ht =>
      filled_of_mem_scanAll text t (hmem ht)
  rw [moved_self] at hmoved
  rw [hdropped, ← hmoved, after_append]
  exact ⟨hgrown, rfl⟩

/-- The node of a text begins where the text does. -/
lemma starts_of_text (content : String) (span : Span) (length : Nat) :
    ((Builder.after text (before ++ .text content span :: after)).finish length).starts
      (Builder.after text before).nodes.size = some span.start := by
  have hpush : ((Builder.after text before).step text (.text content span)).starts
      (Builder.after text before).nodes.size = some span.start := by
    rw [step, starts_push, Function.update_self]
  rw [starts_finish, after_append, List.foldl_cons, starts_foldl_of_lt, hpush]
  rw [← starts_isSome_iff, hpush]
  rfl

/-- The nodes that begin behind a place are those that are added there. -/
lemma le_start_iff {length i : Nat} {n : Node} (h : ScanState.StandsAt text before after s steps)
    (hn : ((Builder.after text (before ++ after)).finish length).nodes[i]? = some n) :
    endOf before ≤ n.span.start ↔ (Builder.after text before).nodes.size ≤ i := by
  obtain ⟨-, hstarts, hstarts'⟩ := h.around
  have hstart : (Builder.after text (before ++ after)).starts i = some n.span.start := by
    rw [← starts_finish _ length, starts, hn, Option.map_some]
  rw [after_append] at hstart
  constructor
  · intro hbehind
    by_contra hlt
    rw [starts_foldl_of_lt after (Nat.lt_of_not_le hlt)] at hstart
    obtain ⟨t, ht, heq⟩ := exists_start hstart
    have hbefore := hstarts t ht
    omega
  · intro hle
    obtain ⟨t, ht, heq⟩ := exists_start_foldl hle hstart
    rw [← heq]
    exact hstarts' t ht

/-- What an insertion does to a tree is told by the numbers of its nodes. -/
lemma nodes_moved (h : ScanState.StandsAt text before after s steps) (k length : Nat) :
    (((Builder.after text (before ++ after)).finish length).moved k
      (Builder.after text before).nodes.size
        (Builder.after text before).openIds.contains).nodes =
      ((Builder.after text (before ++ after)).finish length).nodes.mapIdx fun id n =>
        n.inserted (endOf before) k ((Builder.after text before).openIds.contains id) := by
  refine Array.ext_getElem? fun i => ?_
  rw [moved, Array.getElem?_mapIdx, Array.getElem?_mapIdx]
  cases hn : ((Builder.after text (before ++ after)).finish length).nodes[i]? with
  | none => rfl
  | some n =>
      rw [Option.map_some, Option.map_some, Node.carried, Node.inserted]
      simp only [le_start_iff h hn]

end Builder

/-! ## Trees -/

namespace Tree

lemma starts_inserted {t : Tree} {i start : Nat}
    (h : t.nodes[i]?.map (·.span.start) = some start) {o : Nat}
    (ho : o ≤ start) (cs : List Char) (opened : List Nat) :
    (t.inserted o cs opened).nodes[i]?.map (·.span.start) = some (start + cs.length) := by
  obtain ⟨n, hn, rfl⟩ := Option.map_eq_some_iff.mp h
  rw [Tree.inserted, Array.getElem?_mapIdx, hn, Option.map_some, Option.map_some,
    Node.inserted, if_pos ho,
    Node.moved, Builder.stop_changeElement]
  rfl

lemma parse_of_tokens {tokens : List Token} {fault : Option Fault}
    (h : scanAll text = (tokens, fault)) :
    let b := (Builder.after text tokens).finish text.length
    Tree.parse text = ⟨text, b.nodes, b.topLevel, b.doctypeNode, fault⟩ := by
  rw [Tree.parse, h]
  rfl

/-- A stray end tag that is spared leaves no trace in the tree. -/
lemma parse_insert_of_spares (h : ScanState.StandsAt text before after s steps)
    (hcontent : (Builder.after text before).pending = none)
    (hstray : ∀ o ∈ (Builder.after text before).opened, o.tag ≠ name.text)
    (hdepth : 1 ≤ depthBehind 0 before) (hspares : sparesEndTag (depthBehind 0 before) after = true)
    (htag : IsEndTag tag name) : Tree.parse (insertAt (endOf before) tag text) =
      (Tree.parse text).inserted (endOf before) tag (Builder.after text before).openIds := by
  have hinserted := scanAll_insert h hdepth hspares htag
  have hnodes := Builder.nodes_moved h tag.length text.length
  have hall : ScanState.StandsAt text before (after ++ []) s steps := by rwa [List.append_nil]
  obtain ⟨hgrown, hmoved⟩ := Builder.after_insert hall hcontent hstray (by rw [hinserted])
  have hmarked : ∀ t ∈ after, t.Marked text := fun t ht =>
    marked_of_mem_scanAll text t (by rw [h.tokens]; exact List.mem_append_right _ ht)
  obtain ⟨now, -, htagged⟩ := h.tagged.foldl_step h.steady h.around.1 hmarked
  rw [← Builder.after_append] at htagged
  have hfinish := Builder.moved_finish (k := tag.length) hgrown
    (fun o ho => htagged.unended ho) text.length
  rw [parse_of_tokens hinserted, parse_of_tokens h.tokens, hmoved, length_insertAt,
    ← hfinish, hnodes]
  rfl

/-- A stray end tag that is not spared leaves a trace: a fault, or there is no node where the text
was that does not spare it. -/
lemma parse_insert_of_not_spares (h : ScanState.StandsAt text before after s steps)
    (hcontent : (Builder.after text before).pending = none)
    (hstray : ∀ o ∈ (Builder.after text before).opened, o.tag ≠ name.text)
    (hdepth : 1 ≤ depthBehind 0 before)
      (hspares : sparesEndTag (depthBehind 0 before) after = false)
    (htag : IsEndTag tag name) : Tree.parse (insertAt (endOf before) tag text) ≠
      (Tree.parse text).inserted (endOf before) tag (Builder.after text before).openIds := by
  intro heq
  obtain ⟨s', hruns, hlowered⟩ := h.exists_runsTo_insert hdepth htag
  set text' := insertAt (endOf before) tag text
  have hs' := (hruns.within (ScanState.start_within text')).1
  obtain ⟨xs, t, ys, s₁', rfl, hruns', hmissing⟩ :=
    ScanState.exists_scan_unspared h.within hlowered hs'
    (by rw [h.scan]) (by rw [h.state]; exact hspares)
  obtain ⟨steps', hsteps', hscan⟩ :=
    ScanState.scan_of_runsTo (hruns.trans hruns') _ (ScanState.stepsLeft_start_le text')
  have hscan' : scanAll text' = _ := hscan
  rw [List.append_assoc before, List.singleton_append] at hscan'
  have hparse := parse_of_tokens hscan'
  rw [heq] at hparse
  have hfault : (s₁'.scan steps').2 = none := by
    refine (congrArg Tree.fault hparse).symm.trans ?_
    rw [Tree.inserted, parse_of_tokens h.tokens]
  obtain ⟨⟨content, span, rfl⟩, hbehind⟩ := hmissing steps' hsteps' hfault
  -- where the text was a node would begin, and no token behind begins there
  have hold : (Tree.parse text).nodes[(Builder.after text (before ++ xs)).nodes.size]?.map
      (·.span.start) =
      some span.start := by
    rw [parse_of_tokens h.tokens, ← List.append_assoc]
    exact Builder.starts_of_text content span text.length
  have hnew := starts_inserted hold (h.around.2.2 (.text content span) (by simp)) tag
    (Builder.after text before).openIds
  rw [hparse] at hnew
  have hstarts : ((Builder.after text' _).finish text'.length).starts _ =
      some (span.start + tag.length) := hnew
  rw [Builder.starts_finish, Builder.after_append] at hstarts
  obtain ⟨-, hmoved⟩ := Builder.after_insert h hcontent hstray
    (by rw [hscan', List.append_assoc]; rfl)
  have hsize : (Builder.after text' (before ++
      .endTag name ⟨endOf before, endOf before + tag.length⟩ :: xs.map
        (·.moved tag.length))).nodes.size =
        (Builder.after text (before ++ xs)).nodes.size := by
    rw [hmoved, Builder.moved, Array.size_mapIdx]
  obtain ⟨x, hx, hplace⟩ := Builder.exists_start_foldl (Nat.le_of_eq hsize) hstarts
  exact absurd hplace (Nat.ne_of_gt (hbehind x hx))

/-- **A stray end tag leaves no trace in the tree exactly if it is spared.**  It is put between two
tokens in the content of an open element and has the name of no element that is open there.  Then
the text has no fault, and its tree is the same but for the places behind the end tag, if and only
if the scanner, too, takes an element for open there and the tokens behind spare the end tag. -/
theorem parse_insert_endTag_iff (hscan : scanAll text = (before ++ after, none))
    (hcontent : (Builder.after text before).pending = none)
    (hopened : (Builder.after text before).opened ≠ [])
    (hstray : ∀ o ∈ (Builder.after text before).opened, o.tag ≠ name.text)
      (htag : IsEndTag tag name) :
    ((Tree.parse (insertAt (endOf before) tag text)).fault = none ∧
        Tree.parse (insertAt (endOf before) tag text) =
          (Tree.parse text).inserted (endOf before) tag (Builder.after text before).openIds) ↔
      1 ≤ depthBehind 0 before ∧ sparesEndTag (depthBehind 0 before) after = true := by
  rcases Nat.eq_zero_or_pos (depthBehind 0 before) with hover | hdepth
  · -- for the scanner the document is over, and the end tag is refused
    have hrefused := scanAll_insert_over hscan hcontent hopened hover htag
    constructor
    · rintro ⟨hfault, -⟩
      exact absurd hfault hrefused
    · rintro ⟨hdepth, -⟩
      omega
  · obtain ⟨s, steps, h⟩ := ScanState.exists_standsAt hscan hcontent hdepth
    constructor
    · rintro ⟨-, hsame⟩
      refine ⟨hdepth, ?_⟩
      by_contra hspares
      rw [Bool.not_eq_true] at hspares
      exact parse_insert_of_not_spares h hcontent hstray hdepth hspares htag hsame
    · rintro ⟨-, hspares⟩
      have hsame := parse_insert_of_spares h hcontent hstray hdepth hspares htag
      refine ⟨?_, hsame⟩
      rw [hsame, Tree.inserted, parse_of_tokens hscan]

end Tree

end Insertion

/-! ## Open and closed documents -/

/-- The tokens of `<a>` at the beginning of a text. -/
def opensOne : List Token :=
  [.tagOpen ⟨none, "a"⟩ ⟨0, 2⟩, .tagClose ⟨2, 3⟩]

/-- The tokens of `<a><b>` at the beginning of a text. -/
def opensTwo : List Token :=
  opensOne ++ [.tagOpen ⟨none, "b"⟩ ⟨3, 5⟩, .tagClose ⟨5, 6⟩]

/-- An end tag inside an element that is not closed. -/
theorem Tree.parse_insert_endTag_unclosed :
    let text := "<a><b>t</a>".toList
    let behind : List Token := [.text "t" ⟨6, 7⟩, .endTag ⟨none, "a"⟩ ⟨7, 11⟩]
    scanAll text = (opensTwo ++ behind, none) ∧ (Builder.after text opensTwo).pending = none ∧
      (Builder.after text opensTwo).opened.map (·.tag) = ["b", "a"] ∧
      (∀ o ∈ (Builder.after text opensTwo).opened, o.tag ≠ (QualifiedName.mk none "z").text) ∧
      IsEndTag "</z>".toList ⟨none, "z"⟩ ∧
      1 ≤ depthBehind 0 opensTwo ∧ sparesEndTag (depthBehind 0 opensTwo) behind = true ∧
      (Tree.parse "<a><b></z>t</a>".toList).fault = none ∧
      Tree.parse "<a><b></z>t</a>".toList = (Tree.parse text).inserted 6 "</z>".toList [1, 0] := by
  intro text behind
  have hscan : scanAll text = (opensTwo ++ behind, none) := by decide +kernel
  have hcontent : (Builder.after text opensTwo).pending = none := by decide +kernel
  have htags : (Builder.after text opensTwo).opened.map (·.tag) = ["b", "a"] := by decide +kernel
  have hopened : (Builder.after text opensTwo).opened ≠ [] := by
    intro hnil
    rw [hnil] at htags
    cases htags
  have hstray : ∀ o ∈ (Builder.after text opensTwo).opened,
      o.tag ≠ (QualifiedName.mk none "z").text := by
    decide +kernel
  have htag : IsEndTag "</z>".toList ⟨none, "z"⟩ := ⟨by decide, rfl⟩
  have hspared : 1 ≤ depthBehind 0 opensTwo ∧ sparesEndTag (depthBehind 0 opensTwo) behind =
      true := by decide
  have h := (Tree.parse_insert_endTag_iff hscan hcontent hopened hstray htag).mpr hspared
  exact ⟨hscan, hcontent, htags, hstray, htag, hspared.1, hspared.2, h⟩

/-- **Where all elements are closed a stray end tag is a fault.**  The scanner takes it for the end
of the document element, and the end tag of that element is refused. -/
theorem Tree.stray_endTag_ends_document :
    scanAll "<a></a>".toList = (opensOne ++ [.endTag ⟨none, "a"⟩ ⟨3, 7⟩], none) ∧
      (Builder.after "<a></a>".toList opensOne).pending = none ∧
      (Builder.after "<a></a>".toList opensOne).opened.map (·.tag) = ["a"] ∧
      IsEndTag "</z>".toList ⟨none, "z"⟩ ∧
      insertAt (endOf opensOne) "</z>".toList "<a></a>".toList = "<a></z></a>".toList ∧
      (Tree.parse "<a></z></a>".toList).fault.isSome :=
  ⟨by decide +kernel, by decide +kernel, by decide +kernel,
    ⟨by decide, rfl⟩, by decide, by decide +kernel⟩

end XmlAdvisor
