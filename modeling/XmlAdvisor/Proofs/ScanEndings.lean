import XmlAdvisor.Proofs.TagRuns

/-!
# What is read up to the end of a token

A construct that ends with a `>` is read the same whatever comes behind it, and a run of text is
read the same in front of any markup.  So a scan that stands inside an element has read what it has
read in every text that begins alike and goes on with markup.

* `Scan.Closing` — a scan that ends with a `>` and has not looked further.
* `ScanState.step_content` — a step into content ends with a `>` or reads text.
* `ScanState.step_epilog` — a step behind the document element ends with a `>` if it reads a token.
* **`ScanState.RunsTo.content_alike`** — a run into content is the same in front of any other
  markup.
-/

namespace XmlAdvisor

namespace Scan

variable {α β : Type}

/-! ## Scans that end with a mark -/

/-- A scan that ends with a `>`, and reads up to it the same whatever comes behind. -/
def Closing (m : Scan α) : Prop :=
  ∀ c a c', m c = .ok (a, c') → ∃ u, ['>'] <:+ u ∧ c.rest = u ++ c'.rest ∧
    ∀ Y, m ⟨c.offset, u ++ Y⟩ = .ok (a, ⟨c'.offset, Y⟩)

/-- A scan that reads nothing, and depends on no more than where it stands. -/
def Still (m : Scan α) : Prop :=
  ∀ c a c', m c = .ok (a, c') → c' = c ∧ ∀ Y, m ⟨c.offset, Y⟩ = .ok (a, ⟨c.offset, Y⟩)

lemma Still.andThen {m : Scan α} {f : α → Scan β} (hm : m.Still) (hf : ∀ a, (f a).Still) :
    (m >>= f).Still := by
  intro c b c'' h
  obtain ⟨a, c', hmc, hfa⟩ := bind_ok h
  obtain ⟨rfl, hmY⟩ := hm c a c' hmc
  obtain ⟨rfl, hfY⟩ := hf a c' b c'' hfa
  exact ⟨rfl, fun Y => (bind_of_ok (hmY Y)).trans (hfY Y)⟩

lemma still_pure {a : α} : (pure a : Scan α).Still := by
  rintro c _ _ ⟨⟩
  exact ⟨rfl, fun _ => rfl⟩

lemma still_spanFrom (start : Nat) : (spanFrom start).Still := by
  rintro c _ _ ⟨⟩
  exact ⟨rfl, fun _ => rfl⟩

/-- A check that stops the scan or lets it go on. -/
lemma Still.guarded {p : Prop} [Decidable p] {cause : Cause} {next : Unit → Scan β}
    (h : (next ()).Still) : (if p then stop cause >>= next else next ()).Still := by
  split_ifs
  · intro c b c' hstop
    obtain ⟨_, _, ⟨⟩, _⟩ := bind_ok hstop
  · exact h

/-- A token over the span that has been read. -/
lemma still_token (token : Span → Token) (start : Nat) :
    (do return some (token (← spanFrom start)) : Scan (Option Token)).Still :=
  .andThen (still_spanFrom start) fun _ => still_pure

/-- A scan that goes on after one that does not see what comes behind a `>`. -/
lemma Closing.andThen {m : Scan α} {f : α → Scan β} (hm : ∀ {X Y}, m.Local ['>'] X Y)
    (hf : ∀ a, (f a).Closing) : (m >>= f).Closing := by
  intro c b c'' h
  obtain ⟨a, c', hmc, hfa⟩ := bind_ok h
  obtain ⟨u, hu, hrest, halike⟩ := hf a c' b c'' hfa
  obtain ⟨⟨n, rfl⟩, -⟩ := (hm (X := []) (Y := [])).advances c a c' hmc
  have hsplit : c.rest = c.rest.take n ++ u ++ c''.rest := by
    rw [List.append_assoc, ← hrest]
    exact (List.take_append_drop n c.rest).symm
  have hclosed : ['>'] <:+ c.rest.take n ++ u := hu.trans (List.suffix_append _ u)
  refine ⟨_, hclosed, hsplit, fun Y => ?_⟩
  have hagrees : c.Agrees ['>'] c''.rest Y ⟨c.offset, c.rest.take n ++ u ++ Y⟩ :=
    ⟨_, .close, hclosed, hsplit, rfl⟩
  have hlength : c''.rest.length + ['>'].length ≤ (c.advance n).rest.length := by
    rw [hrest, List.length_append, Nat.add_comm]
    exact Nat.add_le_add_right hu.length_le _
  obtain ⟨d, hd, v, -, -, hv, rfl⟩ := hm.alike c _ a _ hagrees hmc hlength
  rw [hrest, List.append_cancel_right_eq] at hv
  rw [bind_of_ok hd, ← hv]
  exact halike Y

lemma Closing.still {m : Scan α} {f : α → Scan β} (hm : m.Closing) (hf : ∀ a, (f a).Still) :
    (m >>= f).Closing := by
  intro c b c'' h
  obtain ⟨a, c', hmc, hfa⟩ := bind_ok h
  obtain ⟨u, hu, hrest, halike⟩ := hm c a c' hmc
  obtain ⟨rfl, hstill⟩ := hf a c' b c'' hfa
  exact ⟨u, hu, hrest, fun Y => (bind_of_ok (halike Y)).trans (hstill Y)⟩

lemma closing_char : (char '>').Closing := by
  intro c a c' h
  obtain ⟨hhead, rfl⟩ := char_ok h
  exact ⟨['>'], List.suffix_refl _, Cursor.rest_of_head? hhead, fun Y => char_cons '>'⟩

lemma closing_literal {s : String} (hs : ['>'] <:+ s.toList) : (literal s).Closing := by
  intro c a c' h
  obtain ⟨found, _, ⟨⟩, h⟩ := bind_ok h
  split_ifs at h with hfound
  · cases h
    obtain ⟨more, hmore⟩ := List.isPrefixOf_iff_prefix.mp hfound
    have hrest : (c.advance s.length).rest = more := by
      rw [Cursor.advance, ← hmore, ← String.length_toList, List.drop_left]
    refine ⟨s.toList, hs, by rw [hrest, hmore], fun Y => ?_⟩
    rw [literal_append rfl, String.length_toList]
    rfl
  · obtain ⟨_, _, ⟨⟩, h⟩ := bind_ok h
    cases h

lemma comment_closing : comment.Closing :=
  .andThen offset_local fun start => .andThen (skip_local _) fun _ =>
    .andThen (contentBefore_local (by decide)) fun _ =>
      .still (closing_literal (by decide)) fun _ =>
    .guarded (.guarded (still_token (.comment _) start))

lemma instruction_closing : instruction.Closing :=
  .andThen offset_local fun start => .andThen (skip_local _) fun _ =>
    .andThen name_local fun target =>
    .andThen spaces_local fun _ => .andThen (contentBefore_local (by decide)) fun _ =>
    .still (closing_literal (by decide)) fun _ => still_token (.instruction target _) start

lemma cdata_closing : cdata.Closing :=
  .andThen offset_local fun start => .andThen (skip_local _) fun _ =>
    .andThen (contentBefore_local (by decide)) fun _ =>
      .still (closing_literal (by decide)) fun _ =>
    still_token (.cdata _) start

lemma endTag_closing : endTag.Closing :=
  .andThen offset_local fun start => .andThen (skip_local _) fun _ =>
    .andThen qualifiedName_local fun tag => .andThen spaces_local fun _ =>
    .still closing_char fun _ => still_token (.endTag tag) start

/-! ## Text -/

/-- Text that is read up to markup, or to the end, is read the same in front of any other markup. -/
lemma contentUntil_markup (o : Nat) {cs read : List Char}
    (h : contentUntil ("<".toList.isPrefixOf ·) o cs = .ok read) : ∃ more, cs = read ++ more ∧
      (more = [] ∨ more.head? = some '<') ∧ ∀ Y : List Char, Y.head? = some '<' →
        contentUntil ("<".toList.isPrefixOf ·) o (read ++ Y) = .ok read := by
  induction cs generalizing o read with
  | nil =>
      cases h
      refine ⟨[], rfl, .inl rfl, fun Y hY => ?_⟩
      obtain ⟨Y, rfl⟩ := List.head?_eq_some_iff.mp hY
      rfl
  | cons c cs ih =>
      rw [contentUntil] at h
      split_ifs at h with hchar hstop
      · cases h
        have hc : '<' = c := by simpa using hstop
        refine ⟨c :: cs, rfl, .inr (by rw [← hc]; rfl), fun Y hY => ?_⟩
        obtain ⟨Y, rfl⟩ := List.head?_eq_some_iff.mp hY
        rfl
      · cases hmore : contentUntil ("<".toList.isPrefixOf ·) (o + 1) cs with
        | error cause =>
            rw [hmore] at h
            cases h
        | ok read' =>
            rw [hmore] at h
            cases h
            obtain ⟨more, rfl, hhead, halike⟩ := ih (o + 1) hmore
            refine ⟨more, rfl, hhead, fun Y hY => ?_⟩
            have hplain : "<".toList.isPrefixOf (c :: (read' ++ Y)) = false := by
              rw [Bool.not_eq_true] at hstop
              exact hstop
            rw [List.cons_append, contentUntil, if_neg hchar, if_neg (by rw [hplain]; decide),
              halike Y hY]
            rfl

/-- A text token ends in front of markup or where the text ends, and is the same in front of any
markup. -/
lemma text_markup {c c' : Cursor} {t : Option Token} (h : Scan.text c = .ok (t, c')) :
    ∃ u, c.rest = u ++ c'.rest ∧ (c'.rest = [] ∨ c'.rest.head? = some '<') ∧
      ∀ Y : List Char, Y.head? = some '<' →
      Scan.text ⟨c.offset, u ++ Y⟩ = .ok (t, ⟨c'.offset, Y⟩) := by
  obtain ⟨start, _, ⟨⟩, h⟩ := bind_ok h
  obtain ⟨cs, c₁, hcontent, h⟩ := bind_ok h
  have hstill : (if occursIn "]]>".toList cs then stop .sectionEndInText
      else pure () >>= fun _ => (do return some (.text (String.ofList cs) (← spanFrom c.offset))) :
        Scan (Option Token)).Still := by
    split_ifs
    · rintro _ _ _ ⟨⟩
    · exact .andThen still_pure fun _ => still_token (.text _) _
  obtain ⟨rfl, hrest⟩ := hstill c₁ t c' h
  obtain ⟨_, _, ⟨⟩, hcontent⟩ := bind_ok hcontent
  obtain ⟨read, _, hread, hcontent⟩ := bind_ok hcontent
  cases huntil : contentUntil ("<".toList.isPrefixOf ·) c.offset c.rest with
  | error cause =>
      rw [huntil] at hread
      cases hread
  | ok read =>
      rw [huntil] at hread
      cases hread
      cases hcontent
      obtain ⟨more, hsplit, hhead, halike⟩ := contentUntil_markup c.offset huntil
      have hmore : (c.advance cs.length).rest = more := by
        rw [Cursor.advance, hsplit, List.drop_left]
      refine ⟨cs, by rw [hmore, hsplit], by rw [hmore]; exact hhead, fun Y hY => ?_⟩
      have hcs : content ("<".toList.isPrefixOf ·) ⟨c.offset, cs ++ Y⟩ =
          .ok (cs, ⟨c.offset + cs.length, Y⟩) := by
        rw [content, bind_of_ok (a := (⟨c.offset, cs ++ Y⟩ : Cursor)) rfl]
        dsimp only
        rw [halike Y hY, ← advance_append]
        rfl
      rw [Scan.text, bind_offset, bind_of_ok hcs]
      exact hrest Y

end Scan

/-! ## Steps into content -/

namespace ScanState

variable {s s' : ScanState} {t : Option Token} {text : List Char}

/-- Whether what is read between two states ends with a `>`, and is the same whatever comes
behind. -/
def ClosesTo (s : ScanState) (t : Option Token) (s' : ScanState) : Prop :=
  ∃ u, ['>'] <:+ u ∧ s.cursor.rest = u ++ s'.cursor.rest ∧
    ∀ Y, (s.movedTo ⟨s.cursor.offset, u ++ Y⟩).step = .ok (t, s'.movedTo ⟨s'.cursor.offset, Y⟩)

/-- Whether what is read between two states is text. -/
structure TextTo (s : ScanState) (t : Option Token) (s' : ScanState) : Prop where
  mode : s.mode = .content
  plain : s.cursor.startsWith "<" = false
  read : Scan.text s.cursor = .ok (t, s'.cursor)
  state : s' = s.movedTo s'.cursor

lemma read_closing {scan : Scan (Option Token)} {what : Construct} (hscan : scan.Closing)
    (h : s.read what scan = .ok (t, s')) : ∃ u, ['>'] <:+ u ∧ s.cursor.rest = u ++ s'.cursor.rest ∧
      ∀ Y, (s.movedTo ⟨s.cursor.offset, u ++ Y⟩).read what scan =
        .ok (t, s'.movedTo ⟨s'.cursor.offset, Y⟩) := by
  obtain ⟨mode, depth, c'⟩ := s'
  have hread : scan s.cursor = .ok (t, c') := read_eq_ok h
  rw [read_of_ok what hread] at h
  cases h
  obtain ⟨u, hu, hrest, halike⟩ := hscan _ t c' hread
  exact ⟨u, hu, hrest, fun Y => read_of_ok what (halike Y)⟩

/-- Inside an element the same construct begins wherever the same text comes next. -/
lemma stepContent_agrees {bound X Y : List Char} {d : Cursor} (h : s.cursor.Agrees bound X Y d) :
    (s.movedTo d).stepContent =
      if s.cursor.startsWith "<!--" then (s.movedTo d).read .comment Scan.comment
      else if s.cursor.startsWith "<![CDATA[" then (s.movedTo d).read .cdata Scan.cdata
      else if s.cursor.startsWith "<!" || s.cursor.startsWith "<?xml " then (s.movedTo d).refuse
      else if s.cursor.startsWith "<?" then (s.movedTo d).read .instruction Scan.instruction
      else if s.cursor.startsWith "</" then
        (ScanState.movedTo { s with depth := s.depth - 1, mode := afterTag (s.depth - 1) } d).read
          .element Scan.endTag
      else if s.cursor.startsWith "<" then
        if d.rest.length = 1 then (s.movedTo d).refuse
        else ((s.into .insideTag).movedTo d).read .element Scan.tagOpen
      else (s.movedTo d).read .text Scan.text := by
  have hstarts {text : String} (htext : crossesBound text.toList = false) :
      (s.movedTo d).cursor.startsWith text = s.cursor.startsWith text := h.startsWith_eq htext
  rw [stepContent]
  dsimp only
  rw [hstarts (by decide), hstarts (by decide), hstarts (by decide), hstarts (by decide),
    hstarts (by decide), hstarts (by decide), hstarts (by decide)]
  rfl

/-- Inside an element, what does not open a tag ends with a `>` or is text. -/
lemma stepContent_closes (hmode : s.mode = .content) (hto : s'.mode ≠ .insideTag)
    (h : s.stepContent = .ok (t, s')) : s.ClosesTo t s' ∨ s.TextTo t s' := by
  have hcloses {scan : Scan (Option Token)} {what : Construct} {s₀ : ScanState}
      (hscan : scan.Closing)
      (hread : s₀.read what scan = .ok (t, s')) (hcursor : s₀.cursor = s.cursor)
      (hsame : ∀ d X Y, s.cursor.Agrees ['>'] X Y d →
        (s.movedTo d).stepContent = (s₀.movedTo d).read what scan) : s.ClosesTo t s' := by
    obtain ⟨u, hu, hrest, halike⟩ := read_closing hscan hread
    rw [hcursor] at hrest halike
    refine ⟨u, hu, hrest, fun Y => ?_⟩
    rw [step, show (s.movedTo ⟨s.cursor.offset, u ++ Y⟩).mode = .content from hmode]
    dsimp only
    rw [hsame _ s'.cursor.rest Y ⟨u, .close, hu, hrest, rfl⟩]
    exact halike Y
  rw [stepContent] at h
  dsimp only at h
  split_ifs at h with h₁ h₂ h₃ h₄ h₅ h₆ h₇
  · refine .inl (hcloses Scan.comment_closing h rfl fun d X Y hd => ?_)
    rw [stepContent_agrees hd, if_pos h₁]
  · refine .inl (hcloses Scan.cdata_closing h rfl fun d X Y hd => ?_)
    rw [stepContent_agrees hd, if_neg h₁, if_pos h₂]
  · cases h
  · refine .inl (hcloses Scan.instruction_closing h rfl fun d X Y hd => ?_)
    rw [stepContent_agrees hd, if_neg h₁, if_neg h₂, if_neg h₃, if_pos h₄]
  · refine .inl (hcloses Scan.endTag_closing h rfl fun d X Y hd => ?_)
    rw [stepContent_agrees hd, if_neg h₁, if_neg h₂, if_neg h₃, if_neg h₄, if_pos h₅]
  · cases h
  · obtain ⟨mode, depth, c'⟩ := s'
    rw [read_of_ok .element (read_eq_ok h)] at h
    cases h
    exact absurd rfl hto
  · obtain ⟨mode, depth, c'⟩ := s'
    have hread : Scan.text s.cursor = .ok (t, c') := read_eq_ok h
    rw [read_of_ok .text hread] at h
    cases h
    exact .inr ⟨hmode, Bool.eq_false_iff.mpr h₆, hread, rfl⟩

/-- Inside a tag, what leads out of it ends with a `>`. -/
lemma stepInsideTag_closes {x : Token} (hmode : s.mode = .insideTag) (hto : s'.mode ≠ .insideTag)
    (h : s.stepInsideTag = .ok (some x, s')) : s.ClosesTo (some x) s' := by
  have hread := tagPart_of_step h
  obtain ⟨mode, depth, o, rest⟩ := s
  obtain ⟨mode', depth', o', rest'⟩ := s'
  cases hmode
  rcases exists_blanks_of_tagPart hread with
    ⟨_, _, _, _, _, rfl⟩ | ⟨blanks, ending, hblanks, hrest, hend⟩
  · rw [stepInsideTag, read_of_ok .attribute hread] at h
    cases h
    exact absurd rfl hto
  · dsimp only at hrest
    cases hend with
    | close =>
        rw [hrest, List.singleton_append, stepInsideTag_close hblanks] at h
        cases h
        refine ⟨blanks ++ ['>'], List.suffix_append _ _, by simp [hrest], fun Y => ?_⟩
        rw [List.append_assoc]
        exact stepInsideTag_close hblanks
    | selfClose =>
        rw [hrest, List.cons_append, List.singleton_append, stepInsideTag_selfClose hblanks] at h
        cases h
        have hmark : ['>'] <:+ ['/', '>'] := List.suffix_cons _ _
        refine ⟨blanks ++ ['/', '>'], hmark.trans (List.suffix_append _ _), by simp [hrest],
          fun Y => ?_⟩
        rw [List.append_assoc]
        exact stepInsideTag_selfClose hblanks

lemma misc_mode {other : StepResult} (h : s.misc other = .ok (t, s')) :
    s'.mode = s.mode ∨ other = .ok (t, s') := by
  have hread {scan : Scan (Option Token)} {what : Construct} (h : s.read what scan = .ok (t, s')) :
      s'.mode = s.mode := by
    rw [read_of_ok what (read_eq_ok h), Except.ok.injEq, Prod.mk.injEq] at h
    rw [← h.2]
  rw [misc] at h
  split_ifs at h
  · exact .inl (hread h)
  · cases h
  · exact .inl (hread h)
  · cases h
    exact .inl rfl
  · exact .inr h

/-- Nothing leads from before the document element into it or behind it. -/
lemma phase_of_step_head (hs : s.Within text) (hphase : s.mode.phase = .head)
    (h : s.step = .ok (t, s')) :
    s'.mode.phase ≠ .body := by
  obtain ⟨-, -, hleads, -⟩ := step_orderly hs _ _ h
  intro hbody
  rw [hphase, hbody] at hleads
  cases t with
  | none => cases hleads
  | some x => cases x <;> cases hleads.2

/-- **A step into content ends with a `>` or reads text.** -/
theorem step_content (hs : s.Within text) (hto : s'.mode = .content) (h : s.step = .ok (t, s')) :
    s.ClosesTo t s' ∨ s.TextTo t s' := by
  have hinside : s'.mode ≠ .insideTag := by
    rw [hto]
    exact Mode.noConfusion
  obtain ⟨-, -, hleads, -⟩ := step_orderly hs _ _ h
  rw [hto] at hleads
  cases hmode : s.mode with
  | content =>
      rw [step, hmode] at h
      exact stepContent_closes hmode hinside h
  | insideTag =>
      rw [hmode] at hleads
      cases t with
      | none => cases hleads
      | some x =>
          rw [step, hmode] at h
          exact .inl (stepInsideTag_closes hmode hinside h)
  | epilog =>
      rw [step, hmode] at h
      rcases misc_mode h with hsame | hrefused
      · rw [hto, hmode] at hsame
        cases hsame
      · cases hrefused
  | declaration | prolog | subset | beforeRoot =>
      refine absurd ?_ (phase_of_step_head hs (by rw [hmode]; rfl) h)
      rw [hto]
      rfl

/-- Behind the document element what is read as a token ends with a `>`. -/
lemma step_misc_closes {x : Token} (hmode : s.mode = .epilog) (h : s.step = .ok (some x, s')) :
    s.ClosesTo (some x) s' := by
  have hcloses {scan : Scan (Option Token)} {what : Construct} (hscan : scan.Closing)
      (hread : s.read what scan = .ok (some x, s'))
      (hsame : ∀ d X Y, s.cursor.Agrees ['>'] X Y d →
        (s.movedTo d).misc (s.movedTo d).refuse = (s.movedTo d).read what scan) :
      s.ClosesTo (some x) s' := by
    obtain ⟨u, hu, hrest, halike⟩ := read_closing hscan hread
    refine ⟨u, hu, hrest, fun Y => ?_⟩
    rw [step, show (s.movedTo ⟨s.cursor.offset, u ++ Y⟩).mode = .epilog from hmode]
    dsimp only
    rw [hsame _ s'.cursor.rest Y ⟨u, .close, hu, hrest, rfl⟩]
    exact halike Y
  have hstarts {d : Cursor} {X Y : List Char} (hd : s.cursor.Agrees ['>'] X Y d) {text : String}
      (htext : crossesBound text.toList = false) :
      (s.movedTo d).cursor.startsWith text = s.cursor.startsWith text := hd.startsWith_eq htext
  rw [step, hmode] at h
  dsimp only at h
  rw [misc] at h
  split_ifs at h with h₁ h₂ h₃
  · refine hcloses Scan.comment_closing h fun d X Y hd => ?_
    rw [misc, hstarts hd (by decide), if_pos h₁]
  · cases h
  · refine hcloses Scan.instruction_closing h fun d X Y hd => ?_
    rw [misc, hstarts hd (by decide), hstarts hd (by decide), hstarts hd (by decide),
      if_neg h₁, if_neg h₂,
      if_pos h₃]
  · cases h
  · cases h

/-- **A step behind the document element that reads a token ends with a `>`.** -/
theorem step_epilog {x : Token} (hs : s.Within text) (hto : s'.mode = .epilog)
    (h : s.step = .ok (some x, s')) : s.ClosesTo (some x) s' := by
  have hinside : s'.mode ≠ .insideTag := by
    rw [hto]
    exact Mode.noConfusion
  cases hmode : s.mode with
  | content =>
      have hstep := h
      rw [step, hmode] at hstep
      rcases stepContent_closes hmode hinside hstep with hcloses | htext
      · exact hcloses
      · rw [htext.state] at hto
        have hover : s.mode = .epilog := hto
        rw [hmode] at hover
        cases hover
  | insideTag =>
      rw [step, hmode] at h
      exact stepInsideTag_closes hmode hinside h
  | epilog => exact step_misc_closes hmode h
  | declaration | prolog | subset | beforeRoot =>
      refine absurd ?_ (phase_of_step_head hs (by rw [hmode]; rfl) h)
      rw [hto]
      rfl

/-- Inside an element, what does not open a tag is read as text. -/
lemma step_text {c : Cursor} (hmode : s.mode = .content) (hplain : s.cursor.startsWith "<" = false)
    (h : Scan.text s.cursor = .ok (t, c)) : s.step = .ok (t, s.movedTo c) := by
  have hnot {marks : List Char} {mark : String} (hmark : mark.toList = '<' :: marks) :
      ¬s.cursor.startsWith mark = true := by
    intro hstarts
    rw [Cursor.startsWith, hmark, List.isPrefixOf_iff_prefix] at hstarts
    obtain ⟨more, hmore⟩ := hstarts
    rw [Cursor.startsWith, ← hmore] at hplain
    cases hplain
  rw [step, hmode]
  dsimp only
  rw [stepContent, if_neg (hnot rfl), if_neg (hnot rfl), if_neg ?_, if_neg (hnot rfl),
    if_neg (hnot rfl),
    if_neg (hnot rfl)]
  · exact read_of_ok .text h
  · rw [Bool.or_eq_true, not_or]
    exact ⟨hnot rfl, hnot rfl⟩

/-! ## Runs into content -/

/-- A run that is not empty has a last step. -/
lemma RunsTo.last {tokens : List Token} (h : s.RunsTo tokens s') : s' = s ∧ tokens = [] ∨
    ∃ s₁ before t, s.RunsTo before s₁ ∧ s₁.cursor.rest ≠ [] ∧ s₁.step = .ok (t, s') ∧
      tokens = before ++ t.toList := by
  induction h with
  | refl s => exact .inl ⟨rfl, rfl⟩
  | @step s s₁ s' t tokens hrest hstep hless more ih =>
      right
      rcases ih with ⟨rfl, rfl⟩ | ⟨s₂, before, t', hruns, hrest', hstep', rfl⟩
      · exact ⟨s, [], t, .refl s, hrest, hstep, (List.append_nil _).trans (List.nil_append _).symm⟩
      · exact ⟨s₂, t.toList ++ before, t', .step hrest hstep hless hruns, hrest', hstep',
          (List.append_assoc _ _ _).symm⟩

/-- What is read between two states stands between them in the text. -/
lemma Within.take_eq (hs : s.Within text) (hs' : s'.Within text) {u : List Char}
    (h : s.cursor.rest = u ++ s'.cursor.rest) :
    text.take s'.cursor.offset = text.take s.cursor.offset ++ u := by
  have hplace : s'.cursor.offset = s.cursor.offset + u.length := by
    have hlength := congrArg List.length h
    rw [List.length_append, hs.length_rest, hs'.length_rest] at hlength
    have hle := hs.2
    have hle' := hs'.2
    omega
  have hread := hs.1
  rw [Cursor.ReadsFrom, h] at hread
  rw [hplace, List.take_add, ← hread, List.take_left]

/-- A run that ends with a `>` is the same whatever comes behind. -/
lemma RunsTo.closes_alike {before : List Token} {s₁ : ScanState}
    (hruns : (start text).RunsTo before s₁)
    (hcloses : s₁.ClosesTo t s') (hs : s'.Within text) (Y : List Char) :
    (start (text.take s'.cursor.offset ++ Y)).RunsTo (before ++ t.toList)
      (s'.movedTo ⟨s'.cursor.offset, Y⟩) := by
  have hwithin := (hruns.within (start_within text)).1
  obtain ⟨u, hu, hrest, halike⟩ := hcloses
  have htake := hwithin.take_eq hs hrest
  have htext : text = text.take s'.cursor.offset ++ s'.cursor.rest := by
    rw [hs.1, List.take_append_drop]
  have hlast : ['>'] <:+ text.take s'.cursor.offset := by
    rw [htake]
    exact hu.trans (List.suffix_append _ u)
  have hagrees := start_agrees .close hlast s'.cursor.rest Y
  rw [← htext] at hagrees
  have hlength : s'.cursor.rest.length + ['>'].length ≤ s₁.cursor.rest.length := by
    rw [hrest, List.length_append, Nat.add_comm]
    exact Nat.add_le_add_right hu.length_le _
  obtain ⟨d, hbegun, v, -, -, hv, rfl⟩ := hruns.alike (start_within text) hagrees hlength
  rw [hrest, List.append_cancel_right_eq] at hv
  rw [← hv] at hbegun
  have hne : (s₁.movedTo ⟨s₁.cursor.offset, u ++ Y⟩).cursor.rest ≠ [] := by
    rintro hnil
    rw [(List.append_eq_nil_iff.mp hnil).1] at hu
    cases List.suffix_nil.mp hu
  exact hbegun.trans (.one hne (halike Y) (stepsLeft_step_lt hne (halike Y)))

/-- **A run into content is the same in every text that begins alike and goes on with markup.** -/
theorem RunsTo.content_alike {tokens : List Token} (h : (start text).RunsTo tokens s')
    (hmode : s'.mode = .content) {Y : List Char} (hY : Y.head? = some '<') :
    (start (text.take s'.cursor.offset ++ Y)).RunsTo tokens (s'.movedTo ⟨s'.cursor.offset, Y⟩) := by
  have hbegins {s₀ : ScanState} (hmode : s₀.mode = .content) : s₀ ≠ start text := by
    rintro rfl
    cases hmode
  have hs := (h.within (start_within text)).1
  rcases h.last with ⟨rfl, -⟩ | ⟨s₁, before, t, hruns, hrest, hstep, rfl⟩
  · exact absurd rfl (hbegins hmode)
  · have hs₁ := (hruns.within (start_within text)).1
    rcases step_content hs₁ hmode hstep with hcloses | htext
    · exact hruns.closes_alike hcloses hs Y
    · -- what is in front of text is no text, so it ends with a `>`
      obtain ⟨u, hu, -, halike⟩ := Scan.text_markup htext.read
      have hplain := htext.plain
      rcases hruns.last with ⟨rfl, -⟩ | ⟨s₀, before, t₀, hruns₀, -, hstep₀, rfl⟩
      · exact absurd rfl (hbegins htext.mode)
      · have hs₀ := (hruns₀.within (start_within text)).1
        rcases step_content hs₀ htext.mode hstep₀ with hcloses | htext₀
        · have hbegun := hruns₀.closes_alike hcloses hs₁ (u ++ Y)
          rw [← List.append_assoc, ← hs₁.take_eq hs hu] at hbegun
          have hne : (s₁.movedTo ⟨s₁.cursor.offset, u ++ Y⟩).cursor.rest ≠ [] := by
            obtain ⟨Y', rfl⟩ := List.head?_eq_some_iff.mp hY
            exact List.append_ne_nil_of_right_ne_nil u (List.cons_ne_nil _ _)
          have hread : (s₁.movedTo ⟨s₁.cursor.offset, u ++ Y⟩).step =
              .ok (t, s'.movedTo ⟨s'.cursor.offset, Y⟩) := by
            have hlength := Scan.text_length_lt hrest hplain htext.read
            rw [htext.state]
            refine step_text htext.mode ?_ (halike Y hY)
            cases u with
            | nil =>
                rw [hu, List.nil_append] at hlength
                exact absurd hlength (Nat.lt_irrefl _)
            | cons x u =>
                rw [Cursor.startsWith, hu] at hplain
                exact hplain
          exact hbegun.trans (.one hne hread (stepsLeft_step_lt hne hread))
        · obtain ⟨_, -, hnil | hopens, -⟩ := Scan.text_markup htext₀.read
          · exact absurd hnil hrest
          · obtain ⟨more, hmore⟩ := List.head?_eq_some_iff.mp hopens
            rw [Cursor.startsWith, hmore] at hplain
            cases hplain

end ScanState

end XmlAdvisor
