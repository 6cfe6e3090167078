import XmlAdvisor.Proofs.BuiltAlike
import XmlAdvisor.Proofs.MovedScans
import XmlAdvisor.Proofs.ScanEndings

/-!
# The tokens around a stray end tag

An end tag that is put between two tokens in the content of an element is read as a token, and the
tokens before it are what they were.  Behind it the scanner counts one start tag less, so the tokens
that come there are what they were if they spare the end tag.

* `IsEndTag` — an end tag as it is written in a text.
* `ScanState.exists_runsTo_last` — the step that reads the last of the first tokens of a text.
* `ScanState.RunsTo.mode_content`, `ScanState.RunsTo.mode_epilog` — where a run has led, by what is
  counted.
* **`scanAll_insert`** — the tokens of a text with a stray end tag that is spared.
* **`ScanState.exists_scan_unspared`**, **`scanAll_insert_over`** — what is read behind one that is
  not.
-/

namespace XmlAdvisor

/-- An end tag as it is written in a text. -/
structure IsEndTag (tag : List Char) (name : QualifiedName) : Prop where
  opens : "</".toList <+: tag
  read : Scan.endTag ⟨0, tag⟩ = .ok (some (.endTag name ⟨0, tag.length⟩), ⟨tag.length, []⟩)

/-- Where the last of some tokens ends. -/
def endOf (tokens : List Token) : Nat :=
  (tokens.getLast?.map (·.span.stop)).getD 0

/-- A text with another text put into it. -/
def insertAt (o : Nat) (inserted text : List Char) : List Char :=
  text.take o ++ (inserted ++ text.drop o)

/-- An end tag is read wherever it stands. -/
lemma IsEndTag.endTag_eq {tag : List Char} {name : QualifiedName} (h : IsEndTag tag name) (o : Nat)
    (behind : List Char) : Scan.endTag ⟨o, tag ++ behind⟩ =
      .ok (some (.endTag name ⟨o, o + tag.length⟩), ⟨o + tag.length, behind⟩) := by
  obtain ⟨u, -, hu, halike⟩ := Scan.endTag_closing _ _ _ h.read
  rw [List.append_nil] at hu
  cases hu
  obtain ⟨t, hread, rfl⟩ := Scan.moved_endTag (k := o) _ _ _ (halike behind)
  have hcursor : Cursor.moved o ⟨0, tag ++ behind⟩ = ⟨o, tag ++ behind⟩ := by
    rw [Cursor.moved, Nat.zero_add]
  dsimp only at hread
  rw [hcursor] at hread
  rw [hread, Option.map_some, Token.moved, Span.moved, Cursor.moved, Nat.zero_add, Nat.add_comm]

namespace ScanState

variable {s s' : ScanState} {t : Option Token} {text : List Char} {tokens before after : List Token}

/-! ## Runs -/

/-- The run to the end of a text without faults. -/
lemma exists_runsTo_end (steps : Nat) (hsteps : s.stepsLeft ≤ steps)
    (h : s.scan steps = (tokens, none)) :
    ∃ s₁, s.RunsTo tokens s₁ ∧ s₁.cursor.rest = [] := by
  induction steps generalizing s tokens with
  | zero =>
      have hrest : s.cursor.rest = [] :=
        List.length_eq_zero_iff.mp (by rw [stepsLeft] at hsteps; omega)
      cases h
      exact ⟨s, .refl s, hrest⟩
  | succ steps ih =>
      by_cases hrest : s.cursor.rest = []
      · rw [scan_of_rest_nil hrest] at h
        cases h
        exact ⟨s, .refl s, hrest⟩
      · have hmore : s.cursor.rest.isEmpty = false := by rwa [List.isEmpty_eq_false_iff]
        rw [scan, hmore, if_neg Bool.false_ne_true] at h
        cases hstep : s.step with
        | error fault =>
            rw [hstep] at h
            cases h
        | ok r =>
            obtain ⟨t, s'⟩ := r
            rw [hstep] at h
            dsimp only at h
            have hless := stepsLeft_step_lt hrest hstep
            obtain ⟨htokens, hfault⟩ := Prod.mk.inj h
            obtain ⟨s₁, hruns, hend⟩ :=
              ih (by omega) (Prod.ext rfl hfault : s'.scan steps = (_, none))
            rw [← htokens]
            exact ⟨s₁, .step hrest hstep hless hruns, hend⟩

/-- What is known of a builder is kept by the tokens that a run reads. -/
lemma RunsTo.keeps {b : Builder} (h : s.RunsTo tokens s') (hs : s.Within text)
    (hmarked : ∀ t ∈ tokens, t.Marked text) (hb : b.Steady s.mode.phase s.cursor.offset)
    (ht : b.Tagged text s.cursor.offset) :
    (tokens.foldl (Builder.step text) b).Steady s'.mode.phase s'.cursor.offset ∧
      (tokens.foldl (Builder.step text) b).Tagged text s'.cursor.offset := by
  induction h generalizing b with
  | refl s => exact ⟨hb, ht⟩
  | @step s s' s'' t tokens hrest hstep hless more ih =>
      obtain ⟨hmove, hin, hleads, hspan⟩ := step_orderly hs _ _ hstep
      have hmarked' : ∀ x ∈ tokens, x.Marked text :=
        fun x hx => hmarked x (List.mem_append_right _ hx)
      cases t with
      | none =>
          have hphase : s'.mode.phase = s.mode.phase := hleads
          refine ih hin hmarked' ?_ (ht.of_tags hmove rfl rfl rfl ht.ended)
          rw [hphase]
          exact ⟨hb.nested.mono hmove, hb.fits⟩
      | some x =>
          obtain ⟨hbehind, hordered, hstop⟩ := hspan x rfl
          have hmark := hmarked x List.mem_cons_self
          have hnext : (b.step text x).Steady s'.mode.phase x.span.stop :=
            hb.step hleads.2 hbehind hordered hleads.1
          have htags := ht.step hb hleads.2 hbehind hordered hleads.1 hmark
          rw [hstop] at hnext htags
          exact ih hin hmarked' hnext htags

/-- The step that reads the last of the first tokens of a text, and the state behind it. -/
lemma exists_runsTo_last (hscan : scanAll text = (before ++ after, none)) (hbefore : before ≠ []) :
    ∃ first x s₁ s₂ steps, before = first ++ [x] ∧ (start text).RunsTo first s₁ ∧
      s₁.step = .ok (some x, s₂) ∧ (start text).RunsTo before s₂ ∧ s₂.cursor.offset = endOf before ∧
      s₂.stepsLeft ≤ steps ∧ s₂.scan steps = (after, none) := by
  rcases List.eq_nil_or_concat before with rfl | ⟨first, x, rfl⟩
  · exact absurd rfl hbefore
  · rw [List.concat_eq_append] at hscan ⊢
    have hsplit : ((start text).scan (text.length + 3)).1 = first ++ x :: after := by
      rw [← List.singleton_append, ← List.append_assoc]
      exact congrArg Prod.fst hscan
    obtain ⟨s₁, s₂, -, hruns, hrest, hstep, -⟩ := exists_runsTo_of_scan _ hsplit
    have hruns₂ := hruns.trans (.one hrest hstep (stepsLeft_step_lt hrest hstep))
    have hplace : s₂.cursor.offset = endOf (first ++ [x]) := by
      obtain ⟨-, -, -, hspan⟩ := step_orderly (hruns.within (start_within text)).1 _ _ hstep
      rw [endOf, List.getLast?_concat, ← (hspan x rfl).2.2]
      rfl
    obtain ⟨steps, hsteps, hmore⟩ := scan_of_runsTo hruns₂ _ (stepsLeft_start_le text)
    have hsame : (first ++ [x] ++ (s₂.scan steps).1, (s₂.scan steps).2) =
        (first ++ [x] ++ after, none) :=
      hmore.symm.trans hscan
    obtain ⟨htokens, hfault⟩ := Prod.mk.inj hsame
    exact ⟨first, x, s₁, s₂, steps, rfl, hruns, hstep, hruns₂, hplace, hsteps,
      Prod.ext (List.append_cancel_left htokens) hfault⟩

/-! ## Content -/

/-- What the scanner has counted in each mode: inside an element something is open, and outside the
document element nothing is. -/
def Counted (s : ScanState) : Prop :=
  s.mode = .content ∧ 0 < s.depth ∨ s.mode = .insideTag ∨ s.mode ≠ .content ∧ s.depth = 0

lemma afterTag_counted {c : Cursor} {depth : Nat} : Counted ⟨afterTag depth, depth, c⟩ := by
  cases depth with
  | zero => exact .inr (.inr ⟨Mode.noConfusion, rfl⟩)
  | succ depth => exact .inl ⟨rfl, Nat.succ_pos depth⟩

lemma read_counted {scan : Scan (Option Token)} {what : Construct} (h : s.Counted)
    (hread : s.read what scan = .ok (t, s')) : s'.Counted := by
  rw [read_of_ok what (read_eq_ok hread), Except.ok.injEq, Prod.mk.injEq] at hread
  rw [← hread.2]
  exact h

lemma Counted.step (h : s.Counted) (hs : s.Within text) (hstep : s.step = .ok (t, s')) :
    s'.Counted := by
  have houtside (hcontent : s.mode ≠ .content) (htag : s.mode ≠ .insideTag) : s.depth = 0 := by
    rcases h with ⟨hmode, -⟩ | hmode | ⟨-, hdepth⟩
    · exact absurd hmode hcontent
    · exact absurd hmode htag
    · exact hdepth
  cases hmode : s.mode with
  | content =>
      rw [ScanState.step, hmode] at hstep
      dsimp only at hstep
      rw [stepContent] at hstep
      dsimp only at hstep
      split_ifs at hstep
      · exact read_counted h hstep
      · exact read_counted h hstep
      · cases hstep
      · exact read_counted h hstep
      · exact read_counted afterTag_counted hstep
      · cases hstep
      · exact read_counted (s := s.into .insideTag) (.inr (.inl rfl)) hstep
      · exact read_counted h hstep
  | insideTag =>
      rw [ScanState.step, hmode] at hstep
      dsimp only at hstep
      rw [stepInsideTag] at hstep
      split at hstep
      · cases hstep
        exact .inl ⟨rfl, Nat.succ_pos _⟩
      · rename_i heq
        have hdepth := read_leadsTo _ _ _ _ heq
        cases hstep
        rw [into, ← hdepth]
        exact afterTag_counted
      · exact read_counted h hstep
  | epilog =>
      rw [hmode] at houtside
      rw [ScanState.step, hmode] at hstep
      refine .inr (.inr ⟨?_, ?_⟩)
      · rcases misc_mode hstep with hsame | hrefused
        · rw [hsame, hmode]
          exact Mode.noConfusion
        · cases hrefused
      · rw [misc_leadsTo leadsTo_error _ _ hstep]
        exact houtside Mode.noConfusion Mode.noConfusion
  | declaration | prolog | subset | beforeRoot =>
      rw [hmode] at houtside
      have hhead : s.mode.phase = .head := by
        rw [hmode]
        rfl
      refine .inr (.inr ⟨?_, ?_⟩)
      · intro hcontent
        refine phase_of_step_head hs hhead hstep ?_
        rw [hcontent]
        rfl
      · rw [step_head_leadsTo hhead _ _ hstep]
        exact houtside Mode.noConfusion Mode.noConfusion

lemma RunsTo.counted (h : s.RunsTo tokens s') (hs : s.Within text) (hcounted : s.Counted) :
    s'.Counted := by
  induction h with
  | refl s => exact hcounted
  | step hrest hstep hless more ih =>
      exact ih (step_orderly hs _ _ hstep).2.1 (hcounted.step hs hstep)

lemma start_steady (text : List Char) :
    Builder.empty.Steady (start text).mode.phase (start text).cursor.offset :=
  ⟨Builder.steady_empty.nested.mono (Nat.zero_le _), Builder.steady_empty.fits⟩

lemma start_tagged (text : List Char) : Builder.empty.Tagged text (start text).cursor.offset := by
  have hempty : Builder.empty.Tagged text 0 := Builder.tagged_empty
  exact hempty.of_tags (Nat.zero_le _) rfl rfl rfl hempty.ended

/-- What is known of the builder when a part of the tokens of a text has been read. -/
lemma RunsTo.keeps_start {fault : Option Fault} (h : (start text).RunsTo before s')
    (hscan : scanAll text = (before ++ after, fault)) :
    (Builder.after text before).Steady s'.mode.phase s'.cursor.offset ∧
      (Builder.after text before).Tagged text s'.cursor.offset := by
  refine h.keeps (start_within text) (fun t ht => ?_) (start_steady text) (start_tagged text)
  refine marked_of_mem_scanAll text t ?_
  rw [hscan]
  exact List.mem_append_left _ ht

lemma start_counted (text : List Char) : (start text).Counted :=
  .inr (.inr ⟨Mode.noConfusion, rfl⟩)

/-- Where the builder is not inside a tag the scanner is not. -/
lemma mode_ne_insideTag {b : Builder} {now : Nat} (h : b.Steady s.mode.phase now)
    (hpending : b.pending = none) : s.mode ≠ .insideTag := by
  intro hmode
  have hfits := h.fits
  rw [hmode] at hfits
  have hsome : b.pending.isSome := hfits
  rw [hpending] at hsome
  cases hsome

/-- **Outside tags, where something is open, a run has led into content.** -/
theorem RunsTo.mode_content (h : (start text).RunsTo tokens s')
    (hsteady : (Builder.after text tokens).Steady s'.mode.phase s'.cursor.offset)
    (hpending : (Builder.after text tokens).pending = none) (hdepth : 0 < depthBehind 0 tokens) :
    s'.mode = .content := by
  have hcount : s'.depth = depthBehind 0 tokens := h.depth_eq (start_within text)
  rcases h.counted (start_within text) (start_counted text) with ⟨hmode, -⟩ | hmode | ⟨-, hnone⟩
  · exact hmode
  · exact absurd hmode (mode_ne_insideTag hsteady hpending)
  · omega

/-- **Where the scanner takes nothing for open but an element is, the document is over** for it. -/
theorem RunsTo.mode_epilog (h : (start text).RunsTo tokens s')
    (hsteady : (Builder.after text tokens).Steady s'.mode.phase s'.cursor.offset)
    (hpending : (Builder.after text tokens).pending = none)
    (hopened : (Builder.after text tokens).opened ≠ []) (hdepth : depthBehind 0 tokens = 0) :
    s'.mode = .epilog := by
  have hcount : s'.depth = depthBehind 0 tokens := h.depth_eq (start_within text)
  rcases h.counted (start_within text) (start_counted text) with ⟨-, hpos⟩ | hmode | ⟨hcontent, -⟩
  · omega
  · exact absurd hmode (mode_ne_insideTag hsteady hpending)
  · cases hmode : s'.mode with
    | content => exact absurd hmode hcontent
    | insideTag => exact absurd hmode (mode_ne_insideTag hsteady hpending)
    | epilog => rfl
    | declaration | prolog | subset | beforeRoot =>
        -- before the document element nothing is open
        have hfits := hsteady.fits
        rw [hmode] at hfits
        have hspine : (Builder.after text tokens).spine = [] := hfits.1
        rw [Builder.spine_of_pending_none hpending] at hspine
        exact absurd (List.map_eq_nil_iff.mp hspine) hopened

/-- What is known between two tokens of a text in the content of an element. -/
structure StandsAt (text : List Char) (before after : List Token) (s : ScanState)
    (steps : Nat) : Prop where
  runs : (start text).RunsTo before s
  within : s.Within text
  state : s = ⟨.content, depthBehind 0 before, ⟨endOf before, text.drop (endOf before)⟩⟩
  tokens : scanAll text = (before ++ after, none)
  enough : s.stepsLeft ≤ steps
  scan : s.scan steps = (after, none)
  steady : (Builder.after text before).Steady .body (endOf before)
  tagged : (Builder.after text before).Tagged text (endOf before)

lemma exists_standsAt (hscan : scanAll text = (before ++ after, none))
    (hpending : (Builder.after text before).pending = none) (hdepth : 0 < depthBehind 0 before) :
    ∃ s steps, StandsAt text before after s steps := by
  have hbefore : before ≠ [] := by
    rintro rfl
    cases hdepth
  obtain ⟨_, _, _, s, steps, -, -, -, hruns, hplace, hsteps, hmore⟩ :=
    exists_runsTo_last hscan hbefore
  have hs := (hruns.within (start_within text)).1
  have hkeeps := hruns.keeps_start hscan
  have hmode := hruns.mode_content hkeeps.1 hpending hdepth
  have hcount : s.depth = depthBehind 0 before := hruns.depth_eq (start_within text)
  have hrest := hs.1
  rw [Cursor.ReadsFrom] at hrest
  rw [hmode, hplace] at hkeeps
  refine ⟨s, steps, hruns, hs, ?_, hscan, hsteps, hmore, hkeeps.1, hkeeps.2⟩
  rw [← hmode, ← hcount, ← hplace, ← hrest]

/-! ## Tokens that do not spare the end tag -/

/-- Markup that is neither a comment nor an instruction is not read where only these are. -/
lemma misc_of_markup {other : StepResult} (hopens : s.cursor.startsWith "<" = true)
    (hcomment : s.cursor.startsWith "<!--" = false)
    (hinstruction : s.cursor.startsWith "<?" = false) :
    s.misc other = other := by
  obtain ⟨rest, hrest⟩ := List.isPrefixOf_iff_prefix.mp hopens
  have hdeclaration : s.cursor.startsWith "<?xml " = false := by
    rw [← Bool.not_eq_true] at hinstruction ⊢
    intro h
    refine hinstruction (List.isPrefixOf_iff_prefix.mpr ?_)
    exact List.IsPrefix.trans (by decide : "<?".toList <+: "<?xml ".toList)
      (List.isPrefixOf_iff_prefix.mp h)
  have hblank : s.cursor.rest.head?.any isXmlSpace = false := by
    rw [← hrest]
    rfl
  rw [misc, hcomment, hdeclaration, hinstruction, hblank]
  rfl

/-- Behind the document element an end tag is refused. -/
lemma scan_endTag_over (hmode : s.mode = .epilog) (hopens : "</".toList <+: s.cursor.rest)
    {steps : Nat}
    (hsteps : s.stepsLeft ≤ steps) : s.scan steps = ([], some (.unknownToken s.cursor.offset)) := by
  obtain ⟨more, hmore⟩ := hopens
  have hrest : s.cursor.rest = '<' :: '/' :: more := hmore.symm
  have hrefused : s.step = s.refuse := by
    rw [step, hmode]
    refine misc_of_markup ?_ ?_ ?_
    all_goals
      rw [Cursor.startsWith, hrest]
      rfl
  obtain ⟨n, rfl⟩ : ∃ n, steps = n + 1 := by
    rw [stepsLeft, hrest, List.length_cons] at hsteps
    exact ⟨steps - 1, by omega⟩
  rw [scan, hrest, hrefused]
  rfl

/-- Behind the document element nothing but comments and instructions is read, and blanks are
skipped. -/
lemma stepContent_unspared {x : Token} (hcursor : s'.cursor = s.cursor.moved k)
    (hmisc : x.isMisc = false)
    (hstep : s.stepContent = .ok (some x, s₁)) : (∃ fault, s'.misc s'.refuse = .error fault) ∨
      (∃ content stop, x = .text content ⟨s.cursor.offset, stop⟩) ∧
        ∃ s₂, s'.misc s'.refuse = .ok (none, s₂) ∧ s.cursor.offset + k < s₂.cursor.offset := by
  have hstarts (mark : String) : s'.cursor.startsWith mark = s.cursor.startsWith mark := by
    rw [hcursor]
    rfl
  have hrefused (hopens : s.cursor.startsWith "<" = true)
      (hcomment : ¬s.cursor.startsWith "<!--" = true)
      (hinstruction : ¬s.cursor.startsWith "<?" = true) :
        ∃ fault, s'.misc s'.refuse = .error fault := by
    rw [← hstarts] at hopens
    rw [← hstarts, Bool.not_eq_true] at hcomment hinstruction
    exact ⟨_, misc_of_markup hopens hcomment hinstruction⟩
  have hopening {mark : String} (h : s.cursor.startsWith mark = true)
      (hmark : "<".toList <+: mark.toList) :
      s.cursor.startsWith "<" = true :=
    List.isPrefixOf_iff_prefix.mpr (hmark.trans (List.isPrefixOf_iff_prefix.mp h))
  rw [stepContent] at hstep
  dsimp only at hstep
  split_ifs at hstep with h₁ h₂ h₃ h₄ h₅ h₆ h₇
  · obtain ⟨-, _, _, heq⟩ := Scan.comment_yields _ _ _ (read_eq_ok hstep)
    cases heq
    cases hmisc
  · refine .inl (hrefused (hopening h₂ (by decide)) h₁ fun h => ?_)
    have hboth := List.prefix_of_prefix_length_le (List.isPrefixOf_iff_prefix.mp h)
      (List.isPrefixOf_iff_prefix.mp h₂) (by decide)
    exact absurd hboth (by decide)
  · cases hstep
  · obtain ⟨-, _, _, _, heq⟩ := Scan.instruction_yields _ _ _ (read_eq_ok hstep)
    cases heq
    cases hmisc
  · exact .inl (hrefused (hopening h₅ (by decide)) h₁ h₄)
  · cases hstep
  · exact .inl (hrefused h₆ h₁ h₄)
  · obtain ⟨content, stop, heq⟩ := Scan.text_start (read_eq_ok hstep)
    rw [Bool.or_eq_true, not_or] at h₃
    rw [misc, hstarts, hstarts, hstarts, if_neg h₁, if_neg h₃.2, if_neg h₄]
    split_ifs with hblank
    · refine .inr ⟨⟨content, stop, Option.some.inj heq⟩, _, rfl, ?_⟩
      -- at least one blank is skipped
      cases hrest : s'.cursor.rest with
      | nil =>
          rw [hrest] at hblank
          cases hblank
      | cons c rest =>
          rw [hrest] at hblank
          have hspace : isXmlSpace c = true := hblank
          have hplace : s.cursor.offset + k = s'.cursor.offset := by
            rw [hcursor]
            rfl
          rw [Cursor.advance, List.takeWhile_cons_of_pos hspace, hplace]
          exact Nat.lt_add_of_pos_right (Nat.succ_pos _)
    · exact .inl ⟨_, rfl⟩

/-- **Behind an end tag that is not spared** the first token that does not spare it is missing: it
is refused, or it is text and what comes later begins behind its place. -/
theorem exists_scan_unspared {text' : List Char} {tokens : List Token} {steps : Nat}
    (hs : s.Within text)
    (h : Lowered k s s') (hs' : s'.Within text') (hscan : (s.scan steps).1 = tokens)
    (hunspared : sparesEndTag s.depth tokens = false) :
    ∃ xs t ys s₁', tokens = xs ++ t :: ys ∧ s'.RunsTo (xs.map (·.moved k)) s₁' ∧
      ∀ steps', s₁'.stepsLeft ≤ steps' → (s₁'.scan steps').2 = none →
        (∃ content span, t = .text content span) ∧
          ∀ x ∈ (s₁'.scan steps').1, t.span.start + k < x.span.start := by
  obtain ⟨xs, t, ys, hsplit, hspares, hdepth, hmisc⟩ := exists_unspared hunspared
  obtain ⟨s₁, s₂, -, hruns, hrest, hstep, -⟩ := exists_runsTo_of_scan steps (hscan.trans hsplit)
  obtain ⟨s₁', hruns', hlowered⟩ := hruns.lowered hs h hspares
  refine ⟨xs, t, ys, s₁', hsplit, hruns', fun steps' hsteps' hfault => ?_⟩
  obtain ⟨hmode, hover⟩ : s₁.mode = .content ∧ s₁'.mode = .epilog := by
    rcases hlowered.mode with ⟨-, -, hpos⟩ | ⟨hmode, hover, -⟩
    · have hcount := hruns.depth_eq hs
      have hsucc := hlowered.depth
      omega
    · exact ⟨hmode, hover⟩
  have hrest' : s₁'.cursor.rest ≠ [] := by
    rw [hlowered.cursor]
    exact hrest
  have hmore : s₁'.cursor.rest.isEmpty = false := by rwa [List.isEmpty_eq_false_iff]
  obtain ⟨steps', rfl⟩ : ∃ n, steps' = n + 1 := by
    have hpos := List.length_pos_of_ne_nil hrest'
    rw [stepsLeft] at hsteps'
    exact ⟨steps' - 1, by omega⟩
  have hstep' : s₁'.step = s₁'.misc s₁'.refuse := by rw [step, hover]
  rw [step, hmode] at hstep
  rw [scan, hmore, if_neg Bool.false_ne_true] at hfault ⊢
  rcases stepContent_unspared hlowered.cursor hmisc hstep with
    ⟨fault, hrefused⟩ | ⟨⟨content, stop, rfl⟩, s₂', hskip, hbehind⟩
  · rw [hstep', hrefused] at hfault
    cases hfault
  · rw [hskip] at hstep'
    rw [hstep']
    have hs₂' := (step_orderly (hruns'.within hs').1 _ _ hstep').2.1
    have hfollow := follow_scan steps' hs₂'
    refine ⟨⟨content, _, rfl⟩, fun x hx => ?_⟩
    obtain ⟨before, behind, heq⟩ := List.append_of_mem hx
    have heq' : (s₂'.scan steps').1 = before ++ x :: behind := heq
    rw [heq'] at hfollow
    exact Nat.lt_of_lt_of_le hbehind hfollow.le_start

end ScanState

section Insertion

variable {text tag : List Char} {before after : List Token} {name : QualifiedName} {s : ScanState}
  {steps : Nat}

/-- The run up to a stray end tag and through it: the tokens before it are read again, and behind it
one start tag less is open. -/
lemma ScanState.StandsAt.exists_runsTo_insert (h : StandsAt text before after s steps)
    (hdepth : 0 < depthBehind 0 before) (htag : IsEndTag tag name) :
    ∃ s', (start (insertAt (endOf before) tag text)).RunsTo
        (before ++ [.endTag name ⟨endOf before, endOf before + tag.length⟩]) s' ∧
      Lowered tag.length s s' := by
  obtain ⟨depth, hsucc⟩ : ∃ depth, depthBehind 0 before = depth + 1 :=
    ⟨depthBehind 0 before - 1, by omega⟩
  have hstate := h.state
  rw [hsucc] at hstate
  have hplace : s.cursor.offset = endOf before := by rw [hstate]
  obtain ⟨more, hopens⟩ : ∃ more, tag = '<' :: '/' :: more := by
    obtain ⟨more, hmore⟩ := htag.opens
    exact ⟨more, hmore.symm⟩
  have hhead : (tag ++ text.drop (endOf before)).head? = some '<' := by
    rw [hopens]
    rfl
  have hbegun := h.runs.content_alike (by rw [hstate]) hhead
  rw [hplace] at hbegun
  have hread := htag.endTag_eq (endOf before) (text.drop (endOf before))
  have hstep : (s.movedTo ⟨endOf before, tag ++ text.drop (endOf before)⟩).step =
      .ok (some (.endTag name ⟨endOf before, endOf before + tag.length⟩),
        ⟨afterTag depth, depth, ⟨endOf before + tag.length, text.drop (endOf before)⟩⟩) := by
    rw [hstate]
    rw [hopens] at hread ⊢
    exact step_endTag hread
  have hne : (s.movedTo ⟨endOf before, tag ++ text.drop (endOf before)⟩).cursor.rest ≠ [] := by
    rw [hopens]
    exact List.cons_ne_nil _ _
  refine ⟨_, hbegun.trans (.one hne hstep (stepsLeft_step_lt hne hstep)), ?_⟩
  rw [hstate]
  exact lowered_afterTag

/-- **The tokens of a text with a stray end tag** in the content of an element: those before it stay
where they are, those behind it are moved if they spare it. -/
theorem scanAll_insert (h : ScanState.StandsAt text before after s steps)
    (hdepth : 0 < depthBehind 0 before)
    (hspares : sparesEndTag (depthBehind 0 before) after = true) (htag : IsEndTag tag name) :
    scanAll (insertAt (endOf before) tag text) =
      (before ++ .endTag name ⟨endOf before, endOf before + tag.length⟩ ::
        after.map (·.moved tag.length), none) := by
  obtain ⟨s', hinserted, hlowered⟩ := h.exists_runsTo_insert hdepth htag
  obtain ⟨s₁, hruns, hend⟩ := ScanState.exists_runsTo_end steps h.enough h.scan
  obtain ⟨s₁', hruns', hlowered'⟩ :=
    hruns.lowered h.within hlowered (by rw [h.state]; exact hspares)
  have hend' : s₁'.cursor.rest = [] := by
    rw [hlowered'.cursor]
    exact hend
  obtain ⟨steps', -, hscan⟩ :=
    ScanState.scan_of_runsTo (hinserted.trans hruns') _ (ScanState.stepsLeft_start_le _)
  rw [ScanState.scan_of_rest_nil hend', List.append_nil, List.append_assoc,
    List.singleton_append] at hscan
  exact hscan

/-- **Behind what the scanner takes for the end of the document a stray end tag is refused.** -/
theorem scanAll_insert_over (hscan : scanAll text = (before ++ after, none))
    (hpending : (Builder.after text before).pending = none)
    (hopened : (Builder.after text before).opened ≠ []) (hdepth : depthBehind 0 before = 0)
    (htag : IsEndTag tag name) : (scanAll (insertAt (endOf before) tag text)).2 ≠ none := by
  have hbefore : before ≠ [] := by
    rintro rfl
    exact hopened rfl
  obtain ⟨first, x, s₁, s₂, -, rfl, hruns, hstep, hruns₂, hplace, -, -⟩ :=
    ScanState.exists_runsTo_last hscan hbefore
  have hs₁ := (hruns.within (ScanState.start_within text)).1
  have hs₂ := (hruns₂.within (ScanState.start_within text)).1
  have hover := hruns₂.mode_epilog (hruns₂.keeps_start hscan).1 hpending hopened hdepth
  -- the tokens before are read again, as the last of them ends with a mark
  have hbegun := hruns.closes_alike (ScanState.step_epilog hs₁ hover hstep) hs₂
    (tag ++ text.drop (endOf (first ++ [x])))
  rw [hplace] at hbegun
  obtain ⟨steps, hsteps, hinserted⟩ := ScanState.scan_of_runsTo hbegun _
    (ScanState.stepsLeft_start_le (insertAt (endOf (first ++ [x])) tag text))
  have hopens : "</".toList <+: tag ++ text.drop (endOf (first ++ [x])) :=
    htag.opens.trans (List.prefix_append _ _)
  have hrefused := ScanState.scan_endTag_over
    (s := s₂.movedTo ⟨endOf (first ++ [x]), tag ++ text.drop (endOf (first ++ [x]))⟩) hover
    hopens hsteps
  rw [hrefused] at hinserted
  intro hnone
  have hfault : some _ = none := (congrArg Prod.snd hinserted).symm.trans hnone
  cases hfault

end Insertion

end XmlAdvisor
