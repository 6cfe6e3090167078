import XmlAdvisor.Proofs.TagScans

/-!
# Scans that are moved

A text that is read further on in another text gives the same tokens further on.  The scanner also
counts the start tags that are open; where it counts one less, it reads the same as long as it does
not come to believe that the document is over.

* `Scan.Moved` — a scan that reads the same some characters further on.
* `depthBehind` — the number of open start tags, as the scanner counts them.
* `sparesEndTag` — whether one end tag more may have been read before.
* **`ScanState.RunsTo.lowered`** — what is read behind one end tag more is read alike.
-/

namespace XmlAdvisor

/-! ## Places further on -/

/-- A span that stands `k` characters further on. -/
def Span.moved (k : Nat) (s : Span) : Span :=
  ⟨s.start + k, s.stop + k⟩

/-- A token that stands `k` characters further on. -/
def Token.moved (k : Nat) : Token → Token
  | .doctype name external subset span => .doctype name external subset (span.moved k)
  | .subsetEnd span => .subsetEnd (span.moved k)
  | .comment content span => .comment content (span.moved k)
  | .instruction target data span => .instruction target data (span.moved k)
  | .cdata content span => .cdata content (span.moved k)
  | .text content span => .text content (span.moved k)
  | .tagOpen name span => .tagOpen name (span.moved k)
  | .attribute name value nameSpan valueSpan span =>
    .attribute name value (nameSpan.moved k) (valueSpan.moved k) (span.moved k)
  | .tagClose span => .tagClose (span.moved k)
  | .tagSelfClose span => .tagSelfClose (span.moved k)
  | .endTag name span => .endTag name (span.moved k)

/-- The same rest of a text, `k` characters further on. -/
def Cursor.moved (k : Nat) (c : Cursor) : Cursor :=
  ⟨c.offset + k, c.rest⟩

namespace Scan

variable {α β γ δ : Type} {k : Nat}

/-! ## Scans further on -/

/-- Whether what a scan reads is read by another scan `k` characters further on, with a related
result. -/
def Moved (k : Nat) (R : α → β → Prop) (m : Scan α) (m' : Scan β) : Prop :=
  ∀ c a c', m c = .ok (a, c') → ∃ b, m' (c.moved k) = .ok (b, c'.moved k) ∧ R a b

lemma Moved.bind {R : α → β → Prop} {S : γ → δ → Prop} {m : Scan α} {m' : Scan β} {f : α → Scan γ}
    {f' : β → Scan δ} (hm : Moved k R m m') (hf : ∀ a b, R a b → Moved k S (f a) (f' b)) :
    Moved k S (m >>= f) (m' >>= f') := by
  intro c x c'' h
  obtain ⟨a, c', hmc, hfa⟩ := bind_ok h
  obtain ⟨b, hmb, hab⟩ := hm c a c' hmc
  obtain ⟨y, hfb, hxy⟩ := hf a b hab c' x c'' hfa
  exact ⟨y, (bind_of_ok hmb).trans hfb, hxy⟩

/-- Two scans of which the first steps give the same. -/
lemma Moved.andThen {S : γ → δ → Prop} {m : Scan α} {f : α → Scan γ} {f' : α → Scan δ}
    (hm : Moved k Eq m m) (hf : ∀ a, Moved k S (f a) (f' a)) : Moved k S (m >>= f) (m >>= f') :=
  hm.bind fun a _ heq => heq ▸ hf a

lemma moved_pure {R : α → β → Prop} {a : α} {b : β} (h : R a b) :
    Moved k R (pure a : Scan α) (pure b) := by
  rintro c _ _ ⟨⟩
  exact ⟨b, rfl, h⟩

lemma moved_stop {R : α → β → Prop} {cause : Cause} {m' : Scan β} :
    Moved k R (stop cause : Scan α) m' := by
  rintro c _ _ ⟨⟩

/-- Where a scan stops for what comes next, nothing is read. -/
lemma moved_stopHere {R : α → β → Prop} {cause : Nat → Cause} {m' : Scan β} :
    Moved k R (do stop (cause (← offset)) : Scan α) m' := by
  intro c a c' h
  obtain ⟨_, _, -, h⟩ := bind_ok h
  cases h

lemma Moved.ite {R : α → β → Prop} {p : Prop} [Decidable p] {m n : Scan α} {m' n' : Scan β}
    (h : Moved k R m m') (h' : Moved k R n n') :
    Moved k R (if p then m else n) (if p then m' else n') := by
  split_ifs
  · exact h
  · exact h'

/-- A check that stops the scan or lets it go on. -/
lemma Moved.guarded {R : α → β → Prop} {p : Prop} [Decidable p] {cause : Cause}
    {next : Unit → Scan α}
    {next' : Unit → Scan β} (h : Moved k R (next ()) (next' ())) :
    Moved k R (if p then stop cause >>= next else next ())
      (if p then stop cause >>= next' else next' ()) := by
  refine .ite (fun c a c' hstop => ?_) h
  obtain ⟨_, _, ⟨⟩, _⟩ := bind_ok hstop

/-! ### Reading steps -/

lemma moved_offset : Moved k (fun o o' => o' = o + k) offset offset := by
  rintro c _ _ ⟨⟩
  exact ⟨_, rfl, rfl⟩

lemma moved_peek : Moved k Eq peek peek := by
  rintro c _ _ ⟨⟩
  exact ⟨_, rfl, rfl⟩

lemma moved_comesNext (s : String) : Moved k Eq (comesNext s) (comesNext s) := by
  rintro c _ _ ⟨⟩
  exact ⟨_, rfl, rfl⟩

lemma advance_moved (c : Cursor) (n : Nat) : (c.moved k).advance n = (c.advance n).moved k := by
  rw [Cursor.advance, Cursor.advance, Cursor.moved, Cursor.moved, Nat.add_right_comm]

lemma moved_skip (n : Nat) : Moved k Eq (skip n) (skip n) := by
  rintro c _ _ ⟨⟩
  exact ⟨(), by rw [← advance_moved]; rfl, rfl⟩

lemma moved_run (p : Char → Bool) : Moved k Eq (run p) (run p) := by
  rintro c _ _ ⟨⟩
  exact ⟨_, by rw [← advance_moved]; rfl, rfl⟩

lemma moved_spaces : Moved k Eq spaces spaces :=
  .andThen (moved_run _) fun _ => moved_pure rfl

lemma moved_literal (s : String) : Moved k Eq (literal s) (literal s) :=
  .andThen (moved_comesNext s) fun _ => .ite (moved_skip _) moved_stopHere

lemma moved_char (x : Char) : Moved k Eq (char x) (char x) := by
  refine .andThen moved_peek fun found => ?_
  cases found with
  | none => exact moved_stop
  | some y => exact .ite (moved_skip 1) moved_stopHere

lemma moved_quote : Moved k Eq quote quote := by
  refine .andThen moved_peek fun found => ?_
  cases found with
  | none => exact moved_stop
  | some y => exact .ite (.andThen (moved_skip 1) fun _ => moved_pure rfl) moved_stopHere

lemma moved_equals : Moved k Eq equals equals :=
  .andThen moved_spaces fun _ => .andThen (moved_char _) fun _ => moved_spaces

lemma moved_content (last : List Char → Bool) : Moved k Eq (content last) (content last) := by
  intro c cs c' h
  obtain ⟨_, _, ⟨⟩, h⟩ := bind_ok h
  obtain ⟨read, _, hread, h⟩ := bind_ok h
  cases huntil : contentUntil last c.offset c.rest with
  | error cause =>
      rw [huntil] at hread
      cases hread
  | ok read =>
      rw [huntil] at hread
      cases hread
      cases h
      have hplaced : contentUntil last (c.offset + k) c.rest = .ok cs := by
        rcases contentUntil_placed last c.offset (c.offset + k) c.rest with
          heq | ⟨⟨cause, herror⟩, -⟩
        · rw [← heq, huntil]
        · rw [huntil] at herror
          cases herror
      refine ⟨cs, ?_, rfl⟩
      have hread : content last (c.moved k) = .ok (cs, (c.moved k).advance cs.length) := by
        rw [content, bind_of_ok (a := c.moved k) rfl, Cursor.moved]
        dsimp only
        rw [hplaced]
        rfl
      rw [hread, advance_moved]

lemma moved_name : Moved k Eq name name := by
  refine .andThen (.andThen moved_peek fun found => ?_) fun cs => ?_
  · cases found with
    | none => exact moved_pure rfl
    | some x => exact .ite (moved_run _) moved_stop
  · cases cs with
    | nil => exact moved_stop
    | cons x cs => exact moved_pure rfl

lemma moved_qualifiedName : Moved k Eq qualifiedName qualifiedName :=
  .andThen (moved_run _) fun _ => .ite moved_stop (moved_pure rfl)

lemma moved_spanFrom {start start' : Nat} (h : start' = start + k) :
    Moved k (fun span span' => span' = span.moved k) (spanFrom start) (spanFrom start') :=
  .bind moved_offset fun _ _ ho => moved_pure (by rw [h, ho]; rfl)

/-! ### Constructs -/

/-- Whether both are the same token, one `k` characters further on. -/
abbrev Follows (k : Nat) (t t' : Option Token) : Prop :=
  t' = t.map (·.moved k)

/-- A token over the span that has been read. -/
lemma moved_token (token : Span → Token)
    (htoken : ∀ span, (token span).moved k = token (span.moved k))
    {start start' : Nat} (h : start' = start + k) :
    Moved k (Follows k) (do return some (token (← spanFrom start)))
      (do return some (token (← spanFrom start'))) :=
  .bind (moved_spanFrom h) fun span _ hspan => moved_pure (by
    rw [Follows, hspan, Option.map_some, htoken])

lemma moved_comment : Moved k (Follows k) comment comment :=
  .bind moved_offset fun _ _ hstart => .andThen (moved_skip _) fun _ =>
    .andThen (moved_content _) fun _ =>
    .andThen (moved_literal _) fun _ =>
      .guarded (.guarded (moved_token (.comment _) (fun _ => rfl) hstart))

lemma moved_instruction : Moved k (Follows k) instruction instruction :=
  .bind moved_offset fun _ _ hstart => .andThen (moved_skip _) fun _ =>
    .andThen moved_name fun target =>
    .andThen moved_spaces fun _ => .andThen (moved_content _) fun _ =>
      .andThen (moved_literal _) fun _ =>
    moved_token (.instruction target _) (fun _ => rfl) hstart

lemma moved_cdata : Moved k (Follows k) cdata cdata :=
  .bind moved_offset fun _ _ hstart => .andThen (moved_skip _) fun _ =>
    .andThen (moved_content _) fun _ =>
    .andThen (moved_literal _) fun _ => moved_token (.cdata _) (fun _ => rfl) hstart

lemma moved_tagOpen : Moved k (Follows k) tagOpen tagOpen :=
  .bind moved_offset fun _ _ hstart => .andThen (moved_skip _) fun _ =>
    .andThen moved_qualifiedName fun tag =>
    moved_token (.tagOpen tag) (fun _ => rfl) hstart

lemma moved_endTag : Moved k (Follows k) endTag endTag :=
  .bind moved_offset fun _ _ hstart => .andThen (moved_skip _) fun _ =>
    .andThen moved_qualifiedName fun tag =>
    .andThen moved_spaces fun _ => .andThen (moved_char _) fun _ =>
    moved_token (.endTag tag) (fun _ => rfl) hstart

lemma moved_text : Moved k (Follows k) Scan.text Scan.text :=
  .bind moved_offset fun _ _ hstart => .andThen (moved_content _) fun _ =>
    .guarded (moved_token (.text _) (fun _ => rfl) hstart)

lemma moved_tagAttribute : Moved k (Follows k) tagAttribute tagAttribute :=
  .bind moved_offset fun start start' hstart => .andThen moved_qualifiedName fun key =>
    .bind (moved_spanFrom hstart) fun nameSpan nameSpan' hname => .andThen moved_equals fun _ =>
    .andThen moved_quote fun mark => .bind moved_offset fun valueStart valueStart' hvalue =>
    .andThen (moved_content _) fun _ =>
    .bind (moved_spanFrom hvalue) fun valueSpan valueSpan' hvalueSpan =>
      .andThen (moved_char mark) fun _ =>
    .bind (moved_spanFrom hstart) fun span span' hspan => moved_pure (by
      rw [Follows, hname, hvalueSpan, hspan]
      rfl)

lemma moved_tagPartFrom (first : Char) (o o' : Nat) :
    Moved k (Follows k) (tagPartFrom first o) (tagPartFrom first o') := by
  refine .andThen moved_spaces fun _ => .bind moved_offset fun start start' hstart =>
    .andThen moved_peek fun found => ?_
  split
  · exact .andThen (moved_skip 1) fun _ => .andThen (moved_char '>') fun _ =>
      moved_token .tagSelfClose (fun _ => rfl) hstart
  · exact .andThen (moved_skip 1) fun _ => moved_token .tagClose (fun _ => rfl) hstart
  · exact .ite moved_tagAttribute moved_stop

lemma moved_tagPart {c c' : Cursor} {t : Option Token} (hrest : c.rest ≠ [])
    (h : tagPart c = .ok (t, c')) :
    tagPart (c.moved k) = .ok (t.map (·.moved k), c'.moved k) := by
  obtain ⟨x, r, hx⟩ := List.exists_cons_of_ne_nil hrest
  have hx' : (c.moved k).rest = x :: r := hx
  rw [tagPart_eq hx] at h
  obtain ⟨t', ht', rfl⟩ := moved_tagPartFrom x c.offset (c.moved k).offset c t c' h
  rw [tagPart_eq hx', ht']

/-! ### Kinds of tokens -/

lemma token_yields {token : Span → Token} {P : Option Token → Prop}
    (h : ∀ span, P (some (token span)))
    (start : Nat) : (do return some (token (← spanFrom start)) : Scan (Option Token)).Yields P :=
  .andThen (spanFrom_advances start) fun span => .pure (h span)

lemma comment_yields : comment.Yields fun t => ∃ content span, t = some (.comment content span) :=
  .andThen offset_advances fun start => .andThen (skip_advances _) fun _ =>
    .andThen (content_advances _) fun _ => .andThen (literal_advances _) fun _ =>
    .guarded (.guarded (token_yields (fun span => ⟨_, span, rfl⟩) start))

lemma instruction_yields : instruction.Yields fun t =>
    ∃ target data span, t = some (.instruction target data span) :=
  .andThen offset_advances fun start => .andThen (skip_advances _) fun _ =>
    .andThen name_advances fun _ =>
    .andThen spaces_advances fun _ => .andThen (content_advances _) fun _ =>
    .andThen (literal_advances _) fun _ => token_yields (fun span => ⟨_, _, span, rfl⟩) start

lemma cdata_yields : cdata.Yields fun t => ∃ content span, t = some (.cdata content span) :=
  .andThen offset_advances fun start => .andThen (skip_advances _) fun _ =>
    .andThen (content_advances _) fun _ => .andThen (literal_advances _) fun _ =>
    token_yields (fun span => ⟨_, span, rfl⟩) start

lemma tagOpen_yields : tagOpen.Yields fun t => ∃ name span, t = some (.tagOpen name span) :=
  .andThen offset_advances fun start => .andThen (skip_advances _) fun _ =>
    .andThen qualifiedName_advances fun _ => token_yields (fun span => ⟨_, span, rfl⟩) start

lemma endTag_yields : endTag.Yields fun t => ∃ name span, t = some (.endTag name span) :=
  .andThen offset_advances fun start => .andThen (skip_advances _) fun _ =>
    .andThen qualifiedName_advances fun _ => .andThen spaces_advances fun _ =>
    .andThen (char_advances _) fun _ => token_yields (fun span => ⟨_, span, rfl⟩) start

lemma text_yields : Scan.text.Yields fun t => ∃ content span, t = some (.text content span) :=
  .andThen offset_advances fun start => .andThen (content_advances _) fun _ =>
    .guarded (token_yields (fun span => ⟨_, span, rfl⟩) start)

/-- A text token begins where it is read. -/
lemma text_start {c c' : Cursor} {t : Option Token} (h : Scan.text c = .ok (t, c')) :
    ∃ content stop, t = some (.text content ⟨c.offset, stop⟩) := by
  obtain ⟨start, _, ⟨⟩, h⟩ := bind_ok h
  obtain ⟨cs, c₁, -, h⟩ := bind_ok h
  split_ifs at h
  · cases h
  · cases h
    exact ⟨_, _, rfl⟩

end Scan

/-! ## Depths -/

/-- The number of open start tags behind a token, as the scanner counts them: by number alone. -/
def Token.depthBehind (depth : Nat) : Token → Nat
  | .tagClose _ => depth + 1
  | .endTag _ _ => depth - 1
  | _ => depth

/-- The number of open start tags behind some tokens. -/
def depthBehind (depth : Nat) (tokens : List Token) : Nat :=
  tokens.foldl Token.depthBehind depth

/-- Whether a token may also stand behind the document element. -/
def Token.isMisc : Token → Bool
  | .comment _ _ | .instruction _ _ _ => true
  | _ => false

/-- Whether tokens can be read behind one end tag more: where fewer than two start tags are open,
the document would be over then, and only comments and instructions can come. -/
def sparesEndTag (depth : Nat) : List Token → Bool
  | [] => true
  | t :: more => (decide (2 ≤ depth) || t.isMisc) && sparesEndTag (t.depthBehind depth) more

/-- Where tokens do not spare an end tag there is a first that does not. -/
lemma exists_unspared {depth : Nat} {tokens : List Token} (h : sparesEndTag depth tokens = false) :
    ∃ xs t ys, tokens = xs ++ t :: ys ∧ sparesEndTag depth xs = true ∧ depthBehind depth xs < 2 ∧
      t.isMisc = false := by
  induction tokens generalizing depth with
  | nil => cases h
  | cons t tokens ih =>
      rw [sparesEndTag, Bool.and_eq_false_iff] at h
      by_cases hspared : (decide (2 ≤ depth) || t.isMisc) = true
      · obtain ⟨xs, t', ys, rfl, hxs, hdepth, hmisc⟩ :=
          ih (h.resolve_left (by rw [hspared]; decide))
        refine ⟨t :: xs, t', ys, rfl, ?_, hdepth, hmisc⟩
        rw [sparesEndTag, hspared, hxs]
        rfl
      · rw [Bool.or_eq_true, not_or, decide_eq_true_eq, Bool.not_eq_true] at hspared
        exact ⟨[], t, tokens, rfl, rfl, by rw [depthBehind, List.foldl_nil]; omega, hspared.2⟩

namespace ScanState

variable {s s' s₁ : ScanState} {t : Option Token} {text : List Char} {k : Nat}

/-! ### Counting -/

/-- Whether a step leads to a given depth, if it does not fail. -/
def LeadsTo (depth : Nat) (r : StepResult) : Prop :=
  ∀ t s', r = .ok (t, s') → s'.depth = depth

lemma leadsTo_error {depth : Nat} {fault : Fault} : LeadsTo depth (.error fault) := by
  rintro _ _ ⟨⟩

lemma leadsTo_ok : LeadsTo s.depth (.ok (t, s)) := by
  rintro _ _ ⟨⟩
  rfl

lemma read_leadsTo (what : Construct) (scan : Scan (Option Token)) :
    LeadsTo s.depth (s.read what scan) := by
  intro t s' h
  rw [read_of_ok what (read_eq_ok h), Except.ok.injEq, Prod.mk.injEq] at h
  rw [← h.2]

lemma misc_leadsTo {other : StepResult} (ho : LeadsTo s.depth other) :
    LeadsTo s.depth (s.misc other) := by
  rw [misc]
  split_ifs
  · exact read_leadsTo _ _
  · exact leadsTo_error
  · exact read_leadsTo _ _
  · exact leadsTo_ok (s := s.movedTo _)
  · exact ho

/-- Before the document element nothing is open. -/
lemma step_head_leadsTo (h : s.mode.phase = .head) : LeadsTo s.depth s.step := by
  rw [step]
  split
  · split_ifs
    · exact read_leadsTo (s := s.into .prolog) _ _
    · exact leadsTo_ok (s := s.into .prolog)
  · rw [stepProlog]
    split_ifs
    · have hread := read_leadsTo (s := s) .doctype Scan.doctype
      split
      · rename_i heq
        rintro _ _ ⟨⟩
        have hdepth := hread _ _ heq
        exact hdepth
      · exact hread
    · exact misc_leadsTo (leadsTo_ok (s := s.into .beforeRoot))
  · rw [stepSubset]
    split_ifs
    · exact read_leadsTo _ _
    · exact read_leadsTo (s := s.into .beforeRoot) _ _
    · rw [skipDeclaration]
      split_ifs
      · exact leadsTo_ok (s := s.movedTo _)
      · exact leadsTo_error
    · exact misc_leadsTo leadsTo_error
  · rw [stepBeforeRoot]
    refine misc_leadsTo ?_
    split_ifs
    · exact leadsTo_error
    · exact read_leadsTo (s := s.into .insideTag) _ _
    · exact leadsTo_error
  all_goals
    rename_i hmode
    rw [hmode] at h
    cases h

/-- Whether a step counts start tags as they are counted among tokens. -/
def Counts (depth : Nat) (r : StepResult) : Prop :=
  ∀ t s', r = .ok (t, s') → s'.depth = depthBehind depth t.toList

/-- A construct that is read after its tag has been counted. -/
lemma read_counts {scan : Scan (Option Token)} {P : Option Token → Prop} {depth : Nat}
    (what : Construct)
    (hscan : scan.Yields P) (h : ∀ t, P t → s.depth = depthBehind depth t.toList) :
    Counts depth (s.read what scan) := by
  intro t s' hread
  rw [read_leadsTo what scan t s' hread]
  exact h t (hscan _ t _ (read_eq_ok hread)).2

lemma counts_error {depth : Nat} {fault : Fault} : Counts depth (.error fault) := by
  rintro _ _ ⟨⟩

lemma misc_counts {other : StepResult} (ho : Counts s.depth other) :
    Counts s.depth (s.misc other) := by
  rw [misc]
  split_ifs
  · exact read_counts _ Scan.comment_yields (by rintro _ ⟨_, _, rfl⟩; rfl)
  · exact counts_error
  · exact read_counts _ Scan.instruction_yields (by rintro _ ⟨_, _, _, rfl⟩; rfl)
  · rintro _ _ ⟨⟩
    rfl
  · exact ho

lemma stepContent_counts : Counts s.depth s.stepContent := by
  rw [stepContent]
  dsimp only
  split_ifs
  · exact read_counts _ Scan.comment_yields (by rintro _ ⟨_, _, rfl⟩; rfl)
  · exact read_counts _ Scan.cdata_yields (by rintro _ ⟨_, _, rfl⟩; rfl)
  · exact counts_error
  · exact read_counts _ Scan.instruction_yields (by rintro _ ⟨_, _, _, rfl⟩; rfl)
  · exact read_counts _ Scan.endTag_yields (by rintro _ ⟨_, _, rfl⟩; rfl)
  · exact counts_error
  · exact read_counts _ Scan.tagOpen_yields (by rintro _ ⟨_, _, rfl⟩; rfl)
  · exact read_counts _ Scan.text_yields (by rintro _ ⟨_, _, rfl⟩; rfl)

lemma stepInsideTag_counts : Counts s.depth s.stepInsideTag := by
  have hread := read_leadsTo (s := s) .attribute Scan.tagPart
  rw [stepInsideTag]
  split
  · rename_i heq
    rintro _ _ ⟨⟩
    rfl
  · rename_i heq
    rintro _ _ ⟨⟩
    have hdepth := hread _ _ heq
    exact hdepth
  · rename_i hclose _
    intro t s' h
    rw [hread t s' h]
    cases t with
    | none => rfl
    | some x =>
        rcases exists_blanks_of_tagPart (read_eq_ok h) with
          ⟨_, _, _, _, _, rfl⟩ | ⟨_, _, -, -, hend⟩
        · rfl
        · cases hend with
          | close => exact absurd h (hclose _ _)
          | selfClose => rfl

/-- **Start tags are counted by number alone.** -/
theorem step_counts (hs : s.Within text) : Counts s.depth s.step := by
  intro t s' h
  obtain ⟨-, -, hleads, -⟩ := step_orderly hs _ _ h
  have hhead (hphase : s.mode.phase = .head) : s'.depth = depthBehind s.depth t.toList := by
    rw [step_head_leadsTo hphase t s' h]
    rw [hphase] at hleads
    cases t with
    | none => rfl
    | some x => cases x <;> first | rfl | cases hleads.2
  cases hmode : s.mode with
  | declaration | prolog | subset | beforeRoot =>
      exact hhead (by rw [hmode]; rfl)
  | content =>
      rw [step, hmode] at h
      exact stepContent_counts t s' h
  | insideTag =>
      rw [step, hmode] at h
      exact stepInsideTag_counts t s' h
  | epilog =>
      rw [step, hmode] at h
      exact misc_counts counts_error t s' h

lemma RunsTo.depth_eq {tokens : List Token} (h : s.RunsTo tokens s') (hs : s.Within text) :
    s'.depth = depthBehind s.depth tokens := by
  induction h with
  | refl s => rfl
  | step hrest hstep hless more ih =>
      obtain ⟨-, hin, -, -⟩ := step_orderly hs _ _ hstep
      rw [ih hin, step_counts hs _ _ hstep, depthBehind, depthBehind, depthBehind,
        ← List.foldl_append]

/-! ## One start tag less -/

/-- Whether a state is another one further on, where one start tag less is counted as open. -/
structure Lowered (k : Nat) (s s' : ScanState) : Prop where
  cursor : s'.cursor = s.cursor.moved k
  depth : s.depth = s'.depth + 1
  mode : s'.mode = s.mode ∧ (s.mode = .content ∨ s.mode = .insideTag) ∧ 0 < s'.depth ∨
    s.mode = .content ∧ s'.mode = .epilog ∧ s'.depth = 0

/-- Inside an element, one start tag less makes the same state or the end of the document. -/
lemma lowered_afterTag {c : Cursor} {depth : Nat} :
    Lowered k ⟨.content, depth + 1, c⟩ ⟨afterTag depth, depth, c.moved k⟩ := by
  refine ⟨rfl, rfl, ?_⟩
  cases depth with
  | zero => exact .inr ⟨rfl, rfl, rfl⟩
  | succ depth => exact .inl ⟨rfl, .inl rfl, Nat.succ_pos depth⟩

/-- A construct is read further on, too. -/
lemma read_moved {scan : Scan (Option Token)} {what : Construct}
    (hscan : Scan.Moved k (Scan.Follows k) scan scan) (hc : s'.cursor = s.cursor.moved k)
    (h : s.read what scan = .ok (t, s₁)) :
    s'.read what scan = .ok (t.map (·.moved k), s'.movedTo (s₁.cursor.moved k)) := by
  obtain ⟨t', ht', rfl⟩ := hscan _ t _ (read_eq_ok h)
  rw [← hc] at ht'
  exact read_of_ok what ht'

/-- Whether a step has a counterpart further on, with one start tag less. -/
def HasLowered (k : Nat) (r r' : StepResult) : Prop :=
  ∀ t s₁, r = .ok (t, s₁) → ∃ s₁', r' = .ok (t.map (·.moved k), s₁') ∧ Lowered k s₁ s₁'

lemma hasLowered_error {fault : Fault} {r' : StepResult} : HasLowered k (.error fault) r' := by
  rintro _ _ ⟨⟩

lemma read_lowered {scan : Scan (Option Token)} {what : Construct}
    (hscan : Scan.Moved k (Scan.Follows k) scan scan) (h : Lowered k s s') :
    HasLowered k (s.read what scan) (s'.read what scan) := by
  intro t s₁ hread
  have hmoved := read_moved hscan h.cursor hread
  rw [read_of_ok what (read_eq_ok hread), Except.ok.injEq, Prod.mk.injEq] at hread
  refine ⟨_, hmoved, ?_⟩
  rw [← hread.2]
  exact ⟨rfl, h.depth, h.mode⟩

lemma stepContent_lowered (h : Lowered k s s') (hdepth : 0 < s'.depth) :
    HasLowered k s.stepContent s'.stepContent := by
  have hstarts (text : String) : s'.cursor.startsWith text = s.cursor.startsWith text := by
    rw [h.cursor]
    rfl
  have hrest : s'.cursor.rest = s.cursor.rest := by
    rw [h.cursor]
    rfl
  rw [stepContent, stepContent]
  dsimp only
  rw [hstarts, hstarts, hstarts, hstarts, hstarts, hstarts, hstarts, hrest]
  split_ifs
  · exact read_lowered Scan.moved_comment h
  · exact read_lowered Scan.moved_cdata h
  · exact hasLowered_error
  · exact read_lowered Scan.moved_instruction h
  · refine read_lowered Scan.moved_endTag ?_
    obtain ⟨depth, hsucc⟩ : ∃ depth, s'.depth = depth + 1 := ⟨s'.depth - 1, by omega⟩
    have hbehind : Lowered k ⟨.content, depth + 1, s.cursor⟩
        ⟨afterTag depth, depth, s.cursor.moved k⟩ :=
      lowered_afterTag
    rw [h.depth, hsucc, h.cursor]
    exact hbehind
  · exact hasLowered_error
  · have hinside : Lowered k (s.into .insideTag) (s'.into .insideTag) :=
      ⟨h.cursor, h.depth, .inl ⟨rfl, .inr rfl, hdepth⟩⟩
    exact read_lowered Scan.moved_tagOpen hinside
  · exact read_lowered Scan.moved_text h

lemma stepInsideTag_lowered (h : Lowered k s s') (hmode : s.mode = .insideTag)
    (hrest : s.cursor.rest ≠ []) :
    HasLowered k s.stepInsideTag s'.stepInsideTag := by
  obtain ⟨hcursor, hdepth, ⟨hmode', -, hpos⟩ | ⟨hcontent, -, -⟩⟩ := h
  · have hafter : afterTag s.depth = .content ∧ afterTag s'.depth = .content :=
      ⟨if_neg (by omega), if_neg (by omega)⟩
    have hread {t : Option Token} {s₁ : ScanState}
        (hread : s.read .attribute Scan.tagPart = .ok (t, s₁)) :
        ∃ c, s₁ = s.movedTo c ∧ s'.read .attribute Scan.tagPart =
          .ok (t.map (·.moved k), s'.movedTo (c.moved k)) := by
      have hscan := read_eq_ok hread
      have hmoved := Scan.moved_tagPart (k := k) hrest hscan
      rw [read_of_ok .attribute hscan, Except.ok.injEq, Prod.mk.injEq] at hread
      rw [← hcursor] at hmoved
      exact ⟨_, hread.2.symm, read_of_ok .attribute hmoved⟩
    intro t s₁ hstep
    rw [stepInsideTag] at hstep ⊢
    split at hstep
    · rename_i heq
      obtain ⟨c, rfl, hmoved⟩ := hread heq
      cases hstep
      rw [hmoved]
      exact ⟨_, rfl, rfl, by rw [hdepth], .inl ⟨rfl, .inl rfl, Nat.succ_pos _⟩⟩
    · rename_i heq
      obtain ⟨c, rfl, hmoved⟩ := hread heq
      cases hstep
      rw [hmoved]
      exact ⟨_, rfl, rfl, hdepth, .inl ⟨hafter.2.trans hafter.1.symm, .inl hafter.1, hpos⟩⟩
    · rename_i hclose hself
      obtain ⟨c, rfl, hmoved⟩ := hread hstep
      rw [hmoved]
      refine ⟨s'.movedTo (c.moved k), ?_, rfl, hdepth, .inl ⟨hmode', .inr hmode, hpos⟩⟩
      cases t with
      | none => rfl
      | some x =>
          cases x with
          | tagClose span => exact absurd hstep (hclose span _)
          | tagSelfClose span => exact absurd hstep (hself span _)
          | _ => rfl
  · rw [hmode] at hcontent
    cases hcontent

/-- Behind the document element a comment or an instruction is read as it is inside an element. -/
lemma stepContent_misc (h : Lowered k s s') (hmisc : ∀ x ∈ t, x.isMisc = true)
    (hstep : s.stepContent = .ok (t, s₁)) :
    ∃ s₁', s'.misc s'.refuse = .ok (t.map (·.moved k), s₁') ∧ Lowered k s₁ s₁' := by
  have hstarts (text : String) : s'.cursor.startsWith text = s.cursor.startsWith text := by
    rw [h.cursor]
    rfl
  rw [stepContent] at hstep
  dsimp only at hstep
  rw [misc, hstarts, hstarts, hstarts]
  split_ifs at hstep with h₁ h₂ h₃ h₄
  · rw [if_pos h₁]
    exact read_lowered Scan.moved_comment h _ _ hstep
  · obtain ⟨-, _, _, rfl⟩ := Scan.cdata_yields _ _ _ (read_eq_ok hstep)
    cases hmisc _ rfl
  · cases hstep
  · rw [Bool.or_eq_true, not_or] at h₃
    rw [if_neg h₁, if_neg h₃.2, if_pos h₄]
    exact read_lowered Scan.moved_instruction h _ _ hstep
  · obtain ⟨-, _, _, rfl⟩ := Scan.endTag_yields _ _ _ (read_eq_ok hstep)
    cases hmisc _ rfl
  · cases hstep
  · obtain ⟨-, _, _, rfl⟩ := Scan.tagOpen_yields _ _ _ (read_eq_ok hstep)
    cases hmisc _ rfl
  · obtain ⟨-, _, _, rfl⟩ := Scan.text_yields _ _ _ (read_eq_ok hstep)
    cases hmisc _ rfl

/-- **A step that spares an end tag has a counterpart behind one more.** -/
theorem step_lowered (h : Lowered k s s') (hrest : s.cursor.rest ≠ [])
    (hspares : 2 ≤ s.depth ∨ ∀ x ∈ t, x.isMisc = true) (hstep : s.step = .ok (t, s₁)) :
    ∃ s₁', s'.step = .ok (t.map (·.moved k), s₁') ∧ Lowered k s₁ s₁' := by
  rcases h.mode with ⟨hsame, hmode | hmode, hdepth⟩ | ⟨hmode, hover, hdepth⟩
  · rw [step, hmode] at hstep
    rw [step, hsame, hmode]
    exact stepContent_lowered h hdepth _ _ hstep
  · rw [step, hmode] at hstep
    rw [step, hsame, hmode]
    exact stepInsideTag_lowered h hmode hrest _ _ hstep
  · rw [step, hmode] at hstep
    rw [step, hover]
    refine stepContent_misc h ?_ hstep
    rcases hspares with hspares | hmisc
    · rw [h.depth, hdepth] at hspares
      exact absurd hspares (by decide)
    · exact hmisc

lemma sparesEndTag_append {depth : Nat} {tokens more : List Token} :
    sparesEndTag depth (tokens ++ more) =
      (sparesEndTag depth tokens && sparesEndTag (depthBehind depth tokens) more) := by
  induction tokens generalizing depth with
  | nil => rfl
  | cons t tokens ih =>
      rw [List.cons_append, sparesEndTag, sparesEndTag, ih, Bool.and_assoc]
      rfl

/-- **What is read behind one end tag more is read alike**, as long as it spares that tag. -/
theorem RunsTo.lowered {tokens : List Token} (hrun : s.RunsTo tokens s₁) (hs : s.Within text)
    (h : Lowered k s s') (hspares : sparesEndTag s.depth tokens = true) :
    ∃ s₁', s'.RunsTo (tokens.map (·.moved k)) s₁' ∧ Lowered k s₁ s₁' := by
  induction hrun generalizing s' with
  | refl s => exact ⟨s', .refl s', h⟩
  | @step s s₂ s₁ t tokens hrest hstep hless more ih =>
      rw [sparesEndTag_append, Bool.and_eq_true] at hspares
      obtain ⟨hnow, hmore⟩ := hspares
      have hspare : 2 ≤ s.depth ∨ ∀ x ∈ t, x.isMisc = true := by
        cases t with
        | none => exact .inr (by rintro x ⟨⟩)
        | some x =>
            have hx : (decide (2 ≤ s.depth) || x.isMisc) =
                true := by simpa [sparesEndTag] using hnow
            rw [Bool.or_eq_true, decide_eq_true_eq] at hx
            exact hx.imp_right fun hmisc y hy => by
              cases hy
              exact hmisc
      obtain ⟨s₂', hstep', h₂⟩ := step_lowered h hrest hspare hstep
      rw [← step_counts hs _ _ hstep] at hmore
      obtain ⟨s₁', hrun', h₁⟩ := ih (step_orderly hs _ _ hstep).2.1 h₂ hmore
      have hrest' : s'.cursor.rest ≠ [] := by
        rw [h.cursor]
        exact hrest
      have htokens : (t.toList ++ tokens).map (·.moved k) =
          (t.map (·.moved k)).toList ++ tokens.map (·.moved k) := by
        rw [List.map_append]
        cases t <;> rfl
      rw [htokens]
      exact ⟨s₁', .step hrest' hstep' (stepsLeft_step_lt hrest' hstep') hrun', h₁⟩

end ScanState

end XmlAdvisor
