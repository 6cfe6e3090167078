import XmlAdvisor.Proofs.TagRuns

/-!
# Tags wherever they stand

Where a text stands is kept in spans and in causes, and nowhere else does it have an effect on what
is read. So the same text is read alike at two places: both scans give the same names and values, or
both stop.

* `Scan.Matching` — two scans of the same text give what is related, or both stop.  It is put
  together step by step (`Matching.bind`).
* `ScanState.exists_step_endTag` — the step through an end tag.
* `saidFirst` — the names and values of the attributes that come next among tokens;
  **`ScanState.saidFirst_scan`** — they are the same wherever the rest of a tag stands.
-/

namespace XmlAdvisor

namespace Scan

variable {α β γ δ : Type}

/-! ## Two scans of one text -/

/-- Whether two outcomes are related values in front of the same text, or both causes. -/
inductive Outcomes (R : α → β → Prop) :
    Except Cause (α × Cursor) → Except Cause (β × Cursor) → Prop
  | ok {a : α} {b : β} {c d : Cursor} (related : R a b) (rest : c.rest = d.rest) :
      Outcomes R (.ok (a, c)) (.ok (b, d))
  | error {cause cause' : Cause} : Outcomes R (.error cause) (.error cause')

/-- Whether two scans give what is related of the same text, wherever it stands, or both stop. -/
def Matching (R : α → β → Prop) (m : Scan α) (m' : Scan β) : Prop :=
  ∀ c d, c.rest = d.rest → Outcomes R (m c) (m' d)

lemma bind_of_error {m : Scan α} {f : α → Scan β} {c : Cursor} {cause : Cause}
    (h : m c = .error cause) : (m >>= f) c = .error cause := by
  simp only [Bind.bind, StateT.bind, h]
  rfl

lemma Matching.bind {R : α → β → Prop} {S : γ → δ → Prop} {m : Scan α} {m' : Scan β}
    {f : α → Scan γ} {f' : β → Scan δ} (hm : Matching R m m')
    (hf : ∀ a b, R a b → Matching S (f a) (f' b)) : Matching S (m >>= f) (m' >>= f') := by
  intro c d hcd
  have h := hm c d hcd
  generalize hc : m c = r at h
  generalize hd : m' d = r' at h
  cases h with
  | ok related rest =>
      rw [bind_of_ok hc, bind_of_ok hd]
      exact hf _ _ related _ _ rest
  | error =>
      rw [bind_of_error hc, bind_of_error hd]
      exact .error

/-- Two scans of which the first steps give the same. -/
lemma Matching.andThen {S : γ → δ → Prop} {m : Scan α} {f : α → Scan γ} {f' : α → Scan δ}
    (hm : Matching Eq m m) (hf : ∀ a, Matching S (f a) (f' a)) : Matching S (m >>= f) (m >>= f') :=
  hm.bind fun a _ heq => heq ▸ hf a

lemma matching_pure {R : α → β → Prop} {a : α} {b : β} (h : R a b) :
    Matching R (pure a : Scan α) (pure b) :=
  fun _ _ hcd => .ok h hcd

lemma matching_stop {R : α → β → Prop} (cause cause' : Cause) :
    Matching R (stop cause : Scan α) (stop cause') :=
  fun _ _ _ => .error

lemma Matching.ite {R : α → β → Prop} {p : Prop} [Decidable p] {m n : Scan α} {m' n' : Scan β}
    (h : Matching R m m') (h' : Matching R n n') :
    Matching R (if p then m else n) (if p then m' else n') := by
  split_ifs
  · exact h
  · exact h'

/-! ### Reading steps -/

lemma matching_offset : Matching (fun _ _ => True) offset offset :=
  fun _ _ hcd => .ok trivial hcd

lemma matching_peek : Matching Eq peek peek :=
  fun _ _ hcd => .ok (congrArg List.head? hcd) hcd

lemma matching_skip (n : Nat) : Matching Eq (skip n) (skip n) :=
  fun _ _ hcd => .ok rfl (congrArg (List.drop n) hcd)

lemma matching_run (p : Char → Bool) : Matching Eq (run p) (run p) := by
  intro c d hcd
  have hread (c : Cursor) : run p c =
      .ok (c.rest.takeWhile p, c.advance (c.rest.takeWhile p).length) := rfl
  rw [hread, hread]
  refine .ok (by rw [hcd]) ?_
  simp only [Cursor.advance, hcd]

lemma matching_spaces : Matching Eq spaces spaces :=
  .andThen (matching_run _) fun _ => matching_pure rfl

/-- Where two scans stop for what comes next, the causes may differ by the place. -/
lemma matching_stopHere {R : α → β → Prop} (cause : Nat → Cause) :
    Matching R (do stop (cause (← offset)) : Scan α) (do stop (cause (← offset))) :=
  .bind matching_offset fun _ _ _ => matching_stop _ _

lemma matching_char (x : Char) : Matching Eq (char x) (char x) := by
  refine .andThen matching_peek fun found => ?_
  cases found with
  | none => exact matching_stop _ _
  | some y => exact .ite (matching_skip 1) (matching_stopHere _)

lemma matching_quote : Matching Eq quote quote := by
  refine .andThen matching_peek fun found => ?_
  cases found with
  | none => exact matching_stop _ _
  | some y =>
      exact .ite (.andThen (matching_skip 1) fun _ => matching_pure rfl) (matching_stopHere _)

lemma matching_equals : Matching Eq equals equals :=
  .andThen matching_spaces fun _ => .andThen (matching_char _) fun _ => matching_spaces

lemma matching_qualifiedName : Matching Eq qualifiedName qualifiedName :=
  .andThen (matching_run _) fun _ => .ite (matching_stop _ _) (matching_pure rfl)

/-- A character that no document may contain stops the reading at both places. -/
lemma contentUntil_placed (last : List Char → Bool) (o o' : Nat) (cs : List Char) :
    contentUntil last o cs = contentUntil last o' cs ∨
      (∃ cause, contentUntil last o cs = .error cause) ∧
        ∃ cause, contentUntil last o' cs = .error cause := by
  induction cs generalizing o o' with
  | nil => exact .inl rfl
  | cons c cs ih =>
      rw [contentUntil, contentUntil]
      split_ifs
      · exact .inr ⟨⟨_, rfl⟩, ⟨_, rfl⟩⟩
      · exact .inl rfl
      · rcases ih (o + 1) (o' + 1) with heq | ⟨⟨cause, h⟩, ⟨cause', h'⟩⟩
        · rw [heq]
          exact .inl rfl
        · rw [h, h']
          exact .inr ⟨⟨cause, rfl⟩, ⟨cause', rfl⟩⟩

lemma matching_content (last : List Char → Bool) : Matching Eq (content last) (content last) := by
  intro c d hcd
  have hread (c : Cursor) : content last c = match contentUntil last c.offset c.rest with
      | .ok cs => .ok (cs, c.advance cs.length)
      | .error cause => .error cause := by
    rw [content, bind_of_ok (a := c) rfl]
    cases h : contentUntil last c.offset c.rest with
    | error cause => rfl
    | ok cs => rfl
  rw [hread, hread, hcd]
  rcases contentUntil_placed last c.offset d.offset d.rest with heq | ⟨⟨cause, h⟩, ⟨cause', h'⟩⟩
  · rw [heq]
    cases contentUntil last d.offset d.rest with
    | error cause => exact .error
    | ok cs =>
        refine .ok rfl ?_
        simp only [Cursor.advance, hcd]
  · rw [h, h']
    exact .error

lemma matching_spanFrom (start start' : Nat) :
    Matching (fun span span' => span.start = start ∧ span'.start = start') (spanFrom start)
      (spanFrom start') :=
  .bind matching_offset fun _ _ _ => matching_pure ⟨rfl, rfl⟩

/-! ## End tags -/

/-- An end tag that begins at an offset, behind its first characters. -/
def endTagFrom (start : Nat) : Scan (Option Token) := do
  skip "</".length
  let tag ← qualifiedName
  spaces
  char '>'
  return some (.endTag tag (← spanFrom start))

lemma endTag_eq (c : Cursor) : endTag c = endTagFrom c.offset c :=
  rfl

lemma matching_endTagFrom (start start' : Nat) :
    Matching (fun t t' => ∃ name stop stop', t = some (.endTag name ⟨start, stop⟩) ∧
      t' = some (.endTag name ⟨start', stop'⟩)) (endTagFrom start) (endTagFrom start') := by
  refine .andThen (matching_skip _) fun _ => .andThen matching_qualifiedName fun name =>
    .andThen matching_spaces fun _ => .andThen (matching_char _) fun _ =>
    .bind (matching_spanFrom start start') fun span span' hspans => matching_pure ?_
  obtain ⟨rfl, rfl⟩ := hspans
  exact ⟨name, span.stop, span'.stop, rfl, rfl⟩

/-- An end tag reads the same name wherever it stands. -/
lemma endTag_placed {c c' : Cursor} {name : QualifiedName} {span : Span}
    (h : endTag c = .ok (some (.endTag name span), c')) (o : Nat) : span.start = c.offset ∧
      ∃ stop d, endTag ⟨o, c.rest⟩ = .ok (some (.endTag name ⟨o, stop⟩), d) := by
  have hmatch := matching_endTagFrom c.offset o c ⟨o, c.rest⟩ rfl
  rw [← endTag_eq, h] at hmatch
  have hplaced : endTag ⟨o, c.rest⟩ = endTagFrom o ⟨o, c.rest⟩ := endTag_eq _
  rw [hplaced]
  generalize endTagFrom o ⟨o, c.rest⟩ = outcome at hmatch
  cases hmatch with
  | ok related rest =>
      obtain ⟨n, stop, stop', heq, rfl⟩ := related
      cases heq
      exact ⟨rfl, stop', _, rfl⟩

end Scan

/-- What is read as an end tag is one. -/
lemma Read.endTag_eq {text : List Char} {c c' : Cursor} {name : QualifiedName} {span : Span}
    (h : Read c (some (.endTag name span)) c') (hc : c.ReadsFrom text)
    (hinside : c.offset ≤ text.length) :
    c.startsWith "</" = true ∧ Scan.endTag c = .ok (some (.endTag name span), c') := by
  have hhead {scan : Scan (Option Token)} {phase : Phase}
      (hscan : scan.Covers text (Scan.Leads .head phase))
      (h : scan c = .ok (some (.endTag name span), c')) : False := by
    obtain ⟨-, -, -, hleads, -⟩ := hscan c _ c' hc hinside h
    cases hleads.2
  -- no end tag would be marked in the empty text
  have hshown {scan : Scan (Option Token)} (hscan : scan.Yields (Scan.Shown []))
      (h : scan c = .ok (some (.endTag name span), c')) : False := by
    obtain ⟨hbegins, -⟩ := (hscan c _ c' h).2 (.endTag name span) rfl
    rw [List.drop_nil, List.prefix_nil] at hbegins
    cases hbegins
  cases h with
  | skipped h => cases h
  | comment h => exact (hhead (Scan.comment_covers (by decide)) h).elim
  | instruction h => exact (hhead (Scan.instruction_covers (by decide)) h).elim
  | doctype h => exact (hhead Scan.doctype_covers h).elim
  | subsetEnd h => exact (hhead Scan.subsetEnd_covers h).elim
  | tagOpen _ h => exact (hhead (Scan.tagOpen_covers (by decide)) h).elim
  | cdata h => exact (hshown Scan.cdata_shown h).elim
  | text _ h => exact (hshown Scan.text_shown h).elim
  | tagPart h => exact (Scan.tagPart_covers c _ c' hc hinside h).2.2.2.1.elim
  | endTag hopens h => exact ⟨hopens, h⟩

namespace ScanState

/-- The step through an end tag inside an element. -/
lemma step_endTag {o depth : Nat} {more : List Char} {t : Option Token} {d : Cursor}
    (h : Scan.endTag ⟨o, '<' :: '/' :: more⟩ = .ok (t, d)) :
    (⟨.content, depth, ⟨o, '<' :: '/' :: more⟩⟩ : ScanState).step =
      .ok (t, ⟨afterTag (depth - 1), depth - 1, d⟩) := by
  rw [step]
  dsimp only
  rw [stepContent, if_neg (by simp [Cursor.startsWith]), if_neg (by simp [Cursor.startsWith]),
    if_neg (by simp [Cursor.startsWith]), if_neg (by simp [Cursor.startsWith]),
    if_pos (by simp [Cursor.startsWith])]
  exact read_of_ok .element h

/-- **The end tag of an element is read wherever the same text stands** inside an element. -/
theorem exists_step_endTag {text : List Char} {name : QualifiedName} {span : Span}
    (h : .endTag name span ∈ (scanAll text).1) (depth o : Nat) :
    (text.drop span.start).head? = some '<' ∧ ∃ stop s',
      (⟨.content, depth, ⟨o, text.drop span.start⟩⟩ : ScanState).step =
        .ok (some (.endTag name ⟨o, stop⟩), s') := by
  obtain ⟨c, c', hc, hrest, hread⟩ := read_of_mem_scanAll text _ h
  have hinside : c.offset ≤ text.length := by
    have hle := hc.add_length_le hrest
    omega
  obtain ⟨hopens, hend⟩ := hread.endTag_eq hc hinside
  obtain ⟨hstart, stop, d, hplaced⟩ := Scan.endTag_placed hend o
  rw [hstart, ← hc]
  obtain ⟨more, hmore⟩ : ∃ more, c.rest = '<' :: '/' :: more := by
    obtain ⟨more, hmore⟩ := List.isPrefixOf_iff_prefix.mp hopens
    exact ⟨more, hmore.symm⟩
  refine ⟨by rw [hmore]; rfl, stop, ⟨afterTag (depth - 1), depth - 1, d⟩, ?_⟩
  rw [hmore] at hplaced ⊢
  exact step_endTag hplaced

end ScanState

/-! ## What is said by attributes -/

/-- The name and the value that a token says, if it is an attribute. -/
def Token.said? : Token → Option (String × String)
  | .attribute name value _ _ _ => some (name.text, value)
  | _ => none

/-- What is said by the attributes that come first among tokens. -/
def saidFirst : List Token → List (String × String)
  | [] => []
  | t :: more =>
    match t.said? with
    | some said => said :: saidFirst more
    | none => []

namespace Scan

/-- Whether both are tokens, and say the same if they are attributes. -/
def SayAlike (t t' : Option Token) : Prop :=
  ∃ x x', t = some x ∧ t' = some x' ∧ x.said? = x'.said?

lemma matching_tagAttribute : Matching SayAlike tagAttribute tagAttribute :=
  .bind matching_offset fun start start' _ => .andThen matching_qualifiedName fun key =>
    .bind (matching_spanFrom start start') fun nameSpan nameSpan' _ =>
    .andThen matching_equals fun _ => .andThen matching_quote fun mark =>
    .bind matching_offset fun valueStart valueStart' _ => .andThen (matching_content _) fun cs =>
    .bind (matching_spanFrom valueStart valueStart') fun valueSpan valueSpan' _ =>
    .andThen (matching_char mark) fun _ =>
      .bind (matching_spanFrom start start') fun span span' _ =>
    matching_pure ⟨.attribute key (String.ofList cs) nameSpan valueSpan span,
      .attribute key (String.ofList cs) nameSpan' valueSpan' span', rfl, rfl, rfl⟩

lemma matching_tagPartFrom (first : Char) (o o' : Nat) :
    Matching SayAlike (tagPartFrom first o) (tagPartFrom first o') := by
  refine .andThen matching_spaces fun _ => .bind matching_offset fun start start' _ =>
    .andThen matching_peek fun found => ?_
  split
  · exact .andThen (matching_skip 1) fun _ => .andThen (matching_char '>') fun _ =>
      .bind (matching_spanFrom start start') fun span span' _ =>
      matching_pure ⟨.tagSelfClose span, .tagSelfClose span', rfl, rfl, rfl⟩
  · exact .andThen (matching_skip 1) fun _ =>
      .bind (matching_spanFrom start start') fun span span' _ =>
      matching_pure ⟨.tagClose span, .tagClose span', rfl, rfl, rfl⟩
  · exact .ite matching_tagAttribute (matching_stop _ _)

/-- The parts of a tag say the same wherever it stands. -/
lemma outcomes_tagPart {c d : Cursor} (hrest : c.rest ≠ []) (hcd : c.rest = d.rest) :
    Outcomes SayAlike (tagPart c) (tagPart d) := by
  obtain ⟨x, r, hx⟩ := List.exists_cons_of_ne_nil hrest
  rw [tagPart_eq hx, tagPart_eq (hcd ▸ hx)]
  exact matching_tagPartFrom x c.offset d.offset c d hcd

end Scan

namespace ScanState

variable {s s' : ScanState}

/-- What stands next in a tag is an attribute, and the tag goes on, or it is not. -/
lemma step_of_tagPart {x : Token} {c : Cursor} (hmode : s.mode = .insideTag)
    (h : Scan.tagPart s.cursor = .ok (some x, c)) : ∃ s₂, s.step = .ok (some x, s₂) ∧
      (x.said?.isSome → s₂ = s.movedTo c) := by
  have hread : s.read .attribute Scan.tagPart = .ok (some x, s.movedTo c) := read_of_ok .attribute h
  rw [step, hmode]
  dsimp only
  rw [stepInsideTag, hread]
  cases x with
  | «attribute» name value nameSpan valueSpan span => exact ⟨_, rfl, fun _ => rfl⟩
  | _ => exact ⟨_, rfl, by rintro ⟨⟩⟩

lemma step_of_tagPart_error {cause : Cause} (hmode : s.mode = .insideTag)
    (h : Scan.tagPart s.cursor = .error cause) : ∃ fault, s.step = .error fault := by
  rw [step, hmode]
  dsimp only
  rw [stepInsideTag, read, h]
  exact ⟨_, rfl⟩

/-- **The attributes of a tag say the same wherever the rest of it stands.** -/
theorem saidFirst_scan (steps steps' : Nat) (hmode : s.mode = .insideTag)
    (hmode' : s'.mode = .insideTag) (hrest : s.cursor.rest = s'.cursor.rest)
    (hsteps : s.cursor.rest.length ≤ steps) (hsteps' : s.cursor.rest.length ≤ steps') :
    saidFirst (s.scan steps).1 = saidFirst (s'.scan steps').1 := by
  induction steps generalizing s s' steps' with
  | zero =>
      have hnil := List.length_eq_zero_iff.mp (Nat.le_zero.mp hsteps)
      rw [scan_of_rest_nil hnil, scan_of_rest_nil (hrest ▸ hnil)]
  | succ steps ih =>
      by_cases hnil : s.cursor.rest = []
      · rw [scan_of_rest_nil hnil, scan_of_rest_nil (hrest ▸ hnil)]
      · have hnil' : s'.cursor.rest ≠ [] := hrest ▸ hnil
        obtain ⟨steps', rfl⟩ : ∃ k, steps' = k + 1 := by
          have hpos := List.length_pos_of_ne_nil hnil
          exact ⟨steps' - 1, by omega⟩
        rw [scan, scan, if_neg (by rwa [List.isEmpty_iff]), if_neg (by rwa [List.isEmpty_iff])]
        have hparts := Scan.outcomes_tagPart hnil hrest
        generalize hpart : Scan.tagPart s.cursor = outcome at hparts
        generalize hpart' : Scan.tagPart s'.cursor = outcome' at hparts
        cases hparts with
        | error =>
            obtain ⟨fault, hstep⟩ := step_of_tagPart_error hmode hpart
            obtain ⟨fault', hstep'⟩ := step_of_tagPart_error hmode' hpart'
            rw [hstep, hstep']
        | ok related rest =>
            obtain ⟨x, x', rfl, rfl, hsaid⟩ := related
            obtain ⟨s₂, hstep, hmoved⟩ := step_of_tagPart hmode hpart
            obtain ⟨s₂', hstep', hmoved'⟩ := step_of_tagPart hmode' hpart'
            have hless := stepsLeft_step_lt hnil hstep
            rw [hstep, hstep']
            show saidFirst (x :: (s₂.scan steps).1) = saidFirst (x' :: (s₂'.scan steps').1)
            rw [saidFirst, saidFirst, ← hsaid]
            cases hx : x.said? with
            | none => rfl
            | some said =>
                obtain rfl := hmoved (by rw [hx]; rfl)
                obtain rfl := hmoved' (by rw [← hsaid, hx]; rfl)
                rw [stepsLeft, stepsLeft] at hless
                have hshort : (s.movedTo _).cursor.rest.length < s.cursor.rest.length :=
                  Nat.lt_of_add_lt_add_right hless
                exact congrArg (said :: ·) (ih steps' hmode hmode' rest (by omega) (by omega))

end ScanState

end XmlAdvisor
