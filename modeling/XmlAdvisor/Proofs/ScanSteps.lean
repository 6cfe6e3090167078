import XmlAdvisor.Proofs.ScanPrefixes
import XmlAdvisor.Proofs.TagPlaces

/-!
# Steps and runs of a scan

Each step of the scanner reads something, or makes one of the two changes of mode at the start of a
text, so the steps that are left become fewer.  All that a scan has read is therefore read by a run.

* **`ScanState.stepsLeft_step_lt`** — a step leaves fewer steps.
* **`ScanState.exists_runsTo_of_scan`** — the run up to a token of a scan.
* **`ScanState.RunsTo.alike`** — a run that ends in front of a bound is the same in every text that
  begins alike.
* `ScanState.start_agrees` — texts that begin alike are begun alike.
-/

namespace XmlAdvisor

namespace Scan

variable {α β : Type}

/-! ## Scans that move on -/

lemma Moves.first {m : Scan α} {f : α → Scan β} (hm : m.Moves) (hf : ∀ a, (f a).Advances) :
    (m >>= f).Moves := by
  intro c b c'' h
  obtain ⟨a, c', hmc, hfa⟩ := bind_ok h
  exact Nat.lt_of_lt_of_le (hm c a c' hmc) ((hf a).offset_le hfa)

lemma Moves.later {m : Scan α} {f : α → Scan β} (hm : m.Advances) (hf : ∀ a, (f a).Moves) :
    (m >>= f).Moves := by
  intro c b c'' h
  obtain ⟨a, c', hmc, hfa⟩ := bind_ok h
  exact Nat.lt_of_le_of_lt (hm.offset_le hmc) (hf a c' b c'' hfa)

lemma token_advances (token : Span → Token) (start : Nat) :
    (do return some (token (← spanFrom start)) : Scan (Option Token)).Advances :=
  .andThen (spanFrom_advances start) fun _ => .pure trivial

/-- A construct that begins with a mark that is skipped. -/
lemma mark_moves {n : Nat} (hn : 0 < n) {f : Nat → Scan (Option Token)}
    (hf : ∀ start, (f start).Advances) :
    (do let start ← offset; skip n; f start : Scan (Option Token)).Moves :=
  .later offset_advances fun start => .first (skip_moves hn) fun _ => hf start

lemma comment_moves : comment.Moves :=
  mark_moves (by decide) fun start => .andThen (content_advances _) fun _ =>
    .andThen (literal_advances _) fun _ => .guarded (.guarded (token_advances (.comment _) start))

lemma instruction_moves : instruction.Moves :=
  mark_moves (by decide) fun start => .andThen name_advances fun target =>
    .andThen spaces_advances fun _ => .andThen (content_advances _) fun _ =>
    .andThen (literal_advances _) fun _ => token_advances (.instruction target _) start

lemma subsetEnd_moves : subsetEnd.Moves :=
  mark_moves (by decide) fun start => .andThen spaces_advances fun _ =>
    .andThen (char_advances _) fun _ => token_advances .subsetEnd start

lemma cdata_moves : cdata.Moves :=
  mark_moves (by decide) fun start => .andThen (content_advances _) fun _ =>
    .andThen (literal_advances _) fun _ => token_advances (.cdata _) start

lemma tagOpen_moves : tagOpen.Moves :=
  mark_moves (by decide) fun start => .andThen qualifiedName_advances fun tag =>
    token_advances (.tagOpen tag) start

lemma endTag_moves : endTag.Moves :=
  mark_moves (by decide) fun start => .andThen qualifiedName_advances fun tag =>
    .andThen spaces_advances fun _ => .andThen (char_advances _) fun _ =>
      token_advances (.endTag tag) start

lemma doctype_moves : doctype.Moves := by
  refine mark_moves (by decide) fun start => .andThen someSpaces_advances fun _ =>
    .andThen name_advances fun rootName => .andThen spaces_advances fun _ =>
    .andThen externalId_advances fun external => .andThen spaces_advances fun _ =>
    .andThen peek_advances fun d => ?_
  cases d with
  | none => exact yields_stop
  | some c =>
      refine .ite ?_ (.andThen offset_advances fun _ => yields_stop)
      exact .andThen (skip_advances 1) fun _ => token_advances (.doctype rootName external _) start

lemma entity_moves : entity.Moves := by
  have value (isGeneral : Bool) : (do
      let _ ← name
      someSpaces
      entityValue isGeneral
      spaces
      char '>'
      return none : Scan (Option Token)).Advances :=
    .andThen name_advances fun _ => .andThen someSpaces_advances fun _ =>
      .andThen (entityValue_advances isGeneral) fun _ => .andThen spaces_advances fun _ =>
      .andThen (char_advances _) fun _ => .pure trivial
  refine .first (skip_moves (by decide)) fun _ => .andThen someSpaces_advances fun _ =>
    .andThen peek_advances fun d => .ite ?_ (value _)
  exact .andThen (skip_advances _) fun _ => .andThen someSpaces_advances fun _ => value _

lemma tagAttribute_moves : tagAttribute.Moves :=
  .later offset_advances fun start => .later qualifiedName_advances fun key =>
    .later (spanFrom_advances start) fun nameSpan => .later equals_advances fun _ =>
    .first quote_moves fun mark => .andThen offset_advances fun valueStart =>
    .andThen (content_advances _) fun _ => .andThen (spanFrom_advances valueStart) fun valueSpan =>
    .andThen (char_advances mark) fun _ =>
      token_advances (.attribute key _ nameSpan valueSpan) start

lemma tagPartFrom_moves (first : Char) (o : Nat) : (tagPartFrom first o).Moves := by
  refine .later spaces_advances fun _ => .later offset_advances fun start =>
    .later peek_advances fun d => ?_
  split
  · exact .first (skip_moves Nat.one_pos) fun _ => .andThen (char_advances _) fun _ =>
      token_advances .tagSelfClose start
  · exact .first (skip_moves Nat.one_pos) fun _ => token_advances .tagClose start
  · split_ifs
    · exact tagAttribute_moves
    · rintro c a c' ⟨⟩

/-- A scan that moves on leaves less to be read. -/
lemma Moves.length_lt {m : Scan α} (h : m.Moves) (hm : m.Advances) {c c' : Cursor} {a : α}
    (hrest : c.rest ≠ []) (hmc : m c = .ok (a, c')) : c'.rest.length < c.rest.length := by
  have hlt := h c a c' hmc
  obtain ⟨⟨n, rfl⟩, -⟩ := hm c a c' hmc
  have hpos := List.length_pos_of_ne_nil hrest
  simp only [Cursor.advance, List.length_drop] at hlt ⊢
  omega

lemma text_length_lt {c c' : Cursor} {t : Option Token} (hrest : c.rest ≠ [])
    (hplain : c.startsWith "<" = false) (h : Scan.text c = .ok (t, c')) :
    c'.rest.length < c.rest.length := by
  obtain ⟨⟨n, rfl⟩, -⟩ := text_closed c t c' h
  obtain ⟨start, _, ⟨⟩, h⟩ := bind_ok h
  obtain ⟨cs, c₁, hcontent, h⟩ := bind_ok h
  have hlater : (if occursIn "]]>".toList cs then stop .sectionEndInText
      else pure () >>= fun _ => (do return some (.text (String.ofList cs) (← spanFrom c.offset))) :
        Scan (Option Token)).Advances :=
          .ite yields_stop (.andThen (.pure trivial) fun _ => token_advances (.text _) _)
  have hmove := Nat.lt_of_lt_of_le (content_moves hrest hplain hcontent) (hlater.offset_le h)
  have hpos := List.length_pos_of_ne_nil hrest
  simp only [Cursor.advance, List.length_drop] at hmove ⊢
  omega

end Scan

/-! ## Steps -/

namespace ScanState

variable {s s' : ScanState} {t : Option Token}

/-- Whether a step leaves fewer steps than there were. -/
def Lowers (steps : Nat) (r : StepResult) : Prop :=
  ∀ t s', r = .ok (t, s') → s'.stepsLeft < steps

lemma lowers_error {steps : Nat} {fault : Fault} : Lowers steps (.error fault) := by
  rintro _ _ ⟨⟩

/-- A construct that is read leaves less of the text, in a mode with no more changes left. -/
lemma read_lowers {scan : Scan (Option Token)} {what : Construct} {s₀ : ScanState}
    (hscan : scan.Advances) (hmoves : scan.Moves) (hrest : s₀.cursor.rest ≠ [])
    (hcursor : s.cursor = s₀.cursor) (hmode : changesLeft s.mode ≤ changesLeft s₀.mode) :
    Lowers s₀.stepsLeft (s.read what scan) := by
  rw [read, hcursor]
  cases hread : scan s₀.cursor with
  | error cause => exact lowers_error
  | ok r =>
      rintro _ _ ⟨⟩
      exact Nat.add_lt_add_of_lt_of_le (hmoves.length_lt hscan hrest hread) hmode

lemma lowers_advance {n : Nat} (hn : 0 < n) (hrest : s.cursor.rest ≠ []) :
    Lowers s.stepsLeft (.ok (none, s.movedTo (s.cursor.advance n))) := by
  rintro _ _ ⟨⟩
  have hpos := List.length_pos_of_ne_nil hrest
  simp only [stepsLeft, movedTo, Cursor.advance, List.length_drop]
  omega

lemma misc_lowers {other : StepResult} (hrest : s.cursor.rest ≠ [])
    (ho : Lowers s.stepsLeft other) :
    Lowers s.stepsLeft (s.misc other) := by
  rw [misc]
  split_ifs with _ _ _ hspace
  · exact read_lowers Scan.comment_closed.advances Scan.comment_moves hrest rfl (Nat.le_refl _)
  · exact lowers_error
  · exact read_lowers Scan.instruction_closed.advances Scan.instruction_moves hrest rfl
      (Nat.le_refl _)
  · obtain ⟨c, cs, hc⟩ := List.exists_cons_of_ne_nil hrest
    refine lowers_advance ?_ hrest
    rw [hc] at hspace ⊢
    rw [List.takeWhile_cons_of_pos (by exact hspace)]
    exact Nat.succ_pos _
  · exact ho

lemma stepProlog_lowers (hmode : s.mode = .prolog) (hrest : s.cursor.rest ≠ []) :
    Lowers s.stepsLeft s.stepProlog := by
  rw [stepProlog]
  split_ifs
  · have hread : Lowers s.stepsLeft (s.read .doctype Scan.doctype) :=
      read_lowers Scan.doctype_closed.advances Scan.doctype_moves hrest rfl (Nat.le_refl _)
    split
    · rename_i subset span s' heq
      have hlower := hread _ _ heq
      rintro _ _ ⟨⟩
      refine Nat.lt_of_le_of_lt (Nat.add_le_add_left ?_ _) hlower
      have hnone : changesLeft (if subset then Mode.subset else .beforeRoot) = 0 := by
        split_ifs <;> rfl
      rw [into, hnone]
      exact Nat.zero_le _
    · exact hread
  · refine misc_lowers hrest ?_
    rintro _ _ ⟨⟩
    rw [stepsLeft, stepsLeft, hmode]
    exact Nat.lt_succ_self _

lemma stepSubset_lowers (hrest : s.cursor.rest ≠ []) : Lowers s.stepsLeft s.stepSubset := by
  rw [stepSubset]
  split_ifs
  · exact read_lowers Scan.entity_closed.advances Scan.entity_moves hrest rfl (Nat.le_refl _)
  · exact read_lowers Scan.subsetEnd_closed.advances Scan.subsetEnd_moves hrest rfl (Nat.zero_le _)
  · rw [skipDeclaration]
    split_ifs
    · exact lowers_advance (Nat.succ_pos _) hrest
    · exact lowers_error
  · exact misc_lowers hrest lowers_error

lemma stepBeforeRoot_lowers (hrest : s.cursor.rest ≠ []) : Lowers s.stepsLeft s.stepBeforeRoot := by
  rw [stepBeforeRoot]
  refine misc_lowers hrest ?_
  split_ifs
  · exact lowers_error
  · exact read_lowers Scan.tagOpen_advances Scan.tagOpen_moves hrest rfl (Nat.zero_le _)
  · exact lowers_error

lemma changesLeft_afterTag (depth : Nat) : changesLeft (afterTag depth) = 0 := by
  rw [afterTag]
  split_ifs <;> rfl

lemma stepContent_lowers (hrest : s.cursor.rest ≠ []) : Lowers s.stepsLeft s.stepContent := by
  rw [stepContent]
  dsimp only
  split_ifs with _ _ _ _ _ hplain
  · exact read_lowers Scan.comment_closed.advances Scan.comment_moves hrest rfl (Nat.le_refl _)
  · exact read_lowers Scan.cdata_closed.advances Scan.cdata_moves hrest rfl (Nat.le_refl _)
  · exact lowers_error
  · exact read_lowers Scan.instruction_closed.advances Scan.instruction_moves hrest rfl
      (Nat.le_refl _)
  · exact read_lowers Scan.endTag_closed.advances Scan.endTag_moves hrest rfl
      (by rw [changesLeft_afterTag]; exact Nat.zero_le _)
  · exact lowers_error
  · exact read_lowers Scan.tagOpen_advances Scan.tagOpen_moves hrest rfl (Nat.zero_le _)
  · rw [read]
    cases hread : Scan.text s.cursor with
    | error cause => exact lowers_error
    | ok r =>
        rintro _ _ ⟨⟩
        exact Nat.add_lt_add_right
          (Scan.text_length_lt hrest (Bool.eq_false_iff.mpr hplain) hread) _

lemma stepInsideTag_lowers (hrest : s.cursor.rest ≠ []) : Lowers s.stepsLeft s.stepInsideTag := by
  have hread : Lowers s.stepsLeft (s.read .attribute Scan.tagPart) := by
    obtain ⟨x, r, hx⟩ := List.exists_cons_of_ne_nil hrest
    have hsame : s.read .attribute Scan.tagPart = s.read .attribute
        (Scan.tagPartFrom x s.cursor.offset) := by
      rw [read, read, Scan.tagPart_eq hx]
    have hlocal : (Scan.tagPartFrom x s.cursor.offset).Local [] [] [] := Scan.tagPartFrom_local x _
    rw [hsame]
    exact read_lowers hlocal.advances (Scan.tagPartFrom_moves x _) hrest rfl (Nat.le_refl _)
  rw [stepInsideTag]
  split
  · rename_i heq
    have hlower := hread _ _ heq
    rintro _ _ ⟨⟩
    exact Nat.lt_of_le_of_lt (Nat.add_le_add_left (Nat.zero_le _) _) hlower
  · rename_i heq
    have hlower := hread _ _ heq
    rintro _ _ ⟨⟩
    refine Nat.lt_of_le_of_lt (Nat.add_le_add_left ?_ _) hlower
    rw [into, changesLeft_afterTag]
    exact Nat.zero_le _
  · exact hread

/-- **Each step leaves fewer steps.** -/
theorem stepsLeft_step_lt (hrest : s.cursor.rest ≠ []) (h : s.step = .ok (t, s')) :
    s'.stepsLeft < s.stepsLeft := by
  suffices Lowers s.stepsLeft s.step from this t s' h
  rw [step]
  split
  · rename_i hmode
    have hless : changesLeft .prolog < changesLeft s.mode := by
      rw [hmode]
      exact Nat.lt_succ_self _
    split_ifs
    · rw [read]
      cases hread : Scan.declaration s.cursor with
      | error cause =>
          rw [show (s.into .prolog).cursor = s.cursor from rfl, hread]
          exact lowers_error
      | ok r =>
          rw [show (s.into .prolog).cursor = s.cursor from rfl, hread]
          rintro _ _ ⟨⟩
          exact Nat.add_lt_add_of_le_of_lt
            (Scan.length_rest_le Scan.declaration_closed.advances hread) hless
    · rintro _ _ ⟨⟩
      exact Nat.add_lt_add_left hless _
  · rename_i hmode
    exact stepProlog_lowers hmode hrest
  · exact stepSubset_lowers hrest
  · exact stepBeforeRoot_lowers hrest
  · exact stepContent_lowers hrest
  · exact stepInsideTag_lowers hrest
  · exact misc_lowers hrest lowers_error

/-! ## Runs -/

/-- A scan reads a token by a step, and what is before it by a run. -/
theorem exists_runsTo_of_scan (steps : Nat) {before after : List Token} {x : Token}
    (h : (s.scan steps).1 = before ++ x :: after) :
    ∃ s₁ s₂ steps', s.RunsTo before s₁ ∧ s₁.cursor.rest ≠ [] ∧ s₁.step = .ok (some x, s₂) ∧
      (s₂.scan steps').1 = after := by
  induction steps generalizing s before with
  | zero =>
      rw [scan] at h
      cases before <;> cases h
  | succ steps ih =>
      rw [scan] at h
      split_ifs at h with hrest
      · cases before <;> cases h
      · rw [List.isEmpty_iff] at hrest
        cases hstep : s.step with
        | error fault =>
            rw [hstep] at h
            cases before <;> cases h
        | ok r =>
            obtain ⟨token, s'⟩ := r
            rw [hstep] at h
            dsimp only at h
            have hless := stepsLeft_step_lt hrest hstep
            cases token with
            | none =>
                obtain ⟨s₁, s₂, steps', hruns, hmore⟩ := ih h
                exact ⟨s₁, s₂, steps', .step hrest hstep hless hruns, hmore⟩
            | some y =>
                cases before with
                | nil =>
                    rw [Option.toList_some, List.singleton_append, List.nil_append] at h
                    cases h
                    exact ⟨s, s', steps, .refl s, hrest, hstep, rfl⟩
                | cons z before =>
                    rw [Option.toList_some, List.singleton_append, List.cons_append] at h
                    obtain ⟨rfl, htail⟩ := List.cons.inj h
                    obtain ⟨s₁, s₂, steps', hruns, hmore⟩ := ih htail
                    exact ⟨s₁, s₂, steps', .step hrest hstep hless hruns, hmore⟩

variable {text : List Char} {tokens : List Token} {bound X Y : List Char} {d : Cursor}

lemma Within.length_rest (h : s.Within text) :
    s.cursor.rest.length = text.length - s.cursor.offset := by
  rw [h.1, List.length_drop]

lemma RunsTo.within (h : s.RunsTo tokens s') (hs : s.Within text) :
    s'.Within text ∧ s'.cursor.rest.length ≤ s.cursor.rest.length := by
  induction h with
  | refl s => exact ⟨hs, Nat.le_refl _⟩
  | step hrest hstep hless more ih =>
      obtain ⟨hmove, hin, -, -⟩ := step_orderly hs _ _ hstep
      obtain ⟨hwithin, hle⟩ := ih hin
      refine ⟨hwithin, Nat.le_trans hle ?_⟩
      rw [hin.length_rest, hs.length_rest]
      exact Nat.sub_le_sub_left hmove _

/-- **A run that ends in front of the bound is the same in both texts.** -/
theorem RunsTo.alike (h : s.RunsTo tokens s') (hs : s.Within text)
    (hcd : s.cursor.Agrees bound X Y d)
    (hrest : X.length + bound.length ≤ s'.cursor.rest.length) :
    ∃ d', (s.movedTo d).RunsTo tokens (s'.movedTo d') ∧ s'.cursor.Agrees bound X Y d' := by
  induction h generalizing d with
  | refl s => exact ⟨d, .refl _, hcd⟩
  | step hne hstep hless more ih =>
      obtain ⟨-, hin, -, -⟩ := step_orderly hs _ _ hstep
      have hle := (more.within hin).2
      obtain ⟨d₁, hstep', hagrees⟩ := step_alike hcd _ _ hstep (Nat.le_trans hrest hle)
      obtain ⟨d', hruns, hagrees⟩ := ih hin hagrees hrest
      have hne' : d.rest ≠ [] := by
        obtain ⟨x, r, r', -, hd⟩ := hcd.exists_cons
        rw [hd]
        exact List.cons_ne_nil x r'
      exact ⟨d', .step hne' hstep' (stepsLeft_step_lt hne' hstep') hruns, hagrees⟩

/-! ## The beginning of a text -/

/-- The state in which a scan begins. -/
def start (text : List Char) : ScanState :=
  ⟨.declaration, 0, startCursor text⟩

lemma start_within (text : List Char) : (start text).Within text :=
  ⟨startCursor_readsFrom text, startCursor_offset_le text⟩

/-- A scan of a text has steps enough. -/
lemma stepsLeft_start_le (text : List Char) : (start text).stepsLeft ≤ text.length + 3 := by
  have hrest := (start_within text).length_rest
  have hchanges : changesLeft (start text).mode = 2 := rfl
  rw [stepsLeft]
  omega

/-- Texts that begin alike up to a bound are begun alike. -/
lemma start_agrees (hbound : IsBound bound) {before : List Char} (h : bound <:+ before)
    (X Y : List Char) : (startCursor (before ++ X)).Agrees bound X Y
    (startCursor (before ++ Y)) := by
  cases before with
  | nil =>
      have hpos := hbound.length_pos
      rw [List.suffix_nil.mp h] at hpos
      cases hpos
  | cons c before =>
      by_cases hc : c = '\ufeff'
      · subst hc
        refine ⟨before, hbound, ?_, rfl, rfl⟩
        -- no bound begins with a byte order mark
        rcases List.suffix_cons_iff.mp h with heq | h
        · cases hbound with
          | mark hmark =>
              cases heq
              cases hmark
          | opening => cases heq
        · exact h
      · have hstart (behind : List Char) :
            startCursor (c :: before ++ behind) = ⟨0, c :: before ++ behind⟩ := by
          rw [startCursor.eq_def]
          split
          · rename_i heq
            exact absurd (List.cons.inj heq).1 hc
          · rfl
        rw [hstart, hstart]
        exact ⟨c :: before, hbound, h, rfl, rfl⟩

end ScanState

end XmlAdvisor
