import XmlAdvisor.Proofs.TokenOrder

/-!
# Tokens are not empty

Every token takes up some of the text.  Most constructs begin with a mark that is there before the
rest of them is looked at, and text is only read where something stands that is no markup.

**Readings.**  Whatever the mode, a step of the scanner reads one construct at its cursor or leaves
no token (`Read`).  What holds of all constructs thus holds of all tokens, and no proof needs to go
through the modes again (`read_of_mem_scanAll`).

* `Scan.Fills` — a scan that gives a token of some length, once it has moved on.
* **`filled_of_mem_scanAll`** — no token of a text is empty.
-/

namespace XmlAdvisor

/-! ## What a step reads -/

/-- What is read between two cursors: one construct, or something that leaves no token. -/
inductive Read (c : Cursor) (t : Option Token) (c' : Cursor) : Prop
  | skipped (none : t = none)
  | comment (read : Scan.comment c = .ok (t, c'))
  | instruction (read : Scan.instruction c = .ok (t, c'))
  | doctype (read : Scan.doctype c = .ok (t, c'))
  | subsetEnd (read : Scan.subsetEnd c = .ok (t, c'))
  | cdata (read : Scan.cdata c = .ok (t, c'))
  | tagOpen (opens : c.startsWith "<" = true) (read : Scan.tagOpen c = .ok (t, c'))
  | tagPart (read : Scan.tagPart c = .ok (t, c'))
  | endTag (opens : c.startsWith "</" = true) (read : Scan.endTag c = .ok (t, c'))
  | text (plain : c.startsWith "<" = false) (read : Scan.text c = .ok (t, c'))

/-- What may come before the document element does not come inside a start tag. -/
lemma Scan.eq_none_of_leads {t : Option Token} (hhead : Leads .head .head t)
    (htag : Leads .tag .tag t) : t = none := by
  cases t with
  | none => rfl
  | some x =>
      obtain ⟨-, hhead⟩ := hhead
      obtain ⟨-, htag⟩ := htag
      cases x <;> cases hhead <;> cases htag

namespace ScanState

variable {text : List Char} {s s' : ScanState} {t : Option Token}

/-- Whether a step reads something at a cursor, if it does not fail. -/
def Reads (c : Cursor) (r : StepResult) : Prop :=
  ∀ t s', r = .ok (t, s') → Read c t s'.cursor

lemma reads_error {c : Cursor} (fault : Fault) : Reads c (.error fault) := by
  rintro _ _ ⟨⟩

lemma reads_none {c : Cursor} (s : ScanState) : Reads c (.ok (none, s)) := by
  rintro _ _ ⟨⟩
  exact .skipped rfl

/-- What is read does not depend on the mode that it leads to. -/
lemma reads_moded {c : Cursor} (h : Read c t s.cursor) (hc : s'.cursor = s.cursor) :
    Reads c (.ok (t, s')) := by
  rintro _ _ ⟨⟩
  rwa [hc]

lemma read_eq_ok {scan : Scan (Option Token)} {what : Construct}
    (h : s.read what scan = .ok (t, s')) : scan s.cursor = .ok (t, s'.cursor) := by
  rw [read] at h
  cases hr : scan s.cursor with
  | error cause =>
      rw [hr] at h
      cases h
  | ok r =>
      rw [hr] at h
      cases h
      rfl

lemma read_reads {scan : Scan (Option Token)} (what : Construct)
    (h : ∀ t c', scan s.cursor = .ok (t, c') → Read s.cursor t c') :
    Reads s.cursor (s.read what scan) :=
  fun t s' hr => h t s'.cursor (read_eq_ok hr)

/-- What a construct without a token covers is skipped. -/
lemma readCovers_reads {scan : Scan (Option Token)} (what : Construct) (h : s.Within text)
    (hscan : ∀ phase, scan.Covers text (Scan.Leads phase phase)) :
    Reads s.cursor (s.read what scan) := by
  refine read_reads what fun t c' hr => .skipped ?_
  obtain ⟨-, -, -, hhead, -⟩ := hscan .head _ t c' h.1 h.2 hr
  obtain ⟨-, -, -, htag, -⟩ := hscan .tag _ t c' h.1 h.2 hr
  exact Scan.eq_none_of_leads hhead htag

lemma misc_reads {other : StepResult} (ho : Reads s.cursor other) :
    Reads s.cursor (s.misc other) := by
  rw [misc]
  split_ifs
  · exact read_reads _ fun _ _ => .comment
  · exact reads_error _
  · exact read_reads _ fun _ _ => .instruction
  · exact reads_none _
  · exact ho

lemma stepProlog_reads : Reads s.cursor s.stepProlog := by
  rw [stepProlog]
  split_ifs
  · have hread : Reads s.cursor (s.read .doctype Scan.doctype) := read_reads _ fun _ _ => .doctype
    split
    · rename_i heq
      exact reads_moded (hread _ _ heq) rfl
    · exact hread
  · exact misc_reads (reads_none _)

lemma stepSubset_reads (h : s.Within text) : Reads s.cursor s.stepSubset := by
  rw [stepSubset, skipDeclaration]
  split_ifs
  · exact readCovers_reads _ h fun _ => Scan.entity_covers
  · exact read_reads (s := s.into .beforeRoot) _ fun _ _ => .subsetEnd
  · exact reads_none _
  · exact reads_error _
  · exact misc_reads (reads_error _)

lemma stepBeforeRoot_reads : Reads s.cursor s.stepBeforeRoot := by
  rw [stepBeforeRoot]
  refine misc_reads ?_
  split_ifs with _ hopens
  · exact reads_error _
  · exact read_reads (s := s.into .insideTag) _ fun _ _ => .tagOpen hopens
  · exact reads_error _

lemma stepContent_reads : Reads s.cursor s.stepContent := by
  rw [stepContent]
  dsimp only
  split_ifs with _ _ _ _ hends hopens
  · exact read_reads _ fun _ _ => .comment
  · exact read_reads _ fun _ _ => .cdata
  · exact reads_error _
  · exact read_reads _ fun _ _ => .instruction
  · exact read_reads (s := { s with depth := s.depth - 1, mode := afterTag (s.depth - 1) }) _
      fun _ _ => .endTag hends
  · exact reads_error _
  · exact read_reads (s := s.into .insideTag) _ fun _ _ => .tagOpen hopens
  · exact read_reads _ fun _ _ => .text (Bool.eq_false_iff.mpr hopens)

lemma stepInsideTag_reads : Reads s.cursor s.stepInsideTag := by
  have hread : Reads s.cursor (s.read .attribute Scan.tagPart) := read_reads _ fun _ _ => .tagPart
  rw [stepInsideTag]
  split
  · rename_i heq
    exact reads_moded (hread _ _ heq) rfl
  · rename_i heq
    exact reads_moded (hread _ _ heq) rfl
  · exact hread

/-- One step of the scanner reads something at its cursor, in every mode. -/
lemma step_reads (h : s.Within text) : Reads s.cursor s.step := by
  rw [step]
  split
  · split_ifs
    · exact readCovers_reads (s := s.into .prolog) _ h fun _ => Scan.declaration_covers
    · exact reads_none _
  · exact stepProlog_reads
  · exact stepSubset_reads h
  · exact stepBeforeRoot_reads
  · exact stepContent_reads
  · exact stepInsideTag_reads
  · exact misc_reads (reads_error _)

lemma read_of_mem_scan (steps : Nat) {s : ScanState} (h : s.Within text) :
    ∀ t ∈ (s.scan steps).1, ∃ c c', c.ReadsFrom text ∧ c.rest ≠ [] ∧ Read c (some t) c' := by
  induction steps generalizing s with
  | zero =>
      intro t ht
      cases ht
  | succ steps ih =>
      rw [scan]
      split_ifs with hrest
      · intro t ht
        cases ht
      · rw [List.isEmpty_iff] at hrest
        cases hstep : s.step with
        | error fault =>
            intro t ht
            cases ht
        | ok r =>
            obtain ⟨token, s'⟩ := r
            intro t ht
            rcases List.mem_append.mp ht with ht | ht
            · rw [Option.mem_toList] at ht
              have hread := step_reads h token s' hstep
              rw [Option.mem_def.mp ht] at hread
              exact ⟨s.cursor, s'.cursor, h.1, hrest, hread⟩
            · exact ih (step_orderly h token s' hstep).2.1 t ht

end ScanState

/-- Every token of a text was read at a cursor with something left to read. -/
theorem read_of_mem_scanAll (text : List Char) : ∀ t ∈ (scanAll text).1,
    ∃ c c', c.ReadsFrom text ∧ c.rest ≠ [] ∧ Read c (some t) c' :=
  ScanState.read_of_mem_scan _ ⟨startCursor_readsFrom text, startCursor_offset_le text⟩

/-- A token is read outside of start tags and does not lead into one, or it opens one, or it is a
part of one. -/
lemma read_cases_of_mem_scanAll (text : List Char) : ∀ t ∈ (scanAll text).1,
    ∃ c c', c.ReadsFrom text ∧ c.offset ≤ text.length ∧
      ((∃ phase phase', phase ≠ .tag ∧ phase' ≠ .tag ∧ t.next? phase = some phase') ∨
        (Scan.tagOpen c = .ok (some t, c') ∧ t.next? .head = some .tag) ∨
        Scan.tagPart c = .ok (some t, c')) := by
  intro t ht
  obtain ⟨c, c', hc, hrest, hread⟩ := read_of_mem_scanAll text t ht
  have hinside : c.offset ≤ text.length := by
    have hle := hc.add_length_le hrest
    omega
  have hnext {scan : Scan (Option Token)} {phase phase' : Phase}
      (hscan : scan.Covers text (Scan.Leads phase phase')) (h : scan c = .ok (some t, c')) :
      t.next? phase = some phase' := by
    obtain ⟨-, -, -, hleads, -⟩ := hscan c (some t) c' hc hinside h
    exact hleads.2
  have hhead : Phase.head ≠ .tag := by decide
  have hbody : Phase.body ≠ .tag := by decide
  refine ⟨c, c', hc, hinside, ?_⟩
  cases hread with
  | skipped h => cases h
  | comment h => exact .inl ⟨_, _, hhead, hhead, hnext (Scan.comment_covers hhead) h⟩
  | instruction h => exact .inl ⟨_, _, hhead, hhead, hnext (Scan.instruction_covers hhead) h⟩
  | doctype h => exact .inl ⟨_, _, hhead, hhead, hnext Scan.doctype_covers h⟩
  | subsetEnd h => exact .inl ⟨_, _, hhead, hhead, hnext Scan.subsetEnd_covers h⟩
  | cdata h => exact .inl ⟨_, _, hbody, hbody, hnext Scan.cdata_covers h⟩
  | endTag _ h => exact .inl ⟨_, _, hbody, hbody, hnext Scan.endTag_covers h⟩
  | text _ h => exact .inl ⟨_, _, hbody, hbody, hnext Scan.text_covers h⟩
  | tagOpen _ h => exact .inr (.inl ⟨h, hnext (Scan.tagOpen_covers hhead) h⟩)
  | tagPart h => exact .inr (.inr h)

/-! ## Tokens of some length -/

namespace Scan

variable {α : Type} {start : Nat}

/-- A scan that does not stop moves on by at least one character. -/
def Moves (m : Scan α) : Prop :=
  ∀ c a c', m c = .ok (a, c') → c.offset < c'.offset

/-- A scan from behind `start` gives a token that is not empty, if it gives one. -/
def Fills (start : Nat) (m : Scan (Option Token)) : Prop :=
  ∀ c t c', start < c.offset → m c = .ok (t, c') → ∀ x ∈ t, x.span.start < x.span.stop

/-- A scan from `start` on gives a token that is not empty, if it gives one. -/
def Begins (start : Nat) (m : Scan (Option Token)) : Prop :=
  ∀ c t c', start ≤ c.offset → m c = .ok (t, c') → ∀ x ∈ t, x.span.start < x.span.stop

/-- A scan gives no empty token. -/
abbrev Filled (m : Scan (Option Token)) : Prop :=
  m.Begins 0

lemma Advances.offset_le {m : Scan α} (hm : m.Advances) {c c' : Cursor} {a : α}
    (h : m c = .ok (a, c')) : c.offset ≤ c'.offset := by
  obtain ⟨⟨n, rfl⟩, -⟩ := hm c a c' h
  exact Nat.le_add_right _ _

lemma skip_moves {n : Nat} (hn : 0 < n) : (skip n).Moves := by
  rintro c _ _ ⟨⟩
  exact Nat.lt_add_of_pos_right hn

lemma quote_moves : quote.Moves := by
  intro c a c' h
  obtain ⟨found, _, hpeek, h⟩ := bind_ok h
  cases hpeek
  cases hrest : c.rest.head? with
  | none =>
      rw [hrest] at h
      cases h
  | some d =>
      rw [hrest] at h
      dsimp only at h
      split_ifs at h
      · obtain ⟨_, _, ⟨⟩, h⟩ := bind_ok h
        cases h
        exact Nat.lt_succ_self _
      · obtain ⟨_, _, ⟨⟩, h⟩ := bind_ok h
        cases h

lemma Fills.andThen {m : Scan α} {f : α → Scan (Option Token)} (hm : m.Advances)
    (hf : ∀ a, (f a).Fills start) : (m >>= f).Fills start := by
  intro c t c'' hlt h
  obtain ⟨a, c', hmc, hfa⟩ := bind_ok h
  exact hf a c' t c'' (Nat.lt_of_lt_of_le hlt (hm.offset_le hmc)) hfa

lemma Fills.guarded {p : Prop} [Decidable p] {cause : Cause} {next : Unit → Scan (Option Token)}
    (h : (next ()).Fills start) : Fills start (if p then stop cause >>= next else next ()) := by
  split_ifs
  · intro c t c' _ hstop
    obtain ⟨_, _, ⟨⟩, _⟩ := bind_ok hstop
  · exact h

/-- A token over the span that has been read. -/
lemma fills_token (token : Span → Token) (hspan : ∀ span, (token span).span = span) :
    Fills start (do return some (token (← spanFrom start))) := by
  intro c t c' hlt h
  obtain ⟨_, _, ⟨⟩, h⟩ := bind_ok h
  cases h
  rintro _ ⟨⟩
  rw [hspan]
  exact hlt

lemma Begins.andThen {m : Scan α} {f : α → Scan (Option Token)} (hm : m.Advances)
    (hf : ∀ a, (f a).Begins start) : (m >>= f).Begins start := by
  intro c t c'' hle h
  obtain ⟨a, c', hmc, hfa⟩ := bind_ok h
  exact hf a c' t c'' (Nat.le_trans hle (hm.offset_le hmc)) hfa

lemma Begins.moved {m : Scan α} {f : α → Scan (Option Token)} (hm : m.Moves)
    (hf : ∀ a, (f a).Fills start) : (m >>= f).Begins start := by
  intro c t c'' hle h
  obtain ⟨a, c', hmc, hfa⟩ := bind_ok h
  exact hf a c' t c'' (Nat.lt_of_le_of_lt hle (hm c a c' hmc)) hfa

/-- A construct that begins where the cursor stands. -/
lemma filled_of_begins {f : Nat → Scan (Option Token)} (hf : ∀ start, (f start).Begins start) :
    Filled (do f (← offset)) := by
  intro c t c' _ h
  obtain ⟨_, _, ⟨⟩, h⟩ := bind_ok h
  exact hf c.offset c t c' (Nat.le_refl _) h

/-! ### Constructs -/

lemma comment_filled : comment.Filled :=
  filled_of_begins fun _ => .moved (skip_moves (by decide)) fun _ => .andThen (content_advances _)
    fun _ => .andThen (literal_advances _) fun _ =>
    .guarded (.guarded (fills_token _ fun _ => rfl))

lemma instruction_filled : instruction.Filled :=
  filled_of_begins fun _ => .moved (skip_moves (by decide)) fun _ => .andThen name_advances
    fun _ => .andThen spaces_advances fun _ => .andThen (content_advances _) fun _ =>
    .andThen (literal_advances _) fun _ => fills_token _ fun _ => rfl

lemma doctype_filled : doctype.Filled := by
  refine filled_of_begins fun start => .moved (skip_moves (by decide)) fun _ =>
    .andThen someSpaces_advances fun _ => .andThen name_advances fun _ =>
    .andThen spaces_advances fun _ => .andThen externalId_advances fun _ =>
    .andThen spaces_advances fun _ => .andThen peek_advances fun d => ?_
  cases d with
  | none => rintro c t c' - ⟨⟩
  | some d =>
      dsimp only
      split_ifs
      · exact .andThen (skip_advances 1) fun _ => fills_token _ fun _ => rfl
      · rintro c t c' - h
        obtain ⟨_, _, ⟨⟩, h⟩ := bind_ok h
        cases h

lemma subsetEnd_filled : subsetEnd.Filled :=
  filled_of_begins fun _ => .moved (skip_moves (by decide)) fun _ => .andThen spaces_advances
    fun _ => .andThen (char_advances _) fun _ => fills_token _ fun _ => rfl

lemma cdata_filled : cdata.Filled :=
  filled_of_begins fun _ => .moved (skip_moves (by decide)) fun _ => .andThen (content_advances _)
    fun _ => .andThen (literal_advances _) fun _ => fills_token _ fun _ => rfl

lemma tagOpen_filled : tagOpen.Filled :=
  filled_of_begins fun _ => .moved (skip_moves (by decide)) fun _ =>
    .andThen qualifiedName_advances fun _ => fills_token _ fun _ => rfl

lemma endTag_filled : endTag.Filled :=
  filled_of_begins fun _ => .moved (skip_moves (by decide)) fun _ =>
    .andThen qualifiedName_advances fun _ => .andThen spaces_advances fun _ =>
    .andThen (char_advances _) fun _ => fills_token _ fun _ => rfl

/-- The value of an attribute begins with a quotation mark. -/
lemma tagAttribute_filled : tagAttribute.Filled :=
  filled_of_begins fun start => .andThen qualifiedName_advances fun _ =>
    .andThen (spanFrom_advances start) fun _ => .andThen equals_advances fun _ =>
    .moved quote_moves fun mark => .andThen offset_advances fun valueStart =>
    .andThen (content_advances _) fun _ => .andThen (spanFrom_advances valueStart) fun _ =>
    .andThen (char_advances mark) fun _ => fills_token _ fun _ => rfl

lemma tagPart_filled : tagPart.Filled := by
  refine .andThen get_advances fun before => .andThen spaces_advances fun _ => ?_
  intro c t c' _ h
  obtain ⟨start, _, ⟨⟩, h⟩ := bind_ok h
  obtain ⟨found, _, ⟨⟩, h⟩ := bind_ok h
  generalize c.rest.head? = found at h
  split at h
  · have hself : Begins c.offset _ := .moved (skip_moves Nat.one_pos) fun _ =>
      .andThen (char_advances '>') fun _ => fills_token .tagSelfClose fun _ => rfl
    exact hself c t c' (Nat.le_refl _) h
  · have hclose : Begins c.offset _ := .moved (skip_moves Nat.one_pos) fun _ =>
      fills_token .tagClose fun _ => rfl
    exact hclose c t c' (Nat.le_refl _) h
  · generalize before.rest = blanks at h
    split at h
    · cases h
    · split_ifs at h
      · exact tagAttribute_filled c t c' (Nat.zero_le _) h
      · cases h

/-- Text has at least the character at which it is looked for. -/
lemma content_moves {c c' : Cursor} {cs : List Char} (hrest : c.rest ≠ [])
    (hplain : c.startsWith "<" = false) (h : content ("<".toList.isPrefixOf ·) c = .ok (cs, c')) :
    c.offset < c'.offset := by
  obtain ⟨_, _, ⟨⟩, h⟩ := bind_ok h
  obtain ⟨read, _, hread, h⟩ := bind_ok h
  obtain ⟨d, rest, hd⟩ := List.exists_cons_of_ne_nil hrest
  rw [Cursor.startsWith, hd] at hplain
  rw [hd, contentUntil] at hread
  simp only [hplain, Bool.false_eq_true, if_false] at hread
  split_ifs at hread
  · cases hread
  · cases hmore : contentUntil ("<".toList.isPrefixOf ·) (c.offset + 1) rest with
    | error cause =>
        rw [hmore] at hread
        cases hread
    | ok more =>
        rw [hmore] at hread
        cases hread
        cases h
        simp [Cursor.advance]

lemma text_filled {c c' : Cursor} {t : Option Token} (hrest : c.rest ≠ [])
    (hplain : c.startsWith "<" = false) (h : Scan.text c = .ok (t, c')) :
    ∀ x ∈ t, x.span.start < x.span.stop := by
  obtain ⟨start, _, ⟨⟩, h⟩ := bind_ok h
  obtain ⟨cs, c₁, hcontent, h⟩ := bind_ok h
  have hmove := content_moves hrest hplain hcontent
  exact Fills.guarded (fills_token _ fun _ => rfl) c₁ t c' hmove h

end Scan

/-- **No token of a text is empty.** -/
theorem filled_of_mem_scanAll (text : List Char) : ∀ t ∈ (scanAll text).1,
    t.span.start < t.span.stop := by
  intro t ht
  obtain ⟨c, c', -, hrest, hread⟩ := read_of_mem_scanAll text t ht
  have hfilled {m : Scan (Option Token)} (hm : m.Filled) (h : m c = .ok (some t, c')) :
      t.span.start < t.span.stop :=
    hm c (some t) c' (Nat.zero_le _) h t rfl
  cases hread with
  | skipped h => cases h
  | comment h => exact hfilled Scan.comment_filled h
  | instruction h => exact hfilled Scan.instruction_filled h
  | doctype h => exact hfilled Scan.doctype_filled h
  | subsetEnd h => exact hfilled Scan.subsetEnd_filled h
  | cdata h => exact hfilled Scan.cdata_filled h
  | tagOpen _ h => exact hfilled Scan.tagOpen_filled h
  | tagPart h => exact hfilled Scan.tagPart_filled h
  | endTag _ h => exact hfilled Scan.endTag_filled h
  | text hplain h => exact Scan.text_filled hrest hplain h t rfl

end XmlAdvisor
